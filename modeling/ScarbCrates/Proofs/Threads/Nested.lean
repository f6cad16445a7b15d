import ScarbCrates.Proofs.Query.History
import ScarbCrates.Proofs.Threads.Records

/-!
# Results within results

A computation that obtains a result adopts its files, and where it had a digest for a file already,
that digest stays.  So when its own result is used again the nested ones are all tracked, and all
their files have been looked at; but they are compared with what the outer computation had seen.  A
nested result has still got its inputs exactly if it had seen the same.

* `Inherits` — the results that a computation has inherited, at any depth.
* `Entry.Valid` — a tracked result whose files have their digests.
* `Pool.valid_iff_of_hit` — which nested results are valid when a result is used again.
-/

namespace ScarbCrates

variable {κ σ V : Type}

/-- A result that a computation has inherited, by itself or with another one. -/
inductive Inherits (log : List (Job κ V × Entry V)) (j : Job κ V) : Entry V → Prop
  | direct {n : Entry V} (h : .nested n ∈ j.reports) : Inherits log j n
  | deeper {n n' : Entry V} {j' : Job κ V} (h : Inherits log j n) (hlog : (j', n) ∈ log)
      (hn : .nested n' ∈ j'.reports) : Inherits log j n'

/-- **A valid result:** nothing untracked has gone into it, and the files are as they were. -/
def Entry.Valid (e : Entry V) (d : Disk) : Prop := e.untracked = false ∧ e.digests.Holds d

namespace Shared

variable {S : Shared κ σ V} {j : Job κ V} {e n : Entry V}

/-- An inherited result that is on record hands on its files, and whether it is untracked. -/
lemma Recorded.of_nested (h : S.Recorded) (hj : (j, e) ∈ S.log) (hn : .nested n ∈ j.reports) :
    (∃ j', (j', n) ∈ S.log) ∧ (n.untracked = true → e.untracked = true) ∧
      ∀ p ∈ n.digests.files, p ∈ e.digests.files := by
  obtain ⟨hrec, hfrom, -⟩ := h.log _ hj
  refine ⟨hrec.nested n hn, fun hu => ?_, fun p hp => ?_⟩
  · rw [hfrom.untracked]
    exact Job.untracked_frame_iff.2 ⟨_, hn, hu⟩
  · rw [hfrom.digests]
    exact Job.mem_files_of_nested hn hp

/-- And so does every result that is inherited at any depth. -/
lemma Recorded.of_inherits (h : S.Recorded) (hj : (j, e) ∈ S.log) (hn : Inherits S.log j n) :
    (n.untracked = true → e.untracked = true) ∧ ∀ p ∈ n.digests.files, p ∈ e.digests.files := by
  induction hn with
  | direct hn => exact (h.of_nested hj hn).2
  | deeper _ hlog hn ih =>
      obtain ⟨-, hu, hfiles⟩ := h.of_nested hlog hn
      exact ⟨fun h => ih.1 (hu h), fun p hp => ih.2 p (hfiles p hp)⟩

end Shared

/-- A table about files of another table that the disk has: it has this one too exactly if this one
is part of the other. -/
lemma Digests.holds_iff_subset {d : Disk} {ds other : Digests} (h : other.Holds d)
    (hfiles : ∀ p ∈ ds.files, p ∈ other.files) : ds.Holds d ↔ ds ⊆ other := by
  constructor
  · intro hds x hx
    obtain ⟨y, hy, hyx⟩ := List.mem_map.1 (hfiles x.1 (List.mem_map_of_mem hx))
    have hsame : y = x := by
      have hv := h y hy
      rw [hyx, hds x hx, Except.ok.injEq] at hv
      exact Prod.ext hyx hv.symm
    exact hsame ▸ hy
  · exact fun hsub x hx => h x (hsub hx)

variable [DecidableEq κ]

/-- What a hit has found. -/
lemma Turn.of_hit {S S' : Shared κ σ V} {t t' : Thread κ V} (h : Turn S t .hit S' t') :
    ∃ q seen l e js, t = ⟨.inside q seen l, js⟩ ∧ t' = ⟨.leaving q l (some e), js⟩ ∧
      S.cache.entry? q = some e ∧ (e.isFresh S.world.disk).run.value = .ok true := by
  cases h with
  | hit he hgen hfresh => exact ⟨_, _, _, _, _, rfl, rfl, he, hfresh⟩

namespace Pool

variable {P P' : Pool κ σ V} {i : Nat}

/-- **When a result is used again** every result that has gone into it, at any depth, is tracked,
and each of its files has been looked at and has the digest that the outer result has for it.  So
the inner result is valid exactly if the outer one has all its digests. -/
theorem valid_iff_of_hit (h : P.Reachable) (hs : P.Step i .hit P') {q : Question κ} {l : Nat}
    {e : Entry V} (he : (P'.threads i).phase = .leaving q l (some e))
    (hc : e.NoCollision P.shared.world.disk) :
    P.shared.cache.entry? q = some e ∧ e.Valid P.shared.world.disk ∧
      (∃ j, (j, e) ∈ P.shared.log ∧ j.question = q) ∧
      ∀ j n, (j, e) ∈ P.shared.log → Inherits P.shared.log j n →
        (n.Valid P.shared.world.disk ↔ n.digests ⊆ e.digests) ∧ n.untracked = false ∧
          ∀ p ∈ n.digests.files, ∃ digest, (p, digest) ∈ e.digests ∧
            (Digests.ofFile P.shared.world.disk p).run.value = .ok digest := by
  obtain ⟨q', seen, l', e', js, -, ht', hentry, hfresh⟩ := hs.toTurn.of_hit
  rw [ht'] at he
  cases he
  have hrec := h.recorded.shared
  have hmem := Assoc.mem_of_get? hentry
  obtain ⟨hu, hholds⟩ := Entry.holds_of_isFresh (hrec.sealed hmem) hc hfresh
  refine ⟨hentry, ⟨hu, hholds⟩, hrec.entries _ hmem, fun j n hj hn => ?_⟩
  obtain ⟨hun, hfiles⟩ := hrec.of_inherits hj hn
  have hn : n.untracked = false := by
    rw [← Bool.not_eq_true] at hu ⊢
    exact mt hun hu
  refine ⟨?_, hn, fun p hp => ?_⟩
  · rw [Entry.Valid, Digests.holds_iff_subset hholds hfiles]
    exact and_iff_right hn
  · obtain ⟨x, hx, rfl⟩ := List.mem_map.1 (hfiles p hp)
    exact ⟨x.2, hx, hholds x hx⟩

end Pool

/-! ## A file that changes and changes back -/

/-- The file that the computations of the example look at. -/
def samplePath : Path := ⟨.single, [sampleName]⟩

lemma exists_fingerprint_samplePath (digest : Option String) :
    ∃ text, Digests.fingerprint [(samplePath, digest)] = .ok text := by
  have hd : (Digests.files [(samplePath, digest)]).Nodup := List.nodup_singleton samplePath
  refine (Digests.exists_fingerprint_iff hd).2 fun p hp => ?_
  rw [List.mem_singleton.1 hp]
  exact ⟨_, rfl⟩

/-- An outer computation has seen the file missing, an inner one has seen it written, and the file
is gone again: the outer result is used, and the inner one is not valid. -/
theorem Pool.not_valid_after_hit :
    ∃ (P P' : Pool Bool Unit Nat) (j : Job Bool Nat) (e n : Entry Nat), P.Reachable ∧
      P.Step 0 .hit P' ∧ (P'.threads 0).phase = .leaving ⟨"q", true⟩ 0 (some e) ∧
        (j, e) ∈ P.shared.log ∧ .nested n ∈ j.reports ∧ ¬n.Valid P.shared.world.disk := by
  let gone : World Unit := ⟨⟨.empty, .top⟩, ()⟩
  let written : World Unit := gone.write [sampleName] (.file [] true)
  have hgone : (Digests.ofFile gone.disk samplePath).run.value = .ok none := rfl
  obtain ⟨digest, hwritten⟩ : ∃ digest,
      (Digests.ofFile written.disk samplePath).run.value = .ok (some digest) := ⟨_, rfl⟩
  have hdeclare : (Digests.declare written.disk [] samplePath).run.value =
      .ok [(samplePath, some digest)] := by
    rw [Digests.declare_value, hwritten]
    rfl
  obtain ⟨outer, houter⟩ := exists_fingerprint_samplePath none
  obtain ⟨inner, hinner⟩ := exists_fingerprint_samplePath (some digest)
  -- The outer computation looks at the file before it is written, the inner one after that.
  obtain ⟨as, S, seen, j, e, n, hcourse, hworld, hentry, hgen, hu, hdigests, hj, hn, hchanged⟩ :
      ∃ (as : List (Action Bool Unit Nat)) (S : Shared Bool Unit Nat) (seen : Nat)
        (j : Job Bool Nat) (e n : Entry Nat),
        Course (.start gone) .idle as S ⟨.inside ⟨"q", true⟩ seen 0, []⟩ ∧ S.world = gone ∧
          S.cache.entry? ⟨"q", true⟩ = some e ∧ e.generation = seen ∧ e.untracked = false ∧
          e.digests = [(samplePath, none)] ∧ (j, e) ∈ S.log ∧ .nested n ∈ j.reports ∧
          n.digests = [(samplePath, some digest)] := by
    have hopened : Course (.start gone) .idle _ _ _ :=
      .opens (V := Nat) (q := (⟨"q", true⟩ : Question Bool)) rfl List.not_mem_nil rfl
    have hlook : (Digests.declare gone.disk [] samplePath).run.value =
        .ok [(samplePath, none)] := rfl
    have hmissing := hopened.snoc (.file hlook rfl)
    have hinside := (hmissing.snoc (.change _ written)).trans
      (.opens (q := ⟨"q", false⟩) rfl (by decide) rfl)
    have hclosed := ((hinside.snoc (.file hdeclare rfl)).trans (.closes 1 hinner)).trans
      (.closes 0 houter)
    have hagain := (hclosed.snoc (.change _ gone)).trans
      (.returns (q := ⟨"q", true⟩) (l := 0) rfl List.not_mem_nil)
    exact ⟨_, _, _, _, _, _, hagain, rfl, rfl, rfl, rfl, rfl, List.mem_cons_self,
      List.mem_cons_of_mem _ List.mem_cons_self, rfl⟩
  have hreach := hcourse.reachable
  have hholds : e.digests.Holds S.world.disk := by
    rw [hdigests, hworld]
    exact fun x hx => List.mem_singleton.1 hx ▸ hgone
  have hstep := hcourse.hit hentry hgen hu hholds
  have hsealed := hreach.recorded.shared.sealed (Assoc.mem_of_get? hentry)
  have hc := Entry.NoCollision.of_holds hsealed.nodup hholds
  obtain ⟨-, -, -, hall⟩ := valid_iff_of_hit hreach hstep rfl hc
  obtain ⟨hvalid, -⟩ := hall j n hj (.direct hn)
  refine ⟨_, _, j, e, n, hreach, hstep, rfl, hj, hn, fun h => ?_⟩
  have hsub := hvalid.1 h
  rw [hchanged, hdigests] at hsub
  simp at hsub

end ScarbCrates
