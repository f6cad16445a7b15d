import ScarbCrates.Proofs.Threads.Records

/-!
# Dropping results while others are computed

A call that drops results drops those that are stored.  What is being computed at that moment, by
the caller itself or by another thread, is stored when it is done, with all that it has seen before
the call; and from then on it is used like any other result.  Nothing else of the past comes back.

* `Action.Drops` — the results that a call is meant to drop.
* `Pool.Later`, `Pool.Run.later` — what is computed or on record later has begun later, or was under
  way.
* `Pool.served_after_drop` — a result that is used after such a call has been stored since; and its
  computation had begun before the call exactly if it was under way.
-/

namespace ScarbCrates

variable {κ σ V : Type}

/-- **The results that a call drops:** those of at most a durability, or all. -/
def Action.Drops : Action κ σ V → Entry V → Prop
  | .invalidate level, e => e.durability.atMost level = true
  | .clear, _ => True
  | _, _ => False

/-- A stored result is used again, or shared with the thread that has computed it. -/
def Action.Serves : Action κ σ V → Prop
  | .hit => True
  | .share => True
  | _ => False

variable [DecidableEq κ] {S S' : Shared κ σ V} {t t' : Thread κ V} {a : Action κ σ V}

/-! ## One turn -/

/-- After the call no stored result is left that it drops. -/
lemma Turn.not_drops (h : Turn S t a S' t') {e : Entry V} (hd : a.Drops e) :
    ∀ q, (q, e) ∉ S'.entries := by
  intro q hq
  cases h with
  | invalidate level =>
      have hkept : (!e.durability.atMost level) = true :=
        (List.mem_filter.1 (show (q, e) ∈ S.entries.filter _ from hq)).2
      rw [show e.durability.atMost level = true from hd] at hkept
      cases hkept
  | clear => exact absurd hq List.not_mem_nil
  | _ => exact hd

/-- What a thread is given that is served. -/
lemma Turn.of_serves (h : Turn S t a S' t') (ha : a.Serves) :
    ∃ q l e js, t' = ⟨.leaving q l (some e), js⟩ ∧ S.cache.entry? q = some e := by
  cases h with
  | share he hgen => exact ⟨_, _, _, _, rfl, he⟩
  | hit he hgen hfresh => exact ⟨_, _, _, _, rfl, he⟩
  | _ => exact ha.elim

/-- **A computation under way after a turn** has just begun, or was under way before; and what is
new on record is of one that was. -/
lemma Turn.jobs (h : Turn S t a S' t') :
    (∀ j ∈ t'.jobs, j.number = S.begun ∨ ∃ j₀ ∈ t.jobs, j₀.number = j.number) ∧
      ∀ x ∈ S'.log, x ∈ S.log ∨ x.1 ∈ t.jobs := by
  have hsame : ∀ j ∈ t.jobs, j.number = S.begun ∨ ∃ j₀ ∈ t.jobs, j₀.number = j.number :=
    fun j hj => Or.inr ⟨j, hj, rfl⟩
  have hhear : ∀ {j : Job κ V} {js : List (Job κ V)} (r : Observation V), ∀ j' ∈ j.hear r :: js,
      j'.number = S.begun ∨ ∃ j₀ ∈ j :: js, j₀.number = j'.number := by
    intro j js r j' hj'
    rcases List.mem_cons.1 hj' with rfl | hj'
    · exact Or.inr ⟨j, List.mem_cons_self, rfl⟩
    · exact Or.inr ⟨j', List.mem_cons_of_mem _ hj', rfl⟩
  have hend : ∀ {j : Job κ V} {js : List (Job κ V)}, ∀ j' ∈ js,
      j'.number = S.begun ∨ ∃ j₀ ∈ j :: js, j₀.number = j'.number :=
    fun j' hj' => Or.inr ⟨j', List.mem_cons_of_mem _ hj', rfl⟩
  cases h with
  | begin h =>
      refine ⟨fun j hj => ?_, fun x hx => Or.inl hx⟩
      rcases List.mem_cons.1 hj with rfl | hj
      · exact Or.inl rfl
      · exact hsame j hj
  | file hd hp => exact ⟨hhear _, fun x hx => Or.inl hx⟩
  | level level => exact ⟨hhear _, fun x hx => Or.inl hx⟩
  | untracked => exact ⟨hhear _, fun x hx => Or.inl hx⟩
  | store v hd =>
      refine ⟨hend, fun x hx => ?_⟩
      rcases List.mem_cons.1 hx with rfl | hx
      · exact Or.inr List.mem_cons_self
      · exact Or.inl hx
  | discard v hd => exact ⟨hend, fun x hx => Or.inl hx⟩
  | abort => exact ⟨hend, fun x hx => Or.inl hx⟩
  | @leave q l result js =>
      refine ⟨?_, fun x hx => Or.inl hx⟩
      cases result with
      | none => exact hsame
      | some e =>
          cases js with
          | nil => exact hsame
          | cons j rest => exact hhear _
  | _ => exact ⟨hsame, fun x hx => Or.inl hx⟩

/-! ## Runs -/

namespace Pool

variable {P P' P'' Q : Pool κ σ V} {i k : Nat} {b : Action κ σ V} {as : List (Nat × Action κ σ V)}

omit [DecidableEq κ] in
/-- The computation with a number has begun since, or was under way. -/
def Since (P : Pool κ σ V) (number : Nat) : Prop :=
  P.shared.begun ≤ number ∨ ∃ j₀, P.UnderWay j₀ ∧ j₀.number = number

/-- **What has become of a pool:** all computations under way, and all that are new on record, have
begun since or were under way. -/
structure Later (P P' : Pool κ σ V) : Prop where
  begun : P.shared.begun ≤ P'.shared.begun
  jobs : ∀ j, P'.UnderWay j → P.Since j.number
  log : ∀ x ∈ P'.shared.log, x ∈ P.shared.log ∨ P.Since x.1.number

lemma Later.step (h : P.Later P') (hs : P'.Step i a P'') : P.Later P'' := by
  obtain ⟨hjobs, hlog⟩ := hs.toTurn.jobs
  refine ⟨Nat.le_trans h.begun hs.grows.begun, fun j hj => ?_, fun x hx => ?_⟩
  · obtain ⟨k, hk⟩ := hj
    by_cases hki : k = i
    · subst hki
      rcases hjobs j hk with hnew | ⟨j₀, hj₀, hnumber⟩
      · exact Or.inl (hnew ▸ h.begun)
      · exact hnumber ▸ h.jobs j₀ ⟨k, hj₀⟩
    · exact h.jobs j ⟨k, hs.other hki ▸ hk⟩
  · rcases hlog x hx with hx | hx
    · exact h.log x hx
    · exact Or.inr (h.jobs x.1 ⟨i, hx⟩)

lemma Run.later (h : P.Run as P') : P.Later P' := by
  induction h with
  | none => exact ⟨Nat.le_refl _, fun j hj => Or.inr ⟨j, hj, rfl⟩, fun x hx => Or.inl hx⟩
  | snoc _ ha ih => exact ih.step ha

/-- **After results have been dropped,** a result that the call was to drop is used only if it has
been stored since.  Its computation had begun before the call exactly if it was under way at that
moment; then it is used all the same. -/
theorem served_after_drop (h : P.Reachable) (hs : P.Step k a P') (hr : P'.Run as P'')
    (hserved : P''.Step i b Q) (hb : b.Serves) {q : Question κ} {l : Nat} {e : Entry V}
    (he : (Q.threads i).phase = .leaving q l (some e)) (hd : a.Drops e) :
    P''.shared.cache.entry? q = some e ∧ (∀ x ∈ P'.shared.log, x.2 ≠ e) ∧
      (∃ j, (j, e) ∈ P''.shared.log ∧ j.question = q) ∧
      ∀ j, (j, e) ∈ P''.shared.log →
        (j.number < P'.shared.begun ↔ ∃ j₀, P'.UnderWay j₀ ∧ j₀.number = j.number) := by
  have hrec' := (h.run hs.run).recorded
  have hrec'' := ((h.run hs.run).run hr).recorded
  have hentry : P''.shared.cache.entry? q = some e := by
    obtain ⟨q', l', e', js, ht', hentry⟩ := hserved.toTurn.of_serves hb
    rw [ht'] at he
    cases he
    exact hentry
  have hmem := Assoc.mem_of_get? hentry
  -- What was stored when the call returned is not meant, so the result has a new generation.
  have hnew : P'.shared.generation < e.generation :=
    (hr.grows.entries _ hmem).resolve_left (hs.toTurn.not_drops hd q)
  have hlog : ∀ x ∈ P'.shared.log, x.2 ≠ e := by
    rintro x hx rfl
    exact absurd (hrec'.shared.log x hx).2.2 (Nat.not_le.2 hnew)
  refine ⟨hentry, hlog, hrec''.shared.entries _ hmem, fun j hj => ⟨fun hbefore => ?_, ?_⟩⟩
  · have hsince := (hr.later.log _ hj).resolve_left fun hold => hlog _ hold rfl
    exact hsince.resolve_left (Nat.not_le.2 hbefore)
  · rintro ⟨j₀, ⟨i, hj₀⟩, hnumber⟩
    exact hnumber ▸ ((hrec'.threads i).jobs j₀ hj₀).number

/-- A computation drops all results while it is under way.  Its own is stored after that, and the
next request is served with it. -/
theorem served_after_drop_of_underWay :
    ∃ (P P' P'' Q : Pool Bool Unit Nat) (as : List (Nat × Action Bool Unit Nat)) (j : Job Bool Nat)
      (e : Entry Nat), P.Reachable ∧ P.Step 0 (.invalidate .high) P' ∧ P'.Run as P'' ∧
        P''.Step 0 .hit Q ∧ (Q.threads 0).phase = .leaving ⟨"q", true⟩ 0 (some e) ∧
        (j, e) ∈ P''.shared.log ∧ j.number < P'.shared.begun := by
  obtain ⟨digest, hd⟩ := Digests.exists_fingerprint_nil
  let j : Job Bool Nat := ⟨⟨"q", true⟩, 0, 0, []⟩
  obtain ⟨as, S, S', hopened, hdrop, hlock, htaken⟩ :
      ∃ (as : List (Action Bool Unit Nat)) (S S' : Shared Bool Unit Nat),
        Course (.start ⟨default, ()⟩) .idle as S ⟨.running, [j]⟩ ∧
          Turn S ⟨.running, [j]⟩ (.invalidate .high) S' ⟨.running, [j]⟩ ∧
          Assoc.get? S'.table ⟨"q", true⟩ = some 0 ∧ S'.taken = [0] :=
    ⟨_, _, _, .opens rfl List.not_mem_nil rfl, .invalidate .high, rfl, rfl⟩
  have hclosed : Course S' ⟨.running, [j]⟩ _ _ _ := .closes 1 hd
  have hagain := hclosed.trans (.returns (q := ⟨"q", true⟩) (l := 0)
    (show Assoc.get? (S'.store j _).table _ = _ by rw [Shared.table_store, hlock])
    (show 0 ∉ S'.taken.erase 0 by rw [htaken]; decide))
  have hentry : (((S'.store j (S'.result j 1 digest)).giveBack 0).take 0).cache.entry? ⟨"q", true⟩ =
      some (S'.result j 1 digest) := Assoc.get?_put_self _ _ _
  have hhit := ((hopened.snoc hdrop).trans hagain).hit hentry
    (Cache.storedGeneration_of_entry? hentry).symm rfl fun _ hx => absurd hx List.not_mem_nil
  obtain ⟨-, -, -, hbefore⟩ :=
    served_after_drop hopened.reachable hdrop.solo hagain.solo hhit trivial rfl rfl
  refine ⟨_, _, _, _, _, j, _, hopened.reachable, hdrop.solo, hagain.solo, hhit, rfl,
    List.mem_cons_self, ?_⟩
  exact (hbefore j List.mem_cons_self).2 ⟨j, ⟨0, List.mem_cons_self⟩, rfl⟩

end Pool

end ScarbCrates
