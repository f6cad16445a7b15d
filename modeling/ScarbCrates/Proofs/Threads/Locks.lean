import Mathlib.Data.List.Nodup
import ScarbCrates.Proofs.Threads.Turns

/-!
# Locks of questions

A lock is held by one thread at a time, so two computations under the same lock never run at the
same time.  Two computations for the same question can, under different locks: a lock that has been
handed out, and not been taken yet, is held by nobody, and goes with the other locks that are of no
use when results are dropped.  Whoever asks next is given a new one.

* `Thread.awaits`, `Thread.holds` — the locks that a thread waits for, and those that it holds.
* `Turn.Effect`, `Turn.effect` — all that a turn can do to the locks.
* `Pool.Exclusive` — each lock is held once.
* `Pool.Orderly`, `Pool.Reachable.orderly` — and was made for the question that it is held for.
-/

namespace ScarbCrates

variable {κ σ V : Type}

/-! ## The locks of a thread -/

/-- The lock that a request holds, with its question. -/
def Phase.holds : Phase κ V → List (Question κ × Nat)
  | .inside q _ l => [(q, l)]
  | .leaving q l _ => [(q, l)]
  | _ => []

/-- The lock that a computation runs under, with its question. -/
def Job.ticket (j : Job κ V) : Question κ × Nat := (j.question, j.lock)

namespace Thread

/-- The lock that a thread has been handed and waits for. -/
def awaits (t : Thread κ V) : Option (Question κ × Nat) :=
  match t.phase with
  | .waiting q _ l => some (q, l)
  | _ => none

/-- **The locks that a thread holds.** -/
def holds (t : Thread κ V) : List (Question κ × Nat) := t.phase.holds ++ t.jobs.map Job.ticket

/-- A lock on which a thread has a claim: it waits for it, or holds it. -/
def Claims (t : Thread κ V) (x : Question κ × Nat) : Prop := t.awaits = some x ∨ x ∈ t.holds

lemma eq_waiting_of_awaits {t : Thread κ V} {q : Question κ} {l : Nat}
    (h : t.awaits = some (q, l)) : ∃ seen js, t = ⟨.waiting q seen l, js⟩ := by
  obtain ⟨p, js⟩ := t
  cases p with
  | waiting q' seen l' =>
      cases h
      exact ⟨seen, js, rfl⟩
  | _ => cases h

lemma holds_inherit (q : Question κ) (l : Nat) (result : Option (Entry V)) (js : List (Job κ V)) :
    (⟨.leaving q l result, js⟩ : Thread κ V).holds =
      (q, l) :: (⟨.running, inherit result js⟩ : Thread κ V).holds := by
  cases result with
  | none => rfl
  | some e => cases js <;> rfl

end Thread

/-! ## What a turn does to the locks -/

variable [DecidableEq κ] {S S' : Shared κ σ V} {t t' : Thread κ V} {a : Action κ σ V}

lemma Cache.mem_locks_prune {c : Cache κ V} {q : Question κ} :
    q ∈ c.prune.locks ↔ q ∈ c.locks ∧ (Assoc.has c.entries q = true ∨ q ∈ c.held) := by
  simp [prune, isHeld]

namespace Shared

/-- **Dropping results** drops locks, but none that is held, and none whose question still has a
result. -/
lemma dropped_withCache {f : Cache κ V → Cache κ V} {x : Question κ × Nat}
    (hf : ∃ c : Cache κ V, f S.cache = c.prune ∧ c.locks = S.cache.locks ∧ c.held = S.cache.held)
    (hx : x ∈ S.table) :
    x ∈ (S.withCache f).table ∨ x.2 ∉ S.taken ∧ (S.withCache f).cache.entry? x.1 = none := by
  obtain ⟨c, hc, hlocks, hheld⟩ := hf
  have hmem : x ∈ (S.withCache f).table ↔ Assoc.has c.entries x.1 = true ∨ x.1 ∈ c.held := by
    show x ∈ S.table.filter _ ↔ _
    rw [List.mem_filter, List.contains_iff_mem, hc, Cache.mem_locks_prune, hlocks]
    exact ⟨fun h => h.2.2, fun h => ⟨hx, List.mem_map_of_mem hx, h⟩⟩
  by_cases hkept : x ∈ (S.withCache f).table
  · exact Or.inl hkept
  · rw [hmem, not_or] at hkept
    refine Or.inr ⟨fun ht => hkept.2 ?_, ?_⟩
    · rw [hheld]
      exact List.mem_map_of_mem (List.mem_filter.2 ⟨hx, decide_eq_true ht⟩)
    · show Assoc.get? (f S.cache).entries x.1 = none
      rw [hc]
      exact Option.not_isSome_iff_eq_none.1 hkept.1

lemma sublist_table_withCache (S : Shared κ σ V) (f : Cache κ V → Cache κ V) :
    (S.withCache f).table.Sublist S.table := List.filter_sublist

end Shared

/-- **What a turn can do to the locks:** a lock is handed out, is taken or is given back; or the
table stays as it is; or at most such locks go from it as nobody holds and as have no result. -/
inductive Turn.Effect (S : Shared κ σ V) (t : Thread κ V) (S' : Shared κ σ V) (t' : Thread κ V) :
    Prop
  | handed {x : Question κ × Nat} (hawaits : t'.awaits = some x) (hx : x ∈ S'.table)
      (hholds : t'.holds = t.holds)
      (hshared : S' = S ∨ Assoc.get? S.table x.1 = none ∧ S' = S.addLock x.1)
  | entered {x : Question κ × Nat} (hfree : x.2 ∉ S.taken) (hawaited : t.awaits = some x)
      (hawaits : t'.awaits = none) (hholds : t'.holds = x :: t.holds) (hshared : S' = S.take x.2)
  | left {x : Question κ × Nat} (hawaits : t'.awaits = none) (hholds : t.holds = x :: t'.holds)
      (hshared : S' = S.giveBack x.2)
  | kept (hawaits : ∀ x, t'.awaits = some x → t.awaits = some x) (hholds : t'.holds = t.holds)
      (hmade : S'.made = S.made) (htaken : S'.taken = S.taken) (htable : S'.table = S.table)
  | dropped (hthread : t' = t) (hawaits : t.awaits = none) (hmade : S'.made = S.made)
      (htaken : S'.taken = S.taken) (htable : S'.table.Sublist S.table)
      (hdropped : ∀ x ∈ S.table, x ∈ S'.table ∨ x.2 ∉ S.taken ∧ S'.cache.entry? x.1 = none)

lemma Turn.effect (h : Turn S t a S' t') : Turn.Effect S t S' t' := by
  have hsame : ∀ {f : Cache κ V → Cache κ V}, (f S.cache).locks = S.cache.locks →
      (S.withCache f).table = S.table := Shared.table_withCache
  cases h with
  | request js q => exact .kept (fun _ => nofun) rfl rfl rfl rfl
  | lock h => exact .handed rfl (Assoc.mem_of_get? h) rfl (Or.inl rfl)
  | make h =>
      exact .handed rfl (List.mem_append_right _ (List.mem_singleton.2 rfl)) rfl (Or.inr ⟨h, rfl⟩)
  | enter h => exact .entered h rfl rfl rfl rfl
  | refuse h => exact .kept (fun _ => nofun) rfl rfl rfl rfl
  | share he hgen => exact .kept (fun _ => nofun) rfl rfl rfl (hsame rfl)
  | hit he hgen hfresh => exact .kept (fun _ => nofun) rfl rfl rfl (hsame rfl)
  | begin h => exact .kept (fun _ => nofun) rfl rfl rfl S.table_begin
  | falter he hgen hfault => exact .kept (fun _ => nofun) rfl rfl rfl rfl
  | file hd hp => exact .kept (fun _ => nofun) rfl rfl rfl rfl
  | level level => exact .kept (fun _ => nofun) rfl rfl rfl rfl
  | untracked => exact .kept (fun _ => nofun) rfl rfl rfl rfl
  | store v hd => exact .kept (fun _ => nofun) rfl rfl rfl (S.table_store _ _)
  | discard v hd => exact .kept (fun _ => nofun) rfl rfl rfl (hsame rfl)
  | abort => exact .kept (fun _ => nofun) rfl rfl rfl rfl
  | leave => exact .left rfl (Thread.holds_inherit _ _ _ _) rfl
  | invalidate level =>
      exact .dropped rfl rfl rfl rfl (S.sublist_table_withCache _) fun x hx =>
        Shared.dropped_withCache ⟨_, rfl, rfl, rfl⟩ hx
  | clear =>
      exact .dropped rfl rfl rfl rfl (S.sublist_table_withCache _) fun x hx =>
        Shared.dropped_withCache ⟨_, rfl, rfl, rfl⟩ hx
  | change t w => exact .kept (fun _ h => h) rfl rfl rfl rfl

namespace Turn.Effect

lemma made_prefix (h : Turn.Effect S t S' t') : S.made <+: S'.made := by
  cases h with
  | handed _ _ _ hshared =>
      rcases hshared with rfl | ⟨-, rfl⟩
      · exact List.prefix_rfl
      · exact List.prefix_append _ _
  | entered _ _ _ _ hshared => exact hshared ▸ List.prefix_rfl
  | left _ _ hshared => exact hshared ▸ List.prefix_rfl
  | kept _ _ hmade => exact hmade ▸ List.prefix_rfl
  | dropped _ _ hmade => exact hmade ▸ List.prefix_rfl

/-- The table loses locks, or gains one for a question that has none. -/
lemma table_cases (h : Turn.Effect S t S' t') :
    S'.table.Sublist S.table ∨ ∃ q, Assoc.get? S.table q = none ∧ S' = S.addLock q := by
  cases h with
  | handed _ _ _ hshared =>
      rcases hshared with rfl | ⟨hnone, rfl⟩
      · exact Or.inl (List.Sublist.refl _)
      · exact Or.inr ⟨_, hnone, rfl⟩
  | entered _ _ _ _ hshared => exact Or.inl (hshared ▸ List.Sublist.refl _)
  | left _ _ hshared => exact Or.inl (hshared ▸ List.Sublist.refl _)
  | kept _ _ _ _ htable => exact Or.inl (htable ▸ List.Sublist.refl _)
  | dropped _ _ _ _ htable => exact Or.inl htable

/-- A lock that goes from the table is free, and its question has no result. -/
lemma of_dropped (h : Turn.Effect S t S' t') {x : Question κ × Nat} (hx : x ∈ S.table)
    (hgone : x ∉ S'.table) :
    t' = t ∧ t.awaits = none ∧ S'.taken = S.taken ∧ S'.table.Sublist S.table ∧ x.2 ∉ S.taken ∧
      S'.cache.entry? x.1 = none := by
  cases h with
  | handed _ _ _ hshared =>
      rcases hshared with rfl | ⟨-, rfl⟩
      · exact absurd hx hgone
      · exact absurd (List.mem_append_left _ hx) hgone
  | entered _ _ _ _ hshared => exact absurd (hshared ▸ hx) hgone
  | left _ _ hshared => exact absurd (hshared ▸ hx) hgone
  | kept _ _ _ _ htable => exact absurd (htable ▸ hx) hgone
  | dropped hthread hawaits _ htaken htable hdropped =>
      exact ⟨hthread, hawaits, htaken, htable, (hdropped x hx).resolve_left hgone⟩

/-- A lock that is held stays in the table. -/
lemma mem_table (h : Turn.Effect S t S' t') {x : Question κ × Nat} (hx : x ∈ S.table)
    (ht : x.2 ∈ S.taken) : x ∈ S'.table := by
  by_contra hgone
  obtain ⟨-, -, -, -, hfree, -⟩ := h.of_dropped hx hgone
  exact hfree ht

/-- A lock that was made before the turn and is in the table after it has been there before. -/
lemma mem_of_mem_table (h : Turn.Effect S t S' t') {x : Question κ × Nat} (hx : x ∈ S'.table)
    (hmade : x.2 < S.made.length) : x ∈ S.table := by
  rcases h.table_cases with htable | ⟨q, -, rfl⟩
  · exact htable.subset hx
  · rcases List.mem_append.1 hx with hx | hx
    · exact hx
    · rw [List.mem_singleton.1 hx] at hmade
      exact absurd hmade (Nat.lt_irrefl _)

/-- A thread drops no lock that it waits for itself. -/
lemma mem_table_of_awaits (h : Turn.Effect S t S' t') {x : Question κ × Nat}
    (hawaits : t.awaits = some x) (hx : x ∈ S.table) : x ∈ S'.table := by
  by_contra hgone
  obtain ⟨-, hnone, -⟩ := h.of_dropped hx hgone
  exact absurd (hnone.symm.trans hawaits) nofun

/-- A lock that a thread comes to have a claim on is one that it had a claim on, or is in the
table. -/
lemma claims (h : Turn.Effect S t S' t') {x : Question κ × Nat} (hx : t'.Claims x) :
    t.Claims x ∨ x ∈ S'.table := by
  cases h with
  | handed hawaits hx' hholds =>
      rcases hx with hx | hx
      · rw [hawaits, Option.some.injEq] at hx
        exact Or.inr (hx ▸ hx')
      · exact Or.inl (Or.inr (hholds ▸ hx))
  | entered _ hawaited hawaits hholds =>
      rcases hx with hx | hx
      · rw [hawaits] at hx
        cases hx
      · rw [hholds, List.mem_cons] at hx
        rcases hx with rfl | hx
        · exact Or.inl (Or.inl hawaited)
        · exact Or.inl (Or.inr hx)
  | left hawaits hholds =>
      rcases hx with hx | hx
      · rw [hawaits] at hx
        cases hx
      · exact Or.inl (Or.inr (hholds ▸ List.mem_cons_of_mem _ hx))
  | kept hawaits hholds =>
      rcases hx with hx | hx
      · exact Or.inl (Or.inl (hawaits x hx))
      · exact Or.inl (Or.inr (hholds ▸ hx))
  | dropped hthread => exact Or.inl (hthread ▸ hx)

end Turn.Effect

/-! ## Locks and their questions -/

namespace Shared

/-- **Each lock in the table was made for its question,** and a question has one of them at most. -/
structure Labelled (S : Shared κ σ V) : Prop where
  keys : (Assoc.keys S.table).Nodup
  table : ∀ x ∈ S.table, S.made[x.2]? = some x.1

omit [DecidableEq κ] in
lemma labelled_start (w : World σ) : (start w : Shared κ σ V).Labelled :=
  ⟨List.nodup_nil, fun _ hx => absurd hx List.not_mem_nil⟩

lemma Labelled.addLock (h : S.Labelled) {q : Question κ} (hq : Assoc.get? S.table q = none) :
    (S.addLock q).Labelled := by
  have hnot : q ∉ Assoc.keys S.table := fun hm => by
    rw [← Assoc.has_iff, Assoc.has, hq] at hm
    cases hm
  refine ⟨?_, fun x hx => ?_⟩
  · show (List.map Prod.fst (S.table ++ [(q, S.made.length)])).Nodup
    rw [List.map_append]
    exact h.keys.append (List.nodup_singleton q) (List.disjoint_singleton.2 hnot)
  · show (S.made ++ [q])[x.2]? = some x.1
    rcases List.mem_append.1 hx with hx | hx
    · have hlabel := h.table x hx
      rwa [List.getElem?_append_left (List.getElem?_eq_some_iff.1 hlabel).1]
    · rw [List.mem_singleton.1 hx]
      exact List.getElem?_concat_length

omit [DecidableEq κ] in
lemma Labelled.unique (h : S.Labelled) {q : Question κ} {l l' : Nat} (hl : (q, l) ∈ S.table)
    (hl' : (q, l') ∈ S.table) : l = l' := by
  have hinj := List.inj_on_of_nodup_map h.keys hl hl' rfl
  exact congrArg Prod.snd hinj

lemma Labelled.get?_table (h : S.Labelled) {q : Question κ} {l : Nat} (hl : (q, l) ∈ S.table) :
    Assoc.get? S.table q = some l := by
  obtain ⟨l', hl'⟩ := Option.isSome_iff_exists.1 (Assoc.has_iff.2 (List.mem_map_of_mem hl))
  rw [hl', h.unique (Assoc.mem_of_get? hl') hl]

end Shared

lemma Turn.Effect.labelled (h : Turn.Effect S t S' t') (hS : S.Labelled) : S'.Labelled := by
  rcases h.table_cases with htable | ⟨q, hq, rfl⟩
  · refine ⟨(htable.map Prod.fst).nodup hS.keys, fun x hx => ?_⟩
    have hlabel := hS.table x (htable.subset hx)
    obtain ⟨more, hmore⟩ := h.made_prefix
    rwa [← hmore, List.getElem?_append_left (List.getElem?_eq_some_iff.1 hlabel).1]
  · exact hS.addLock hq

/-! ## Each lock is held once -/

namespace Pool

variable {P P' P'' : Pool κ σ V} {i k : Nat}

omit [DecidableEq κ] in
lemma idle_claims (x : Question κ × Nat) : ¬(Thread.idle : Thread κ V).Claims x := by
  rintro (h | h)
  · cases h
  · cases h

/-- **What is taken is what is held,** by one thread and once. -/
structure Exclusive (P : Pool κ σ V) : Prop where
  taken : ∀ i, ∀ x ∈ (P.threads i).holds, x.2 ∈ P.shared.taken
  held : ∀ l ∈ P.shared.taken, ∃ i, ∃ x ∈ (P.threads i).holds, x.2 = l
  nodup : P.shared.taken.Nodup
  once : ∀ i, ((P.threads i).holds.map Prod.snd).Nodup
  apart : ∀ i k, i ≠ k → ∀ x ∈ (P.threads i).holds, ∀ y ∈ (P.threads k).holds, x.2 ≠ y.2

omit [DecidableEq κ] in
lemma Exclusive.of_eq (hP : P.Exclusive) (hholds : ∀ i, (P'.threads i).holds = (P.threads i).holds)
    (htaken : P'.shared.taken = P.shared.taken) : P'.Exclusive := by
  constructor
  · intro i x hx
    rw [htaken]
    exact hP.taken i x (hholds i ▸ hx)
  · intro l hl
    obtain ⟨i, x, hx, hl⟩ := hP.held l (htaken ▸ hl)
    exact ⟨i, x, (hholds i).symm ▸ hx, hl⟩
  · rw [htaken]
    exact hP.nodup
  · intro i
    rw [hholds]
    exact hP.once i
  · intro i k hik x hx y hy
    exact hP.apart i k hik x (hholds i ▸ hx) y (hholds k ▸ hy)

omit [DecidableEq κ] in
lemma Exclusive.enter (hP : P.Exclusive) {x : Question κ × Nat} (hfree : x.2 ∉ P.shared.taken)
    (hholds : (P'.threads i).holds = x :: (P.threads i).holds)
    (hother : ∀ k, k ≠ i → (P'.threads k).holds = (P.threads k).holds)
    (htaken : P'.shared.taken = x.2 :: P.shared.taken) : P'.Exclusive := by
  -- What a thread holds now is the new lock, or is held as before.
  have hnow : ∀ k, ∀ y ∈ (P'.threads k).holds, k = i ∧ y = x ∨ y ∈ (P.threads k).holds := by
    intro k y hy
    by_cases hk : k = i
    · subst hk
      rw [hholds] at hy
      exact (List.mem_cons.1 hy).imp (fun h => ⟨rfl, h⟩) fun h => h
    · exact Or.inr (hother k hk ▸ hy)
  have hkept : ∀ k, ∀ y ∈ (P.threads k).holds, y ∈ (P'.threads k).holds := by
    intro k y hy
    by_cases hk : k = i
    · subst hk
      rw [hholds]
      exact List.mem_cons_of_mem _ hy
    · exact (hother k hk).symm ▸ hy
  have hnew : ∀ k, ∀ y ∈ (P.threads k).holds, y.2 ≠ x.2 := fun k y hy h =>
    hfree (h ▸ hP.taken k y hy)
  constructor
  · intro k y hy
    rw [htaken]
    rcases hnow k y hy with ⟨-, rfl⟩ | hy
    · exact List.mem_cons_self
    · exact List.mem_cons_of_mem _ (hP.taken k y hy)
  · intro l hl
    rw [htaken] at hl
    rcases List.mem_cons.1 hl with rfl | hl
    · exact ⟨i, x, hholds.symm ▸ List.mem_cons_self, rfl⟩
    · obtain ⟨k, y, hy, hl⟩ := hP.held l hl
      exact ⟨k, y, hkept k y hy, hl⟩
  · rw [htaken]
    exact List.nodup_cons.2 ⟨hfree, hP.nodup⟩
  · intro k
    by_cases hk : k = i
    · subst hk
      rw [hholds, List.map_cons, List.nodup_cons]
      refine ⟨fun hm => ?_, hP.once k⟩
      obtain ⟨y, hy, heq⟩ := List.mem_map.1 hm
      exact hnew k y hy heq
    · rw [hother k hk]
      exact hP.once k
  · intro k m hkm y hy z hz
    rcases hnow k y hy with ⟨rfl, rfl⟩ | hy <;> rcases hnow m z hz with ⟨rfl, rfl⟩ | hz
    · exact absurd rfl hkm
    · exact (hnew m z hz).symm
    · exact hnew k y hy
    · exact hP.apart k m hkm y hy z hz

omit [DecidableEq κ] in
lemma Exclusive.leave (hP : P.Exclusive) {x : Question κ × Nat}
    (hholds : (P.threads i).holds = x :: (P'.threads i).holds)
    (hother : ∀ k, k ≠ i → (P'.threads k).holds = (P.threads k).holds)
    (htaken : P'.shared.taken = P.shared.taken.erase x.2) : P'.Exclusive := by
  have hx : x ∈ (P.threads i).holds := hholds.symm ▸ List.mem_cons_self
  have hbefore : ∀ k, ∀ y ∈ (P'.threads k).holds, y ∈ (P.threads k).holds := by
    intro k y hy
    by_cases hk : k = i
    · subst hk
      rw [hholds]
      exact List.mem_cons_of_mem _ hy
    · exact hother k hk ▸ hy
  -- Nobody holds the lock any more: not the thread itself, and no other did.
  have hgone : ∀ k, ∀ y ∈ (P'.threads k).holds, y.2 ≠ x.2 := by
    intro k y hy heq
    by_cases hk : k = i
    · subst hk
      have honce := hP.once k
      rw [hholds, List.map_cons, List.nodup_cons] at honce
      exact honce.1 (heq ▸ List.mem_map_of_mem hy)
    · exact hP.apart k i hk y (hbefore k y hy) x hx heq
  constructor
  · intro k y hy
    rw [htaken, hP.nodup.mem_erase_iff]
    exact ⟨hgone k y hy, hP.taken k y (hbefore k y hy)⟩
  · intro l hl
    rw [htaken, hP.nodup.mem_erase_iff] at hl
    obtain ⟨k, y, hy, heq⟩ := hP.held l hl.2
    refine ⟨k, y, ?_, heq⟩
    by_cases hk : k = i
    · subst hk
      rw [hholds] at hy
      rcases List.mem_cons.1 hy with rfl | hy
      · exact absurd heq.symm hl.1
      · exact hy
    · exact (hother k hk).symm ▸ hy
  · rw [htaken]
    exact hP.nodup.erase _
  · intro k
    by_cases hk : k = i
    · subst hk
      have honce := hP.once k
      rw [hholds, List.map_cons, List.nodup_cons] at honce
      exact honce.2
    · rw [hother k hk]
      exact hP.once k
  · intro k m hkm y hy z hz
    exact hP.apart k m hkm y (hbefore k y hy) z (hbefore m z hz)

lemma Step.exclusive (h : P.Step i a P') (hP : P.Exclusive) : P'.Exclusive := by
  have hother : ∀ k, k ≠ i → (P'.threads k).holds = (P.threads k).holds := fun k hk => by
    rw [h.other hk]
  have hsame (heq : (P'.threads i).holds = (P.threads i).holds) (k : Nat) :
      (P'.threads k).holds = (P.threads k).holds := by
    by_cases hk : k = i
    · rw [hk, heq]
    · exact hother k hk
  cases h.toTurn.effect with
  | handed _ _ hholds hshared =>
      refine hP.of_eq (hsame hholds) ?_
      rcases hshared with heq | ⟨-, heq⟩
      · rw [heq]
      · rw [heq]
        rfl
  | entered hfree _ _ hholds hshared =>
      exact hP.enter hfree hholds hother (by rw [hshared]; rfl)
  | left _ hholds hshared => exact hP.leave hholds hother (by rw [hshared]; rfl)
  | kept _ hholds _ htaken => exact hP.of_eq (hsame hholds) htaken
  | dropped hthread _ _ htaken => exact hP.of_eq (hsame (by rw [hthread])) htaken

/-- **The locks are in order:** each was made for its question, and is held once. -/
structure Orderly (P : Pool κ σ V) : Prop where
  shared : P.shared.Labelled
  claims : ∀ i x, (P.threads i).Claims x → P.shared.made[x.2]? = some x.1
  exclusive : P.Exclusive

omit [DecidableEq κ] in
lemma orderly_start (w : World σ) : (start w : Pool κ σ V).Orderly :=
  ⟨Shared.labelled_start w, fun _ x hx => absurd hx (idle_claims x),
    fun _ _ hx => absurd hx List.not_mem_nil, fun _ hl => absurd hl List.not_mem_nil,
    List.nodup_nil, fun _ => List.nodup_nil, fun _ _ _ _ hx => absurd hx List.not_mem_nil⟩

lemma Step.orderly (h : P.Step i a P') (hP : P.Orderly) : P'.Orderly := by
  have hshared := h.toTurn.effect.labelled hP.shared
  have hmade : ∀ k x, (P.threads k).Claims x → P'.shared.made[x.2]? = some x.1 := fun k x hx => by
    have hlabel := hP.claims k x hx
    obtain ⟨more, hmore⟩ := h.toTurn.effect.made_prefix
    rwa [← hmore, List.getElem?_append_left (List.getElem?_eq_some_iff.1 hlabel).1]
  refine ⟨hshared, fun k x hx => ?_, h.exclusive hP.exclusive⟩
  by_cases hk : k = i
  · subst hk
    exact (h.toTurn.effect.claims hx).elim (hmade k x) (hshared.table x)
  · exact hmade k x (h.other hk ▸ hx)

omit [DecidableEq κ] in
/-- A new lock is free. -/
lemma Orderly.length_notMem_taken (h : P.Orderly) : P.shared.made.length ∉ P.shared.taken := by
  intro hl
  obtain ⟨i, x, hx, hlength⟩ := h.exclusive.held _ hl
  have hlabel := h.claims i x (Or.inr hx)
  rw [hlength, List.getElem?_length] at hlabel
  cases hlabel

/-- **In every pool that threads come to** the locks are in order. -/
theorem Reachable.orderly (h : P.Reachable) : P.Orderly :=
  h.induct orderly_start fun _ _ _ _ hs hP => hs.orderly hP

end Pool

end ScarbCrates
