import Mathlib.Data.List.Perm.Basic
import Mathlib.Tactic.Common
import ScarbCrates.Datum.Order

/-!
# Sorting loses nothing

Values that can be compared with each other can be sorted, and sorting changes their order only.

* `Datum.exists_sortBy` — the elements of the result are those of the input.
* `Datum.exists_sortFirst_text` — the same for values that go with texts.
-/

namespace ScarbCrates

namespace Datum

section Sorting

variable {α : Type} {lt : α → α → Except DatumFault Bool} {P : α → Prop}

/-- Every two elements in question can be compared. -/
def Comparable (lt : α → α → Except DatumFault Bool) (P : α → Prop) : Prop :=
  ∀ x y, P x → P y → ∃ r, lt x y = .ok r

lemma exists_descend (hlt : Comparable lt P) {run xs : List α} (hrun : ∀ x ∈ run, P x)
    (hxs : ∀ x ∈ xs, P x) :
    ∃ run' rest, descend lt run xs = .ok (run', rest) ∧ (run' ++ rest).Perm (run ++ xs) := by
  induction xs generalizing run with
  | nil => cases run <;> exact ⟨_, _, rfl, List.Perm.refl _⟩
  | cons y rest ih =>
      cases run with
      | nil => exact ⟨_, _, rfl, List.Perm.refl _⟩
      | cons x run =>
          have hy := hxs y List.mem_cons_self
          obtain ⟨r, hr⟩ := hlt y x hy (hrun x List.mem_cons_self)
          rw [descend, hr]
          cases r with
          | false => exact ⟨_, _, rfl, List.Perm.refl _⟩
          | true =>
              obtain ⟨run', rest', h, hp⟩ := @ih (y :: x :: run)
                (List.forall_mem_cons.2 ⟨hy, hrun⟩) (List.forall_mem_cons.1 hxs).2
              exact ⟨run', rest', h, hp.trans List.perm_middle.symm⟩

lemma exists_ascend (hlt : Comparable lt P) {run xs : List α} (hrun : ∀ x ∈ run, P x)
    (hxs : ∀ x ∈ xs, P x) :
    ∃ run' rest, ascend lt run xs = .ok (run', rest) ∧ (run' ++ rest).Perm (run ++ xs) := by
  induction xs generalizing run with
  | nil => cases run <;> exact ⟨_, _, rfl, List.Perm.refl _⟩
  | cons y rest ih =>
      cases run with
      | nil => exact ⟨_, _, rfl, List.Perm.refl _⟩
      | cons x run =>
          have hy := hxs y List.mem_cons_self
          obtain ⟨r, hr⟩ := hlt y x hy (hrun x List.mem_cons_self)
          rw [ascend, hr]
          cases r with
          | true => exact ⟨_, _, rfl, List.Perm.refl _⟩
          | false =>
              obtain ⟨run', rest', h, hp⟩ := @ih (y :: x :: run)
                (List.forall_mem_cons.2 ⟨hy, hrun⟩) (List.forall_mem_cons.1 hxs).2
              exact ⟨run', rest', h, hp.trans List.perm_middle.symm⟩

lemma exists_leadingRun (hlt : Comparable lt P) {xs : List α} (hxs : ∀ x ∈ xs, P x) :
    ∃ run rest, leadingRun lt xs = .ok (run, rest) ∧ (run ++ rest).Perm xs := by
  match xs with
  | [] => exact ⟨_, _, rfl, List.Perm.refl _⟩
  | [x] => exact ⟨_, _, rfl, List.Perm.refl _⟩
  | x :: y :: rest =>
      simp only [List.forall_mem_cons] at hxs
      obtain ⟨hx, hy, hrest⟩ := hxs
      have hrun : ∀ z ∈ [y, x], P z := by simp [hx, hy]
      obtain ⟨r, hr⟩ := hlt y x hy hx
      rw [leadingRun, hr]
      cases r with
      | true =>
          obtain ⟨run, rest', h, hp⟩ := exists_descend hlt hrun hrest
          exact ⟨run, rest', h, hp.trans (List.Perm.swap x y rest)⟩
      | false =>
          obtain ⟨run, rest', h, hp⟩ := exists_ascend hlt hrun hrest
          refine ⟨run.reverse, rest', ?_, ?_⟩
          · simp only [bind, Except.bind, Bool.false_eq_true, if_false, h]
            rfl
          · exact ((List.reverse_perm run).append_right rest').trans
              (hp.trans (List.Perm.swap x y rest))

lemma exists_insertSorted (hlt : Comparable lt P) {x : α} (hx : P x) {xs : List α}
    (hxs : ∀ y ∈ xs, P y) : ∃ ys, insertSorted lt x xs = .ok ys ∧ ys.Perm (x :: xs) := by
  induction hn : xs.length using Nat.strongRecOn generalizing xs with
  | _ n ih =>
      have hsplit := List.take_append_drop (xs.length / 2) xs
      rw [insertSorted]
      split
      · rename_i h
        have hlen := congrArg List.length h
        simp only [List.length_drop, List.length_nil] at hlen
        have hnil : xs = [] := List.eq_nil_of_length_eq_zero (by omega)
        exact ⟨[x], rfl, by rw [hnil]⟩
      · rename_i y upper h
        rw [h] at hsplit
        have hlen := congrArg List.length h
        simp only [List.length_drop, List.length_cons] at hlen
        have hmem : ∀ z ∈ xs.take (xs.length / 2) ++ y :: upper, P z := by
          rw [hsplit]
          exact hxs
        simp only [List.forall_mem_append, List.forall_mem_cons] at hmem
        obtain ⟨hlower, hy, hupper⟩ := hmem
        obtain ⟨r, hr⟩ := hlt x y hx hy
        rw [hr]
        cases r with
        | true =>
            obtain ⟨ys, hys, hp⟩ := ih _ (by rw [List.length_take]; omega) hlower rfl
            refine ⟨ys ++ y :: upper, ?_, ?_⟩
            · simp only [bind, Except.bind, if_true, hys]
              rfl
            · have hq : (ys ++ y :: upper).Perm (x :: (xs.take (xs.length / 2) ++ y :: upper)) :=
                hp.append_right (y :: upper)
              rwa [hsplit] at hq
        | false =>
            obtain ⟨ys, hys, hp⟩ := ih _ (by omega) hupper rfl
            refine ⟨xs.take (xs.length / 2) ++ y :: ys, ?_, ?_⟩
            · simp only [bind, Except.bind, Bool.false_eq_true, if_false, hys]
              rfl
            · have hq : (y :: ys).Perm (x :: y :: upper) :=
                (hp.cons y).trans (List.Perm.swap x y upper)
              have hq' := (hq.append_left (xs.take (xs.length / 2))).trans List.perm_middle
              rwa [hsplit] at hq'

lemma exists_foldlM_insertSorted (hlt : Comparable lt P) {rest : List α}
    (hrest : ∀ x ∈ rest, P x) {run : List α} (hrun : ∀ x ∈ run, P x) :
    ∃ ys, rest.foldlM (fun sorted x => insertSorted lt x sorted) run = .ok ys ∧
      ys.Perm (run ++ rest) := by
  induction rest generalizing run with
  | nil => exact ⟨run, rfl, by simp⟩
  | cons x rest ih =>
      rw [List.forall_mem_cons] at hrest
      obtain ⟨ys, hys, hp⟩ := exists_insertSorted hlt hrest.1 hrun
      have hmem : ∀ z ∈ ys, P z := fun z hz =>
        List.forall_mem_cons.2 ⟨hrest.1, hrun⟩ z (hp.mem_iff.1 hz)
      obtain ⟨zs, hzs, hq⟩ := ih hrest.2 hmem
      refine ⟨zs, ?_, ?_⟩
      · rw [List.foldlM_cons, hys]
        exact hzs
      · exact hq.trans ((hp.append_right rest).trans List.perm_middle.symm)

/-- **Elements that can be compared can be sorted, and sorting keeps them all.** -/
theorem exists_sortBy (hlt : Comparable lt P) {xs : List α} (hxs : ∀ x ∈ xs, P x) :
    ∃ ys, sortBy lt xs = .ok ys ∧ ys.Perm xs := by
  obtain ⟨run, rest, h, hp⟩ := exists_leadingRun hlt hxs
  have hmem : ∀ z ∈ run ++ rest, P z := fun z hz => hxs z (hp.mem_iff.1 hz)
  rw [List.forall_mem_append] at hmem
  obtain ⟨ys, hys, hq⟩ := exists_foldlM_insertSorted hlt hmem.2 hmem.1
  refine ⟨ys, ?_, hq.trans hp⟩
  rw [sortBy, h]
  exact hys

end Sorting

lemma less_text (s t : Text) : less (.text s) (.text t) = .ok (lessText s t) := rfl

/-- **Values that go with texts can be put in the order of the texts.** -/
theorem exists_sortFirst_text {α : Type} {xs : List (Datum × α)}
    (hxs : ∀ x ∈ xs, ∃ t, x.1 = .text t) : ∃ ys, sortFirst xs = .ok ys ∧ ys.Perm xs := by
  refine exists_sortBy (P := fun x : Datum × α => ∃ t, x.1 = .text t) ?_ hxs
  rintro x y ⟨s, hs⟩ ⟨t, ht⟩
  show ∃ r, less x.1 y.1 = .ok r
  rw [hs, ht]
  exact ⟨_, less_text s t⟩

end Datum

end ScarbCrates
