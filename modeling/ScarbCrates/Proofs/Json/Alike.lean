import ScarbCrates.Proofs.Json.Rearranging

/-!
# Values alike

What it means that two values differ in the order of members only, said part by part and without
sorting anything: items are compared one by one, and members by their names.  For values in which
the members of every object have different names this is what `Value.Same` finds out by sorting.

* `Value.Alike` — the same value, member by member.
* `Value.alike_iff_same` — sorting finds out.
-/

namespace ScarbCrates

namespace Json

namespace Value

mutual

/-- **Alike:** scalars are equal, items are alike one by one, and an object has as many members as
the other, each alike with one of the same name there. -/
def Alike : Value → Value → Prop
  | .array vs, .array ws => AlikeItems vs ws
  | .object ms, .object ns => ms.length = ns.length ∧ AlikeMembers ms ns
  | v, w => v = w

/-- The same for items, one by one. -/
def AlikeItems : List Value → List Value → Prop
  | [], [] => True
  | v :: vs, w :: ws => v.Alike w ∧ AlikeItems vs ws
  | _, _ => False

/-- Every member has its like among other members. -/
def AlikeMembers : List (String × Value) → List (String × Value) → Prop
  | [], _ => True
  | (name, v) :: ms, ns => (∃ w, (name, w) ∈ ns ∧ v.Alike w) ∧ AlikeMembers ms ns

end

/-! ## Parts with different names -/

lemma distinctMembers_iff {ms : List (String × Value)} :
    distinctMembers ms = true ↔ ∀ m ∈ ms, m.2.distinct = true := by
  induction ms with
  | nil => simp [distinctMembers]
  | cons m ms ih =>
      obtain ⟨name, v⟩ := m
      simp only [distinctMembers, ih, Bool.and_eq_true, List.forall_mem_cons]

lemma distinct_object_iff {ms : List (String × Value)} :
    (Value.object ms).distinct = true ↔
      (Assoc.keys ms).Nodup ∧ ∀ m ∈ ms, m.2.distinct = true := by
  rw [distinct, Bool.and_eq_true, decide_eq_true_eq, distinctMembers_iff]

/-! ## Alike, therefore the same -/

lemma keys_sortedMembers (ms : List (String × Value)) :
    Assoc.keys (sortedMembers ms) = Assoc.keys ms := by
  rw [sortedMembers_eq, keys_map]

lemma length_sortedMembers (ms : List (String × Value)) :
    (sortedMembers ms).length = ms.length := by
  rw [sortedMembers_eq, List.length_map]

/-- Sorting the values of members first changes nothing. -/
lemma same_object_sortedMembers (ms : List (String × Value)) :
    (Value.object (sortedMembers ms)).Same (.object ms) := by
  rw [Same, sorted, sorted, sortedMembers_sortedMembers]

mutual

/-- What is alike is the same. -/
theorem Alike.same : ∀ {v w : Value}, v.distinct = true → w.distinct = true → v.Alike w →
    v.Same w
  | .null, _, _, _, h | .bool _, _, _, _, h | .int _, _, _, _, h | .float _, _, _, _, h
  | .text _, _, _, _, h => by
      obtain rfl := h
      rfl
  | .array vs, .array ws, hv, hw, h => congrArg array (AlikeItems.same hv hw h)
  | .object ms, .object ns, hv, hw, h => by
      rw [distinct_object_iff] at hv hw
      have hnodup : (sortedMembers ms).Nodup := by
        refine List.Nodup.of_map Prod.fst ?_
        rw [← Assoc.keys, keys_sortedMembers]
        exact hv.1
      -- As many members, and each of them in the other object: the other has no more.
      have hperm : (sortedMembers ms).Perm (sortedMembers ns) := by
        have hlength : (sortedMembers ns).length ≤ (sortedMembers ms).length := by
          rw [length_sortedMembers, length_sortedMembers]
          exact Nat.le_of_eq h.1.symm
        exact (List.subperm_of_subset hnodup (AlikeMembers.subset hv.2 hw.2 h.2)).perm_of_length_le
          hlength
      have hsame : (object (sortedMembers ms)).Same (object (sortedMembers ns)) :=
        same_of_perm (by rw [keys_sortedMembers]; exact hw.1) hperm
      exact (same_object_sortedMembers ms).symm.trans
        (hsame.trans (same_object_sortedMembers ns))

/-- The same for items. -/
theorem AlikeItems.same : ∀ {vs ws : List Value}, distinctItems vs = true →
    distinctItems ws = true → AlikeItems vs ws → sortedItems vs = sortedItems ws
  | [], [], _, _, _ => rfl
  | v :: vs, w :: ws, hv, hw, h => by
      simp only [distinctItems, Bool.and_eq_true] at hv hw
      exact congrArg₂ List.cons (Alike.same hv.1 hw.1 h.1) (AlikeItems.same hv.2 hw.2 h.2)

/-- The same for members: in sorted form they are among the other members. -/
theorem AlikeMembers.subset : ∀ {ms ns : List (String × Value)},
    (∀ m ∈ ms, m.2.distinct = true) → (∀ n ∈ ns, n.2.distinct = true) → AlikeMembers ms ns →
    sortedMembers ms ⊆ sortedMembers ns
  | [], _, _, _, _ => List.nil_subset _
  | (name, v) :: ms, ns, hv, hw, h => by
      rw [List.forall_mem_cons] at hv
      obtain ⟨⟨w, hmem, hlike⟩, hrest⟩ := h
      refine List.cons_subset.2 ⟨?_, AlikeMembers.subset hv.2 hw hrest⟩
      rw [Alike.same hv.1 (hw _ hmem) hlike, sortedMembers_eq]
      exact List.mem_map_of_mem hmem

end

/-! ## The same, therefore alike -/

mutual

/-- What is the same is alike. -/
theorem Same.alike : ∀ {v w : Value}, v.Same w → v.Alike w
  | .null, w, h | .bool _, w, h | .int _, w, h | .float _, w, h | .text _, w, h => by
      obtain rfl : w = _ := Same.eq h.symm trivial
      rfl
  | .array vs, _, h => by
      obtain ⟨ws, rfl, hws⟩ := same_array h.symm
      exact alikeItems_of_same hws
  | .object ms, _, h => by
      obtain ⟨ns, rfl, hsame⟩ := same_object h.symm
      have hlength := hsame.names.length_eq
      rw [Assoc.keys, Assoc.keys, List.length_map, List.length_map] at hlength
      refine ⟨hlength.symm, alikeMembers_of_same fun n v hmem => ?_⟩
      obtain ⟨w, hw, heq⟩ := hsame.right n v hmem
      exact ⟨w, hw, heq.symm⟩

/-- The same for items. -/
theorem alikeItems_of_same : ∀ {vs ws : List Value}, List.Forall₂ Same ws vs → AlikeItems vs ws
  | [], _, h => by
      obtain rfl := List.forall₂_nil_right_iff.1 h
      trivial
  | _ :: _, _, h => by
      obtain ⟨w, ws, hw, hws, rfl⟩ := List.forall₂_cons_right_iff.1 h
      exact ⟨Same.alike hw.symm, alikeItems_of_same hws⟩

/-- The same for members. -/
theorem alikeMembers_of_same : ∀ {ms ns : List (String × Value)},
    (∀ n v, (n, v) ∈ ms → ∃ w, (n, w) ∈ ns ∧ v.Same w) → AlikeMembers ms ns
  | [], _, _ => trivial
  | (name, v) :: _, _, h => by
      obtain ⟨w, hw, heq⟩ := h name v List.mem_cons_self
      exact ⟨⟨w, hw, Same.alike heq⟩,
        alikeMembers_of_same fun n v hmem => h n v (List.mem_cons_of_mem _ hmem)⟩

end

/-- **Sorting finds out** which values are alike. -/
theorem alike_iff_same {v w : Value} (hv : v.distinct = true) (hw : w.distinct = true) :
    v.Alike w ↔ v.Same w :=
  ⟨Alike.same hv hw, Same.alike⟩

end Value

end Json

end ScarbCrates
