import ScarbCrates.Proofs.Json.Drafting

/-!
# Values up to the order of members

Writers put the members of an object in different orders, and readers must not care.  Two values
are the same if they differ in such orders only; `Value.sorted` picks one value of each kind.

* `Value.Same` — the same value up to the order of members.
* `Value.Portable` — what every writer and reader of JSON agrees on.
* `Value.value_draft` — the value of a draft.
-/

namespace ScarbCrates

namespace Json

/-! ## Sorting twice -/

lemma sortedItems_eq (vs : List Value) : sortedItems vs = vs.map Value.sorted := by
  induction vs with
  | nil => rfl
  | cons v rest ih => rw [sortedItems, ih, List.map_cons]

lemma sortMembers_map {α β : Type} (f : α → β) (ms : List (String × α)) :
    sortMembers (ms.map fun m => (m.1, f m.2)) = (sortMembers ms).map fun m => (m.1, f m.2) :=
  (List.map_mergeSort (f := fun m : String × α => (m.1, f m.2)) fun _ _ _ _ => rfl).symm

lemma sortMembers_sortMembers {α : Type} (ms : List (String × α)) :
    sortMembers (sortMembers ms) = sortMembers ms :=
  List.mergeSort_of_pairwise (pairwise_sortMembers ms)

lemma keys_map {α β : Type} (f : α → β) (ms : List (String × α)) :
    Assoc.keys (ms.map fun m => (m.1, f m.2)) = Assoc.keys ms := List.map_map

mutual

/-- Sorting a second time changes nothing. -/
theorem Value.sorted_sorted : ∀ v : Value, v.sorted.sorted = v.sorted
  | .null | .bool _ | .int _ | .float _ | .text _ => rfl
  | .array vs => congrArg Value.array (sortedItems_sortedItems vs)
  | .object ms => by
      have hms := sortedMembers_sortedMembers ms
      rw [sortedMembers_eq (sortedMembers ms)] at hms
      rw [Value.sorted, Value.sorted, sortedMembers_eq (sortMembers _), ← sortMembers_map, hms,
        sortMembers_sortMembers]

/-- The same for items. -/
theorem sortedItems_sortedItems : ∀ vs : List Value, sortedItems (sortedItems vs) = sortedItems vs
  | [] => rfl
  | v :: vs => congrArg₂ List.cons (Value.sorted_sorted v) (sortedItems_sortedItems vs)

/-- The same for the values of members. -/
theorem sortedMembers_sortedMembers :
    ∀ ms : List (String × Value), sortedMembers (sortedMembers ms) = sortedMembers ms
  | [] => rfl
  | (name, v) :: ms => congrArg₂ (fun v ms => (name, v) :: ms) (Value.sorted_sorted v)
      (sortedMembers_sortedMembers ms)

end

/-! ## The same value -/

/-- **The same value,** up to the order of the members of every object. -/
def Value.Same (w v : Value) : Prop := w.sorted = v.sorted

namespace Value

lemma same_sorted (v : Value) : v.sorted.Same v := v.sorted_sorted

/-- What has no parts is the same as itself only. -/
lemma Same.eq {w v : Value} (h : w.Same v) (hv : v.IsScalar) : w = v := by
  cases v with
  | array | object => exact hv.elim
  | _ =>
    cases w with
    | array | object => cases h
    | _ => exact h

lemma same_array {w : Value} {vs : List Value} (h : w.Same (.array vs)) :
    ∃ ws, w = .array ws ∧ List.Forall₂ Same ws vs := by
  cases w with
  | array ws =>
      have hitems : sortedItems ws = sortedItems vs := Value.array.inj h
      rw [sortedItems_eq, sortedItems_eq, ← List.forall₂_eq_eq_eq, List.forall₂_map_left_iff,
        List.forall₂_map_right_iff] at hitems
      exact ⟨ws, rfl, hitems⟩
  | _ => cases h

/-- The same members in some order. -/
structure SameMembers (ns ms : List (String × Value)) : Prop where
  names : (Assoc.keys ns).Perm (Assoc.keys ms)
  left : ∀ n w, (n, w) ∈ ns → ∃ v, (n, v) ∈ ms ∧ w.Same v
  right : ∀ n v, (n, v) ∈ ms → ∃ w, (n, w) ∈ ns ∧ w.Same v

lemma sameMembers_of_perm {ns ms : List (String × Value)}
    (h : (sortedMembers ns).Perm (sortedMembers ms)) : SameMembers ns ms := by
  rw [sortedMembers_eq, sortedMembers_eq] at h
  refine ⟨?_, fun n w hmem => ?_, fun n v hmem => ?_⟩
  · have hnames := h.map Prod.fst
    rwa [List.map_map, List.map_map] at hnames
  · obtain ⟨m, hm, heq⟩ := List.mem_map.1 (h.mem_iff.1 (List.mem_map_of_mem hmem))
    obtain ⟨rfl, hsame⟩ := Prod.mk.inj heq
    exact ⟨m.2, hm, hsame.symm⟩
  · obtain ⟨m, hm, heq⟩ := List.mem_map.1 (h.mem_iff.2 (List.mem_map_of_mem hmem))
    obtain ⟨rfl, hsame⟩ := Prod.mk.inj heq
    exact ⟨m.2, hm, hsame⟩

/-- An object that is the same has the same members. -/
lemma same_object {w : Value} {ms : List (String × Value)} (h : w.Same (.object ms)) :
    ∃ ns, w = .object ns ∧ SameMembers ns ms := by
  cases w with
  | object ns =>
      have hmembers : sortMembers (sortedMembers ns) = sortMembers (sortedMembers ms) :=
        Value.object.inj h
      exact ⟨ns, rfl, sameMembers_of_perm (((sortMembers_perm _).symm.trans
        (.of_eq hmembers)).trans (sortMembers_perm _))⟩
  | _ => cases h

/-- **The order of members does not matter.** -/
lemma same_of_perm {ns ms : List (String × Value)} (hnodup : (Assoc.keys ms).Nodup)
    (h : ns.Perm ms) : (Value.object ns).Same (.object ms) := by
  have hsorted : sortMembers ns = sortMembers ms := by
    have hperm := ((sortMembers_perm ns).trans h).trans (sortMembers_perm ms).symm
    refine hperm.eq_of_pairwise (fun a b ha hb hab hba => ?_) (pairwise_sortMembers ns)
      (pairwise_sortMembers ms)
    simp only [Bool.not_eq_true', decide_eq_false_iff_not, String.not_lt] at hab hba
    -- Members with the same name are one member.
    exact List.inj_on_of_nodup_map hnodup (h.mem_iff.1 ((sortMembers_perm ns).mem_iff.1 ha))
      ((sortMembers_perm ms).mem_iff.1 hb) (String.le_antisymm hab hba)
  show Value.object (sortMembers (sortedMembers ns)) = .object (sortMembers (sortedMembers ms))
  rw [sortedMembers_eq, sortedMembers_eq, sortMembers_map, sortMembers_map, hsorted]

end Value

/-! ## Portable values -/

namespace Value

mutual

/-- What every writer and reader of JSON agrees on: no floating-point numbers, integers of one
machine word, and objects whose members have different names. -/
def Portable : Value → Prop
  | .float _ => False
  | .int i => fitsWord i = true
  | .array items => PortableItems items
  | .object members => (Assoc.keys members).Nodup ∧ PortableMembers members
  | _ => True

/-- The same for all items. -/
def PortableItems : List Value → Prop
  | [] => True
  | v :: rest => v.Portable ∧ PortableItems rest

/-- The same for the values of all members. -/
def PortableMembers : List (String × Value) → Prop
  | [] => True
  | (_, v) :: rest => v.Portable ∧ PortableMembers rest

end

lemma portableItems_iff {vs : List Value} : PortableItems vs ↔ ∀ v ∈ vs, v.Portable := by
  induction vs with
  | nil => exact ⟨fun _ => List.forall_mem_nil _, fun _ => trivial⟩
  | cons v vs ih => rw [PortableItems, ih, List.forall_mem_cons]

lemma portableMembers_iff {ms : List (String × Value)} :
    PortableMembers ms ↔ ∀ m ∈ ms, m.2.Portable := by
  induction ms with
  | nil => exact ⟨fun _ => List.forall_mem_nil _, fun _ => trivial⟩
  | cons m ms ih =>
      obtain ⟨name, v⟩ := m
      rw [PortableMembers, ih, List.forall_mem_cons]

/-- The order of members is of no account. -/
lemma portableMembers_perm {ms ns : List (String × Value)} (h : ms.Perm ns) :
    PortableMembers ms ↔ PortableMembers ns := by
  rw [portableMembers_iff, portableMembers_iff]
  exact forall_congr' fun _ => by rw [h.mem_iff]

mutual

/-- Sorting neither helps nor harms. -/
theorem portable_sorted_iff : ∀ v : Value, v.sorted.Portable ↔ v.Portable
  | .null | .bool _ | .int _ | .float _ | .text _ => Iff.rfl
  | .array vs => portableItems_sortedItems_iff vs
  | .object ms => by
      have hp := sortMembers_perm (sortedMembers ms)
      have hkeys : Assoc.keys (sortedMembers ms) = Assoc.keys ms := by
        rw [sortedMembers_eq, keys_map]
      rw [sorted, Portable, Portable, portableMembers_perm hp, portableMembers_sortedMembers_iff ms,
        ← hkeys]
      exact and_congr_left' (hp.map Prod.fst).nodup_iff

/-- The same for items. -/
theorem portableItems_sortedItems_iff :
    ∀ vs : List Value, PortableItems (sortedItems vs) ↔ PortableItems vs
  | [] => Iff.rfl
  | v :: vs => and_congr (portable_sorted_iff v) (portableItems_sortedItems_iff vs)

/-- The same for the values of members. -/
theorem portableMembers_sortedMembers_iff :
    ∀ ms : List (String × Value), PortableMembers (sortedMembers ms) ↔ PortableMembers ms
  | [] => Iff.rfl
  | (_, v) :: ms => and_congr (portable_sorted_iff v) (portableMembers_sortedMembers_iff ms)

end

lemma Portable.same {v w : Value} (hv : v.Portable) (h : w.Same v) : w.Portable := by
  rw [← portable_sorted_iff, h, portable_sorted_iff]
  exact hv

/-- The integers of a machine word have twenty digits at most. -/
lemma length_intChars_le {i : Int} (h : fitsWord i = true) :
    (intChars i).length ≤ longestWhole := by
  have hword : ∀ {n : Nat}, n < 2 ^ 64 → (Nat.toDigits 10 n).length ≤ 20 := fun hn =>
    (Nat.length_toDigits_le_iff (by decide) (by decide)).2 (Nat.lt_trans hn (by decide))
  simp only [fitsWord, Bool.and_eq_true, decide_eq_true_eq] at h
  have hlow : (-2 ^ 63 : Int) ≤ i := h.1
  have hhigh : i < (2 ^ 64 : Int) := h.2
  rw [longestWhole]
  cases i with
  | ofNat n =>
      rw [Int.ofNat_eq_natCast] at hhigh
      have hdigits := @hword n (by omega)
      rw [intChars]
      omega
  | negSucc n =>
      have hdigits := @hword (n + 1) (by omega)
      rw [intChars, List.length_cons]
      omega

mutual

/-- A portable value can be written and read. -/
theorem Portable.legible : ∀ {v : Value}, v.Portable →
    v.floatFree = true ∧ v.distinct = true ∧ v.width ≤ longestWhole
  | .null, _ | .bool _, _ | .text _, _ => ⟨rfl, rfl, Nat.zero_le _⟩
  | .int _, hv => ⟨rfl, rfl, length_intChars_le hv⟩
  | .float _, hv => hv.elim
  | .array _, hv => PortableItems.legible hv
  | .object _, hv => by
      obtain ⟨hfloat, hdistinct, hwidth⟩ := PortableMembers.legible hv.2
      exact ⟨hfloat, by rw [distinct, hdistinct, decide_eq_true hv.1]; rfl, hwidth⟩

/-- The same for items. -/
theorem PortableItems.legible : ∀ {vs : List Value}, PortableItems vs →
    floatFreeItems vs = true ∧ distinctItems vs = true ∧ widthOfItems vs ≤ longestWhole
  | [], _ => ⟨rfl, rfl, Nat.zero_le _⟩
  | _ :: _, hvs => by
      obtain ⟨hfloat, hdistinct, hwidth⟩ := Portable.legible hvs.1
      obtain ⟨hfloats, hdistincts, hwidths⟩ := PortableItems.legible hvs.2
      simp only [floatFreeItems, distinctItems, widthOfItems, Bool.and_eq_true, Nat.max_le]
      exact ⟨⟨hfloat, hfloats⟩, ⟨hdistinct, hdistincts⟩, hwidth, hwidths⟩

/-- The same for the values of members. -/
theorem PortableMembers.legible : ∀ {ms : List (String × Value)}, PortableMembers ms →
    floatFreeMembers ms = true ∧ distinctMembers ms = true ∧ widthOfMembers ms ≤ longestWhole
  | [], _ => ⟨rfl, rfl, Nat.zero_le _⟩
  | _ :: _, hms => by
      obtain ⟨hfloat, hdistinct, hwidth⟩ := Portable.legible hms.1
      obtain ⟨hfloats, hdistincts, hwidths⟩ := PortableMembers.legible hms.2
      simp only [floatFreeMembers, distinctMembers, widthOfMembers, Bool.and_eq_true, Nat.max_le]
      exact ⟨⟨hfloat, hfloats⟩, ⟨hdistinct, hdistincts⟩, hwidth, hwidths⟩

end

/-! ## Drafts without faults -/

mutual

/-- **The value of a value's draft** is the value. -/
theorem value_draft : ∀ (v : Value) (p : Place), v.distinct = true → v.draft.value p = .ok v
  | .null, _, _ | .bool _, _, _ | .int _, _, _ | .float _, _, _ | .text _, _, _ => rfl
  | .array vs, p, hv => value_array_iff.2 ⟨rfl, vs, valuesOfItems_draft vs p 0 hv, rfl⟩
  | .object ms, p, hv => by
      simp only [distinct, Bool.and_eq_true, decide_eq_true_eq] at hv
      refine value_object_iff.2 ⟨rfl, ms, valuesOfMembers_draft ms p hv.2, ?_⟩
      rw [collect_of_nodup hv.1]

/-- The same for items. -/
theorem valuesOfItems_draft : ∀ (vs : List Value) (p : Place) (i : Nat),
    distinctItems vs = true → valuesOfItems p i (draftItems vs) = .ok vs
  | [], _, _, _ => rfl
  | v :: vs, p, i, hvs => by
      simp only [distinctItems, Bool.and_eq_true] at hvs
      exact valuesOfItems_cons_iff.2
        ⟨v, vs, value_draft v _ hvs.1, valuesOfItems_draft vs p (i + 1) hvs.2, rfl⟩

/-- The same for members. -/
theorem valuesOfMembers_draft : ∀ (ms : List (String × Value)) (p : Place),
    distinctMembers ms = true → valuesOfMembers p (draftMembers ms) = .ok ms
  | [], _, _ => rfl
  | (name, v) :: ms, p, hms => by
      simp only [distinctMembers, Bool.and_eq_true] at hms
      exact valuesOfMembers_cons_iff.2
        ⟨name, v, ms, rfl, value_draft v _ hms.1, valuesOfMembers_draft ms p hms.2, rfl⟩

end

/-- **The text of a portable value** is a text of it, be it compact or indented. -/
lemma isText_render {v : Value} (hv : v.Portable) (pretty : Bool) :
    ∃ n ≤ longestWhole, IsText v n (v.render pretty).toList := by
  obtain ⟨hfloat, hdistinct, hwidth⟩ := hv.legible
  have hread := ofText_render hfloat hwidth pretty isBlank_nil
  rw [List.append_nil] at hread
  exact isText_of_ofText (by rw [hread]; exact v.value_draft [] hdistinct) (by rw [hread])

mutual

/-- The draft of a value can be gone past. -/
theorem skip_draft : ∀ v : Value, v.draft.skip = .ok ()
  | .null | .bool _ | .int _ | .float _ | .text _ => rfl
  | .array vs => by
      rw [draft, Draft.skip, skipItems_draft vs]
      rfl
  | .object ms => by
      rw [draft, Draft.skip, skipMembers_draft ms]
      rfl

/-- The same for items. -/
theorem skipItems_draft : ∀ vs : List Value, skipItems (draftItems vs) = .ok ()
  | [] => rfl
  | v :: vs => by
      rw [draftItems, skipItems, skip_draft v, skipItems_draft vs]
      rfl

/-- The same for members. -/
theorem skipMembers_draft : ∀ ms : List (String × Value), skipMembers (draftMembers ms) = .ok ()
  | [] => rfl
  | (name, v) :: ms => by
      rw [draftMembers, skipMembers, skip_draft v, skipMembers_draft ms]
      rfl

end

end Value

end Json

end ScarbCrates
