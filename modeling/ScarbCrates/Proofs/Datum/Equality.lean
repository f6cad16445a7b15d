import ScarbCrates.Proofs.Datum.Writing
import ScarbCrates.Proofs.Schema.Form

/-!
# Data that is the same is equal

Dictionaries are equal if they have the same entries, so JSON data is equal to itself with the
members of every object in another order.

* `Datum.eq_ofJson` — the same JSON data is equal.
* `Datum.IsTyped.eq_self` — typed data is equal to itself.
-/

namespace ScarbCrates

open Json (Value)

namespace Datum

lemma eq_ofString (s : String) : eq (ofString s) (ofString s) = true := by
  rw [ofString, eq_text]
  exact beq_self_eq_true _

lemma eq_path (p : Path) : eq (.path p) (.path p) = true := by
  simp [eq]

lemma eq_int (i : Int) : eq (.int i) (.int i) = true := by
  simp [eq, number?, sameNumber]

lemma eq_sequence {how : Gathering} (hhow : how ≠ .set) (as bs : List Datum) :
    eq (.sequence how as) (.sequence how bs) = eqItems as bs := by
  simp [eq, hhow]

lemma eq_record (kind : String) (fields fields' : List (String × Datum)) :
    eq (.record kind fields) (.record kind fields') = eqFields fields fields' := by
  simp [eq]

lemma eqItems_iff {as bs : List Datum} :
    eqItems as bs = true ↔ List.Forall₂ (fun a b => eq a b = true) as bs := by
  induction as generalizing bs with
  | nil => cases bs <;> simp [eqItems]
  | cons a as ih => cases bs <;> simp [eqItems, ih]

lemma eqPairs_iff {ps qs : List (Datum × Datum)} :
    eqPairs ps qs = true ↔ ∀ p ∈ ps, ∃ q ∈ qs, eq p.1 q.1 = true ∧ eq p.2 q.2 = true := by
  induction ps with
  | nil => simp [eqPairs]
  | cons p ps ih =>
      obtain ⟨k, v⟩ := p
      simp only [eqPairs, ih, Bool.and_eq_true, List.any_eq_true, List.forall_mem_cons]

lemma eqFields_nil : eqFields [] [] = true := by
  rw [eqFields]

lemma eqFields_cons {name : String} {a b : Datum} {fields fields' : List (String × Datum)}
    (h : eq a b = true) (hs : eqFields fields fields' = true) :
    eqFields ((name, a) :: fields) ((name, b) :: fields') = true := by
  rw [eqFields, h, hs]
  simp

lemma eqFields_append {as bs as' bs' : List (String × Datum)} (h : eqFields as bs = true)
    (h' : eqFields as' bs' = true) : eqFields (as ++ as') (bs ++ bs') = true := by
  induction as generalizing bs with
  | nil =>
      cases bs with
      | nil => exact h'
      | cons => simp [eqFields] at h
  | cons a as ih =>
      cases bs with
      | nil => simp [eqFields] at h
      | cons b bs =>
          obtain ⟨n, x⟩ := a
          obtain ⟨m, y⟩ := b
          simp only [List.cons_append, eqFields, Bool.and_eq_true] at h ⊢
          exact ⟨h.1, ih h.2⟩

/-! ## JSON data -/

mutual

/-- **JSON data is equal to itself in another order.** -/
theorem eq_ofJson : ∀ {w v : Value}, w.Same v → v.IsJson → eq (ofJson w) (ofJson v) = true
  | w, .null, h, _ => by
      obtain rfl := h.eq trivial
      simp [ofJson, eq]
  | w, .bool b, h, _ => by
      obtain rfl := h.eq trivial
      simp [ofJson, eq, number?, sameNumber]
  | w, .int i, h, _ => by
      obtain rfl := h.eq trivial
      exact eq_int i
  | w, .float x, h, hv => by
      obtain rfl := h.eq trivial
      simp [ofJson, eq, number?, sameNumber, hv.numbers [] x rfl]
  | w, .text s, h, _ => by
      obtain rfl := h.eq trivial
      exact eq_ofString s
  | w, .array vs, h, hv => by
      obtain ⟨ws, rfl, hws⟩ := Json.Value.same_array h
      rw [ofJson, ofJson, eq_sequence (by decide)]
      refine eqItems_ofJson hws fun v hmem => ?_
      obtain ⟨i, hi⟩ := List.mem_iff_getElem?.1 hmem
      exact hv.item hi
  | w, .object ms, h, hv => by
      obtain ⟨ns, rfl, hsame⟩ := Json.Value.same_object h
      have hlength : ns.length = ms.length := by
        have hnames := hsame.names.length_eq
        rwa [Assoc.keys, Assoc.keys, List.length_map, List.length_map] at hnames
      rw [ofJson, ofJson, ofJsonMembers_eq, ofJsonMembers_eq, eq, List.length_map, List.length_map,
        hlength, beq_self_eq_true, Bool.true_and, eqPairs_iff]
      intro p hp
      obtain ⟨⟨n, w⟩, hmem, rfl⟩ := List.mem_map.1 hp
      obtain ⟨v, hv', hw⟩ := hsame.left n w hmem
      exact ⟨_, List.mem_map.2 ⟨(n, v), hv', rfl⟩, eq_ofString n,
        eq_ofJsonMember (fun m hm => hv.member hm) _ hv' hw⟩

/-- The same for items. -/
theorem eqItems_ofJson : ∀ {ws vs : List Value}, List.Forall₂ Value.Same ws vs →
    (∀ v ∈ vs, v.IsJson) → eqItems (ofJsonItems ws) (ofJsonItems vs) = true
  | _, [], h, _ => by
      obtain rfl := List.forall₂_nil_right_iff.1 h
      rw [ofJsonItems, eqItems]
  | _, v :: vs, h, hv => by
      obtain ⟨w, ws, hw, hws, rfl⟩ := List.forall₂_cons_right_iff.1 h
      obtain ⟨hfirst, hrest⟩ := List.forall_mem_cons.1 hv
      rw [ofJsonItems, ofJsonItems, eqItems, eq_ofJson hw hfirst, eqItems_ofJson hws hrest]
      rfl

/-- The same for the value of a member. -/
theorem eq_ofJsonMember : ∀ {ms : List (String × Value)}, (∀ m ∈ ms, m.2.IsJson) →
    ∀ m ∈ ms, ∀ {w : Value}, w.Same m.2 → eq (ofJson w) (ofJson m.2) = true
  | [], _, _, hm, _, _ => absurd hm List.not_mem_nil
  | (n, v) :: ms, hms, m, hm, w, hw => by
      obtain ⟨hfirst, hrest⟩ := List.forall_mem_cons.1 hms
      rcases List.mem_cons.1 hm with rfl | hm
      · exact eq_ofJson hw hfirst
      · exact eq_ofJsonMember hrest m hm hw

end

lemma SameJson.eq {a b : Datum} (h : a.SameJson b) : Datum.eq a b = true := by
  obtain ⟨w, v, rfl, rfl, hv, hw⟩ := h
  exact eq_ofJson hw hv.isJson

/-! ## Typed data -/

mutual

/-- **Typed data is equal to itself.** -/
theorem IsTyped.eq_self : ∀ {d : Datum}, d.IsTyped → eq d d = true
  | .null, _ | .bytes _ _, _ | .path _, _ => by simp [eq]
  | .bool _, _ | .int _, _ | .durability _, _ => by simp [eq, number?, sameNumber]
  | .text _, _ | .edition _, _ => by simp [eq, number?, text?]
  | .sequence _ _, hd => by
      rw [eq_sequence hd.1]
      exact TypedItems.eq_self hd.2
  | .record _ _, hd => by
      rw [eq_record]
      exact TypedFields.eq_self hd

/-- The same for items. -/
theorem TypedItems.eq_self : ∀ {ds : List Datum}, TypedItems ds → eqItems ds ds = true
  | [], _ => by rw [eqItems]
  | _ :: _, hds => by
      rw [eqItems, IsTyped.eq_self hds.1, TypedItems.eq_self hds.2]
      rfl

/-- The same for fields. -/
theorem TypedFields.eq_self : ∀ {fields : List (String × Datum)}, TypedFields fields →
    eqFields fields fields = true
  | [], _ => eqFields_nil
  | _ :: _, hfields => eqFields_cons (IsTyped.eq_self hfields.1) (TypedFields.eq_self hfields.2)

end

end Datum

end ScarbCrates
