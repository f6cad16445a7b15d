import ScarbCrates.Proofs.Datum.Writing
import ScarbCrates.Proofs.Json.Alike
import ScarbCrates.Proofs.Text.Encoding

/-!
# Plain data

Data that is written as JSON is made plain first, and in its plain form it is JSON data: texts,
numbers, lists, and dictionaries with texts as keys, in an order of their own.

* `Datum.Becomes` — the value of data in its plain form, up to the order of members.
* `Datum.becomes_sequence`, `Datum.becomes_dict` — lists and dictionaries, part by part.
* `Datum.becomes_ofJson` — JSON data keeps its value.
-/

namespace ScarbCrates

open Json (Value)

/-- Members whose values are replaced by the same ones are the same members. -/
lemma Json.Value.same_object_map {α : Type} {entries : List α} (name : α → String)
    {f g : α → Value} (h : ∀ a ∈ entries, (f a).Same (g a)) :
    (object (entries.map fun a => (name a, f a))).Same
      (object (entries.map fun a => (name a, g a))) := by
  have hsorted : sortedMembers (entries.map fun a => (name a, f a)) =
      sortedMembers (entries.map fun a => (name a, g a)) := by
    rw [sortedMembers_eq, sortedMembers_eq, List.map_map, List.map_map]
    exact List.map_congr_left fun a ha => congrArg (Prod.mk (name a)) (h a ha)
  rw [Same, sorted, sorted, hsorted]

namespace Datum

variable {textKeys : Bool} {d : Datum} {v : Value}

/-- **The value of plain data:** the plain form is JSON data of that value, up to the order of
members. -/
def Becomes (textKeys : Bool) (d : Datum) (v : Value) : Prop :=
  ∃ p : Value, builtins textKeys d = .ok (ofJson p) ∧ p.Same v

lemma Becomes.of_eq (h : builtins textKeys d = .ok (ofJson v)) : Becomes textKeys d v := ⟨v, h, rfl⟩

/-! ## Lists and dictionaries -/

lemma becomes_sequence {how : Gathering} (hhow : how ≠ .set) {ds : List Datum} {vs : List Value}
    (h : List.Forall₂ (Becomes textKeys) ds vs) :
    Becomes textKeys (.sequence how ds) (.array vs) := by
  have hitems : ∃ ps : List Value,
      List.Forall₂ (fun d p => builtins textKeys d = .ok p) ds (ofJsonItems ps) ∧
        Json.sortedItems ps = Json.sortedItems vs := by
    induction h with
    | nil => exact ⟨[], .nil, rfl⟩
    | cons hd _ ih =>
        obtain ⟨p, hp, hsame⟩ := hd
        obtain ⟨ps, hps, hsames⟩ := ih
        exact ⟨p :: ps, .cons hp hps, congrArg₂ List.cons hsame hsames⟩
  obtain ⟨ps, hps, hsame⟩ := hitems
  exact ⟨.array ps, builtins_sequence hhow hps, congrArg Value.array hsame⟩

lemma ofJson_object {α : Type} (entries : List α) (name : α → String) (json : α → Value) :
    ofJson (.object (entries.map fun a => (name a, json a))) =
      .dict (textPairs entries (fun a => Text.ofString (name a)) fun a => ofJson (json a)) := by
  rw [ofJson, ofJsonMembers_eq, List.map_map]
  rfl

lemma becomes_dict {α : Type} {entries : List α} {name : α → String} {value : α → Datum}
    {json : α → Value} (hnames : (entries.map name).Nodup)
    (h : ∀ a ∈ entries, Becomes textKeys (value a) (json a)) :
    Becomes textKeys (.dict (textPairs entries (fun a => Text.ofString (name a)) value))
      (.object (entries.map fun a => (name a, json a))) := by
  choose! plain hplain using h
  have hkeys : (entries.map fun a => Text.ofString (name a)).Nodup := by
    have hnodup := hnames.map Text.ofString_injective
    rwa [List.map_map] at hnodup
  obtain ⟨entries', hperm, hdict⟩ := builtins_dict textKeys entries
    (fun a => Text.ofString (name a)) value (fun a => ofJson (plain a)) hkeys
    fun a ha => (hplain a ha).1
  refine ⟨.object (entries'.map fun a => (name a, plain a)), ?_, ?_⟩
  · rw [hdict, ofJson_object]
  · have hsame : (Value.object (entries'.map fun a => (name a, plain a))).Same
        (.object (entries'.map fun a => (name a, json a))) :=
      Json.Value.same_object_map name fun a ha => (hplain a (hperm.mem_iff.1 ha)).2
    have hnodup : (Assoc.keys (entries.map fun a => (name a, json a))).Nodup := by
      rw [Assoc.keys, List.map_map]
      exact hnames
    exact hsame.trans (Json.Value.same_of_perm hnodup (hperm.map _))

/-! ## JSON data -/

mutual

/-- **JSON data keeps its value.** -/
theorem becomes_ofJson : ∀ {v : Value}, v.distinct = true → Becomes textKeys (ofJson v) v
  | .null, _ | .bool _, _ | .int _, _ | .float _, _ | .text _, _ => .of_eq rfl
  | .array vs, hv => becomes_sequence (by decide) (becomes_ofJsonItems vs hv)
  | .object ms, hv => by
      rw [Json.Value.distinct_object_iff] at hv
      have hdict : Becomes textKeys
          (.dict (textPairs ms (fun m => Text.ofString m.1) fun m => ofJson m.2))
          (.object (ms.map fun m => (m.1, m.2))) :=
        becomes_dict hv.1 (becomes_ofJsonMembers ms hv.2)
      rwa [← ofJson_object, List.map_id'] at hdict

/-- The same for items. -/
theorem becomes_ofJsonItems : ∀ vs : List Value, Value.distinctItems vs = true →
    List.Forall₂ (Becomes textKeys) (ofJsonItems vs) vs
  | [], _ => .nil
  | v :: vs, hv => by
      rw [Value.distinctItems, Bool.and_eq_true] at hv
      exact .cons (becomes_ofJson hv.1) (becomes_ofJsonItems vs hv.2)

/-- The same for the values of members. -/
theorem becomes_ofJsonMembers : ∀ ms : List (String × Value),
    (∀ m ∈ ms, m.2.distinct = true) → ∀ m ∈ ms, Becomes textKeys (ofJson m.2) m.2
  | [], _ => List.forall_mem_nil _
  | (_, v) :: ms, hv => by
      rw [List.forall_mem_cons] at hv
      exact List.forall_mem_cons.2 ⟨becomes_ofJson hv.1, becomes_ofJsonMembers ms hv.2⟩

end

/-! ## Written -/

/-- What the plain form is written as. -/
lemma Becomes.exists_plain (h : Becomes textKeys d v) :
    ∃ plain, builtins textKeys d = .ok plain ∧ plain.toJson = .ok v.sorted := by
  obtain ⟨p, hp, hsame⟩ := h
  exact ⟨ofJson p, hp, by rw [toJson_ofJson, hsame]⟩

/-- **The canonical value of data** is its value with all members sorted. -/
lemma Becomes.canonical_eq (h : Becomes textKeys d v) : canonical textKeys d = .ok v.sorted := by
  obtain ⟨plain, hplain, hjson⟩ := h.exists_plain
  rw [canonical, hplain]
  show (plain.toJson >>= fun w => .ok w.sorted) = _
  rw [hjson]
  exact congrArg Except.ok v.sorted_sorted

end Datum

end ScarbCrates
