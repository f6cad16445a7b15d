import ScarbCrates.Proofs.Datum.Canonical
import ScarbCrates.Proofs.Json.Rearranging

/-!
# Data as JSON

What is written for data, part by part.  JSON data that is kept as it is is written with its
members sorted.  Typed data is written field by field; made plain before, it has the same JSON
value up to the order of members.

* `Datum.toJson_ofJson` — JSON data.
* `Datum.IsPortable`, `Datum.SameJson` — portable JSON data, and when it is the same.
* `Datum.IsTyped`, `Datum.exists_builtins` — typed data and its plain form.
-/

namespace ScarbCrates

open Json (Value)

namespace Datum

/-! ## Scalars, lists and fields -/

lemma toJson_ofString (s : String) : (ofString s).toJson = .ok (.text s) := by
  rw [ofString, toJson, encodeText, Text.toString?_ofString]
  rfl

lemma toJson_path {p : Path} {s : String} (h : p.toString? = .ok s) :
    (Datum.path p).toJson = .ok (.text s) := by
  rw [toJson, encodeText]
  rw [Path.toString?] at h
  rw [h]
  rfl

lemma sequenceAll_toJsonEach {ds : List Datum} {vs : List Value} :
    sequenceAll ((toJsonEach ds).map Prod.snd) = .ok vs ↔
      List.Forall₂ (fun d v => toJson d = .ok v) ds vs := by
  induction ds generalizing vs with
  | nil =>
      rw [toJsonEach, List.map_nil, sequenceAll, Except.ok.injEq, List.forall₂_nil_left_iff]
      exact eq_comm
  | cons d ds ih =>
      rw [toJsonEach, List.map_cons, sequenceAll, List.forall₂_cons_left_iff]
      constructor
      · intro h
        obtain ⟨v, hv, h⟩ := exists_of_bind_eq_ok h
        obtain ⟨vs', hvs', h⟩ := exists_of_bind_eq_ok h
        exact ⟨v, vs', hv, ih.1 hvs', (Except.ok.inj h).symm⟩
      · rintro ⟨v, vs', hv, hvs', rfl⟩
        rw [hv, ih.2 hvs']
        rfl

/-- A list or a tuple is written item by item. -/
lemma toJson_sequence_iff {how : Gathering} (hhow : how ≠ .set) {ds : List Datum} {v : Value} :
    (Datum.sequence how ds).toJson = .ok v ↔
      ∃ vs, List.Forall₂ (fun d v => toJson d = .ok v) ds vs ∧ v = .array vs := by
  rw [toJson]
  · constructor
    · intro h
      obtain ⟨vs, hvs, h⟩ := exists_of_bind_eq_ok h
      exact ⟨vs, sequenceAll_toJsonEach.1 hvs, (Except.ok.inj h).symm⟩
    · rintro ⟨vs, hvs, rfl⟩
      rw [sequenceAll_toJsonEach.2 hvs]
      rfl
  · exact hhow

lemma toJson_sequence {how : Gathering} (hhow : how ≠ .set) {ds : List Datum} {vs : List Value}
    (h : List.Forall₂ (fun d v => toJson d = .ok v) ds vs) :
    (Datum.sequence how ds).toJson = .ok (.array vs) :=
  (toJson_sequence_iff hhow).2 ⟨vs, h, rfl⟩

/-- A dictionary is written with its members sorted. -/
lemma toJson_dict_of_namedKeys {pairs : List (Datum × Datum)} {ms : List (String × Value)}
    (h : namedKeys (toJsonPairs pairs) = .ok (ms.map fun m => (m.1, .ok m.2))) :
    (Datum.dict pairs).toJson = .ok (.object (Json.sortMembers ms)) := by
  rw [toJson, h]
  show (sequenceMembers (Json.sortMembers (ms.map _)) >>= _) = _
  rw [Json.sortMembers_map, sequenceMembers_ok _ Prod.fst Prod.snd]
  simp

lemma namedKeys_cons {name : String} {d : Datum} {pairs : List (Datum × Datum)} {v : Value}
    {ms : List (String × Value)} (h : d.toJson = .ok v)
    (hs : namedKeys (toJsonPairs pairs) = .ok (ms.map fun m => (m.1, .ok m.2))) :
    namedKeys (toJsonPairs ((ofString name, d) :: pairs)) =
      .ok (((name, v) :: ms).map fun m => (m.1, .ok m.2)) := by
  rw [toJsonPairs, ofString, namedKeys]
  simp only [text?, encodeText, Text.toString?_ofString, h]
  rw [hs]
  rfl

lemma toJsonFields_cons {name : String} {d : Datum} {fields : List (String × Datum)} {v : Value}
    {ms : List (String × Value)} (h : d.toJson = .ok v) (hs : toJsonFields fields = .ok ms) :
    toJsonFields ((name, d) :: fields) = .ok ((name, v) :: ms) := by
  rw [toJsonFields, h, hs]
  rfl

lemma toJsonFields_append {fields fields' : List (String × Datum)}
    {ms ns : List (String × Value)} (h : toJsonFields fields = .ok ms)
    (h' : toJsonFields fields' = .ok ns) : toJsonFields (fields ++ fields') = .ok (ms ++ ns) := by
  induction fields generalizing ms with
  | nil =>
      obtain rfl := Except.ok.inj h
      exact h'
  | cons field fields ih =>
      obtain ⟨name, d⟩ := field
      rw [toJsonFields] at h
      obtain ⟨v, hv, h⟩ := exists_of_bind_eq_ok h
      obtain ⟨ms', hms', h⟩ := exists_of_bind_eq_ok h
      obtain rfl := Except.ok.inj h
      exact toJsonFields_cons hv (ih hms')

/-! ## JSON data -/

lemma ofJsonMembers_eq (ms : List (String × Value)) :
    ofJsonMembers ms = ms.map fun m => (ofString m.1, ofJson m.2) := by
  induction ms with
  | nil => rfl
  | cons m ms ih =>
      obtain ⟨name, v⟩ := m
      rw [ofJsonMembers, ih, List.map_cons]

lemma ofMembers_eq_ofJson (ms : List (String × Value)) :
    Datum.ofMembers (ms.map fun m => (m.1, ofJson m.2)) = ofJson (.object ms) := by
  rw [ofMembers, ofJson, ofJsonMembers_eq, List.map_map]
  rfl

mutual

/-- **A JSON value that was kept as data** is written with its members sorted. -/
theorem toJson_ofJson : ∀ v : Value, (ofJson v).toJson = .ok v.sorted
  | .null | .bool _ | .int _ | .float _ => rfl
  | .text s => toJson_ofString s
  | .array vs => toJson_sequence (by decide) (toJson_ofJsonItems vs)
  | .object ms => toJson_dict_of_namedKeys (toJson_ofJsonMembers ms)

/-- The same for items. -/
theorem toJson_ofJsonItems : ∀ vs : List Value,
    List.Forall₂ (fun d v => toJson d = .ok v) (ofJsonItems vs) (Json.sortedItems vs)
  | [] => .nil
  | v :: vs => .cons (toJson_ofJson v) (toJson_ofJsonItems vs)

/-- The same for members. -/
theorem toJson_ofJsonMembers : ∀ ms : List (String × Value),
    namedKeys (toJsonPairs (ofJsonMembers ms)) =
      .ok ((Json.sortedMembers ms).map fun m => (m.1, .ok m.2))
  | [] => rfl
  | (_, v) :: ms => namedKeys_cons (toJson_ofJson v) (toJson_ofJsonMembers ms)

end

/-- Portable JSON data. -/
def IsPortable (d : Datum) : Prop := ∃ v : Value, v.Portable ∧ d = ofJson v

/-- **The same portable JSON data** up to the order of members. -/
def SameJson (a b : Datum) : Prop :=
  ∃ w v : Value, a = ofJson w ∧ b = ofJson v ∧ v.Portable ∧ w.Same v

lemma IsPortable.same {d : Datum} (h : d.IsPortable) : d.SameJson d := by
  obtain ⟨v, hv, rfl⟩ := h
  exact ⟨v, v, rfl, rfl, hv, rfl⟩

/-! ## Typed data -/

mutual

/-- Typed data: lists and records of scalars, all of which have one form. -/
def IsTyped : Datum → Prop
  | .sequence how items => how ≠ .set ∧ TypedItems items
  | .record _ fields => TypedFields fields
  | .dict _ => False
  | .float _ => False
  | .foreign _ => False
  | _ => True

/-- The same for items. -/
def TypedItems : List Datum → Prop
  | [] => True
  | d :: rest => d.IsTyped ∧ TypedItems rest

/-- The same for fields. -/
def TypedFields : List (String × Datum) → Prop
  | [] => True
  | (_, d) :: rest => d.IsTyped ∧ TypedFields rest

end

lemma typedItems_iff {ds : List Datum} : TypedItems ds ↔ ∀ d ∈ ds, d.IsTyped := by
  induction ds with
  | nil => exact ⟨fun _ => List.forall_mem_nil _, fun _ => trivial⟩
  | cons d ds ih => rw [TypedItems, ih, List.forall_mem_cons]

lemma typedFields_append {fields fields' : List (String × Datum)} :
    TypedFields (fields ++ fields') ↔ TypedFields fields ∧ TypedFields fields' := by
  induction fields with
  | nil => exact (and_iff_right trivial).symm
  | cons field fields ih => rw [List.cons_append, TypedFields, TypedFields, ih, and_assoc]

lemma sequenceAll_builtinsEach {textKeys : Bool} {ds ps : List Datum}
    (h : List.Forall₂ (fun d p => builtins textKeys d = .ok p) ds ps) :
    sequenceAll ((builtinsEach textKeys ds).map Prod.snd) = .ok ps := by
  induction h with
  | nil => rfl
  | cons hd _ ih =>
      rw [builtinsEach, List.map_cons, sequenceAll, hd, ih]
      rfl

lemma builtins_sequence {textKeys : Bool} {how : Gathering} (hhow : how ≠ .set)
    {ds ps : List Datum} (h : List.Forall₂ (fun d p => builtins textKeys d = .ok p) ds ps) :
    builtins textKeys (.sequence how ds) = .ok (.sequence .list ps) := by
  rw [builtins, sequenceAll_builtinsEach h]
  · rfl
  · exact hhow

mutual

/-- **Typed data in its plain form** has the same JSON value, with its members sorted. -/
theorem exists_builtins (textKeys : Bool) : ∀ {d : Datum} {v : Value}, d.IsTyped →
    d.toJson = .ok v → ∃ p, builtins textKeys d = .ok p ∧ p.toJson = .ok v.sorted
  | .null, _, _, h => by
      obtain rfl := Except.ok.inj h
      exact ⟨.null, rfl, rfl⟩
  | .bool b, _, _, h => by
      obtain rfl := Except.ok.inj h
      exact ⟨.bool b, rfl, rfl⟩
  | .int i, _, _, h => by
      obtain rfl := Except.ok.inj h
      exact ⟨.int i, rfl, rfl⟩
  | .text t, _, _, h => by
      obtain ⟨s, -, rfl⟩ := exists_of_map_eq_ok h
      exact ⟨.text t, rfl, h⟩
  | .bytes _ data, _, _, h => by
      obtain rfl := Except.ok.inj h
      exact ⟨.ofString (Base64.encode data), rfl, toJson_ofString _⟩
  | .path p, _, _, h => by
      obtain ⟨s, -, rfl⟩ := exists_of_map_eq_ok h
      exact ⟨.text p.text, rfl, h⟩
  | .edition e, _, _, h => by
      obtain rfl := Except.ok.inj h
      exact ⟨.ofString e.name, rfl, toJson_ofString _⟩
  | .durability d, _, _, h => by
      obtain rfl := Except.ok.inj h
      exact ⟨.int d.level, rfl, rfl⟩
  | .sequence how ds, _, hd, h => by
      obtain ⟨vs, hvs, rfl⟩ := (toJson_sequence_iff hd.1).1 h
      obtain ⟨ps, hps, hjson⟩ := exists_builtinsItems textKeys hd.2 hvs
      exact ⟨.sequence .list ps, builtins_sequence hd.1 hps, toJson_sequence (by decide) hjson⟩
  | .record kind fields, _, hd, h => by
      rw [toJson] at h
      obtain ⟨ms, hms, h⟩ := exists_of_bind_eq_ok h
      obtain rfl := Except.ok.inj h
      obtain ⟨ps, hps, hjson⟩ := exists_builtinsFields textKeys hd hms
      exact ⟨.dict ps, by rw [builtins, hps]; rfl, toJson_dict_of_namedKeys hjson⟩

/-- The same for items. -/
theorem exists_builtinsItems (textKeys : Bool) : ∀ {ds : List Datum} {vs : List Value},
    TypedItems ds → List.Forall₂ (fun d v => toJson d = .ok v) ds vs →
    ∃ ps, List.Forall₂ (fun d p => builtins textKeys d = .ok p) ds ps ∧
      List.Forall₂ (fun p v => toJson p = .ok v) ps (Json.sortedItems vs)
  | [], _, _, h => by
      obtain rfl := List.forall₂_nil_left_iff.1 h
      exact ⟨[], .nil, .nil⟩
  | d :: ds, _, hd, h => by
      obtain ⟨v, vs, hv, hvs, rfl⟩ := List.forall₂_cons_left_iff.1 h
      obtain ⟨p, hp, hpjson⟩ := exists_builtins textKeys hd.1 hv
      obtain ⟨ps, hps, hpsjson⟩ := exists_builtinsItems textKeys hd.2 hvs
      exact ⟨p :: ps, .cons hp hps, .cons hpjson hpsjson⟩

/-- The same for fields. -/
theorem exists_builtinsFields (textKeys : Bool) : ∀ {fields : List (String × Datum)}
    {ms : List (String × Value)}, TypedFields fields → toJsonFields fields = .ok ms →
    ∃ ps, builtinsFields textKeys fields = .ok ps ∧
      namedKeys (toJsonPairs ps) = .ok ((Json.sortedMembers ms).map fun m => (m.1, .ok m.2))
  | [], _, _, h => by
      obtain rfl := Except.ok.inj h
      exact ⟨[], rfl, rfl⟩
  | (name, d) :: fields, _, hd, h => by
      rw [toJsonFields] at h
      obtain ⟨v, hv, h⟩ := exists_of_bind_eq_ok h
      obtain ⟨ms, hms, h⟩ := exists_of_bind_eq_ok h
      obtain rfl := Except.ok.inj h
      obtain ⟨p, hp, hpjson⟩ := exists_builtins textKeys hd.1 hv
      obtain ⟨ps, hps, hpsjson⟩ := exists_builtinsFields textKeys hd.2 hms
      exact ⟨(ofString name, p) :: ps, by rw [builtinsFields, hp, hps]; rfl,
        namedKeys_cons hpjson hpsjson⟩

end

end Datum

end ScarbCrates
