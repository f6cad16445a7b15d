import ScarbCrates.Datum.Encode
import ScarbCrates.Proofs.Datum.Sorting

/-!
# The canonical form of a dictionary

A dictionary whose keys are different strings, and whose values have a canonical form, has one
too: an object with the dictionary's entries as members, in an order of its own.

* `Datum.builtins_dict`, `Datum.toJson_dict` — the two steps to the form.
* `Json.Value.sorted_object` — the last step, which settles the order of the members.
-/

namespace ScarbCrates

/-- A rearranged image is the image of a rearrangement. -/
lemma exists_perm_of_perm_map {α β : Type} {f : α → β} {ys : List β} {xs : List α}
    (h : ys.Perm (xs.map f)) : ∃ xs' : List α, ys = xs'.map f ∧ xs'.Perm xs :=
  (congrFun₂ (List.eq_map_comp_perm f) ys xs).mpr h

lemma exists_of_bind_eq_ok {ε α β : Type} {x : Except ε α} {f : α → Except ε β} {b : β}
    (h : x >>= f = .ok b) : ∃ a, x = .ok a ∧ f a = .ok b := by
  cases x with
  | error e => simp [bind, Except.bind] at h
  | ok a => exact ⟨a, rfl, h⟩

lemma exists_of_map_eq_ok {ε α β : Type} {x : Except ε α} {f : α → β} {b : β}
    (h : x.map f = .ok b) : ∃ a, x = .ok a ∧ f a = b := by
  cases x with
  | error e => cases h
  | ok a => exact ⟨a, rfl, Except.ok.inj h⟩

namespace Json

lemma sortedMembers_eq (members : List (String × Value)) :
    sortedMembers members = members.map fun m => (m.1, m.2.sorted) := by
  induction members with
  | nil => rfl
  | cons m rest ih =>
      obtain ⟨name, v⟩ := m
      rw [sortedMembers, ih]
      rfl

lemma sortMembers_perm {α : Type} (ms : List (String × α)) : (sortMembers ms).Perm ms :=
  List.mergeSort_perm _ _

/-- Sorted members stand in the order of their names. -/
lemma pairwise_sortMembers {α : Type} (ms : List (String × α)) :
    (sortMembers ms).Pairwise fun a b => (!decide (b.1 < a.1)) = true := by
  refine List.pairwise_mergeSort ?_ ?_ ms
  · intro a b c hab hbc
    simp only [Bool.not_eq_true', decide_eq_false_iff_not, String.not_lt] at hab hbc ⊢
    exact String.le_trans hab hbc
  · intro a b
    simp only [Bool.or_eq_true, Bool.not_eq_true', decide_eq_false_iff_not, String.not_lt]
    exact String.le_total a.1 b.1

/-- Sorting an object sorts its values and puts its members in the order of their names. -/
lemma Value.sorted_object {α : Type} (entries : List α) (name : α → String) (value : α → Value) :
    ∃ entries' : List α, entries'.Perm entries ∧
      (entries'.Pairwise fun a b => ¬name b < name a) ∧
      (Value.object (entries.map fun a => (name a, value a))).sorted =
        .object (entries'.map fun a => (name a, (value a).sorted)) := by
  let members := entries.map fun a => (name a, (value a).sorted)
  obtain ⟨entries', he, hp⟩ := exists_perm_of_perm_map (sortMembers_perm members)
  refine ⟨entries', hp, ?_, ?_⟩
  · have horder := pairwise_sortMembers members
    rw [he, List.pairwise_map] at horder
    simpa only [Bool.not_eq_true', decide_eq_false_iff_not] using horder
  · rw [Value.sorted, sortedMembers_eq, List.map_map]
    exact congrArg Value.object he

end Json

namespace Datum

variable {α : Type}

/-! ## Plain dictionaries -/

/-- The pairs of a dictionary with texts as keys. -/
def textPairs (pairs : List α) (key : α → Text) (value : α → Datum) : List (Datum × Datum) :=
  pairs.map fun a => (.text (key a), value a)

lemma builtinsKey_text (textKeys : Bool) (t : Text) :
    builtinsKey textKeys (.text t) = .ok (.text t) := by
  cases textKeys <;> rfl

lemma checkKey_text (textKeys : Bool) (t : Text) : checkKey textKeys (.text t) = .ok () := by
  cases textKeys <;> rfl

lemma builtinsPairs_text (textKeys : Bool) {pairs : List α} {key : α → Text}
    {value plain : α → Datum} (h : ∀ a ∈ pairs, builtins textKeys (value a) = .ok (plain a)) :
    builtinsPairs textKeys (textPairs pairs key value) = .ok (textPairs pairs key plain) := by
  induction pairs with
  | nil => rfl
  | cons a rest ih =>
      rw [List.forall_mem_cons] at h
      simp only [textPairs, List.map_cons] at ih ⊢
      rw [builtinsPairs, builtinsKey_text, h.1, ih h.2]
      show (checkKey textKeys (.text (key a)) >>= _) = _
      rw [checkKey_text]
      rfl

lemma eq_text (s t : Text) : eq (.text s) (.text t) = (s == t) := by
  simp [eq, number?, text?]

lemma putPair_text (pairs : List α) (key : α → Text) (value : α → Datum) {t : Text}
    (h : t ∉ pairs.map key) (v : Datum) :
    putPair (textPairs pairs key value) (.text t) v =
      textPairs pairs key value ++ [(.text t, v)] := by
  induction pairs with
  | nil => rfl
  | cons a rest ih =>
      simp only [List.map_cons, List.mem_cons, not_or] at h
      simp only [textPairs, List.map_cons] at ih ⊢
      rw [putPair, eq_text, beq_eq_false_iff_ne.2 (Ne.symm h.1), ih h.2]
      rfl

/-- Pairs whose keys are different texts are the pairs of their dictionary. -/
lemma foldl_putPair_text (key : α → Text) (value : α → Datum) :
    ∀ rest pairs : List α, ((pairs ++ rest).map key).Nodup →
      (textPairs rest key value).foldl (fun ps p => putPair ps p.1 p.2)
          (textPairs pairs key value) =
        textPairs (pairs ++ rest) key value
  | [], pairs, _ => by simp [textPairs]
  | a :: rest, pairs, h => by
      have ha : key a ∉ pairs.map key := by
        rw [List.map_append, List.map_cons, List.nodup_append] at h
        exact fun hmem => h.2.2 _ hmem _ List.mem_cons_self rfl
      have hpairs : textPairs pairs key value ++ [(.text (key a), value a)] =
          textPairs (pairs ++ [a]) key value := by
        simp [textPairs]
      show (textPairs rest key value).foldl _
        (putPair (textPairs pairs key value) (.text (key a)) (value a)) = _
      rw [putPair_text pairs key value ha, hpairs,
        foldl_putPair_text key value rest _ (by simpa using h), List.append_assoc,
        List.singleton_append]

/-- **The plain form of a dictionary** has its entries, in some order. -/
theorem builtins_dict (textKeys : Bool) (pairs : List α) (key : α → Text)
    (value plain : α → Datum) (hkey : (pairs.map key).Nodup)
    (h : ∀ a ∈ pairs, builtins textKeys (value a) = .ok (plain a)) :
    ∃ pairs' : List α, pairs'.Perm pairs ∧
      builtins textKeys (.dict (textPairs pairs key value)) =
        .ok (.dict (textPairs pairs' key plain)) := by
  have htext : ∀ x ∈ textPairs pairs key plain, ∃ t, x.1 = .text t := by
    intro x hx
    obtain ⟨a, _, rfl⟩ := List.mem_map.1 hx
    exact ⟨_, rfl⟩
  obtain ⟨ps, hps, hp⟩ := exists_sortFirst_text htext
  obtain ⟨pairs', rfl, hp'⟩ := exists_perm_of_perm_map hp
  refine ⟨pairs', hp', ?_⟩
  rw [builtins, builtinsPairs_text textKeys h]
  show (sortFirst ((textPairs pairs key plain).foldl (fun ps p => putPair ps p.1 p.2)
    (textPairs [] key plain)) >>= _) = _
  rw [foldl_putPair_text key plain pairs [] hkey, List.nil_append, hps]
  rfl

/-! ## Dictionaries as JSON -/

lemma toJsonPairs_eq (pairs : List (Datum × Datum)) :
    toJsonPairs pairs = pairs.map fun p => (p.1, toJson p.2) := by
  induction pairs with
  | nil => rfl
  | cons p rest ih =>
      obtain ⟨k, v⟩ := p
      rw [toJsonPairs, ih]
      rfl

lemma namedKeys_text {β : Type} {pairs : List α} {key : α → Text} {name : α → String}
    (h : ∀ a ∈ pairs, Text.toString? (key a) = .ok (name a)) (f : α → β) :
    namedKeys (pairs.map fun a => (.text (key a), f a)) =
      .ok (pairs.map fun a => (name a, f a)) := by
  induction pairs with
  | nil => rfl
  | cons a rest ih =>
      rw [List.forall_mem_cons] at h
      simp only [List.map_cons, namedKeys, text?]
      rw [encodeText, h.1, ih h.2]
      rfl

lemma sequenceMembers_ok (members : List α) (name : α → String) (value : α → Json.Value) :
    sequenceMembers (members.map fun a => (name a, .ok (value a))) =
      .ok (members.map fun a => (name a, value a)) := by
  induction members with
  | nil => rfl
  | cons a rest ih =>
      simp only [List.map_cons, sequenceMembers]
      rw [ih]
      rfl

/-- **The JSON value of a dictionary** has its entries as members, in some order. -/
theorem toJson_dict (pairs : List α) (key : α → Text) (name : α → String) (value : α → Datum)
    (json : α → Json.Value) (hname : ∀ a ∈ pairs, Text.toString? (key a) = .ok (name a))
    (h : ∀ a ∈ pairs, toJson (value a) = .ok (json a)) :
    ∃ pairs' : List α, pairs'.Perm pairs ∧
      toJson (.dict (textPairs pairs key value)) =
        .ok (.object (pairs'.map fun a => (name a, json a))) := by
  have hjson : (textPairs pairs key value).map (fun p => (p.1, toJson p.2)) =
      pairs.map fun a => (.text (key a), Except.ok (json a)) := by
    rw [textPairs, List.map_map]
    exact List.map_congr_left fun a ha => by simp [h a ha]
  have hp := List.mergeSort_perm
    (pairs.map fun a => (name a, (Except.ok (json a) : Except DatumFault _)))
    fun a b => !decide (b.1 < a.1)
  obtain ⟨pairs', he, hp'⟩ := exists_perm_of_perm_map hp
  refine ⟨pairs', hp', ?_⟩
  rw [toJson, toJsonPairs_eq, hjson, namedKeys_text hname]
  show (sequenceMembers (List.mergeSort _ _) >>= _) = _
  rw [he, sequenceMembers_ok]
  rfl

lemma exists_toString?_of_namedKeys {β : Type} {pairs : List (Datum × β)}
    {members : List (String × β)} (h : namedKeys pairs = .ok members) :
    (∀ t b, (.text t, b) ∈ pairs → ∃ s, Text.toString? t = .ok s) ∧
      members.map Prod.snd = pairs.map Prod.snd := by
  induction pairs generalizing members with
  | nil => cases h; simp
  | cons p rest ih =>
      obtain ⟨k, b'⟩ := p
      rw [namedKeys] at h
      split at h
      · simp at h
      · rename_i t' ht'
        obtain ⟨name, hname, h⟩ := exists_of_bind_eq_ok h
        obtain ⟨members', hrest, h⟩ := exists_of_bind_eq_ok h
        cases h
        refine ⟨?_, by simp [(ih hrest).2]⟩
        intro t b hm
        rcases List.mem_cons.1 hm with heq | hm
        · simp only [Prod.mk.injEq] at heq
          obtain ⟨rfl, rfl⟩ := heq
          cases ht'
          rw [encodeText] at hname
          split at hname
          · exact ⟨_, ‹_›⟩
          · simp at hname
        · exact (ih hrest).1 t b hm

lemma exists_ok_of_sequenceMembers {members : List (String × Except DatumFault Json.Value)}
    {ms : List (String × Json.Value)} (h : sequenceMembers members = .ok ms) :
    ∀ m ∈ members, ∃ v, m.2 = .ok v := by
  induction members generalizing ms with
  | nil => simp
  | cons m' rest ih =>
      obtain ⟨name, v⟩ := m'
      rw [sequenceMembers] at h
      obtain ⟨v', hv', h⟩ := exists_of_bind_eq_ok h
      obtain ⟨ms', hrest, h⟩ := exists_of_bind_eq_ok h
      exact List.forall_mem_cons.2 ⟨⟨v', hv'⟩, ih hrest⟩

/-- A dictionary that has a JSON value has strings as keys, and its values have JSON values. -/
theorem exists_of_toJson_dict {pairs : List α} {key : α → Text} {value : α → Datum}
    {v : Json.Value} (h : toJson (.dict (textPairs pairs key value)) = .ok v) {a : α}
    (ha : a ∈ pairs) :
    (∃ s, Text.toString? (key a) = .ok s) ∧ ∃ w, toJson (value a) = .ok w := by
  have hmem : (.text (key a), toJson (value a)) ∈ toJsonPairs (textPairs pairs key value) := by
    rw [toJsonPairs_eq, textPairs, List.map_map]
    exact List.mem_map.2 ⟨a, ha, rfl⟩
  rw [toJson] at h
  obtain ⟨members, hmembers, h⟩ := exists_of_bind_eq_ok h
  obtain ⟨ms, hms, h⟩ := exists_of_bind_eq_ok h
  obtain ⟨hkeys, hvalues⟩ := exists_toString?_of_namedKeys hmembers
  refine ⟨hkeys _ _ hmem, ?_⟩
  have hsnd : toJson (value a) ∈ members.map Prod.snd := by
    rw [hvalues]
    exact List.mem_map.2 ⟨_, hmem, rfl⟩
  obtain ⟨m, hm, hmv⟩ := List.mem_map.1 hsnd
  rw [← hmv]
  exact exists_ok_of_sequenceMembers hms m ((List.mergeSort_perm _ _).mem_iff.2 hm)

end Datum

end ScarbCrates
