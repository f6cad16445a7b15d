import ScarbCrates.Proofs.Datum.Canonical
import ScarbCrates.Proofs.Json.Lexing
import ScarbCrates.Proofs.Json.Quoting
import ScarbCrates.Schema.Shape

/-!
# Reading texts

A text of a value is read as that value, and what is read without a fault is a text of the value
that is read.  There is one limit: an integer may have no more than `longestWhole` letters.  The
texts of values with longer ones are JSON all the same, but reading them fails.

* `Numeral.draft_value_iff` — numbers.
* `Spells.readAs` — texts are read, by induction on how they are put together.
* `readsSound` — what is read is a text, by induction on the fuel.
* `IsText.ofText`, `isText_of_ofText` — whole texts.
-/

namespace ScarbCrates

namespace Json

open Text (ofChars)

/-! ## Values of drafts -/

/-- **A draft holds a value,** or an integer that is too long. -/
def Draft.Holds (d : Draft) (v : Value) (n : Nat) : Prop :=
  ∀ p v', d.value p = .ok v' ↔ n ≤ longestWhole ∧ v' = v

/-- Drafts of items hold their values. -/
def ItemsHold (ds : List Draft) (vs : List Value) (n : Nat) : Prop :=
  ∀ p i vs', valuesOfItems p i ds = .ok vs' ↔ n ≤ longestWhole ∧ vs' = vs

/-- Drafts of members hold their values. -/
def MembersHold (ds : List (DraftName × Draft)) (ms : List (String × Value)) (n : Nat) : Prop :=
  ∀ p ms', valuesOfMembers p ds = .ok ms' ↔ n ≤ longestWhole ∧ ms' = ms

lemma valuesOfItems_cons_iff {p : Place} {i : Nat} {d : Draft} {ds : List Draft}
    {vs : List Value} : valuesOfItems p i (d :: ds) = .ok vs ↔
      ∃ v vs', d.value (p ++ [.item i]) = .ok v ∧ valuesOfItems p (i + 1) ds = .ok vs' ∧
        vs = v :: vs' := by
  rw [valuesOfItems]
  constructor
  · intro h
    obtain ⟨v, hv, h⟩ := exists_of_bind_eq_ok h
    obtain ⟨vs', hvs', h⟩ := exists_of_bind_eq_ok h
    exact ⟨v, vs', hv, hvs', (Except.ok.inj h).symm⟩
  · rintro ⟨v, vs', hv, hvs', rfl⟩
    rw [hv]
    show (valuesOfItems p (i + 1) ds >>= _) = _
    rw [hvs']
    rfl

lemma valuesOfMembers_cons_iff {p : Place} {name : DraftName} {d : Draft}
    {ds : List (DraftName × Draft)} {ms : List (String × Value)} :
    valuesOfMembers p ((name, d) :: ds) = .ok ms ↔
      ∃ s v ms', name = .ok s ∧ d.value (p ++ [.anyMember]) = .ok v ∧
        valuesOfMembers p ds = .ok ms' ∧ ms = (s, v) :: ms' := by
  cases name with
  | error fault =>
      rw [valuesOfMembers]
      refine iff_of_false (fun h => by cases h) ?_
      rintro ⟨s, v, ms', hname, -⟩
      cases hname
  | ok s =>
      rw [valuesOfMembers]
      constructor
      · intro h
        obtain ⟨v, hv, h⟩ := exists_of_bind_eq_ok h
        obtain ⟨ms', hms', h⟩ := exists_of_bind_eq_ok h
        exact ⟨s, v, ms', rfl, hv, hms', (Except.ok.inj h).symm⟩
      · rintro ⟨s', v, ms', hname, hv, hms', rfl⟩
        obtain rfl := Except.ok.inj hname
        rw [hv]
        show (valuesOfMembers p ds >>= _) = _
        rw [hms']
        rfl

lemma value_array_iff {p : Place} {ds : List Draft} {stop : Option SyntaxFault} {v : Value} :
    (Draft.array ds stop).value p = .ok v ↔
      stop = none ∧ ∃ vs, valuesOfItems p 0 ds = .ok vs ∧ v = .array vs := by
  rw [Draft.value]
  constructor
  · intro h
    obtain ⟨vs, hvs, h⟩ := exists_of_bind_eq_ok h
    cases stop with
    | some fault => cases h
    | none => exact ⟨rfl, vs, hvs, (Except.ok.inj h).symm⟩
  · rintro ⟨rfl, vs, hvs, rfl⟩
    rw [hvs]
    rfl

lemma value_object_iff {p : Place} {ds : List (DraftName × Draft)} {stop : Option Break}
    {v : Value} : (Draft.object ds stop).value p = .ok v ↔
      stop = none ∧ ∃ ms, valuesOfMembers p ds = .ok ms ∧ v = .object (collect ms) := by
  rw [Draft.value]
  constructor
  · intro h
    obtain ⟨ms, hms, h⟩ := exists_of_bind_eq_ok h
    cases stop with
    | some fault => cases h
    | none => exact ⟨rfl, ms, hms, (Except.ok.inj h).symm⟩
  · rintro ⟨rfl, ms, hms, rfl⟩
    rw [hms]
    rfl

/-- The members of an object that is read have different names. -/
lemma nodup_of_value {d : Draft} {p : Place} {ms : List (String × Value)}
    (h : d.value p = .ok (.object ms)) : (Assoc.keys ms).Nodup := by
  cases d with
  | object members stop =>
      obtain ⟨-, ms', -, hms⟩ := value_object_iff.1 h
      obtain rfl := Value.object.inj hms
      exact Assoc.nodup_ofList ms'
  | array items stop =>
      obtain ⟨-, vs, -, hvs⟩ := value_array_iff.1 h
      cases hvs
  | _ =>
      rw [Draft.value] at h
      cases h

lemma value_broken_ne {f : SyntaxFault} {p : Place} {v : Value} :
    (Draft.broken f).value p ≠ .ok v := by
  rw [Draft.value]
  rintro ⟨⟩

lemma holds_of_value {d : Draft} {v : Value} (h : ∀ p, d.value p = .ok v) : d.Holds v 0 := by
  intro p v'
  rw [h, Except.ok.injEq]
  exact ⟨fun hv => ⟨Nat.zero_le _, hv.symm⟩, fun hv => hv.2.symm⟩

lemma itemsHold_nil : ItemsHold [] [] 0 := by
  intro p i vs'
  rw [valuesOfItems, Except.ok.injEq]
  exact ⟨fun h => ⟨Nat.zero_le _, h.symm⟩, fun h => h.2.symm⟩

lemma membersHold_nil : MembersHold [] [] 0 := by
  intro p ms'
  rw [valuesOfMembers, Except.ok.injEq]
  exact ⟨fun h => ⟨Nat.zero_le _, h.symm⟩, fun h => h.2.symm⟩

lemma Draft.Holds.items {d : Draft} {ds : List Draft} {v : Value} {vs : List Value} {n m : Nat}
    (h : d.Holds v n) (hs : ItemsHold ds vs m) : ItemsHold (d :: ds) (v :: vs) (max n m) := by
  intro p i vs'
  rw [valuesOfItems_cons_iff, Nat.max_le]
  constructor
  · rintro ⟨v', vs₁, hv, hvs, rfl⟩
    obtain ⟨hn, rfl⟩ := (h _ _).1 hv
    obtain ⟨hm, rfl⟩ := (hs _ _ _).1 hvs
    exact ⟨⟨hn, hm⟩, rfl⟩
  · rintro ⟨⟨hn, hm⟩, rfl⟩
    exact ⟨v, vs, (h _ _).2 ⟨hn, rfl⟩, (hs _ _ _).2 ⟨hm, rfl⟩, rfl⟩

lemma Draft.Holds.members {name : String} {d : Draft} {ds : List (DraftName × Draft)} {v : Value}
    {ms : List (String × Value)} {n m : Nat} (h : d.Holds v n) (hs : MembersHold ds ms m) :
    MembersHold ((.ok name, d) :: ds) ((name, v) :: ms) (max n m) := by
  intro p ms'
  rw [valuesOfMembers_cons_iff, Nat.max_le]
  constructor
  · rintro ⟨name', v', ms₁, hname, hv, hms, rfl⟩
    obtain rfl := Except.ok.inj hname
    obtain ⟨hn, rfl⟩ := (h _ _).1 hv
    obtain ⟨hm, rfl⟩ := (hs _ _).1 hms
    exact ⟨⟨hn, hm⟩, rfl⟩
  · rintro ⟨⟨hn, hm⟩, rfl⟩
    exact ⟨name, v, ms, rfl, (h _ _).2 ⟨hn, rfl⟩, (hs _ _).2 ⟨hm, rfl⟩, rfl⟩

lemma ItemsHold.array {ds : List Draft} {vs : List Value} {n : Nat} (h : ItemsHold ds vs n) :
    (Draft.array ds none).Holds (.array vs) n := by
  intro p v'
  rw [value_array_iff]
  constructor
  · rintro ⟨-, vs', hvs, rfl⟩
    obtain ⟨hn, rfl⟩ := (h _ _ _).1 hvs
    exact ⟨hn, rfl⟩
  · rintro ⟨hn, rfl⟩
    exact ⟨rfl, vs, (h _ _ _).2 ⟨hn, rfl⟩, rfl⟩

lemma MembersHold.object {ds : List (DraftName × Draft)} {ms : List (String × Value)} {n : Nat}
    (h : MembersHold ds ms n) : (Draft.object ds none).Holds (.object (collect ms)) n := by
  intro p v'
  rw [value_object_iff]
  constructor
  · rintro ⟨-, ms', hms, rfl⟩
    obtain ⟨hn, rfl⟩ := (h _ _).1 hms
    exact ⟨hn, rfl⟩
  · rintro ⟨hn, rfl⟩
    exact ⟨rfl, ms, (h _ _).2 ⟨hn, rfl⟩, rfl⟩

/-- A floating-point number, or none that is near. -/
lemma value_float_iff {x? : Option Binary64} {p : Place} {v : Value} :
    Draft.value p (match x? with | some x => .float x | none => .tooLarge false) = .ok v ↔
      x?.map .float = some v := by
  cases x? with
  | none =>
      rw [Draft.value]
      exact iff_of_false (fun h => by cases h) fun h => by cases h
  | some x =>
      show Draft.value p (.float x) = _ ↔ _
      rw [Draft.value, Except.ok.injEq]
      exact ⟨congrArg some, Option.some.inj⟩

/-- **The draft of a number** holds the number's value, unless it is an integer that is too
long. -/
theorem Numeral.draft_value_iff (x : Numeral) (p : Place) (v : Value) :
    x.draft.value p = .ok v ↔ x.width ≤ longestWhole ∧ x.value? = some v := by
  by_cases hx : x.IsInteger
  · obtain ⟨negative, whole, fraction, exponent⟩ := x
    obtain ⟨rfl, rfl⟩ : fraction = none ∧ exponent = none := hx
    have hinteger : IsInteger ⟨negative, whole, none, none⟩ := ⟨rfl, rfl⟩
    have hlength : whole.length + (if negative then 1 else 0) =
        (Numeral.wholeChars ⟨negative, whole, none, none⟩).length := by
      cases negative <;> simp [wholeChars]
    rw [draft, Option.map_none, numberOf, hlength, width, if_pos hinteger, value?,
      if_pos hinteger, Option.some.injEq]
    by_cases hlong : longestWhole < (Numeral.wholeChars ⟨negative, whole, none, none⟩).length
    · rw [if_pos hlong, Draft.value]
      exact iff_of_false (fun h => by cases h) fun h => absurd h.1 (Nat.not_le.2 hlong)
    · rw [if_neg hlong, Draft.value, Except.ok.injEq]
      exact ⟨fun h => ⟨Nat.not_lt.1 hlong, h⟩, fun h => h.2⟩
  · have hwidth : x.width = 0 := if_neg hx
    have hvalue : x.draft.value p = .ok v ↔ x.value? = some v := by
      rw [value?, if_neg hx, draft]
      obtain ⟨negative, whole, fraction, exponent⟩ := x
      cases fraction with
      | some ds => exact value_float_iff
      | none =>
          cases exponent with
          | some e => exact value_float_iff
          | none => exact absurd ⟨rfl, rfl⟩ hx
    rw [hvalue, hwidth]
    exact ⟨fun h => ⟨Nat.zero_le _, h⟩, fun h => h.2⟩

/-! ## White space in front -/

lemma skipSpace_skipSpace (s : List Char) (o : Nat) :
    skipSpace (skipSpace (ofChars s) o).rest (skipSpace (ofChars s) o).offset =
      skipSpace (ofChars s) o := by
  obtain ⟨w, s', o', -, -, hs', hskip⟩ := skipSpace_ofChars s o
  rw [hskip, skipSpace_of_head hs']

variable (fuel : Nat) (s : List Char) (o : Nat)

lemma readValue_skipSpace :
    readValue (fuel + 1) (skipSpace (ofChars s) o) = readValue (fuel + 1) ⟨ofChars s, o⟩ := by
  rw [readValue, readValue, skipSpace_skipSpace]

lemma readItems_skipSpace (done : List Draft) :
    readItems (fuel + 1) done (skipSpace (ofChars s) o) =
      readItems (fuel + 1) done ⟨ofChars s, o⟩ := by
  rw [readItems, readItems, skipSpace_skipSpace]

lemma readMembers_skipSpace (done : List (DraftName × Draft)) :
    readMembers (fuel + 1) done (skipSpace (ofChars s) o) =
      readMembers (fuel + 1) done ⟨ofChars s, o⟩ := by
  rw [readMembers, readMembers, skipSpace_skipSpace]

variable {fuel s o}

/-- Where a value is read, there is a letter that may begin one. -/
lemma exists_of_readValue {d : Draft} {c : Cursor}
    (h : readValue (fuel + 1) ⟨ofChars s, o⟩ = (d, some c)) :
    ∃ x s' o', skipSpace (ofChars s) o = ⟨ofChars (x :: s'), o'⟩ ∧ isSpace x = false ∧
      x ≠ ']' := by
  obtain ⟨w, s', o', -, -, hs', hskip⟩ := skipSpace_ofChars s o
  rw [← readValue_skipSpace, hskip] at h
  cases s' with
  | nil => cases h
  | cons x s' =>
      refine ⟨x, s', o', hskip, hs' x rfl, ?_⟩
      rintro rfl
      cases h

/-! ## Scalars -/

lemma readValue_word {w : List Char} {v : Value} (h : (w, v) ∈ words) (rest : List Char) :
    ∃ d o', readValue (fuel + 1) ⟨ofChars (w ++ rest), o⟩ = (d, some ⟨ofChars rest, o'⟩) ∧
      d.Holds v 0 := by
  have hread : ∀ (tail : List Char) (d : Draft) {v : Value} {r : Reading},
      r = readWord tail d (ofChars (tail ++ rest)) (o + 1) → (∀ p, d.value p = .ok v) →
      ∃ d o', r = (d, some ⟨ofChars rest, o'⟩) ∧ d.Holds v 0 := by
    intro tail d v r hr hv
    exact ⟨d, _, hr.trans (readWord_append tail d rest (o + 1)), holds_of_value hv⟩
  simp only [words, List.mem_cons, Prod.mk.injEq, List.not_mem_nil, or_false] at h
  rcases h with ⟨rfl, rfl⟩ | ⟨rfl, rfl⟩ | ⟨rfl, rfl⟩
  · exact hread ['u', 'l', 'l'] .null rfl fun p => by rw [Draft.value]
  · exact hread ['r', 'u', 'e'] (.bool true) rfl fun p => by rw [Draft.value]
  · exact hread ['a', 'l', 's', 'e'] (.bool false) rfl fun p => by rw [Draft.value]

/-- A number begins with a sign or a digit. -/
lemma Numeral.WellFormed.head {x : Numeral} (h : x.WellFormed) :
    ∃ c cs, x.chars = c :: cs ∧ (c = '-' ∨ c.isDigit = true) := by
  rw [Numeral.chars, Numeral.wholeChars]
  cases x.negative with
  | true => exact ⟨'-', _, rfl, Or.inl rfl⟩
  | false =>
      cases hwhole : x.whole with
      | nil => exact absurd hwhole h.whole.1
      | cons d ds => exact ⟨d, _, rfl, Or.inr (h.whole.2 d (hwhole ▸ List.mem_cons_self))⟩

/-- What begins like a number is read as one. -/
lemma readValue_of_sign_or_digit {c : Char} (hc : c = '-' ∨ c.isDigit = true) (s : List Char) :
    readValue (fuel + 1) ⟨ofChars (c :: s), o⟩ =
      match readNumber (ofChars (c :: s)) o with
      | .error f => broken f
      | .ok (d, c) => (d, some c) := by
  have hother : ∀ {c' : Char} {t : Text}, ¬(c' = '-' ∨ c'.isDigit = true) →
      ofChars (c :: s) = .char c' :: t → False := by
    intro c' t hc' ht
    obtain ⟨s', hs', -⟩ := exists_of_ofChars_eq_cons ht
    obtain rfl := (List.cons.inj hs').1
    exact hc' hc
  have hspace : isSpace c = false := by
    rcases hc with rfl | hc
    · rfl
    · by_contra hspace
      have hends := endsNumber_of_isSpace (Bool.of_not_eq_false hspace) [] c rfl
      exact Bool.false_ne_true (hends.1.symm.trans hc)
  have hskip : skipSpace (ofChars (c :: s)) o = ⟨ofChars (c :: s), o⟩ := if_neg (by simp [hspace])
  rw [readValue, hskip]
  split
  · rename_i ht
    cases ht
  · rename_i ht
    exact (hother (by decide) ht).elim
  · rename_i ht
    exact (hother (by decide) ht).elim
  · rename_i ht
    exact (hother (by decide) ht).elim
  · rename_i ht
    exact (hother (by decide) ht).elim
  · rename_i ht
    exact (hother (by decide) ht).elim
  · rename_i ht
    exact (hother (by decide) ht).elim
  · rfl

lemma readValue_number {x : Numeral} {v : Value} (h : x.WellFormed) (hv : x.value? = some v)
    {rest : List Char} (hrest : EndsNumber rest) :
    ∃ d o', readValue (fuel + 1) ⟨ofChars (x.chars ++ rest), o⟩ =
      (d, some ⟨ofChars rest, o'⟩) ∧ d.Holds v x.width := by
  obtain ⟨c, cs, hchars, hc⟩ := h.head
  obtain ⟨o', hread⟩ := readNumber_of_wellFormed h hrest o
  refine ⟨x.draft, o', ?_, fun p v' => ?_⟩
  · rw [hchars, List.cons_append] at hread ⊢
    rw [readValue_of_sign_or_digit hc, hread]
  · rw [x.draft_value_iff, hv, Option.some.injEq, eq_comm (a := v)]

lemma readValue_text {cs s rest : List Char} (h : Letters cs s rest) :
    ∃ d o', readValue (fuel + 1) ⟨ofChars ('"' :: s), o⟩ = (d, some ⟨ofChars rest, o'⟩) ∧
      d.Holds (.text (String.ofList cs)) 0 := by
  obtain ⟨o', hread⟩ := readString_of_letters h (o + 1)
  refine ⟨.text (String.ofList cs), o', ?_, holds_of_value fun p => by rw [Draft.value]⟩
  have hvalue : readValue (fuel + 1) ⟨ofChars ('"' :: s), o⟩ =
      readTextValue (ofChars s) (o + 1) := rfl
  rw [hvalue, readTextValue, hread]

/-! ## Texts are read -/

lemma Letters.length_lt {cs s rest : List Char} (h : Letters cs s rest) :
    rest.length < s.length := by
  induction h with
  | close rest => exact Nat.lt_succ_self _
  | plain hquote hslash hc _ ih => exact Nat.lt_succ_of_lt ih
  | escape hu _ ih =>
      rw [List.length_cons, List.length_append]
      omega

/-- No part of a text is empty. -/
lemma Spells.length_lt {part : Part} {n : Nat} {s rest : List Char} (h : Spells part n s rest) :
    rest.length < s.length := by
  induction h with
  | @word w v h rest =>
      have hwords : ∀ x ∈ words, 0 < x.1.length := by decide
      have hlength : 0 < w.length := hwords _ h
      rw [List.length_append]
      omega
  | number h hv rest =>
      obtain ⟨c, cs, hchars, -⟩ := h.head
      rw [hchars, List.length_append, List.length_cons]
      omega
  | text h => exact Nat.lt_succ_of_lt h.length_lt
  | endItems | endMembers => exact Nat.lt_succ_self _
  | blank _ _ ih | array _ ih | object _ ih | colon _ ih => exact Nat.lt_succ_of_lt ih
  | firstItem _ _ ih ihs | firstMember _ _ ih ihs => exact Nat.lt_trans ihs ih
  | nextItem _ _ ih ihs | nextMember _ _ ih ihs => exact Nat.lt_succ_of_lt (Nat.lt_trans ihs ih)
  | member hk _ ih => exact Nat.lt_succ_of_lt (Nat.lt_trans ih hk.length_lt)

/-- **Letters are read as a value,** whose draft has a property, with fuel enough for them. -/
def ReadsValue (P : Draft → Prop) (s rest : List Char) : Prop :=
  EndsNumber rest → ∀ fuel o, 3 * s.length ≤ fuel →
    ∃ d o', readValue fuel ⟨ofChars s, o⟩ = (d, some ⟨ofChars rest, o'⟩) ∧ P d

/-- Letters are read as items, of which none or some come before. -/
def ReadsItems (start : Bool) (P : List Draft → Prop) (s rest : List Char) : Prop :=
  ∀ done fuel o, done.isEmpty = start → 3 * s.length + (if start then 2 else 0) ≤ fuel →
    ∃ ds o', readItems fuel done ⟨ofChars s, o⟩ =
      (.array (done.reverse ++ ds) none, some ⟨ofChars rest, o'⟩) ∧ P ds

/-- Letters are read as members, of which none or some come before. -/
def ReadsMembers (start : Bool) (P : List (DraftName × Draft) → Prop) (s rest : List Char) :
    Prop :=
  ∀ done fuel o, done.isEmpty = start → 3 * s.length + (if start then 2 else 0) ≤ fuel →
    ∃ ds o', readMembers fuel done ⟨ofChars s, o⟩ =
      (.object (done.reverse ++ ds) none, some ⟨ofChars rest, o'⟩) ∧ P ds

/-- Letters are read as a member with a name. -/
def ReadsMember (name : String) (P : Draft → Prop) (s rest : List Char) : Prop :=
  EndsNumber rest → ∀ done fuel o, 3 * s.length ≤ fuel →
    ∃ s' o₁ d o', skipSpace (ofChars s) o = ⟨ofChars ('"' :: s'), o₁⟩ ∧
      readMember (fuel + 1) done ⟨ofChars ('"' :: s'), o₁⟩ =
        readMembers fuel ((.ok name, d) :: done) ⟨ofChars rest, o'⟩ ∧ P d

/-- Letters are read as a colon and a value. -/
def ReadsColon (P : Draft → Prop) (s rest : List Char) : Prop :=
  EndsNumber rest → ∀ fuel o, 3 * s.length ≤ fuel →
    ∃ s' o₁ d o', skipSpace (ofChars s) o = ⟨ofChars (':' :: s'), o₁⟩ ∧
      readValue fuel ⟨ofChars s', o₁ + 1⟩ = (d, some ⟨ofChars rest, o'⟩) ∧ P d

lemma readItems_first {x : Char} (hx : isSpace x = false) (hclose : x ≠ ']') :
    readItems (fuel + 1) [] ⟨ofChars (x :: s), o⟩ = readItem fuel [] ⟨ofChars (x :: s), o⟩ := by
  have hskip : skipSpace (ofChars (x :: s)) o = ⟨ofChars (x :: s), o⟩ := if_neg (by simp [hx])
  rw [readItems, hskip]
  split
  · rename_i ht
    cases ht
  · rename_i ht
    exact absurd (Letter.char.inj (List.cons.inj ht).1) hclose
  · rfl
  · rfl

lemma readItems_next {x : Char} {s' : List Char} {o' : Nat} (hclose : x ≠ ']')
    (hskip : skipSpace (ofChars s) (o + 1) = ⟨ofChars (x :: s'), o'⟩) (d : Draft)
    (done : List Draft) :
    readItems (fuel + 1) (d :: done) ⟨ofChars (',' :: s), o⟩ =
      readItem fuel (d :: done) ⟨ofChars (x :: s'), o'⟩ := by
  have hcomma : skipSpace (ofChars (',' :: s)) o = ⟨.char ',' :: ofChars s, o⟩ := rfl
  rw [readItems, hcomma]
  simp only [List.isEmpty_cons, Bool.false_eq_true, if_false, hskip]
  split
  · rename_i ht
    cases ht
  · rename_i ht
    exact absurd (Letter.char.inj (List.cons.inj ht).1) hclose
  · rfl

lemma readMembers_next {s' : List Char} {o' : Nat}
    (hskip : skipSpace (ofChars s) (o + 1) = ⟨ofChars ('"' :: s'), o'⟩) (d : DraftName × Draft)
    (done : List (DraftName × Draft)) :
    readMembers (fuel + 1) (d :: done) ⟨ofChars (',' :: s), o⟩ =
      readMember fuel (d :: done) ⟨ofChars ('"' :: s'), o'⟩ := by
  have hcomma : skipSpace (ofChars (',' :: s)) o = ⟨.char ',' :: ofChars s, o⟩ := rfl
  rw [readMembers, hcomma]
  simp only [List.isEmpty_cons, Bool.false_eq_true, if_false, hskip]
  rfl

section Rules

variable {P : Draft → Prop} {Q Q' : List Draft → Prop} {name : String}
  {M M' : List (DraftName × Draft) → Prop} {s' rest : List Char} {start : Bool}

/-! ### White space -/

lemma exists_fuel_of_blank {c : Char} {k : Nat} (h : 3 * (c :: s).length + k ≤ fuel) :
    ∃ f, fuel = f + 1 ∧ 3 * s.length + k ≤ f + 1 := by
  rw [List.length_cons] at h
  exact ⟨fuel - 1, by omega, by omega⟩

lemma ReadsValue.blank {c : Char} (hc : isSpace c = true) (h : ReadsValue P s rest) :
    ReadsValue P (c :: s) rest := by
  intro hrest fuel o hle
  obtain ⟨fuel, rfl, hle'⟩ := exists_fuel_of_blank (c := c) (k := 0) hle
  rw [← readValue_skipSpace, skipSpace_cons hc, readValue_skipSpace]
  exact h hrest _ _ hle'

lemma ReadsItems.blank {c : Char} (hc : isSpace c = true) (h : ReadsItems start Q s rest) :
    ReadsItems start Q (c :: s) rest := by
  intro done fuel o hdone hle
  obtain ⟨fuel, rfl, hle'⟩ := exists_fuel_of_blank hle
  rw [← readItems_skipSpace, skipSpace_cons hc, readItems_skipSpace]
  exact h done _ _ hdone hle'

lemma ReadsMembers.blank {c : Char} (hc : isSpace c = true) (h : ReadsMembers start M s rest) :
    ReadsMembers start M (c :: s) rest := by
  intro done fuel o hdone hle
  obtain ⟨fuel, rfl, hle'⟩ := exists_fuel_of_blank hle
  rw [← readMembers_skipSpace, skipSpace_cons hc, readMembers_skipSpace]
  exact h done _ _ hdone hle'

lemma ReadsMember.blank {c : Char} (hc : isSpace c = true) (h : ReadsMember name P s rest) :
    ReadsMember name P (c :: s) rest := by
  intro hrest done fuel o hle
  obtain ⟨fuel, rfl, hle'⟩ := exists_fuel_of_blank (c := c) (k := 0) hle
  rw [skipSpace_cons hc]
  exact h hrest done _ _ hle'

lemma ReadsColon.blank {c : Char} (hc : isSpace c = true) (h : ReadsColon P s rest) :
    ReadsColon P (c :: s) rest := by
  intro hrest fuel o hle
  obtain ⟨fuel, rfl, hle'⟩ := exists_fuel_of_blank (c := c) (k := 0) hle
  rw [skipSpace_cons hc]
  exact h hrest _ _ hle'

/-! ### Arrays -/

/-- An item and those after it. -/
lemma ReadsItems.item (h : ReadsValue P s s') (hs : ReadsItems false Q s' rest)
    (hends : EndsNumber s') (hlt : s'.length < s.length)
    (hcons : ∀ {d ds}, P d → Q ds → Q' (d :: ds)) (done : List Draft)
    (hle : 3 * s.length ≤ fuel) (o : Nat) :
    ∃ x s₁ o₁ ds o', skipSpace (ofChars s) o = ⟨ofChars (x :: s₁), o₁⟩ ∧ isSpace x = false ∧
      x ≠ ']' ∧ readItem (fuel + 1) done ⟨ofChars (x :: s₁), o₁⟩ =
        (.array (done.reverse ++ ds) none, some ⟨ofChars rest, o'⟩) ∧ Q' ds := by
  obtain ⟨f, rfl⟩ : ∃ f, fuel = f + 1 := ⟨fuel - 1, by omega⟩
  obtain ⟨d, o₂, hread, hd⟩ := h hends (f + 1) o hle
  obtain ⟨x, s₁, o₁, hskip, hx, hclose⟩ := exists_of_readValue hread
  obtain ⟨ds, o', hreads, hds⟩ := hs (d :: done) (f + 1) o₂ rfl (by simp; omega)
  refine ⟨x, s₁, o₁, d :: ds, o', hskip, hx, hclose, ?_, hcons hd hds⟩
  rw [readItem, ← hskip, readValue_skipSpace, hread]
  refine hreads.trans ?_
  rw [List.reverse_cons, List.append_assoc, List.singleton_append]

lemma ReadsItems.first (h : ReadsValue P s s') (hs : ReadsItems false Q s' rest)
    (hends : EndsNumber s') (hlt : s'.length < s.length)
    (hcons : ∀ {d ds}, P d → Q ds → Q' (d :: ds)) : ReadsItems true Q' s rest := by
  intro done fuel o hdone hle
  obtain rfl := List.isEmpty_iff.1 hdone
  rw [if_pos rfl] at hle
  obtain ⟨fuel, rfl⟩ : ∃ f, fuel = f + 2 := ⟨fuel - 2, by omega⟩
  obtain ⟨x, s₁, o₁, ds, o', hskip, hx, hclose, hread, hds⟩ :=
    ReadsItems.item h hs hends hlt hcons [] (by omega : 3 * s.length ≤ fuel) o
  refine ⟨ds, o', ?_, hds⟩
  rw [← readItems_skipSpace, hskip, readItems_first hx hclose, hread]

lemma ReadsItems.next (h : ReadsValue P s s') (hs : ReadsItems false Q s' rest)
    (hends : EndsNumber s') (hlt : s'.length < s.length)
    (hcons : ∀ {d ds}, P d → Q ds → Q' (d :: ds)) : ReadsItems false Q' (',' :: s) rest := by
  intro done fuel o hdone hle
  cases done with
  | nil => cases hdone
  | cons d done =>
      rw [List.length_cons, if_neg Bool.false_ne_true] at hle
      obtain ⟨fuel, rfl⟩ : ∃ f, fuel = f + 2 := ⟨fuel - 2, by omega⟩
      obtain ⟨x, s₁, o₁, ds, o', hskip, -, hclose, hread, hds⟩ :=
        ReadsItems.item h hs hends hlt hcons (d :: done) (by omega : 3 * s.length ≤ fuel) (o + 1)
      exact ⟨ds, o', (readItems_next hclose hskip d done).trans hread, hds⟩

lemma ReadsItems.end (start : Bool) (rest : List Char) (hnil : Q []) :
    ReadsItems start Q (']' :: rest) rest := by
  intro done fuel o _ hle
  rw [List.length_cons] at hle
  obtain ⟨fuel, rfl⟩ : ∃ f, fuel = f + 1 := ⟨fuel - 1, by omega⟩
  refine ⟨[], o + 1, ?_, hnil⟩
  rw [List.append_nil]
  rfl

lemma ReadsItems.array (h : ReadsItems true Q s rest) (hP : ∀ {ds}, Q ds → P (.array ds none)) :
    ReadsValue P ('[' :: s) rest := by
  intro _ fuel o hle
  rw [List.length_cons] at hle
  obtain ⟨fuel, rfl⟩ : ∃ f, fuel = f + 1 := ⟨fuel - 1, by omega⟩
  obtain ⟨ds, o', hread, hds⟩ := h [] fuel (o + 1) rfl (by simp; omega)
  exact ⟨.array ds none, o', hread, hP hds⟩

/-! ### Objects -/

/-- A name and what follows it. -/
lemma ReadsColon.member {cs : List Char} (hk : Letters cs s s') (h : ReadsColon P s' rest) :
    ReadsMember (String.ofList cs) P ('"' :: s) rest := by
  intro hrest done fuel o hle
  have hlt := hk.length_lt
  rw [List.length_cons] at hle
  obtain ⟨o₁, hstring⟩ := readString_of_letters hk (o + 1)
  obtain ⟨s₂, o₂, d, o', hskip, hread, hd⟩ := h hrest fuel o₁ (by omega)
  have hname : readName (ofChars s) (o + 1) =
      .ok (.ok (String.ofList cs), ⟨ofChars s₂, o₂ + 1⟩) := by
    rw [readName, hstring]
    simp only [hskip]
    rfl
  refine ⟨s, o, d, o', rfl, ?_, hd⟩
  rw [readMember]
  split
  · rename_i t ht
    obtain rfl : ofChars s = t := (List.cons.inj ht).2
    rw [hname]
    simp only [hread]
  · rename_i hother
    exact absurd rfl (hother _)

lemma ReadsValue.colon (h : ReadsValue P s rest) : ReadsColon P (':' :: s) rest := by
  intro hrest fuel o hle
  rw [List.length_cons] at hle
  obtain ⟨d, o', hread, hd⟩ := h hrest fuel (o + 1) (by omega)
  exact ⟨s, o, d, o', rfl, hread, hd⟩

/-- A member and those after it. -/
lemma ReadsMembers.member (h : ReadsMember name P s s') (hs : ReadsMembers false M s' rest)
    (hends : EndsNumber s') (hlt : s'.length < s.length)
    (hcons : ∀ {d ds}, P d → M ds → M' ((.ok name, d) :: ds))
    (done : List (DraftName × Draft)) (hle : 3 * s.length ≤ fuel) (o : Nat) :
    ∃ s₁ o₁ ds o', skipSpace (ofChars s) o = ⟨ofChars ('"' :: s₁), o₁⟩ ∧
      readMember (fuel + 1) done ⟨ofChars ('"' :: s₁), o₁⟩ =
        (.object (done.reverse ++ ds) none, some ⟨ofChars rest, o'⟩) ∧ M' ds := by
  obtain ⟨s₁, o₁, d, o₂, hskip, hread, hd⟩ := h hends done fuel o hle
  obtain ⟨ds, o', hreads, hds⟩ := hs ((.ok name, d) :: done) fuel o₂ rfl (by simp; omega)
  refine ⟨s₁, o₁, (.ok name, d) :: ds, o', hskip, ?_, hcons hd hds⟩
  rw [hread, hreads, List.reverse_cons, List.append_assoc, List.singleton_append]

lemma ReadsMembers.first (h : ReadsMember name P s s') (hs : ReadsMembers false M s' rest)
    (hends : EndsNumber s') (hlt : s'.length < s.length)
    (hcons : ∀ {d ds}, P d → M ds → M' ((.ok name, d) :: ds)) : ReadsMembers true M' s rest := by
  intro done fuel o hdone hle
  obtain rfl := List.isEmpty_iff.1 hdone
  rw [if_pos rfl] at hle
  obtain ⟨fuel, rfl⟩ : ∃ f, fuel = f + 2 := ⟨fuel - 2, by omega⟩
  obtain ⟨s₁, o₁, ds, o', hskip, hread, hds⟩ :=
    ReadsMembers.member h hs hends hlt hcons [] (by omega : 3 * s.length ≤ fuel) o
  refine ⟨ds, o', ?_, hds⟩
  rw [← readMembers_skipSpace, hskip]
  exact hread

lemma ReadsMembers.next (h : ReadsMember name P s s') (hs : ReadsMembers false M s' rest)
    (hends : EndsNumber s') (hlt : s'.length < s.length)
    (hcons : ∀ {d ds}, P d → M ds → M' ((.ok name, d) :: ds)) :
    ReadsMembers false M' (',' :: s) rest := by
  intro done fuel o hdone hle
  cases done with
  | nil => cases hdone
  | cons d done =>
      rw [List.length_cons, if_neg Bool.false_ne_true] at hle
      obtain ⟨fuel, rfl⟩ : ∃ f, fuel = f + 2 := ⟨fuel - 2, by omega⟩
      obtain ⟨s₁, o₁, ds, o', hskip, hread, hds⟩ :=
        ReadsMembers.member h hs hends hlt hcons (d :: done) (by omega : 3 * s.length ≤ fuel)
          (o + 1)
      exact ⟨ds, o', (readMembers_next hskip d done).trans hread, hds⟩

lemma ReadsMembers.end (start : Bool) (rest : List Char) (hnil : M []) :
    ReadsMembers start M ('\x7d' :: rest) rest := by
  intro done fuel o _ hle
  rw [List.length_cons] at hle
  obtain ⟨fuel, rfl⟩ : ∃ f, fuel = f + 1 := ⟨fuel - 1, by omega⟩
  refine ⟨[], o + 1, ?_, hnil⟩
  rw [List.append_nil]
  rfl

lemma ReadsMembers.object (h : ReadsMembers true M s rest)
    (hP : ∀ {ds}, M ds → P (.object ds none)) : ReadsValue P ('\x7b' :: s) rest := by
  intro _ fuel o hle
  rw [List.length_cons] at hle
  obtain ⟨fuel, rfl⟩ : ∃ f, fuel = f + 1 := ⟨fuel - 1, by omega⟩
  obtain ⟨ds, o', hread, hds⟩ := h [] fuel (o + 1) rfl (by simp; omega)
  exact ⟨.object ds none, o', hread, hP hds⟩

end Rules

/-- **A part of a text is read as what it spells,** with fuel enough for its letters. -/
def Part.ReadAs : Part → Nat → List Char → List Char → Prop
  | .value v, n, s, rest => ReadsValue (·.Holds v n) s rest
  | .items start vs, n, s, rest => ReadsItems start (ItemsHold · vs n) s rest
  | .members start ms, n, s, rest => ReadsMembers start (MembersHold · ms n) s rest
  | .member name v, n, s, rest => ReadsMember name (·.Holds v n) s rest
  | .colon v, n, s, rest => ReadsColon (·.Holds v n) s rest

lemma Part.ReadAs.blank {part : Part} {n : Nat} {c : Char} {rest : List Char}
    (hc : isSpace c = true) (h : part.ReadAs n s rest) : part.ReadAs n (c :: s) rest := by
  cases part with
  | value v => exact ReadsValue.blank hc h
  | items start vs => exact ReadsItems.blank hc h
  | members start ms => exact ReadsMembers.blank hc h
  | member name v => exact ReadsMember.blank hc h
  | colon v => exact ReadsColon.blank hc h

/-- **Every part of a text is read.** -/
theorem Spells.readAs {part : Part} {n : Nat} {s rest : List Char} (h : Spells part n s rest) :
    part.ReadAs n s rest := by
  have hscalar : ∀ {v : Value} {n : Nat} {s rest : List Char},
      Spells (.value v) n s rest →
      (EndsNumber rest → ∀ fuel o, ∃ d o',
        readValue (fuel + 1) ⟨ofChars s, o⟩ = (d, some ⟨ofChars rest, o'⟩) ∧ d.Holds v n) →
      (Part.value v).ReadAs n s rest := by
    intro v n s rest h hread hrest fuel o hle
    have hlt := h.length_lt
    obtain ⟨fuel, rfl⟩ : ∃ f, fuel = f + 1 := ⟨fuel - 1, by omega⟩
    exact hread hrest fuel o
  induction h with
  | blank hc _ ih => exact ih.blank hc
  | word h rest => exact hscalar (.word h rest) fun _ _ _ => readValue_word h rest
  | number h hv rest =>
      exact hscalar (.number h hv rest) fun hrest _ _ => readValue_number h hv hrest
  | text h => exact hscalar (.text h) fun _ _ _ => readValue_text h
  | array _ ih => exact ReadsItems.array ih ItemsHold.array
  | object _ ih => exact ReadsMembers.object ih MembersHold.object
  | endItems start rest => exact ReadsItems.end start rest itemsHold_nil
  | firstItem h hs ih ihs =>
      exact ReadsItems.first ih ihs (hs.endsNumber (Or.inl ⟨_, rfl⟩)) h.length_lt Draft.Holds.items
  | nextItem h hs ih ihs =>
      exact ReadsItems.next ih ihs (hs.endsNumber (Or.inl ⟨_, rfl⟩)) h.length_lt Draft.Holds.items
  | endMembers start rest => exact ReadsMembers.end start rest membersHold_nil
  | firstMember h hs ih ihs =>
      exact ReadsMembers.first ih ihs (hs.endsNumber (Or.inr ⟨_, rfl⟩)) h.length_lt
        Draft.Holds.members
  | nextMember h hs ih ihs =>
      exact ReadsMembers.next ih ihs (hs.endsNumber (Or.inr ⟨_, rfl⟩)) h.length_lt
        Draft.Holds.members
  | member hk _ ih => exact ReadsColon.member hk ih
  | colon _ ih => exact ReadsValue.colon ih

/-! ## What is read is a text -/

lemma Spells.blanks {part : Part} {n : Nat} {w s rest : List Char} (hw : IsBlank w)
    (h : Spells part n s rest) : Spells part n (w ++ s) rest :=
  hw.append (R := (Spells part n · rest)) Spells.blank h

/-- Characters in front are the letters of a part, up to where one goes on. -/
def SpelledFrom (part : Part) (c : Cursor) (out : Option Cursor) : Prop :=
  ∀ s, c.rest = ofChars s → ∃ k rest o', k ≤ longestWhole ∧ Spells part k s rest ∧
    out = some ⟨ofChars rest, o'⟩

namespace SpelledFrom

variable {part part' whole : Part} {c c' : Cursor} {t : Text} {out : Option Cursor}

/-- Where one cannot go on nothing is read. -/
lemma of_none (h : SpelledFrom part c none) (part' : Part) (out : Option Cursor) :
    SpelledFrom part' c out := by
  intro s hs
  obtain ⟨k, rest, o', -, -, hout⟩ := h s hs
  cases hout

lemma skip (h : SpelledFrom part (skipSpace c.rest c.offset) out) : SpelledFrom part c out := by
  intro s hs
  obtain ⟨w, s', o₁, rfl, hw, -, hskip⟩ := skipSpace_ofChars s c.offset
  rw [hs, hskip] at h
  obtain ⟨k, rest, o', hk, hspells, rfl⟩ := h s' rfl
  exact ⟨k, rest, o', hk, hspells.blanks hw, rfl⟩

/-- Two parts, one after the other. -/
lemma join (h : SpelledFrom part c (some c')) (hs : SpelledFrom part' c' out)
    (rule : ∀ {n m : Nat} {s s' rest : List Char}, Spells part n s s' → Spells part' m s' rest →
      Spells whole (max n m) s rest) : SpelledFrom whole c out := by
  intro s hc
  obtain ⟨k, s', o₁, hk, hspells, hc'⟩ := h s hc
  obtain rfl := Option.some.inj hc'
  obtain ⟨k', rest, o', hk', hspells', rfl⟩ := hs s' rfl
  exact ⟨_, rest, o', Nat.max_le.2 ⟨hk, hk'⟩, rule hspells hspells', rfl⟩

/-- Two parts after a comma. -/
lemma joinAfterComma (h : SpelledFrom part (skipSpace t (o + 1)) (some c'))
    (hs : SpelledFrom part' c' out)
    (rule : ∀ {n m : Nat} {s s' rest : List Char}, Spells part n s s' → Spells part' m s' rest →
      Spells whole (max n m) (',' :: s) rest) : SpelledFrom whole ⟨.char ',' :: t, o⟩ out := by
  intro s hc
  obtain ⟨s, rfl, rfl⟩ := exists_of_ofChars_eq_cons hc.symm
  obtain ⟨k, s', o₁, hk, hspells, hc'⟩ := (skip (c := ⟨ofChars s, o + 1⟩) h) s rfl
  obtain rfl := Option.some.inj hc'
  obtain ⟨k', rest, o', hk', hspells', rfl⟩ := hs s' rfl
  exact ⟨_, rest, o', Nat.max_le.2 ⟨hk, hk'⟩, rule hspells hspells', rfl⟩

end SpelledFrom

/-- What is read as a value, if it has one, is a text of it. -/
def ValueRead (c : Cursor) (r : Reading) : Prop :=
  ∀ p v, r.1.value p = .ok v → SpelledFrom (.value v) c r.2

/-- What is read as items comes after those done, and is a text of its values if it has any. -/
def ItemsRead (done : List Draft) (start : Bool) (c : Cursor) (r : Reading) : Prop :=
  ∃ ds stop, r.1 = .array (done.reverse ++ ds) stop ∧ (stop = none → ∀ p i vs,
    valuesOfItems p i ds = .ok vs → SpelledFrom (.items start vs) c r.2)

/-- The same for one item and those after it. -/
def ItemRead (done : List Draft) (c : Cursor) (r : Reading) : Prop :=
  ∃ ds stop, r.1 = .array (done.reverse ++ ds) stop ∧ (stop = none → ∀ p i vs,
    valuesOfItems p i ds = .ok vs → ∃ v vs' c', vs = v :: vs' ∧
      SpelledFrom (.value v) c (some c') ∧ SpelledFrom (.items false vs') c' r.2)

/-- What is read as members comes after those done, and is a text of its values if it has any. -/
def MembersRead (done : List (DraftName × Draft)) (start : Bool) (c : Cursor) (r : Reading) :
    Prop :=
  ∃ ds stop, r.1 = .object (done.reverse ++ ds) stop ∧ (stop = none → ∀ p ms,
    valuesOfMembers p ds = .ok ms → SpelledFrom (.members start ms) c r.2)

/-- The same for one member and those after it. -/
def MemberRead (done : List (DraftName × Draft)) (c : Cursor) (r : Reading) : Prop :=
  ∃ ds stop, r.1 = .object (done.reverse ++ ds) stop ∧ (stop = none → ∀ p ms,
    valuesOfMembers p ds = .ok ms → ∃ name v ms' c', ms = (name, v) :: ms' ∧
      SpelledFrom (.member name v) c (some c') ∧ SpelledFrom (.members false ms') c' r.2)

/-- **What is read is a text** with some fuel. -/
structure ReadsSound (fuel : Nat) : Prop where
  value (c : Cursor) : ValueRead c (readValue fuel c)
  items (done : List Draft) (c : Cursor) :
    ItemsRead done done.isEmpty c (readItems fuel done c)
  item (done : List Draft) (c : Cursor) : ItemRead done c (readItem fuel done c)
  members (done : List (DraftName × Draft)) (c : Cursor) :
    MembersRead done done.isEmpty c (readMembers fuel done c)
  member (done : List (DraftName × Draft)) (c : Cursor) :
    MemberRead done c (readMember fuel done c)

section Stopping

variable (done : List Draft) (ds : List (DraftName × Draft)) (start : Bool) (c : Cursor)

lemma valueRead_broken (f : SyntaxFault) : ValueRead c (broken f) := fun _ _ h =>
  absurd h value_broken_ne

lemma itemsRead_stopped (f : SyntaxFault) (out : Option Cursor) :
    ItemsRead done start c (.array done.reverse (some f), out) :=
  ⟨[], some f, by rw [List.append_nil], fun h => nomatch h⟩

lemma itemRead_stopped (f : SyntaxFault) (out : Option Cursor) :
    ItemRead done c (.array done.reverse (some f), out) :=
  ⟨[], some f, by rw [List.append_nil], fun h => nomatch h⟩

lemma membersRead_stopped (f : Break) (out : Option Cursor) :
    MembersRead ds start c (.object ds.reverse (some f), out) :=
  ⟨[], some f, by rw [List.append_nil], fun h => nomatch h⟩

lemma memberRead_stopped (f : Break) (out : Option Cursor) :
    MemberRead ds c (.object ds.reverse (some f), out) :=
  ⟨[], some f, by rw [List.append_nil], fun h => nomatch h⟩

end Stopping

/-- Without fuel nothing is read. -/
lemma readsSound_zero : ReadsSound 0 where
  value c := valueRead_broken c _
  items done c := itemsRead_stopped done _ c _ _
  item done c := itemRead_stopped done c _ _
  members done c := membersRead_stopped done _ c _ _
  member done c := memberRead_stopped done c _ _

section Steps

variable {done : List Draft} {start : Bool} {c : Cursor} {r : Reading} {t : Text}

lemma ValueRead.skip (h : ValueRead (skipSpace c.rest c.offset) r) : ValueRead c r :=
  fun p v hv => (h p v hv).skip

lemma ItemsRead.skip (h : ItemsRead done start (skipSpace c.rest c.offset) r) :
    ItemsRead done start c r := by
  obtain ⟨ds, stop, hr, hs⟩ := h
  exact ⟨ds, stop, hr, fun hstop p i vs hvs => (hs hstop p i vs hvs).skip⟩

lemma ItemRead.first (h : ItemRead done c r) (hdone : done.isEmpty = true) :
    ItemsRead done done.isEmpty c r := by
  obtain ⟨ds, stop, hr, hs⟩ := h
  refine ⟨ds, stop, hr, fun hstop p i vs hvs => ?_⟩
  obtain ⟨v, vs', c', rfl, hv, hvs'⟩ := hs hstop p i vs hvs
  rw [hdone]
  exact hv.join hvs' .firstItem

lemma ItemRead.next (h : ItemRead done (skipSpace t (o + 1)) r) (hdone : ¬done.isEmpty = true) :
    ItemsRead done done.isEmpty ⟨.char ',' :: t, o⟩ r := by
  obtain ⟨ds, stop, hr, hs⟩ := h
  refine ⟨ds, stop, hr, fun hstop p i vs hvs => ?_⟩
  obtain ⟨v, vs', c', rfl, hv, hvs'⟩ := hs hstop p i vs hvs
  rw [Bool.eq_false_iff.2 hdone]
  exact hv.joinAfterComma hvs' .nextItem

lemma valueRead_word {x : Char} {tail : List Char} {d : Draft} {v : Value}
    (hword : (x :: tail, v) ∈ words) (hd : ∀ p, d.value p = .ok v) (t : Text) (o o' : Nat) :
    ValueRead ⟨.char x :: t, o⟩ (readWord tail d t o') := by
  intro p v' hv s hs
  obtain ⟨s, rfl, rfl⟩ := exists_of_ofChars_eq_cons hs.symm
  rcases readWord_cases tail d s o' with ⟨f, hread⟩ | ⟨rest, o₁, rfl, hread⟩
  · rw [hread] at hv
    exact absurd hv value_broken_ne
  · rw [hread] at hv ⊢
    obtain rfl := Except.ok.inj ((hd p).symm.trans hv)
    exact ⟨0, rest, o₁, Nat.zero_le _, .word hword rest, rfl⟩

lemma valueRead_text (t : Text) (o o' : Nat) :
    ValueRead ⟨.char '"' :: t, o⟩ (readTextValue t o') := by
  intro p v hv s hs
  obtain ⟨s, rfl, rfl⟩ := exists_of_ofChars_eq_cons hs.symm
  rw [readTextValue] at hv ⊢
  cases hread : readString (ofChars s) o' with
  | error f =>
      rw [hread] at hv
      exact absurd hv value_broken_ne
  | ok r =>
      obtain ⟨name, c'⟩ := r
      obtain ⟨cs, rest, o₁, rfl, rfl, hletters⟩ := letters_of_readString hread
      rw [hread, Draft.value] at hv
      obtain rfl := Except.ok.inj hv
      exact ⟨0, rest, o₁, Nat.zero_le _, .text hletters, rfl⟩

lemma valueRead_number (t : Text) (o : Nat) :
    ValueRead ⟨t, o⟩ (match readNumber t o with
      | .error f => broken f
      | .ok (d, c) => (d, some c)) := by
  intro p v hv s hs
  obtain rfl : t = ofChars s := hs
  cases hread : readNumber (ofChars s) o with
  | error f =>
      rw [hread] at hv
      exact absurd hv value_broken_ne
  | ok r =>
      obtain ⟨d, c'⟩ := r
      obtain ⟨x, rest, o', hx, rfl, rfl, rfl⟩ := wellFormed_of_readNumber hread
      rw [hread] at hv
      obtain ⟨hwidth, hvalue⟩ := (x.draft_value_iff p v).1 hv
      exact ⟨x.width, rest, o', hwidth, .number hx hvalue rest, rfl⟩

lemma ItemsRead.array (h : ItemsRead [] true ⟨t, o + 1⟩ r) : ValueRead ⟨.char '[' :: t, o⟩ r := by
  obtain ⟨ds, stop, hr, hitems⟩ := h
  intro p v hv s hs
  rw [hr, value_array_iff] at hv
  obtain ⟨hstop, vs, hvs, rfl⟩ := hv
  obtain ⟨s, rfl, rfl⟩ := exists_of_ofChars_eq_cons hs.symm
  obtain ⟨k, rest, o', hk, hspells, hout⟩ := hitems hstop p 0 vs hvs s rfl
  exact ⟨k, rest, o', hk, .array hspells, hout⟩

lemma MembersRead.object (h : MembersRead [] true ⟨t, o + 1⟩ r) :
    ValueRead ⟨.char '\x7b' :: t, o⟩ r := by
  obtain ⟨ds, stop, hr, hmembers⟩ := h
  intro p v hv s hs
  rw [hr, value_object_iff] at hv
  obtain ⟨hstop, ms, hms, rfl⟩ := hv
  obtain ⟨s, rfl, rfl⟩ := exists_of_ofChars_eq_cons hs.symm
  obtain ⟨k, rest, o', hk, hspells, hout⟩ := hmembers hstop p ms hms s rfl
  exact ⟨k, rest, o', hk, .object hspells, hout⟩

lemma ReadsSound.value_succ (h : ReadsSound fuel) (c : Cursor) :
    ValueRead c (readValue (fuel + 1) c) := by
  rw [readValue]
  refine ValueRead.skip ?_
  generalize skipSpace c.rest c.offset = c'
  obtain ⟨t, o⟩ := c'
  dsimp only
  split
  · exact valueRead_broken _ _
  · exact valueRead_word (v := .null) (by simp [words]) (fun p => by rw [Draft.value]) _ _ _
  · exact valueRead_word (v := .bool true) (by simp [words]) (fun p => by rw [Draft.value]) _ _ _
  · exact valueRead_word (v := .bool false) (by simp [words]) (fun p => by rw [Draft.value]) _ _ _
  · exact valueRead_text _ _ _
  · exact (h.items [] _).array
  · exact (h.members [] _).object
  · exact valueRead_number _ _

lemma ReadsSound.items_succ (h : ReadsSound fuel) (done : List Draft) (c : Cursor) :
    ItemsRead done done.isEmpty c (readItems (fuel + 1) done c) := by
  rw [readItems]
  refine ItemsRead.skip ?_
  generalize skipSpace c.rest c.offset = c'
  obtain ⟨t, o⟩ := c'
  dsimp only
  split
  · exact itemsRead_stopped _ _ _ _ _
  · refine ⟨[], none, by rw [List.append_nil], fun _ p i vs hvs s hs => ?_⟩
    obtain ⟨s, rfl, rfl⟩ := exists_of_ofChars_eq_cons hs.symm
    obtain ⟨-, rfl⟩ := (itemsHold_nil _ _ _).1 hvs
    exact ⟨0, s, o + 1, Nat.zero_le _, .endItems _ s, rfl⟩
  · split_ifs with hdone
    · exact (h.item done _).first hdone
    · split
      · exact itemsRead_stopped _ _ _ _ _
      · exact itemsRead_stopped _ _ _ _ _
      · exact (h.item done _).next hdone
  · split_ifs with hdone
    · exact (h.item done _).first hdone
    · exact itemsRead_stopped _ _ _ _ _

lemma ReadsSound.item_succ (h : ReadsSound fuel) (done : List Draft) (c : Cursor) :
    ItemRead done c (readItem (fuel + 1) done c) := by
  have hvalue := h.value c
  rw [readItem]
  split
  · rename_i d c' hread
    obtain ⟨ds, stop, hr, hs⟩ := h.items (d :: done) c'
    refine ⟨d :: ds, stop, ?_, fun hstop p i vs hvs => ?_⟩
    · rw [hr, List.reverse_cons, List.append_assoc, List.singleton_append]
    · obtain ⟨v, vs', hv, hvs', rfl⟩ := valuesOfItems_cons_iff.1 hvs
      rw [hread] at hvalue
      exact ⟨v, vs', c', rfl, hvalue _ v hv, hs hstop p (i + 1) vs' hvs'⟩
  · rename_i d hread
    refine ⟨[d], none, by rw [List.reverse_cons], fun _ p i vs hvs => ?_⟩
    obtain ⟨v, vs', hv, -, rfl⟩ := valuesOfItems_cons_iff.1 hvs
    rw [hread] at hvalue
    have hnone := hvalue _ v hv
    exact ⟨v, vs', c, rfl, hnone.of_none _ _, hnone.of_none _ _⟩

variable {ds : List (DraftName × Draft)}

lemma MembersRead.skip (h : MembersRead ds start (skipSpace c.rest c.offset) r) :
    MembersRead ds start c r := by
  obtain ⟨more, stop, hr, hs⟩ := h
  exact ⟨more, stop, hr, fun hstop p ms hms => (hs hstop p ms hms).skip⟩

lemma MemberRead.first (h : MemberRead ds c r) (hds : ds.isEmpty = true) :
    MembersRead ds ds.isEmpty c r := by
  obtain ⟨more, stop, hr, hs⟩ := h
  refine ⟨more, stop, hr, fun hstop p ms hms => ?_⟩
  obtain ⟨name, v, ms', c', rfl, hv, hms'⟩ := hs hstop p ms hms
  rw [hds]
  exact hv.join hms' .firstMember

lemma MemberRead.next (h : MemberRead ds (skipSpace t (o + 1)) r) (hds : ¬ds.isEmpty = true) :
    MembersRead ds ds.isEmpty ⟨.char ',' :: t, o⟩ r := by
  obtain ⟨more, stop, hr, hs⟩ := h
  refine ⟨more, stop, hr, fun hstop p ms hms => ?_⟩
  obtain ⟨name, v, ms', c', rfl, hv, hms'⟩ := hs hstop p ms hms
  rw [Bool.eq_false_iff.2 hds]
  exact hv.joinAfterComma hms' .nextMember

lemma ReadsSound.members_succ (h : ReadsSound fuel) (ds : List (DraftName × Draft)) (c : Cursor) :
    MembersRead ds ds.isEmpty c (readMembers (fuel + 1) ds c) := by
  rw [readMembers]
  refine MembersRead.skip ?_
  generalize skipSpace c.rest c.offset = c'
  obtain ⟨t, o⟩ := c'
  dsimp only
  split
  · exact membersRead_stopped _ _ _ _ _
  · refine ⟨[], none, by rw [List.append_nil], fun _ p ms hms s hs => ?_⟩
    obtain ⟨s, rfl, rfl⟩ := exists_of_ofChars_eq_cons hs.symm
    obtain ⟨-, rfl⟩ := (membersHold_nil _ _).1 hms
    exact ⟨0, s, o + 1, Nat.zero_le _, .endMembers _ s, rfl⟩
  · split_ifs with hds
    · obtain rfl := List.isEmpty_iff.1 hds
      exact membersRead_stopped [] _ _ _ _
    · split
      · exact membersRead_stopped _ _ _ _ _
      · exact membersRead_stopped _ _ _ _ _
      · exact (h.member ds _).next hds
  · split_ifs with hds
    · exact (h.member ds _).first hds
    · exact membersRead_stopped _ _ _ _ _

/-- A name that is read, with the colon after it. -/
lemma SpelledFrom.ofName {name : String} {v : Value} {out : Option Cursor}
    (hv : SpelledFrom (.value v) c out) (h : readName t o = .ok (.ok name, c)) (o' : Nat) :
    SpelledFrom (.member name v) ⟨.char '"' :: t, o'⟩ out := by
  intro s hs
  obtain ⟨s, rfl, rfl⟩ := exists_of_ofChars_eq_cons hs.symm
  rw [readName] at h
  cases hread : readString (ofChars s) o with
  | error f =>
      rw [hread] at h
      cases h
  | ok r =>
      obtain ⟨name', c₁⟩ := r
      obtain ⟨cs, s₁, o₁, rfl, rfl, hletters⟩ := letters_of_readString hread
      obtain ⟨w, s₂, o₂, rfl, hw, -, hskip⟩ := skipSpace_ofChars s₁ o₁
      rw [hread] at h
      simp only [hskip] at h
      split at h
      · rename_i t ht
        obtain ⟨s₃, rfl, rfl⟩ := exists_of_ofChars_eq_cons ht
        obtain ⟨hname, rfl⟩ := Prod.mk.inj (Except.ok.inj h)
        obtain rfl := Except.ok.inj hname
        obtain ⟨k, rest, o', hk, hspells, hout⟩ := hv s₃ rfl
        exact ⟨k, rest, o', hk, .member hletters (.blanks hw (.colon hspells)), hout⟩
      · cases h
      · cases h

lemma ReadsSound.member_succ (h : ReadsSound fuel) (ds : List (DraftName × Draft)) (c : Cursor) :
    MemberRead ds c (readMember (fuel + 1) ds c) := by
  obtain ⟨t, o⟩ := c
  rw [readMember]
  dsimp only
  split
  · rename_i t
    split
    · exact memberRead_stopped _ _ _ _
    · rename_i name c₁ hname
      have hvalue := h.value c₁
      split
      · rename_i d c₂ hread
        rw [hread] at hvalue
        obtain ⟨more, stop, hr, hs⟩ := h.members ((name, d) :: ds) c₂
        refine ⟨(name, d) :: more, stop, ?_, fun hstop p ms hms => ?_⟩
        · rw [hr, List.reverse_cons, List.append_assoc, List.singleton_append]
        · obtain ⟨name', v, ms', rfl, hv, hms', rfl⟩ := valuesOfMembers_cons_iff.1 hms
          exact ⟨name', v, ms', c₂, rfl, (hvalue _ v hv).ofName hname o, hs hstop p ms' hms'⟩
      · rename_i d hread
        rw [hread] at hvalue
        refine ⟨[(name, d)], none, by rw [List.reverse_cons], fun _ p ms hms => ?_⟩
        obtain ⟨name', v, ms', rfl, hv, -, rfl⟩ := valuesOfMembers_cons_iff.1 hms
        have hnone := (hvalue _ v hv).ofName hname o
        exact ⟨name', v, ms', _, rfl, hnone.of_none _ _, hnone.of_none _ _⟩
  · exact memberRead_stopped _ _ _ _

end Steps

/-- **What is read is a text,** with any fuel. -/
theorem readsSound : ∀ fuel, ReadsSound fuel
  | 0 => readsSound_zero
  | fuel + 1 =>
    have h := readsSound fuel
    ⟨h.value_succ, h.items_succ, h.item_succ, h.members_succ, h.member_succ⟩

/-! ## Whole texts -/

variable {t : List Char} {v : Value} {n : Nat}

/-- Where a value is read and only white space follows, nothing is left over. -/
lemma ReadsValue.ofText {P : Draft → Prop} {rest : List Char} (h : ReadsValue P t rest)
    (hrest : IsBlank rest) :
    P (Document.ofText (ofChars t)).root ∧ (Document.ofText (ofChars t)).trailing = none := by
  have hlength : (ofChars t).length = t.length := List.length_map _
  obtain ⟨d, o', hread, hd⟩ := h hrest.endsNumber (3 * (ofChars t).length + 3) 0 (by omega)
  obtain ⟨w, s', o₁, hw, -, hs', hskip⟩ := skipSpace_ofChars rest o'
  have hempty : s' = [] := by
    cases s' with
    | nil => rfl
    | cons c s' =>
        have hc : isSpace c = true := hrest c (hw ▸ List.mem_append_right _ List.mem_cons_self)
        exact absurd hc (by rw [hs' c rfl]; exact Bool.false_ne_true)
  rw [Document.ofText, hread]
  simp only [hskip, hempty]
  exact ⟨hd, rfl⟩

/-- **A text is read as its value,** and nothing is left over; but one with an integer that is too
long has no value. -/
theorem IsText.ofText (h : IsText v n t) :
    (Document.ofText (ofChars t)).root.Holds v n ∧
      (Document.ofText (ofChars t)).trailing = none := by
  obtain ⟨rest, hspells, hrest⟩ := h
  exact ReadsValue.ofText (P := (·.Holds v n)) hspells.readAs hrest

/-- **What is read without a fault** is a text of the value that is read. -/
theorem isText_of_ofText {p : Place}
    (hvalue : (Document.ofText (ofChars t)).root.value p = .ok v)
    (htrailing : (Document.ofText (ofChars t)).trailing = none) :
    ∃ n ≤ longestWhole, IsText v n t := by
  have hsound := (readsSound (3 * (ofChars t).length + 3)).value ⟨ofChars t, 0⟩
  rw [Document.ofText] at hvalue htrailing
  cases hread : readValue (3 * (ofChars t).length + 3) ⟨ofChars t, 0⟩ with
  | mk d out =>
      rw [hread] at hsound hvalue htrailing
      cases out with
      | none =>
          obtain ⟨k, rest, o', -, -, hout⟩ := hsound p v hvalue t rfl
          cases hout
      | some c =>
          simp only at hvalue htrailing
          split_ifs at hvalue htrailing with hempty
          obtain ⟨k, rest, o', hk, hspells, hout⟩ := hsound p v hvalue t rfl
          obtain rfl := Option.some.inj hout
          obtain ⟨w, s', o₁, rfl, hw, -, hskip⟩ := skipSpace_ofChars rest o'
          rw [hskip, List.isEmpty_iff] at hempty
          obtain rfl : s' = [] := List.map_eq_nil_iff.1 hempty
          exact ⟨k, hk, w ++ [], hspells, by rwa [List.append_nil]⟩

end Json

end ScarbCrates
