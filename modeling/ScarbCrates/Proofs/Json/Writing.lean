import ScarbCrates.Proofs.Json.Reading

/-!
# What is written is a text

The compact text of a value without floating-point numbers is a JSON text of that value, if no
object in it has two members of one name, and there are no control characters in it.  So it is read
as the value again, unless an integer in it is too long.

* `letters_stringChars` — strings.
* `numeralOf` — integers.
* `Value.isText_compact` — values.
* `Value.ofText_compact` — reading undoes writing.
* `Value.noControl_compact` — no control characters.
-/

namespace ScarbCrates

namespace Json

/-! ## Strings -/

lemma hexFrom?_control : ∀ n < 32, hexFrom? 0 (Text.hexPadded 4 n) = some n ∧
    isLowSurrogate n = false ∧ isHighSurrogate n = false := by
  decide

lemma letters_escaped (c : Char) {cs s rest : List Char} (h : Letters cs s rest) :
    Letters (c :: cs) (escaped c ++ s) rest := by
  have hshort : ∀ {l : Char}, shortEscape? l = some c →
      Letters (c :: cs) (['\\', l] ++ s) rest := fun hl => .escape (.short hl) h
  rw [escaped]
  split_ifs with h1 h2 h3 h4 h5 h6 h7 h8
  · exact hshort (by rw [h1]; rfl)
  · exact hshort (by rw [h2]; rfl)
  · exact hshort (by rw [h3]; rfl)
  · exact hshort (by rw [h4]; rfl)
  · exact hshort (by rw [h5]; rfl)
  · exact hshort (by rw [← Char.ofNat_toNat c, h6]; rfl)
  · exact hshort (by rw [← Char.ofNat_toNat c, h7]; rfl)
  · obtain ⟨hhex, hlow, hhigh⟩ := hexFrom?_control c.toNat h8
    have hc : Escape c ('u' :: Text.hexPadded 4 c.toNat) := by
      conv_lhs => rw [← Char.ofNat_toNat c]
      exact .number (by simp [Text.hexPadded]) hhex hlow hhigh
    exact .escape hc h
  · exact .plain h1 h2 (Nat.not_lt.1 h8) h

/-- **A string is written with its letters.** -/
lemma letters_flatMap_escaped (cs rest : List Char) :
    Letters cs (cs.flatMap escaped ++ '"' :: rest) rest := by
  induction cs with
  | nil => exact .close rest
  | cons c cs ih =>
      rw [List.flatMap_cons, List.append_assoc]
      exact letters_escaped c ih

/-! ## Integers -/

/-- The decimal digits of a number as a number's part before the point. -/
lemma areDigits_toDigits (n : Nat) : AreDigits (Nat.toDigits 10 n) :=
  ⟨Nat.toDigits_ne_nil, fun _ hc => Nat.isDigit_of_mem_toDigits (by decide) (by decide) hc⟩

lemma noLeadingZero_toDigits (n : Nat) : NoLeadingZero (Nat.toDigits 10 n) := by
  induction n using Nat.strongRecOn with
  | ind n ih =>
    intro hhead
    by_cases hn : n < 10
    · rw [Nat.toDigits_of_lt_base hn] at hhead ⊢
      rw [Option.some.inj hhead]
    · -- The leading digit of `n` is that of `n / 10`, which is not zero.
      rw [Nat.toDigits_of_base_le (by decide) (Nat.not_lt.1 hn),
        List.head?_append_of_ne_nil _ Nat.toDigits_ne_nil] at hhead
      have hzero := congrArg (Nat.ofDigitChars 10 · 0) (ih (n / 10) (by omega) hhead)
      simp only [Nat.ofDigitChars_ten_toDigits] at hzero
      have hdiv : n / 10 = 0 := hzero
      omega

lemma natOfDigits_toDigits (n : Nat) : natOfDigits (Nat.toDigits 10 n) = n :=
  Nat.ofDigitChars_ten_toDigits

/-- The numeral that an integer is written with. -/
def numeralOf : Int → Numeral
  | .ofNat n => ⟨false, Nat.toDigits 10 n, none, none⟩
  | .negSucc n => ⟨true, Nat.toDigits 10 (n + 1), none, none⟩

namespace numeralOf

variable (i : Int)

lemma isInteger : (numeralOf i).IsInteger := by cases i <;> exact ⟨rfl, rfl⟩

lemma wholeChars : (numeralOf i).wholeChars = intChars i := by cases i <;> rfl

lemma chars : (numeralOf i).chars = intChars i := by
  rw [Numeral.chars, wholeChars, Numeral.afterWhole, (isInteger i).1, (isInteger i).2]
  exact List.append_nil _

lemma wellFormed : (numeralOf i).WellFormed where
  whole := by cases i <;> exact areDigits_toDigits _
  leading := by cases i <;> exact noLeadingZero_toDigits _
  fraction := by simp [(isInteger i).1]
  exponent := by simp [(isInteger i).2]

lemma value? : (numeralOf i).value? = some (.int i) := by
  rw [Numeral.value?, if_pos (isInteger i)]
  cases i with
  | ofNat n => exact congrArg (fun n : Nat => some (Value.int n)) (natOfDigits_toDigits n)
  | negSucc n =>
      exact congrArg (fun n : Nat => some (Value.int (-(n : Int)))) (natOfDigits_toDigits (n + 1))

lemma width : (numeralOf i).width = (intChars i).length := by
  rw [Numeral.width, if_pos (isInteger i), wholeChars]

end numeralOf

/-! ## Values -/

lemma foldl_put {α : Type} {ms : List (String × α)} (done : List (String × α))
    (h : (Assoc.keys (done ++ ms)).Nodup) :
    ms.foldl (fun t e => Assoc.put t e.1 e.2) done = done ++ ms := by
  induction ms generalizing done with
  | nil => exact (List.append_nil _).symm
  | cons e ms ih =>
      rw [← List.singleton_append, ← List.append_assoc] at h
      have hkeys : (Assoc.keys done ++ [e.1]).Nodup := by
        simp only [Assoc.keys, List.map_append] at h
        exact (List.nodup_append.1 h).1
      have hnew : e.1 ∉ Assoc.keys done := fun hmem =>
        (List.nodup_append.1 hkeys).2.2 _ hmem _ List.mem_cons_self rfl
      rw [List.foldl_cons, Assoc.put_of_not_mem e.2 hnew, ih _ h, List.append_assoc]
      rfl

/-- Members with different names are all kept. -/
lemma collect_of_nodup {α : Type} {ms : List (String × α)} (h : (Assoc.keys ms).Nodup) :
    collect ms = ms := foldl_put [] h

namespace Value

mutual

/-- Whether the members of every object have different names. -/
def distinct : Value → Bool
  | .array items => distinctItems items
  | .object members => decide (Assoc.keys members).Nodup && distinctMembers members
  | _ => true

/-- Whether that holds for all items. -/
def distinctItems : List Value → Bool
  | [] => true
  | v :: rest => v.distinct && distinctItems rest

/-- Whether that holds for the values of all members. -/
def distinctMembers : List (String × Value) → Bool
  | [] => true
  | (_, v) :: rest => v.distinct && distinctMembers rest

end

mutual

/-- The most letters that an integer in a value has. -/
def width : Value → Nat
  | .int i => (intChars i).length
  | .array items => widthOfItems items
  | .object members => widthOfMembers members
  | _ => 0

/-- The most letters that an integer in an item has. -/
def widthOfItems : List Value → Nat
  | [] => 0
  | v :: rest => max v.width (widthOfItems rest)

/-- The most letters that an integer in the value of a member has. -/
def widthOfMembers : List (String × Value) → Nat
  | [] => 0
  | (_, v) :: rest => max v.width (widthOfMembers rest)

end

end Value

lemma spells_name (name : String) {v : Value} {n : Nat} {s rest : List Char}
    (h : Spells (.value v) n s rest) :
    Spells (.member name v) n (stringChars name ++ ':' :: s) rest := by
  have hletters := letters_flatMap_escaped name.toList (':' :: s)
  have hmember := Spells.member hletters (.colon h)
  rw [String.ofList_toList] at hmember
  simpa [stringChars] using hmember

mutual

/-- **The compact text of a value** spells it. -/
theorem Value.spells_compact : ∀ (v : Value) (rest : List Char), v.floatFree = true →
    v.distinct = true → Spells (.value v) v.width (v.compact ++ rest) rest
  | .null, rest, _, _ => .word (w := ['n', 'u', 'l', 'l']) (by simp [words]) rest
  | .bool true, rest, _, _ => .word (w := ['t', 'r', 'u', 'e']) (by simp [words]) rest
  | .bool false, rest, _, _ => .word (w := ['f', 'a', 'l', 's', 'e']) (by simp [words]) rest
  | .int i, rest, _, _ => by
      rw [Value.width, Value.compact, ← numeralOf.width, ← numeralOf.chars]
      exact .number (numeralOf.wellFormed i) (numeralOf.value? i) rest
  | .float x, rest, hv, _ => by simp [Value.floatFree] at hv
  | .text s, rest, _, _ => by
      have hletters := letters_flatMap_escaped s.toList rest
      have htext := Spells.text hletters
      rw [String.ofList_toList] at htext
      simpa [Value.compact, stringChars, Value.width] using htext
  | .array [], rest, _, _ => .array (.endItems true rest)
  | .array (v :: vs), rest, hv, hd => by
      simp only [Value.floatFree, Value.floatFreeItems, Value.distinct, Value.distinctItems,
        Bool.and_eq_true] at hv hd
      have hitems := spells_compactItems vs rest hv.2 hd.2
      have hvalue := Value.spells_compact v (compactItems vs ++ ']' :: rest) hv.1 hd.1
      simpa [Value.compact, Value.width, Value.widthOfItems] using
        Spells.array (.firstItem hvalue hitems)
  | .object [], rest, _, _ => .object (.endMembers true rest)
  | .object ((name, v) :: ms), rest, hv, hd => by
      simp only [Value.floatFree, Value.floatFreeMembers, Value.distinct, Value.distinctMembers,
        Bool.and_eq_true, decide_eq_true_eq] at hv hd
      have hmembers := spells_compactMembers ms rest hv.2 hd.2.2
      have hvalue := Value.spells_compact v (compactMembers ms ++ '}' :: rest) hv.1 hd.2.1
      have hobject := Spells.object (.firstMember (spells_name name hvalue) hmembers)
      rw [collect_of_nodup hd.1] at hobject
      simpa [Value.compact, Value.width, Value.widthOfMembers] using hobject

/-- The items after the first. -/
theorem spells_compactItems : ∀ (vs : List Value) (rest : List Char),
    Value.floatFreeItems vs = true → Value.distinctItems vs = true →
    Spells (.items false vs) (Value.widthOfItems vs) (compactItems vs ++ ']' :: rest) rest
  | [], rest, _, _ => .endItems false rest
  | v :: vs, rest, hv, hd => by
      simp only [Value.floatFreeItems, Value.distinctItems, Bool.and_eq_true] at hv hd
      have hitems := spells_compactItems vs rest hv.2 hd.2
      have hvalue := Value.spells_compact v (compactItems vs ++ ']' :: rest) hv.1 hd.1
      simpa [compactItems, Value.widthOfItems] using Spells.nextItem hvalue hitems

/-- The members after the first. -/
theorem spells_compactMembers : ∀ (ms : List (String × Value)) (rest : List Char),
    Value.floatFreeMembers ms = true → Value.distinctMembers ms = true →
    Spells (.members false ms) (Value.widthOfMembers ms) (compactMembers ms ++ '}' :: rest) rest
  | [], rest, _, _ => .endMembers false rest
  | (name, v) :: ms, rest, hv, hd => by
      simp only [Value.floatFreeMembers, Value.distinctMembers, Bool.and_eq_true] at hv hd
      have hmembers := spells_compactMembers ms rest hv.2 hd.2
      have hvalue := Value.spells_compact v (compactMembers ms ++ '}' :: rest) hv.1 hd.1
      simpa [compactMembers, Value.widthOfMembers] using
        Spells.nextMember (spells_name name hvalue) hmembers

end

/-- **The compact text of a value** is a text of it. -/
theorem Value.isText_compact {v : Value} (hfloat : v.floatFree = true)
    (hdistinct : v.distinct = true) : IsText v v.width v.compact := by
  have hspells := Value.spells_compact v [] hfloat hdistinct
  rw [List.append_nil] at hspells
  exact ⟨[], hspells, isBlank_nil⟩

/-- **Reading undoes writing.** -/
theorem Value.ofText_compact {v : Value} (hfloat : v.floatFree = true)
    (hdistinct : v.distinct = true) (hwidth : v.width ≤ longestWhole) (p : Place) :
    (Document.ofText (Text.ofChars v.compact)).root.value p = .ok v ∧
      (Document.ofText (Text.ofChars v.compact)).trailing = none := by
  obtain ⟨hholds, htrailing⟩ := (Value.isText_compact hfloat hdistinct).ofText
  exact ⟨(hholds p v).2 ⟨hwidth, rfl⟩, htrailing⟩

/-! ## Control characters -/

/-- No control characters. -/
def NoControl (s : List Char) : Prop := ∀ c ∈ s, 32 ≤ c.toNat

lemma noControl_nil : NoControl [] := List.forall_mem_nil _

lemma noControl_cons {c : Char} {s : List Char} :
    NoControl (c :: s) ↔ 32 ≤ c.toNat ∧ NoControl s := List.forall_mem_cons

lemma noControl_append {a b : List Char} : NoControl (a ++ b) ↔ NoControl a ∧ NoControl b :=
  List.forall_mem_append

instance (s : List Char) : Decidable (NoControl s) := List.decidableBAll _ s

lemma noControl_escaped (c : Char) : NoControl (escaped c) := by
  have hhex : ∀ n < 32, NoControl ('\\' :: 'u' :: Text.hexPadded 4 n) := by decide
  rw [escaped]
  split_ifs with h1 h2 h3 h4 h5 h6 h7 h8
  · decide
  · decide
  · decide
  · decide
  · decide
  · decide
  · decide
  · exact hhex c.toNat h8
  · exact noControl_cons.2 ⟨Nat.not_lt.1 h8, noControl_nil⟩

lemma noControl_stringChars (s : String) : NoControl (stringChars s) := by
  have hescaped : NoControl (s.toList.flatMap escaped) := by
    intro c hc
    obtain ⟨d, -, hd⟩ := List.mem_flatMap.1 hc
    exact noControl_escaped d c hd
  rw [stringChars, noControl_append, noControl_cons]
  exact ⟨⟨by decide, hescaped⟩, by decide⟩

lemma noControl_intChars (i : Int) : NoControl (intChars i) := by
  have hdigits : ∀ n, NoControl (Nat.toDigits 10 n) := by
    intro n c hc
    have hlow := (Char.isDigit_iff_toNat.1 ((areDigits_toDigits n).2 c hc)).1
    have hzero : '0'.toNat = 48 := rfl
    omega
  cases i with
  | ofNat n => exact hdigits n
  | negSucc n => exact noControl_cons.2 ⟨by decide, hdigits (n + 1)⟩

mutual

/-- **There are no control characters** in a compact text. -/
theorem Value.noControl_compact : ∀ {v : Value}, v.floatFree = true → NoControl v.compact
  | .null, _ | .bool true, _ | .bool false, _ => by decide
  | .int i, _ => noControl_intChars i
  | .float x, hv => by simp [Value.floatFree] at hv
  | .text s, _ => noControl_stringChars s
  | .array [], _ | .object [], _ => by decide
  | .array (v :: vs), hv => by
      simp only [Value.floatFree, Value.floatFreeItems, Bool.and_eq_true] at hv
      rw [Value.compact, noControl_append, noControl_append, noControl_cons]
      exact ⟨⟨⟨by decide, Value.noControl_compact hv.1⟩, noControl_compactItems hv.2⟩, by decide⟩
  | .object ((name, v) :: ms), hv => by
      simp only [Value.floatFree, Value.floatFreeMembers, Bool.and_eq_true] at hv
      rw [Value.compact, noControl_append, noControl_append, noControl_append, noControl_cons,
        noControl_cons]
      exact ⟨⟨⟨⟨by decide, noControl_stringChars name⟩, by decide, Value.noControl_compact hv.1⟩,
        noControl_compactMembers hv.2⟩, by decide⟩

/-- The same for the items after the first. -/
theorem noControl_compactItems : ∀ {vs : List Value}, Value.floatFreeItems vs = true →
    NoControl (compactItems vs)
  | [], _ => noControl_nil
  | v :: vs, hv => by
      simp only [Value.floatFreeItems, Bool.and_eq_true] at hv
      rw [compactItems, noControl_append, noControl_cons]
      exact ⟨⟨by decide, Value.noControl_compact hv.1⟩, noControl_compactItems hv.2⟩

/-- The same for the members after the first. -/
theorem noControl_compactMembers : ∀ {ms : List (String × Value)},
    Value.floatFreeMembers ms = true → NoControl (compactMembers ms)
  | [], _ => noControl_nil
  | (name, v) :: ms, hv => by
      simp only [Value.floatFreeMembers, Bool.and_eq_true] at hv
      rw [compactMembers, noControl_append, noControl_append, noControl_cons, noControl_cons]
      exact ⟨⟨⟨by decide, noControl_stringChars name⟩, by decide, Value.noControl_compact hv.1⟩,
        noControl_compactMembers hv.2⟩

end

end Json

end ScarbCrates
