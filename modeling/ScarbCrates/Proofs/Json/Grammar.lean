import Mathlib.Tactic.Common
import ScarbCrates.Json.Reader

/-!
# What a JSON text is

Which letters write which value, said without a reader.  A rule takes letters in front and leaves
the rest, so that the parts of a text are put together by handing on what is left.

* `Escape`, `Letters` — strings.
* `Numeral` — numbers.
* `Spells` — values and their parts; `Spells.frame` — what follows a part does not matter.
* `IsText` — whole texts; `IsText.braces` — those of objects.
-/

namespace ScarbCrates

namespace Json

/-! ## Strings -/

/-- The number that hexadecimal digits write, after those that make up `value`. -/
def hexFrom? (value : Nat) : List Char → Option Nat
  | [] => some value
  | c :: ds => (hexValue? c).bind fun digit => hexFrom? (value * 16 + digit) ds

/-- **What stands after a backslash,** and the character that is written this way. -/
inductive Escape : Char → List Char → Prop
  | short {c l : Char} (h : shortEscape? l = some c) : Escape c [l]
  | number {ds : List Char} {n : Nat} (hlength : ds.length = 4) (hn : hexFrom? 0 ds = some n)
      (hlow : isLowSurrogate n = false) (hhigh : isHighSurrogate n = false) :
      Escape (Char.ofNat n) ('u' :: ds)
  | pair {ds ds' : List Char} {high low : Nat} (hlength : ds.length = 4)
      (hlength' : ds'.length = 4) (hds : hexFrom? 0 ds = some high)
      (hds' : hexFrom? 0 ds' = some low) (hhigh : isHighSurrogate high = true)
      (hlow : isLowSurrogate low = true) :
      Escape (pairedChar high low) ('u' :: (ds ++ '\\' :: 'u' :: ds'))

/-- **The letters of a string** up to its closing quote. -/
inductive Letters : List Char → List Char → List Char → Prop
  | close (rest : List Char) : Letters [] ('"' :: rest) rest
  | plain {c : Char} {cs s rest : List Char} (hquote : c ≠ '"') (hslash : c ≠ '\\')
      (hc : 32 ≤ c.toNat) (h : Letters cs s rest) : Letters (c :: cs) (c :: s) rest
  | escape {c : Char} {u cs s rest : List Char} (hu : Escape c u) (h : Letters cs s rest) :
      Letters (c :: cs) ('\\' :: (u ++ s)) rest

/-! ## Numbers -/

/-- Decimal digits, at least one. -/
def AreDigits (ds : List Char) : Prop := ds ≠ [] ∧ ∀ c ∈ ds, c.isDigit = true

/-- Digits with a zero in front only if it is the only one. -/
def NoLeadingZero (ds : List Char) : Prop := ds.head? = some '0' → ds = ['0']

/-- The exponent of a number: its letter, its sign if it has one, and its digits. -/
structure Exponent where
  letter : Char
  sign : Option Char
  digits : List Char

namespace Exponent

/-- The letters of an exponent. -/
def chars (e : Exponent) : List Char := e.letter :: (e.sign.toList ++ e.digits)

/-- The number that an exponent is. -/
def value (e : Exponent) : Int :=
  if e.sign = some '-' then -(natOfDigits e.digits : Int) else natOfDigits e.digits

/-- An exponent as it should be. -/
structure WellFormed (e : Exponent) : Prop where
  letter : e.letter = 'e' ∨ e.letter = 'E'
  sign : ∀ c ∈ e.sign, c = '+' ∨ c = '-'
  digits : AreDigits e.digits

end Exponent

/-- The parts of a number. -/
structure Numeral where
  negative : Bool
  whole : List Char
  fraction : Option (List Char)
  exponent : Option Exponent

namespace Numeral

/-- The letters before the point. -/
def wholeChars (x : Numeral) : List Char := (if x.negative then ['-'] else []) ++ x.whole

/-- The letters after those before the point. -/
def afterWhole (x : Numeral) : List Char :=
  (x.fraction.map ('.' :: ·)).getD [] ++ (x.exponent.map Exponent.chars).getD []

/-- The letters of a number. -/
def chars (x : Numeral) : List Char := x.wholeChars ++ x.afterWhole

/-- A number as it should be. -/
structure WellFormed (x : Numeral) : Prop where
  whole : AreDigits x.whole
  leading : NoLeadingZero x.whole
  fraction : ∀ ds ∈ x.fraction, AreDigits ds
  exponent : ∀ e ∈ x.exponent, e.WellFormed

/-- A number without fraction and exponent is an integer. -/
def IsInteger (x : Numeral) : Prop := x.fraction = none ∧ x.exponent = none

instance (x : Numeral) : Decidable x.IsInteger :=
  decidable_of_iff (x.fraction.isNone = true ∧ x.exponent.isNone = true)
    (by simp only [Option.isNone_iff_eq_none, IsInteger])

/-- **The value of a number:** an integer of any size, or the nearest floating-point number. -/
def value? (x : Numeral) : Option Value :=
  if x.IsInteger then
    some (.int (if x.negative then -(natOfDigits x.whole : Int) else natOfDigits x.whole))
  else
    let after := x.fraction.getD []
    let e := (x.exponent.map Exponent.value).getD 0 - after.length
    (Binary64.ofDecimal? x.negative (natOfDigits (x.whole ++ after)) e).map .float

/-- How many letters an integer has. -/
def width (x : Numeral) : Nat := if x.IsInteger then x.wholeChars.length else 0

lemma value?_cases {x : Numeral} {v : Value} (h : x.value? = some v) :
    (∃ i, v = .int i) ∨ ∃ y, v = .float y := by
  rw [value?] at h
  by_cases hx : x.IsInteger
  · rw [if_pos hx] at h
    exact Or.inl ⟨_, (Option.some.inj h).symm⟩
  · rw [if_neg hx] at h
    obtain ⟨y, -, hy⟩ := Option.map_eq_some_iff.1 h
    exact Or.inr ⟨y, hy.symm⟩

end Numeral

/-! ## Values -/

/-- The parts of a text: a value; what follows an opening bracket or brace, or, if it is not the
`start`, an item or a member; a member, and a member after its name. -/
inductive Part
  | value (v : Value)
  | items (start : Bool) (vs : List Value)
  | members (start : Bool) (ms : List (String × Value))
  | member (name : String) (v : Value)
  | colon (v : Value)

/-- The values that are written with a word. -/
def words : List (List Char × Value) :=
  [(['n', 'u', 'l', 'l'], .null), (['t', 'r', 'u', 'e'], .bool true),
    (['f', 'a', 'l', 's', 'e'], .bool false)]

/-- **The letters of a part,** up to the rest.  The number is that of the letters of the longest
integer.  White space may stand in front of every part. -/
inductive Spells : Part → Nat → List Char → List Char → Prop
  | blank {part : Part} {n : Nat} {c : Char} {s rest : List Char} (hc : isSpace c = true)
      (h : Spells part n s rest) : Spells part n (c :: s) rest
  | word {w : List Char} {v : Value} (h : (w, v) ∈ words) (rest : List Char) :
      Spells (.value v) 0 (w ++ rest) rest
  | number {x : Numeral} {v : Value} (h : x.WellFormed) (hv : x.value? = some v)
      (rest : List Char) : Spells (.value v) x.width (x.chars ++ rest) rest
  | text {cs s rest : List Char} (h : Letters cs s rest) :
      Spells (.value (.text (String.ofList cs))) 0 ('"' :: s) rest
  | array {vs : List Value} {n : Nat} {s rest : List Char} (h : Spells (.items true vs) n s rest) :
      Spells (.value (.array vs)) n ('[' :: s) rest
  | object {ms : List (String × Value)} {n : Nat} {s rest : List Char}
      (h : Spells (.members true ms) n s rest) :
      Spells (.value (.object (collect ms))) n ('\x7b' :: s) rest
  | endItems (start : Bool) (rest : List Char) : Spells (.items start []) 0 (']' :: rest) rest
  | firstItem {v : Value} {vs : List Value} {n m : Nat} {s s' rest : List Char}
      (h : Spells (.value v) n s s') (hs : Spells (.items false vs) m s' rest) :
      Spells (.items true (v :: vs)) (max n m) s rest
  | nextItem {v : Value} {vs : List Value} {n m : Nat} {s s' rest : List Char}
      (h : Spells (.value v) n s s') (hs : Spells (.items false vs) m s' rest) :
      Spells (.items false (v :: vs)) (max n m) (',' :: s) rest
  | endMembers (start : Bool) (rest : List Char) :
      Spells (.members start []) 0 ('\x7d' :: rest) rest
  | firstMember {name : String} {v : Value} {ms : List (String × Value)} {n m : Nat}
      {s s' rest : List Char} (h : Spells (.member name v) n s s')
      (hs : Spells (.members false ms) m s' rest) :
      Spells (.members true ((name, v) :: ms)) (max n m) s rest
  | nextMember {name : String} {v : Value} {ms : List (String × Value)} {n m : Nat}
      {s s' rest : List Char} (h : Spells (.member name v) n s s')
      (hs : Spells (.members false ms) m s' rest) :
      Spells (.members false ((name, v) :: ms)) (max n m) (',' :: s) rest
  | member {cs : List Char} {v : Value} {n : Nat} {s s' rest : List Char} (hk : Letters cs s s')
      (h : Spells (.colon v) n s' rest) :
      Spells (.member (String.ofList cs) v) n ('"' :: s) rest
  | colon {v : Value} {n : Nat} {s rest : List Char} (h : Spells (.value v) n s rest) :
      Spells (.colon v) n (':' :: s) rest

/-- Nothing but white space. -/
def IsBlank (s : List Char) : Prop := ∀ c ∈ s, isSpace c = true

/-- **A whole text of a value,** with the number of letters of the longest integer. -/
def IsText (v : Value) (n : Nat) (t : List Char) : Prop :=
  ∃ rest, Spells (.value v) n t rest ∧ IsBlank rest

/-! ## What follows a number -/

/-- No letter comes first that would go on with a number. -/
def EndsNumber (s : List Char) : Prop :=
  ∀ c ∈ s.head?, c.isDigit = false ∧ c ≠ '.' ∧ c ≠ 'e' ∧ c ≠ 'E'

lemma endsNumber_of_isSpace {c : Char} (hc : isSpace c = true) (s : List Char) :
    EndsNumber (c :: s) := by
  intro c' hc'
  obtain rfl := Option.some.inj hc'
  simp only [isSpace, Bool.or_eq_true, decide_eq_true_eq] at hc
  rcases hc with ((rfl | rfl) | rfl) | rfl <;> decide

lemma isBlank_nil : IsBlank [] := List.forall_mem_nil _

/-- What white space in front of a letter does not change, it does not change at all. -/
lemma IsBlank.append {R : List Char → Prop} (hR : ∀ {c s}, isSpace c = true → R s → R (c :: s))
    {w s : List Char} (hw : IsBlank w) (h : R s) : R (w ++ s) := by
  induction w with
  | nil => exact h
  | cons c w ih =>
      obtain ⟨hc, hw⟩ := List.forall_mem_cons.1 hw
      exact hR hc (ih hw)

lemma IsBlank.endsNumber {s : List Char} (h : IsBlank s) : EndsNumber s := by
  cases s with
  | nil => exact fun c hc => nomatch hc
  | cons c s => exact endsNumber_of_isSpace (h c List.mem_cons_self) s

lemma endsNumber_of_mem {c : Char} (hc : c ∈ [',', ']', '\x7d']) (s : List Char) :
    EndsNumber (c :: s) := by
  intro c' hc'
  obtain rfl := Option.some.inj hc'
  simp only [List.mem_cons, List.not_mem_nil, or_false] at hc
  rcases hc with rfl | rfl | rfl <;> decide

/-- What follows an item or a member is not taken for more of a number. -/
lemma Spells.endsNumber {part : Part} {n : Nat} {s rest : List Char} (h : Spells part n s rest)
    (hpart : (∃ vs, part = .items false vs) ∨ ∃ ms, part = .members false ms) :
    EndsNumber s := by
  cases h with
  | blank hc h => exact endsNumber_of_isSpace hc _
  | endItems => exact endsNumber_of_mem (by decide) _
  | nextItem => exact endsNumber_of_mem (by decide) _
  | endMembers => exact endsNumber_of_mem (by decide) _
  | nextMember => exact endsNumber_of_mem (by decide) _
  | _ => rcases hpart with ⟨_, hpart⟩ | ⟨_, hpart⟩ <;> cases hpart

/-! ## What follows a part -/

lemma Letters.frame {cs s rest : List Char} (h : Letters cs s rest) :
    ∃ u, s = u ++ rest ∧ ∀ r, Letters cs (u ++ r) r := by
  induction h with
  | close rest => exact ⟨['"'], rfl, fun r => .close r⟩
  | @plain c cs s rest hquote hslash hc _ ih =>
      obtain ⟨u, rfl, hu⟩ := ih
      exact ⟨c :: u, rfl, fun r => .plain hquote hslash hc (hu r)⟩
  | @escape c e cs s rest he _ ih =>
      obtain ⟨u, rfl, hu⟩ := ih
      refine ⟨'\\' :: (e ++ u), by simp, fun r => ?_⟩
      rw [List.cons_append, List.append_assoc]
      exact .escape he (hu r)

/-- **A part of a text** is spelled by its own letters, whatever follows them. -/
theorem Spells.frame {part : Part} {n : Nat} {s rest : List Char} (h : Spells part n s rest) :
    ∃ u, s = u ++ rest ∧ ∀ r, Spells part n (u ++ r) r := by
  induction h with
  | @blank part n c s rest hc _ ih =>
      obtain ⟨u, rfl, hu⟩ := ih
      exact ⟨c :: u, rfl, fun r => .blank hc (hu r)⟩
  | word h rest => exact ⟨_, rfl, fun r => .word h r⟩
  | number h hv rest => exact ⟨_, rfl, fun r => .number h hv r⟩
  | text h =>
      obtain ⟨u, rfl, hu⟩ := h.frame
      exact ⟨'"' :: u, rfl, fun r => .text (hu r)⟩
  | array _ ih =>
      obtain ⟨u, rfl, hu⟩ := ih
      exact ⟨'[' :: u, rfl, fun r => .array (hu r)⟩
  | object _ ih =>
      obtain ⟨u, rfl, hu⟩ := ih
      exact ⟨'\x7b' :: u, rfl, fun r => .object (hu r)⟩
  | endItems start rest => exact ⟨[']'], rfl, fun r => .endItems start r⟩
  | firstItem _ _ ih ihs =>
      obtain ⟨u, rfl, hu⟩ := ih
      obtain ⟨u', rfl, hu'⟩ := ihs
      refine ⟨u ++ u', by rw [List.append_assoc], fun r => ?_⟩
      rw [List.append_assoc]
      exact .firstItem (hu _) (hu' r)
  | nextItem _ _ ih ihs =>
      obtain ⟨u, rfl, hu⟩ := ih
      obtain ⟨u', rfl, hu'⟩ := ihs
      refine ⟨',' :: (u ++ u'), by rw [List.cons_append, List.append_assoc], fun r => ?_⟩
      rw [List.cons_append, List.append_assoc]
      exact .nextItem (hu _) (hu' r)
  | endMembers start rest => exact ⟨['\x7d'], rfl, fun r => .endMembers start r⟩
  | firstMember _ _ ih ihs =>
      obtain ⟨u, rfl, hu⟩ := ih
      obtain ⟨u', rfl, hu'⟩ := ihs
      refine ⟨u ++ u', by rw [List.append_assoc], fun r => ?_⟩
      rw [List.append_assoc]
      exact .firstMember (hu _) (hu' r)
  | nextMember _ _ ih ihs =>
      obtain ⟨u, rfl, hu⟩ := ih
      obtain ⟨u', rfl, hu'⟩ := ihs
      refine ⟨',' :: (u ++ u'), by rw [List.cons_append, List.append_assoc], fun r => ?_⟩
      rw [List.cons_append, List.append_assoc]
      exact .nextMember (hu _) (hu' r)
  | member hk _ ih =>
      obtain ⟨u, rfl, hu⟩ := hk.frame
      obtain ⟨u', rfl, hu'⟩ := ih
      refine ⟨'"' :: (u ++ u'), by rw [List.cons_append, List.append_assoc], fun r => ?_⟩
      rw [List.cons_append, List.append_assoc]
      exact .member (hu _) (hu' r)
  | colon _ ih =>
      obtain ⟨u, rfl, hu⟩ := ih
      exact ⟨':' :: u, rfl, fun r => .colon (hu r)⟩

/-! ## Objects in their braces -/

/-- Members end with a brace. -/
lemma Spells.closing {part : Part} {n : Nat} {s rest : List Char} (h : Spells part n s rest)
    (hpart : ∃ start ms, part = .members start ms) : ∃ u, s = u ++ '\x7d' :: rest := by
  induction h with
  | @blank part n c s rest hc _ ih =>
      obtain ⟨u, rfl⟩ := ih hpart
      exact ⟨c :: u, rfl⟩
  | endMembers start rest => exact ⟨[], rfl⟩
  | firstMember h _ _ ihs =>
      obtain ⟨u, rfl, -⟩ := h.frame
      obtain ⟨u', rfl⟩ := ihs ⟨_, _, rfl⟩
      exact ⟨u ++ u', by rw [List.append_assoc]⟩
  | nextMember h _ _ ihs =>
      obtain ⟨u, rfl, -⟩ := h.frame
      obtain ⟨u', rfl⟩ := ihs ⟨_, _, rfl⟩
      exact ⟨',' :: (u ++ u'), by rw [List.cons_append, List.append_assoc]⟩
  | _ =>
      obtain ⟨_, _, hpart⟩ := hpart
      cases hpart

lemma Spells.braces {part : Part} {n : Nat} {s rest : List Char} (h : Spells part n s rest)
    {ms : List (String × Value)} (hpart : part = .value (.object ms)) :
    ∃ w u, s = w ++ '\x7b' :: (u ++ '\x7d' :: rest) ∧ IsBlank w ∧
      ∀ r, Spells part n ('\x7b' :: (u ++ '\x7d' :: r)) r := by
  induction h with
  | @blank part n c s rest hc _ ih =>
      obtain ⟨w, u, rfl, hw, hu⟩ := ih hpart
      exact ⟨c :: w, u, rfl, List.forall_mem_cons.2 ⟨hc, hw⟩, hu⟩
  | object h _ =>
      obtain ⟨u, rfl⟩ := h.closing ⟨_, _, rfl⟩
      obtain ⟨u', hu', hframe⟩ := h.frame
      rw [← List.singleton_append, ← List.append_assoc] at hu'
      obtain rfl := List.append_cancel_right hu'
      refine ⟨[], u, rfl, isBlank_nil, fun r => .object ?_⟩
      have hr := hframe r
      rwa [List.append_assoc] at hr
  | word h rest =>
      simp only [words, List.mem_cons, Prod.mk.injEq, List.not_mem_nil, or_false] at h
      rcases h with ⟨-, rfl⟩ | ⟨-, rfl⟩ | ⟨-, rfl⟩ <;> cases hpart
  | number h hv rest =>
      rcases Numeral.value?_cases hv with ⟨i, rfl⟩ | ⟨x, rfl⟩ <;> cases hpart
  | _ => cases hpart

/-- **A text of an object** stands in braces, with white space around it. -/
theorem IsText.braces {ms : List (String × Value)} {n : Nat} {t : List Char}
    (h : IsText (.object ms) n t) :
    ∃ w u w', t = w ++ '\x7b' :: (u ++ '\x7d' :: w') ∧ IsBlank w ∧ IsBlank w' ∧
      IsText (.object ms) n ('\x7b' :: (u ++ ['\x7d'])) := by
  obtain ⟨rest, hspells, hrest⟩ := h
  obtain ⟨w, u, rfl, hw, hu⟩ := hspells.braces rfl
  exact ⟨w, u, rest, rfl, hw, hrest, [], hu [], isBlank_nil⟩

/-- A text of an object that does not begin with white space begins with a brace. -/
lemma IsText.head? {ms : List (String × Value)} {n : Nat} {t : List Char}
    (h : IsText (.object ms) n t) (hspace : ∀ c ∈ t.head?, isSpace c = false) :
    t.head? = some '\x7b' := by
  obtain ⟨w, u, w', rfl, hw, -⟩ := h.braces
  cases w with
  | nil => rfl
  | cons c w =>
      have hc := hw c List.mem_cons_self
      exact absurd hc (by rw [hspace c rfl]; exact Bool.false_ne_true)

end Json

end ScarbCrates
