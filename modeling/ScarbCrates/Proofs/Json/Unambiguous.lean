import Mathlib.Tactic.Common
import ScarbCrates.Digest.Hex
import ScarbCrates.Json.Writer

/-!
# Compact JSON is unambiguous

Two values without floating-point numbers that are written with the same text are the same value.
A value's text also shows where it ends, as long as no digit follows; that is what the induction
over nested values is about.

* `Json.Value.compact_append` — the same text, each followed by something that is no digit.
* `Json.Value.compact_injective` — the same text.
-/

namespace ScarbCrates

namespace Json

/-! ## Strings -/

/-- The character that an escaped one stands for, and what follows it. -/
def unescaped : List Char → Option (Char × List Char)
  | '\\' :: 'u' :: _ :: _ :: a :: b :: rest =>
    match Hex.digit? a, Hex.digit? b with
    | some high, some low => some (Char.ofNat (high * 16 + low), rest)
    | _, _ => none
  | '\\' :: 'n' :: rest => some ('\n', rest)
  | '\\' :: 'r' :: rest => some ('\r', rest)
  | '\\' :: 't' :: rest => some ('\t', rest)
  | '\\' :: 'b' :: rest => some (Char.ofNat 8, rest)
  | '\\' :: 'f' :: rest => some (Char.ofNat 12, rest)
  | '\\' :: c :: rest => some (c, rest)
  | c :: rest => some (c, rest)
  | [] => none

/-- A control character in four hexadecimal digits, of which the first two are zero. -/
lemma hexPadded_control : ∀ n < 32,
    Text.hexPadded 4 n = ['0', '0', Text.hexDigit (n / 16), Text.hexDigit (n % 16)] ∧
      Hex.digit? (Text.hexDigit (n / 16)) = some (n / 16) ∧
      Hex.digit? (Text.hexDigit (n % 16)) = some (n % 16) := by
  decide

lemma unescaped_escaped (c : Char) (s : List Char) : unescaped (escaped c ++ s) = some (c, s) := by
  rw [escaped]
  split_ifs with h1 h2 h3 h4 h5 h6 h7 h8
  · simp [unescaped, h1]
  · simp [unescaped, h2]
  · simp [unescaped, h3]
  · simp [unescaped, h4]
  · simp [unescaped, h5]
  · rw [← Char.ofNat_toNat c, h6]
    rfl
  · rw [← Char.ofNat_toNat c, h7]
    rfl
  · obtain ⟨hx, hhigh, hlow⟩ := hexPadded_control c.toNat h8
    have hn : c.toNat / 16 * 16 + c.toNat % 16 = c.toNat := Nat.div_add_mod' _ _
    simp [unescaped, hx, hhigh, hlow, hn]
  · simp [unescaped, h2]

/-- Characters that are escaped the same way are the same. -/
lemma escaped_append {c d : Char} {s t : List Char} (h : escaped c ++ s = escaped d ++ t) :
    c = d ∧ s = t := by
  have hu := congrArg unescaped h
  rw [unescaped_escaped, unescaped_escaped] at hu
  simpa using hu

lemma escaped_ne_quote (c : Char) (s t : List Char) : escaped c ++ s ≠ '"' :: t := by
  intro h
  rw [escaped] at h
  split_ifs at h <;> simp_all

lemma flatMap_escaped_append {cs ds s t : List Char}
    (h : cs.flatMap escaped ++ '"' :: s = ds.flatMap escaped ++ '"' :: t) : cs = ds ∧ s = t := by
  induction cs generalizing ds with
  | nil =>
      cases ds with
      | nil => simpa using h
      | cons d ds =>
          simp only [List.flatMap_nil, List.nil_append, List.flatMap_cons, List.append_assoc] at h
          exact absurd h.symm (escaped_ne_quote d _ _)
  | cons c cs ih =>
      cases ds with
      | nil =>
          simp only [List.flatMap_nil, List.nil_append, List.flatMap_cons, List.append_assoc] at h
          exact absurd h (escaped_ne_quote c _ _)
      | cons d ds =>
          simp only [List.flatMap_cons, List.append_assoc] at h
          obtain ⟨rfl, hrest⟩ := escaped_append h
          obtain ⟨rfl, rfl⟩ := ih hrest
          exact ⟨rfl, rfl⟩

/-- **A string shows where it ends.** -/
lemma stringChars_append {a b : String} {s t : List Char}
    (h : stringChars a ++ s = stringChars b ++ t) : a = b ∧ s = t := by
  simp only [stringChars, List.cons_append, List.append_assoc, List.nil_append, List.cons.injEq,
    true_and] at h
  obtain ⟨hl, rfl⟩ := flatMap_escaped_append h
  exact ⟨String.toList_inj.1 hl, rfl⟩

/-! ## Integers -/

/-- No digit comes first. -/
def NoDigit (s : List Char) : Prop := ∀ c ∈ s.head?, c.isDigit = false

lemma takeWhile_digits {n : Nat} {s : List Char} (hs : NoDigit s) :
    (Nat.toDigits 10 n ++ s).takeWhile Char.isDigit = Nat.toDigits 10 n := by
  rw [List.takeWhile_append_of_pos
    fun c hc => Nat.isDigit_of_mem_toDigits (by decide) (by decide) hc]
  cases s with
  | nil => simp
  | cons c rest => simp [hs c rfl]

lemma toDigits_append {m n : Nat} {s t : List Char} (hs : NoDigit s) (ht : NoDigit t)
    (h : Nat.toDigits 10 m ++ s = Nat.toDigits 10 n ++ t) : m = n ∧ s = t := by
  have hd := congrArg (List.takeWhile Char.isDigit) h
  rw [takeWhile_digits hs, takeWhile_digits ht] at hd
  have hn := congrArg (Nat.ofDigitChars 10 · 0) hd
  simp only [Nat.ofDigitChars_ten_toDigits] at hn
  subst hn
  exact ⟨rfl, List.append_cancel_left h⟩

lemma minus_not_mem_toDigits (n : Nat) (s : List Char) (t : List Char) :
    Nat.toDigits 10 n ++ s ≠ '-' :: t := by
  intro h
  cases hd : Nat.toDigits 10 n with
  | nil => exact Nat.toDigits_ne_nil hd
  | cons c rest =>
      have hc : c.isDigit = true :=
        Nat.isDigit_of_mem_toDigits (by decide) (by decide) (hd ▸ List.mem_cons_self)
      rw [hd, List.cons_append, List.cons.injEq] at h
      rw [h.1] at hc
      exact absurd hc (by decide)

lemma intChars_append {i j : Int} {s t : List Char} (hs : NoDigit s) (ht : NoDigit t)
    (h : intChars i ++ s = intChars j ++ t) : i = j ∧ s = t := by
  cases i with
  | ofNat m =>
      cases j with
      | ofNat n =>
          obtain ⟨rfl, rfl⟩ := toDigits_append hs ht h
          exact ⟨rfl, rfl⟩
      | negSucc n => exact absurd h (minus_not_mem_toDigits m s _)
  | negSucc m =>
      cases j with
      | ofNat n => exact absurd h.symm (minus_not_mem_toDigits n t _)
      | negSucc n =>
          simp only [intChars, List.cons_append, List.cons.injEq, true_and] at h
          obtain ⟨hmn, rfl⟩ := toDigits_append hs ht h
          rw [Nat.add_right_cancel hmn]
          exact ⟨rfl, rfl⟩

/-! ## Values -/

namespace Value

mutual

/-- Whether a value holds no floating-point number. -/
def floatFree : Value → Bool
  | .float _ => false
  | .array items => floatFreeItems items
  | .object members => floatFreeMembers members
  | _ => true

/-- Whether no item holds a floating-point number. -/
def floatFreeItems : List Value → Bool
  | [] => true
  | v :: rest => v.floatFree && floatFreeItems rest

/-- Whether no member holds a floating-point number. -/
def floatFreeMembers : List (String × Value) → Bool
  | [] => true
  | (_, v) :: rest => v.floatFree && floatFreeMembers rest

end

/-- The character that a value's text begins with, all those that begin a number being one. -/
def opener : Value → Char
  | .null => 'n'
  | .bool true => 't'
  | .bool false => 'f'
  | .int _ => '0'
  | .float _ => '.'
  | .text _ => '"'
  | .array _ => '['
  | .object _ => '\x7b'

/-- The one character for all that begin a number. -/
def leading (c : Char) : Char := if c.isDigit ∨ c = '-' then '0' else c

/-- The first character of a text shows what kind of value it is of. -/
lemma exists_compact {v : Value} (hv : v.floatFree = true) :
    ∃ c rest, v.compact = c :: rest ∧ leading c = v.opener := by
  cases v with
  | null => exact ⟨'n', _, rfl, by decide⟩
  | bool b => cases b <;> exact ⟨_, _, rfl, by decide⟩
  | float x => simp [floatFree] at hv
  | text s => exact ⟨'"', _, rfl, rfl⟩
  | array items => cases items <;> exact ⟨'[', _, rfl, rfl⟩
  | object members => rcases members with _ | ⟨⟨name, v⟩, rest⟩ <;> exact ⟨'\x7b', _, rfl, rfl⟩
  | int i =>
      rw [compact]
      cases i with
      | negSucc n => exact ⟨'-', _, rfl, rfl⟩
      | ofNat n =>
          cases hd : Nat.toDigits 10 n with
          | nil => exact absurd hd Nat.toDigits_ne_nil
          | cons c rest =>
              have hc : c.isDigit = true :=
                Nat.isDigit_of_mem_toDigits (by decide) (by decide) (hd ▸ List.mem_cons_self)
              exact ⟨c, rest, hd, by rw [leading, if_pos (Or.inl hc), opener]⟩

lemma opener_eq {v w : Value} (hv : v.floatFree = true) (hw : w.floatFree = true)
    {s t : List Char} (h : v.compact ++ s = w.compact ++ t) : v.opener = w.opener := by
  obtain ⟨c, cs, hc, hco⟩ := exists_compact hv
  obtain ⟨d, ds, hd, hdo⟩ := exists_compact hw
  rw [hc, hd, List.cons_append, List.cons_append, List.cons.injEq] at h
  rw [← hco, ← hdo, h.1]

/-- No value's text begins with the bracket that closes an array. -/
lemma compact_ne_closing {v : Value} (hv : v.floatFree = true) {s t : List Char} :
    v.compact ++ s ≠ ']' :: t := by
  intro h
  obtain ⟨c, cs, hcs, hco⟩ := exists_compact hv
  rw [hcs, List.cons_append, List.cons.injEq] at h
  rw [h.1] at hco
  cases v with
  | bool b => cases b <;> simp [opener, leading] at hco
  | float x => simp [floatFree] at hv
  | _ => simp [opener, leading] at hco

end Value

lemma noDigit_items (items : List Value) (s : List Char) :
    NoDigit (compactItems items ++ ']' :: s) := by
  cases items <;> simp [NoDigit, compactItems]

lemma noDigit_members (members : List (String × Value)) (s : List Char) :
    NoDigit (compactMembers members ++ '\x7d' :: s) := by
  rcases members with _ | ⟨⟨name, v⟩, rest⟩ <;> simp [NoDigit, compactMembers]

/-- Arrays with the same text have items with the same text. -/
lemma array_append {items items' : List Value} {s t : List Char}
    (hv : Value.floatFreeItems items = true) (hw : Value.floatFreeItems items' = true)
    (h : (Value.array items).compact ++ s = (Value.array items').compact ++ t) :
    compactItems items ++ ']' :: s = compactItems items' ++ ']' :: t := by
  cases items with
  | nil =>
      cases items' with
      | nil => simpa [Value.compact, compactItems] using h
      | cons w ws =>
          simp only [Value.floatFreeItems, Bool.and_eq_true] at hw
          simp only [Value.compact, List.cons_append, List.append_assoc, List.nil_append,
            List.cons.injEq, true_and] at h
          exact absurd h.symm (Value.compact_ne_closing hw.1)
  | cons v vs =>
      cases items' with
      | nil =>
          simp only [Value.floatFreeItems, Bool.and_eq_true] at hv
          simp only [Value.compact, List.cons_append, List.append_assoc, List.nil_append,
            List.cons.injEq, true_and] at h
          exact absurd h (Value.compact_ne_closing hv.1)
      | cons w ws => simpa [Value.compact, compactItems] using h

/-- Objects with the same text have members with the same text: a brace begins no name. -/
lemma object_append {members members' : List (String × Value)} {s t : List Char}
    (h : (Value.object members).compact ++ s = (Value.object members').compact ++ t) :
    compactMembers members ++ '\x7d' :: s = compactMembers members' ++ '\x7d' :: t := by
  rcases members with _ | ⟨⟨name, v⟩, vs⟩
  · rcases members' with _ | ⟨⟨name', w⟩, ws⟩
    · simpa [Value.compact, compactMembers] using h
    · simp [Value.compact, stringChars] at h
  · rcases members' with _ | ⟨⟨name', w⟩, ws⟩
    · simp [Value.compact, stringChars] at h
    · simpa [Value.compact, compactMembers] using h

mutual

/-- **A value's text shows the value and where it ends.** -/
theorem Value.compact_append : ∀ {v w : Value} {s t : List Char}, v.floatFree = true →
    w.floatFree = true → NoDigit s → NoDigit t → v.compact ++ s = w.compact ++ t → v = w ∧ s = t
  | .null, w, s, t, hv, hw, hs, ht, h => by
      have ho := Value.opener_eq hv hw h
      cases w with
      | null => exact ⟨rfl, List.append_cancel_left h⟩
      | bool b => cases b <;> simp [Value.opener] at ho
      | _ => simp [Value.opener] at ho
  | .bool a, w, s, t, hv, hw, hs, ht, h => by
      have ho := Value.opener_eq hv hw h
      cases w with
      | bool b =>
          cases a <;> cases b <;> simp [Value.opener] at ho <;>
            exact ⟨rfl, List.append_cancel_left h⟩
      | _ => cases a <;> simp [Value.opener] at ho
  | .int i, w, s, t, hv, hw, hs, ht, h => by
      have ho := Value.opener_eq hv hw h
      cases w with
      | int j =>
          rw [Value.compact, Value.compact] at h
          obtain ⟨rfl, rfl⟩ := intChars_append hs ht h
          exact ⟨rfl, rfl⟩
      | bool b => cases b <;> simp [Value.opener] at ho
      | _ => simp [Value.opener] at ho
  | .float x, _, _, _, hv, _, _, _, _ => by simp [Value.floatFree] at hv
  | .text a, w, s, t, hv, hw, hs, ht, h => by
      have ho := Value.opener_eq hv hw h
      cases w with
      | text b =>
          rw [Value.compact, Value.compact] at h
          obtain ⟨rfl, rfl⟩ := stringChars_append h
          exact ⟨rfl, rfl⟩
      | bool b => cases b <;> simp [Value.opener] at ho
      | _ => simp [Value.opener] at ho
  | .array items, w, s, t, hv, hw, hs, ht, h => by
      have ho := Value.opener_eq hv hw h
      cases w with
      | array items' =>
          simp only [Value.floatFree] at hv hw
          obtain ⟨rfl, rfl⟩ := compactItems_append hv hw (array_append hv hw h)
          exact ⟨rfl, rfl⟩
      | bool b => cases b <;> simp [Value.opener] at ho
      | _ => simp [Value.opener] at ho
  | .object members, w, s, t, hv, hw, hs, ht, h => by
      have ho := Value.opener_eq hv hw h
      cases w with
      | object members' =>
          simp only [Value.floatFree] at hv hw
          obtain ⟨rfl, rfl⟩ := compactMembers_append hv hw (object_append h)
          exact ⟨rfl, rfl⟩
      | bool b => cases b <;> simp [Value.opener] at ho
      | _ => simp [Value.opener] at ho

/-- Items after the first show where they end. -/
theorem compactItems_append : ∀ {vs ws : List Value} {s t : List Char},
    Value.floatFreeItems vs = true → Value.floatFreeItems ws = true →
    compactItems vs ++ ']' :: s = compactItems ws ++ ']' :: t → vs = ws ∧ s = t
  | [], [], s, t, _, _, h => by simpa [compactItems] using h
  | [], _ :: _, _, _, _, _, h => by simp [compactItems] at h
  | _ :: _, [], _, _, _, _, h => by simp [compactItems] at h
  | v :: vs, w :: ws, s, t, hv, hw, h => by
      simp only [Value.floatFreeItems, Bool.and_eq_true] at hv hw
      simp only [compactItems, List.cons_append, List.append_assoc, List.cons.injEq,
        true_and] at h
      obtain ⟨rfl, hrest⟩ := Value.compact_append hv.1 hw.1 (noDigit_items vs s)
        (noDigit_items ws t) h
      obtain ⟨rfl, rfl⟩ := compactItems_append hv.2 hw.2 hrest
      exact ⟨rfl, rfl⟩

/-- Members after the first show where they end. -/
theorem compactMembers_append : ∀ {vs ws : List (String × Value)} {s t : List Char},
    Value.floatFreeMembers vs = true → Value.floatFreeMembers ws = true →
    compactMembers vs ++ '\x7d' :: s = compactMembers ws ++ '\x7d' :: t → vs = ws ∧ s = t
  | [], [], s, t, _, _, h => by simpa [compactMembers] using h
  | [], (_, _) :: _, _, _, _, _, h => by simp [compactMembers] at h
  | (_, _) :: _, [], _, _, _, _, h => by simp [compactMembers] at h
  | (name, v) :: vs, (name', w) :: ws, s, t, hv, hw, h => by
      simp only [Value.floatFreeMembers, Bool.and_eq_true] at hv hw
      simp only [compactMembers, List.cons_append, List.append_assoc, List.cons.injEq,
        true_and] at h
      obtain ⟨rfl, hvalue⟩ := stringChars_append h
      rw [List.cons.injEq] at hvalue
      obtain ⟨rfl, hrest⟩ := Value.compact_append hv.1 hw.1 (noDigit_members vs s)
        (noDigit_members ws t) hvalue.2
      obtain ⟨rfl, rfl⟩ := compactMembers_append hv.2 hw.2 hrest
      exact ⟨rfl, rfl⟩

end

/-- **Values without floating-point numbers that are written the same are the same.** -/
theorem Value.compact_injective {v w : Value} (hv : v.floatFree = true) (hw : w.floatFree = true)
    (h : v.compact = w.compact) : v = w := by
  have hnil : NoDigit [] := by simp [NoDigit]
  exact (Value.compact_append (s := []) (t := []) hv hw hnil hnil (by rw [h])).1

end Json

end ScarbCrates
