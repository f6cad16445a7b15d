import Mathlib.Tactic.Common
import ScarbCrates.Text.Letter

/-!
# Texts and their bytes

A text read from bytes spells these bytes again, whether they encode characters or not, so texts
tell apart what their bytes tell apart.

* `Text.encode_decode` — reading and spelling.
* `Text.decode_encode_ofChars` — spelling and reading.
* `Utf8.faultFrom_encode` — the bytes of characters have no fault.
* `Text.decode_injective`, `Text.encode_ofChars_injective` — different bytes have different texts,
  and different strings different bytes.
-/

namespace ScarbCrates

namespace Utf8

/-- A character from a number that is one. -/
lemma toNat_ofNat {n : Nat} (h : n.isValidChar) : (Char.ofNat n).val.toNat = n := by
  rw [Char.ofNat, dif_pos h]
  rfl

lemma isContinuation_iff (b : UInt8) :
    isContinuation b = true ↔ 128 ≤ b.toNat ∧ b.toNat ≤ 191 := by
  simp [isContinuation, UInt8.le_iff_toNat_le]

lemma isSecond_iff (lead b : UInt8) :
    isSecond lead b = true ↔ 128 ≤ b.toNat ∧ b.toNat ≤ 191 ∧
      (lead.toNat = 224 → 160 ≤ b.toNat) ∧ (lead.toNat = 237 → b.toNat ≤ 159) ∧
      (lead.toNat = 240 → 144 ≤ b.toNat) ∧ (lead.toNat = 244 → b.toNat ≤ 143) := by
  simp only [isSecond, ← UInt8.toNat_inj, UInt8.reduceToNat]
  split_ifs with h1 h2 h3 h4
  all_goals
    simp only [isContinuation_iff, Bool.and_eq_true, decide_eq_true_eq, UInt8.le_iff_toNat_le,
      UInt8.reduceToNat]
    omega

/-- The bytes of a character, by the range that its number lies in. -/
lemma utf8EncodeChar_ofNat {n : Nat} (h : n.isValidChar) :
    String.utf8EncodeChar (Char.ofNat n) =
      if n ≤ 127 then [UInt8.ofNat n]
      else if n ≤ 2047 then [UInt8.ofNat (n / 64 % 32 + 192), UInt8.ofNat (n % 64 + 128)]
      else if n ≤ 65535 then
        [UInt8.ofNat (n / 4096 % 16 + 224), UInt8.ofNat (n / 64 % 64 + 128),
          UInt8.ofNat (n % 64 + 128)]
      else
        [UInt8.ofNat (n / 262144 % 8 + 240), UInt8.ofNat (n / 4096 % 64 + 128),
          UInt8.ofNat (n / 64 % 64 + 128), UInt8.ofNat (n % 64 + 128)] := by
  simp only [String.utf8EncodeChar, toNat_ofNat h]

lemma ofNat_eq_of_toNat {b : UInt8} {n : Nat} (h : n = b.toNat) : UInt8.ofNat n = b := by
  rw [h, UInt8.ofNat_toNat]

lemma stepThree_char {lead : UInt8} {rest : List UInt8} {c : Char} {width : Nat}
    (hlo : 224 ≤ lead.toNat) (hhi : lead.toNat ≤ 239)
    (h : stepThree lead rest = .char c width) :
    width = 3 ∧ ∃ b d more, rest = b :: d :: more ∧ String.utf8EncodeChar c = [lead, b, d] := by
  rw [stepThree.eq_def] at h
  split at h
  · simp at h
  rename_i b rest
  split at h
  · simp at h
  rename_i hb
  split at h
  · simp at h
  rename_i d more
  split at h
  · simp at h
  rename_i hd
  rw [Step.char.injEq] at h
  obtain ⟨rfl, rfl⟩ := h
  simp only [Bool.not_eq_true', Bool.not_eq_false, isSecond_iff, isContinuation_iff] at hb hd
  refine ⟨rfl, b, d, more, rfl, ?_⟩
  have hv : Nat.isValidChar ((lead.toNat - 224) * 4096 + payload b * 64 + payload d) := by
    simp only [payload, Nat.isValidChar]
    omega
  rw [utf8EncodeChar_ofNat hv]
  unfold payload
  rw [if_neg (by omega), if_neg (by omega), if_pos (by omega)]
  rw [ofNat_eq_of_toNat (b := lead) (by omega), ofNat_eq_of_toNat (b := b) (by omega),
    ofNat_eq_of_toNat (b := d) (by omega)]

lemma stepFour_char {lead : UInt8} {rest : List UInt8} {c : Char} {width : Nat}
    (hlo : 240 ≤ lead.toNat) (hhi : lead.toNat ≤ 244)
    (h : stepFour lead rest = .char c width) :
    width = 4 ∧ ∃ b d e more, rest = b :: d :: e :: more ∧
      String.utf8EncodeChar c = [lead, b, d, e] := by
  rw [stepFour.eq_def] at h
  split at h
  · simp at h
  rename_i b rest
  split at h
  · simp at h
  rename_i hb
  split at h
  · simp at h
  rename_i d rest
  split at h
  · simp at h
  rename_i hd
  split at h
  · simp at h
  rename_i e more
  split at h
  · simp at h
  rename_i he
  rw [Step.char.injEq] at h
  obtain ⟨rfl, rfl⟩ := h
  simp only [Bool.not_eq_true', Bool.not_eq_false, isSecond_iff, isContinuation_iff] at hb hd he
  refine ⟨rfl, b, d, e, more, rfl, ?_⟩
  have hv : Nat.isValidChar ((lead.toNat - 240) * 262144 + payload b * 4096 + payload d * 64
      + payload e) := by
    simp only [payload, Nat.isValidChar]
    omega
  rw [utf8EncodeChar_ofNat hv]
  unfold payload
  rw [if_neg (by omega), if_neg (by omega), if_neg (by omega)]
  rw [ofNat_eq_of_toNat (b := lead) (by omega), ofNat_eq_of_toNat (b := b) (by omega),
    ofNat_eq_of_toNat (b := d) (by omega), ofNat_eq_of_toNat (b := e) (by omega)]

/-- **A character that is read is spelt by the bytes that it took.** -/
lemma step_char {lead : UInt8} {rest : List UInt8} {c : Char} {width : Nat}
    (h : step lead rest = .char c width) :
    0 < width ∧ String.utf8EncodeChar c = lead :: rest.take (width - 1) := by
  simp only [step, UInt8.lt_iff_toNat_lt, UInt8.reduceToNat] at h
  split_ifs at h with h1 h2 h3 h4 h5
  · rw [Step.char.injEq] at h
    obtain ⟨rfl, rfl⟩ := h
    have hv : Nat.isValidChar lead.toNat := by
      simp only [Nat.isValidChar]
      omega
    rw [utf8EncodeChar_ofNat hv, if_pos (by omega), UInt8.ofNat_toNat]
    simp
  · split at h
    · simp at h
    rename_i b more
    split at h
    · simp at h
    rename_i hb
    rw [Step.char.injEq] at h
    obtain ⟨rfl, rfl⟩ := h
    simp only [Bool.not_eq_true', Bool.not_eq_false, isContinuation_iff] at hb
    have hv : Nat.isValidChar ((lead.toNat - 192) * 64 + payload b) := by
      simp only [payload, Nat.isValidChar]
      omega
    rw [utf8EncodeChar_ofNat hv]
    unfold payload
    rw [if_neg (by omega), if_pos (by omega), ofNat_eq_of_toNat (b := lead) (by omega),
      ofNat_eq_of_toNat (b := b) (by omega)]
    simp
  · obtain ⟨rfl, b, d, more, rfl, hc⟩ := stepThree_char (by omega) (by omega) h
    simp [hc]
  · obtain ⟨rfl, b, d, e, more, rfl, hc⟩ := stepFour_char (by omega) (by omega) h
    simp [hc]

/-! ## Reading the bytes of characters -/

lemma toNat_ofNat_of_lt {n : Nat} (h : n < 256) : (UInt8.ofNat n).toNat = n := by
  rw [UInt8.toNat_ofNat', Nat.mod_eq_of_lt h]

/-- **A byte below `80` stands for a character:** the encoding of a character has such a byte only
if it is the number of the character. -/
lemma toNat_of_mem_utf8EncodeChar {b : UInt8} (hb : b.toNat ≤ 127) {c : Char}
    (h : b ∈ String.utf8EncodeChar c) : c.toNat = b.toNat := by
  obtain ⟨n, hn, rfl⟩ : ∃ n, n.isValidChar ∧ Char.ofNat n = c :=
    ⟨c.toNat, c.valid, Char.ofNat_toNat c⟩
  have hbyte : ∀ k, k < 256 → b = UInt8.ofNat k → b.toNat = k := by
    rintro k hk rfl
    exact toNat_ofNat_of_lt hk
  rw [utf8EncodeChar_ofNat hn] at h
  split_ifs at h
  · have hnumber := hbyte n (by omega) (List.mem_singleton.1 h)
    exact (toNat_ofNat hn).trans hnumber.symm
  -- All bytes of a longer encoding are above.
  all_goals
    simp only [List.mem_cons, List.not_mem_nil, or_false] at h
    exfalso
  · rcases h with h | h <;> have := hbyte _ (by omega) h <;> omega
  · rcases h with h | h | h <;> have := hbyte _ (by omega) h <;> omega
  · rcases h with h | h | h | h <;> have := hbyte _ (by omega) h <;> omega

/-- **The bytes of a character are read as the character.** -/
lemma step_encodeChar (c : Char) (rest : List UInt8) :
    ∃ lead more, String.utf8EncodeChar c = lead :: more ∧
      step lead (more ++ rest) = .char c (more.length + 1) := by
  obtain ⟨n, hn, rfl⟩ : ∃ n, n.isValidChar ∧ Char.ofNat n = c :=
    ⟨c.toNat, c.valid, Char.ofNat_toNat c⟩
  rw [utf8EncodeChar_ofNat hn]
  have hvalid : n < 55296 ∨ 57343 < n ∧ n < 1114112 := hn
  clear hn
  split_ifs with h1 h2 h3
  · refine ⟨_, _, rfl, ?_⟩
    have hlead := toNat_ofNat_of_lt (n := n) (by omega)
    simp only [step, UInt8.lt_iff_toNat_lt, UInt8.reduceToNat, hlead]
    rw [if_pos (by omega)]
    rfl
  · refine ⟨_, _, rfl, ?_⟩
    have hlead := toNat_ofNat_of_lt (n := n / 64 % 32 + 192) (by omega)
    have hb := toNat_ofNat_of_lt (n := n % 64 + 128) (by omega)
    simp only [step, UInt8.lt_iff_toNat_lt, UInt8.reduceToNat, hlead, List.cons_append]
    rw [if_neg (by omega), if_neg (by omega), if_pos (by omega), if_neg]
    · simp only [payload, hb]
      congr 2
      omega
    · simp only [Bool.not_eq_true', Bool.not_eq_false, isContinuation_iff, hb]
      omega
  · refine ⟨_, _, rfl, ?_⟩
    have hlead := toNat_ofNat_of_lt (n := n / 4096 % 16 + 224) (by omega)
    have hb := toNat_ofNat_of_lt (n := n / 64 % 64 + 128) (by omega)
    have hd := toNat_ofNat_of_lt (n := n % 64 + 128) (by omega)
    simp only [step, UInt8.lt_iff_toNat_lt, UInt8.reduceToNat, hlead, List.cons_append]
    rw [if_neg (by omega), if_neg (by omega), if_neg (by omega), if_pos (by omega)]
    simp only [stepThree]
    rw [if_neg, if_neg]
    · simp only [payload, hlead, hb, hd]
      congr 2
      omega
    · simp only [Bool.not_eq_true', Bool.not_eq_false, isContinuation_iff, hd]
      omega
    · simp only [Bool.not_eq_true', Bool.not_eq_false, isSecond_iff, hlead, hb]
      omega
  · refine ⟨_, _, rfl, ?_⟩
    have hlead := toNat_ofNat_of_lt (n := n / 262144 % 8 + 240) (by omega)
    have hb := toNat_ofNat_of_lt (n := n / 4096 % 64 + 128) (by omega)
    have hd := toNat_ofNat_of_lt (n := n / 64 % 64 + 128) (by omega)
    have he := toNat_ofNat_of_lt (n := n % 64 + 128) (by omega)
    simp only [step, UInt8.lt_iff_toNat_lt, UInt8.reduceToNat, hlead, List.cons_append]
    rw [if_neg (by omega), if_neg (by omega), if_neg (by omega), if_neg (by omega),
      if_pos (by omega)]
    simp only [stepFour]
    rw [if_neg, if_neg, if_neg]
    · simp only [payload, hlead, hb, hd, he]
      congr 2
      omega
    · simp only [Bool.not_eq_true', Bool.not_eq_false, isContinuation_iff, he]
      omega
    · simp only [Bool.not_eq_true', Bool.not_eq_false, isContinuation_iff, hd]
      omega
    · simp only [Bool.not_eq_true', Bool.not_eq_false, isSecond_iff, hlead, hb]
      omega

lemma faultFrom_append (start : Nat) (a rest : List UInt8) :
    faultFrom start a.length (a ++ rest) = faultFrom (start + a.length) 0 rest := by
  induction a generalizing start with
  | nil => rfl
  | cons b a ih =>
      rw [List.length_cons, List.cons_append, faultFrom, ih, Nat.add_right_comm, Nat.add_assoc]

/-- Characters have no fault. -/
lemma faultFrom_encode (cs : List Char) (start : Nat) :
    faultFrom start 0 (Text.encode (Text.ofChars cs)) = none := by
  induction cs generalizing start with
  | nil => rfl
  | cons c cs ih =>
      obtain ⟨lead, more, hbytes, hstep⟩ := step_encodeChar c (Text.encode (Text.ofChars cs))
      have hcons : Text.encode (Text.ofChars (c :: cs)) =
          lead :: (more ++ Text.encode (Text.ofChars cs)) := by
        rw [← List.cons_append, ← hbytes]
        rfl
      rw [hcons, faultFrom, hstep]
      exact (faultFrom_append _ more _).trans (ih _)

end Utf8

namespace Text

lemma encode_decodeFrom (bytes : List UInt8) :
    ∀ skip : Nat, encode (decodeFrom skip bytes) = bytes.drop skip := by
  induction bytes with
  | nil => intro skip; cases skip <;> simp [decodeFrom, encode]
  | cons b rest ih =>
      intro skip
      cases skip with
      | succ skip => simpa [decodeFrom] using ih skip
      | zero =>
          rw [decodeFrom]
          split
          · rename_i c width h
            obtain ⟨hw, hc⟩ := Utf8.step_char h
            simp only [encode, List.flatMap_cons, Letter.bytes, List.drop_zero] at ih ⊢
            rw [ih, hc, List.cons_append, List.take_append_drop]
          · have := ih 0
            simp only [encode, List.flatMap_cons, Letter.bytes, List.drop_zero] at this ⊢
            rw [this, List.cons_append, List.nil_append]

/-- **A text read from bytes spells these bytes.** -/
theorem encode_decode (bytes : List UInt8) : encode (decode bytes) = bytes :=
  encode_decodeFrom bytes 0

/-- The bytes that a character has taken are passed over. -/
lemma decodeFrom_append (a rest : List UInt8) :
    decodeFrom a.length (a ++ rest) = decodeFrom 0 rest := by
  induction a with
  | nil => rfl
  | cons b a ih => rw [List.length_cons, List.cons_append, decodeFrom, ih]

/-- **Characters that are spelled in bytes are read from them.** -/
theorem decode_encode_ofChars (cs : List Char) : decode (encode (ofChars cs)) = ofChars cs := by
  induction cs with
  | nil => rfl
  | cons c cs ih =>
      obtain ⟨lead, more, hbytes, hstep⟩ := Utf8.step_encodeChar c (encode (ofChars cs))
      have hcons : encode (ofChars (c :: cs)) = lead :: (more ++ encode (ofChars cs)) := by
        rw [← List.cons_append, ← hbytes]
        rfl
      rw [decode, hcons, decodeFrom, hstep]
      show Letter.char c :: decodeFrom more.length (more ++ encode (ofChars cs)) = _
      rw [decodeFrom_append]
      exact congrArg (Letter.char c :: ·) ih

lemma exists_chars_of_faultFrom {bytes : List UInt8} {start skip : Nat}
    (h : Utf8.faultFrom start skip bytes = none) : ∃ cs, decodeFrom skip bytes = ofChars cs := by
  induction bytes generalizing start skip with
  | nil => exact ⟨[], by cases skip <;> rfl⟩
  | cons b rest ih =>
      cases skip with
      | succ skip => exact ih h
      | zero =>
          rw [Utf8.faultFrom] at h
          rw [decodeFrom]
          cases hstep : Utf8.step b rest with
          | char c width =>
              rw [hstep] at h
              obtain ⟨cs, hcs⟩ := ih h
              exact ⟨c :: cs, congrArg (Letter.char c :: ·) hcs⟩
          | fault reason width =>
              rw [hstep] at h
              cases h

/-- **Bytes without a fault are the bytes of characters.** -/
theorem firstFault_eq_none_iff {bytes : List UInt8} :
    Utf8.firstFault bytes = none ↔ ∃ cs, bytes = encode (ofChars cs) := by
  constructor
  · intro h
    obtain ⟨cs, hcs⟩ := exists_chars_of_faultFrom h
    exact ⟨cs, hcs ▸ (encode_decode bytes).symm⟩
  · rintro ⟨cs, rfl⟩
    exact Utf8.faultFrom_encode cs 0

lemma decode_injective : Function.Injective decode :=
  Function.LeftInverse.injective encode_decode

lemma encode_ofChars_injective {cs ds : List Char} (h : encode (ofChars cs) = encode (ofChars ds)) :
    cs = ds := by
  simp only [encode, ofChars, List.flatMap_map, Letter.bytes] at h
  have hu : cs.utf8Encode = ds.utf8Encode := congrArg List.toByteArray h
  refine String.ofList_injective (String.toByteArray_inj.1 ?_)
  rw [String.toByteArray_ofList, String.toByteArray_ofList, hu]

/-! ## Texts without stray bytes -/

lemma strayRunFrom_eq_none {t : Text} {start : Nat} (h : strayRunFrom start t = none) :
    t = ofChars (chars t) := by
  induction t generalizing start with
  | nil => rfl
  | cons l rest ih =>
      cases l with
      | char c =>
          rw [strayRunFrom] at h
          exact congrArg (Letter.char c :: ·) (ih h)
      | stray b => simp [strayRunFrom] at h

/-- A text that is a string is made of the string's characters. -/
lemma eq_ofString {t : Text} {s : String} (h : toString? t = .ok s) : t = ofString s := by
  rw [toString?] at h
  split at h
  · simp at h
  · rename_i hr
    rw [Except.ok.injEq] at h
    rw [← h, ofString, String.toList_ofList]
    exact strayRunFrom_eq_none hr

lemma strayRunFrom_ofChars (cs : List Char) (start : Nat) :
    strayRunFrom start (ofChars cs) = none := by
  induction cs generalizing start with
  | nil => rfl
  | cons c rest ih => exact ih (start + 1)

lemma chars_ofChars (cs : List Char) : chars (ofChars cs) = cs := by
  induction cs with
  | nil => rfl
  | cons c rest ih => exact congrArg (c :: ·) ih

lemma toString?_ofString (s : String) : toString? (ofString s) = .ok s := by
  rw [toString?, ofString, strayRunFrom_ofChars, chars_ofChars, String.ofList_toList]

lemma shown_ofString (s : String) : shown (ofString s) = s := by
  rw [shown, ofString, ofChars, List.flatMap_map]
  show String.ofList (s.toList.flatMap fun c => [c]) = s
  rw [List.flatMap_singleton', String.ofList_toList]

lemma encode_ofString_append (s t : String) :
    encode (ofString (s ++ t)) = encode (ofString s) ++ encode (ofString t) := by
  simp [ofString, ofChars, encode]

lemma ofString_injective : Function.Injective ofString := by
  intro a b h
  have ha := toString?_ofString a
  rw [h, toString?_ofString, Except.ok.injEq] at ha
  exact ha.symm

end Text

end ScarbCrates
