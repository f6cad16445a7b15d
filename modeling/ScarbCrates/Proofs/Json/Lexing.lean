import ScarbCrates.Proofs.Json.Grammar
import ScarbCrates.Proofs.Json.Unambiguous
import ScarbCrates.Proofs.Text.Encoding

/-!
# Reading the lexical forms

White space, strings and numbers are read as they are written, each form both ways: letters of the
form are read up to where it ends, and what is read are letters of the form.

* `skipSpace_ofChars` — white space.
* `readWord_append`, `readWord_cases` — words.
* `readLetters_of_letters`, `letters_of_readLetters` — strings.
* `readNumber_of_wellFormed`, `wellFormed_of_readNumber` — numbers.
-/

namespace ScarbCrates

namespace Json

open Text (ofChars)

/-! ## Letters and bytes -/

lemma ofChars_append (a b : List Char) : ofChars (a ++ b) = ofChars a ++ ofChars b :=
  List.map_append

lemma exists_of_ofChars_eq_cons {s : List Char} {c : Char} {t : Text}
    (h : ofChars s = .char c :: t) : ∃ s', s = c :: s' ∧ t = ofChars s' := by
  cases s with
  | nil => cases h
  | cons d s =>
      obtain ⟨hc, rfl⟩ := List.cons.inj h
      exact ⟨s, by rw [Letter.char.inj hc], rfl⟩

lemma take_ofChars (a b : List Char) : (ofChars (a ++ b)).take a.length = ofChars a := by
  rw [ofChars_append, List.take_append_of_le_length (by simp [ofChars]), List.take_of_length_le]
  simp [ofChars]

lemma drop_ofChars (a b : List Char) : (ofChars (a ++ b)).drop a.length = ofChars b := by
  rw [ofChars_append]
  exact List.drop_left' (List.length_map _)

/-- Every character has at least one byte. -/
lemma length_le_byteCount (cs : List Char) : cs.length ≤ byteCount (ofChars cs) := by
  induction cs with
  | nil => exact Nat.le_refl _
  | cons c cs ih =>
      obtain ⟨lead, more, hbytes, -⟩ := Utf8.step_encodeChar c []
      have hcons : byteCount (ofChars (c :: cs)) =
          (String.utf8EncodeChar c).length + byteCount (ofChars cs) := by
        simp [byteCount, ofChars, Text.encode, Letter.bytes]
      rw [hcons, hbytes, List.length_cons, List.length_cons]
      omega

/-! ## White space -/

lemma skipSpace_cons {c : Char} (hc : isSpace c = true) (s : List Char) (o : Nat) :
    skipSpace (ofChars (c :: s)) o = skipSpace (ofChars s) (o + 1) := if_pos hc

lemma skipSpace_of_head {s : List Char} (hs : ∀ c ∈ s.head?, isSpace c = false) (o : Nat) :
    skipSpace (ofChars s) o = ⟨ofChars s, o⟩ := by
  cases s with
  | nil => rfl
  | cons c s => exact if_neg (by rw [hs c rfl]; exact Bool.false_ne_true)

/-- **White space is gone past.** -/
lemma skipSpace_ofChars (s : List Char) (o : Nat) :
    ∃ w s' o', s = w ++ s' ∧ IsBlank w ∧ (∀ c ∈ s'.head?, isSpace c = false) ∧
      skipSpace (ofChars s) o = ⟨ofChars s', o'⟩ := by
  induction s generalizing o with
  | nil => exact ⟨[], [], o, rfl, isBlank_nil, by simp, rfl⟩
  | cons c s ih =>
      by_cases hc : isSpace c = true
      · obtain ⟨w, s', o', rfl, hw, hs', hskip⟩ := ih (o + 1)
        refine ⟨c :: w, s', o', rfl, List.forall_mem_cons.2 ⟨hc, hw⟩, hs', ?_⟩
        rw [skipSpace_cons hc, hskip]
      · have hs : ∀ d ∈ (c :: s).head?, isSpace d = false := by
          intro d hd
          obtain rfl := Option.some.inj hd
          exact Bool.eq_false_iff.2 hc
        exact ⟨[], c :: s, o, rfl, isBlank_nil, hs, skipSpace_of_head hs o⟩

/-! ## Words -/

lemma readWord_append (tail : List Char) (d : Draft) (rest : List Char) (o : Nat) :
    readWord tail d (ofChars (tail ++ rest)) o = (d, some ⟨ofChars rest, o + tail.length⟩) := by
  have hlength := length_le_byteCount tail
  rw [readWord, take_ofChars, if_neg (by omega), if_pos rfl, drop_ofChars]

/-- A word is read, or there is a fault. -/
lemma readWord_cases (tail : List Char) (d : Draft) (s : List Char) (o : Nat) :
    (∃ f, readWord tail d (ofChars s) o = broken f) ∨
      ∃ rest o', s = tail ++ rest ∧
        readWord tail d (ofChars s) o = (d, some ⟨ofChars rest, o'⟩) := by
  rw [readWord]
  split_ifs with hshort htail
  · exact Or.inl ⟨_, rfl⟩
  · refine Or.inr ⟨s.drop tail.length, o + tail.length, ?_, ?_⟩
    · have htake : s.take tail.length = tail := by
        have hchars := congrArg Text.chars htail
        rwa [ofChars, ← List.map_take, ← ofChars, Text.chars_ofChars, Text.chars_ofChars] at hchars
      conv_lhs => rw [← List.take_append_drop tail.length s, htake]
    · rw [ofChars, ofChars, ← List.map_drop]
  · exact Or.inl ⟨_, rfl⟩

/-! ## Escapes -/

/-- Hexadecimal digits are read one after the other. -/
lemma readHex_iff {count value n : Nat} {s : List Char} {o : Nat} :
    readHex count value (ofChars s) o = .ok n ↔
      ∃ ds s', s = ds ++ s' ∧ ds.length = count ∧ hexFrom? value ds = some n := by
  induction count generalizing value s o with
  | zero =>
      rw [readHex]
      constructor
      · intro h
        exact ⟨[], s, rfl, rfl, congrArg some (Except.ok.inj h)⟩
      · rintro ⟨ds, s', -, hlength, hn⟩
        obtain rfl := List.length_eq_zero_iff.1 hlength
        exact congrArg Except.ok (Option.some.inj hn)
  | succ count ih =>
      cases s with
      | nil =>
          refine iff_of_false (fun h => by cases h) ?_
          rintro ⟨ds, s', hs, hlength, -⟩
          obtain ⟨rfl, -⟩ := List.append_eq_nil_iff.1 hs.symm
          cases hlength
      | cons c s =>
          show readHex (count + 1) value (.char c :: ofChars s) o = _ ↔ _
          rw [readHex]
          cases hc : hexValue? c with
          | none =>
              refine iff_of_false (fun h => by cases h) ?_
              rintro ⟨ds, s', hs, hlength, hn⟩
              cases ds with
              | nil => cases hlength
              | cons d ds =>
                  obtain ⟨rfl, -⟩ := List.cons.inj hs
                  rw [hexFrom?, hc] at hn
                  cases hn
          | some digit =>
              rw [ih]
              constructor
              · rintro ⟨ds, s', rfl, rfl, hn⟩
                refine ⟨c :: ds, s', rfl, rfl, ?_⟩
                rw [hexFrom?, hc]
                exact hn
              · rintro ⟨ds, s', hs, hlength, hn⟩
                cases ds with
                | nil => cases hlength
                | cons d ds =>
                    obtain ⟨rfl, rfl⟩ := List.cons.inj hs
                    rw [hexFrom?, hc] at hn
                    exact ⟨ds, s', rfl, Nat.succ.inj hlength, hn⟩

lemma byteCount_take_of_length {a : List Char} {k : Nat} (ha : a.length = k) (s : List Char) :
    ¬byteCount ((ofChars (a ++ s)).take k) < k := by
  subst ha
  rw [take_ofChars]
  exact Nat.not_lt.2 (length_le_byteCount a)

/-- The second half of a pair is read with its own escape. -/
lemma readLowSurrogate_iff {high o : Nat} {s : List Char} {c : Char} :
    readLowSurrogate high (ofChars s) o = .ok c ↔
      ∃ ds s' low, s = '\\' :: 'u' :: (ds ++ s') ∧ ds.length = 4 ∧ hexFrom? 0 ds = some low ∧
        isLowSurrogate low = true ∧ c = pairedChar high low := by
  constructor
  · intro h
    unfold readLowSurrogate at h
    split_ifs at h
    split at h
    · rename_i _ t ht
      obtain ⟨s₁, rfl, ht₁⟩ := exists_of_ofChars_eq_cons ht
      obtain ⟨s₂, rfl, rfl⟩ := exists_of_ofChars_eq_cons ht₁.symm
      split at h
      · cases h
      · rename_i low hread
        obtain ⟨ds, s', rfl, hlength, hn⟩ := readHex_iff.1 hread
        split_ifs at h with hlow
        exact ⟨ds, s', low, rfl, hlength, hn, hlow, (Except.ok.inj h).symm⟩
    · cases h
  · rintro ⟨ds, s', low, rfl, hlength, hn, hlow, hc⟩
    have hlength' : ('\\' :: 'u' :: ds).length = 6 := congrArg (· + 2) hlength
    have hsix : ¬byteCount ((ofChars ('\\' :: 'u' :: (ds ++ s'))).take 6) < 6 :=
      byteCount_take_of_length hlength' s'
    have hread : readHex 4 0 (ofChars (ds ++ s')) (o + 2) = .ok low :=
      readHex_iff.2 ⟨ds, s', rfl, hlength, hn⟩
    unfold readLowSurrogate
    rw [if_neg hsix]
    split
    · rename_i t ht
      obtain rfl : ofChars (ds ++ s') = t := (List.cons.inj (List.cons.inj ht).2).2
      rw [hread, hc]
      exact if_pos hlow
    · rename_i hother
      exact absurd rfl (hother _)

lemma map_eq_ok {ε α β : Type} {x : Except ε α} {f : α → β} {b : β} (h : x.map f = .ok b) :
    ∃ a, x = .ok a ∧ f a = b := by
  cases x with
  | error e => cases h
  | ok a => exact ⟨a, rfl, Except.ok.inj h⟩

/-- An escape by number. -/
lemma readUnicodeEscape_iff {s : List Char} {o width : Nat} {c : Char} :
    readUnicodeEscape (ofChars s) o = .ok (c, width) ↔
      ∃ u s', s = u ++ s' ∧ u.length = width ∧ Escape c ('u' :: u) := by
  constructor
  · intro h
    unfold readUnicodeEscape at h
    split_ifs at h
    split at h
    · cases h
    · rename_i n hread
      obtain ⟨ds, s', rfl, hlength, hn⟩ := readHex_iff.1 hread
      split_ifs at h with hlow hhigh
      · obtain ⟨c', hpair, hc⟩ := map_eq_ok h
        obtain ⟨rfl, rfl⟩ := Prod.mk.inj hc
        rw [← hlength, drop_ofChars] at hpair
        obtain ⟨ds', s', low, rfl, hlength', hn', hlow', hc⟩ := readLowSurrogate_iff.1 hpair
        rw [hc]
        refine ⟨ds ++ '\\' :: 'u' :: ds', s', by simp, ?_, ?_⟩
        · rw [List.length_append, hlength, List.length_cons, List.length_cons, hlength']
        · exact .pair hlength hlength' hn hn' hhigh hlow'
      · obtain ⟨rfl, rfl⟩ := Prod.mk.inj (Except.ok.inj h)
        exact ⟨ds, s', rfl, hlength, .number hlength hn (Bool.eq_false_iff.2 hlow)
          (Bool.eq_false_iff.2 hhigh)⟩
  · rintro ⟨u, s', rfl, rfl, hu⟩
    cases hu with
    | short h => cases h
    | number hlength hn hlow hhigh =>
        unfold readUnicodeEscape
        rw [if_neg (byteCount_take_of_length hlength s'), readHex_iff.2 ⟨u, s', rfl, hlength, hn⟩]
        show (if isLowSurrogate _ = true then _ else _) = _
        rw [hlow, hhigh, hlength]
        rfl
    | @pair ds ds' high low hlength hlength' hds hds' hhigh hlow =>
        have hfirstHalf : isLowSurrogate high = false := by
          simp only [isHighSurrogate, isLowSurrogate, Bool.and_eq_true, decide_eq_true_eq,
            Bool.and_eq_false_iff, decide_eq_false_iff_not] at hhigh ⊢
          omega
        have hdrop : (ofChars (ds ++ '\\' :: 'u' :: ds' ++ s')).drop 4 =
            ofChars ('\\' :: 'u' :: (ds' ++ s')) := by
          rw [List.append_assoc, ← hlength]
          exact drop_ofChars _ _
        have hread : readHex 4 0 (ofChars (ds ++ '\\' :: 'u' :: ds' ++ s')) o = .ok high :=
          readHex_iff.2 ⟨ds, _, List.append_assoc _ _ _, hlength, hds⟩
        have hfirst : ¬byteCount ((ofChars (ds ++ '\\' :: 'u' :: ds' ++ s')).take 4) < 4 := by
          rw [List.append_assoc]
          exact byteCount_take_of_length hlength _
        have hpair : readLowSurrogate high (ofChars ('\\' :: 'u' :: (ds' ++ s'))) (o + 4) =
            .ok (pairedChar high low) :=
          readLowSurrogate_iff.2 ⟨ds', s', low, rfl, hlength', hds', hlow, rfl⟩
        have hwidth : (ds ++ '\\' :: 'u' :: ds').length = 10 := by
          rw [List.length_append, hlength, List.length_cons, List.length_cons, hlength']
        unfold readUnicodeEscape
        rw [if_neg hfirst, hread, hdrop, hwidth]
        have hsome : (if isLowSurrogate high = true then Except.error ⟨.surrogatePair, o + 4⟩
            else if isHighSurrogate high = true then
              (readLowSurrogate high (ofChars ('\\' :: 'u' :: (ds' ++ s'))) (o + 4)).map
                fun c => (c, 10)
            else .ok (Char.ofNat high, 4)) = .ok (pairedChar high low, 10) := by
          rw [hfirstHalf, hhigh, hpair]
          rfl
        exact hsome

/-- **An escape** is read with the number of its letters. -/
lemma readEscape_iff {s : List Char} {o width : Nat} {c : Char} :
    readEscape (ofChars s) o = .ok (c, width) ↔
      ∃ u s', s = u ++ s' ∧ u.length = width ∧ Escape c u := by
  constructor
  · intro h
    unfold readEscape at h
    split at h
    · cases h
    · rename_i t ht
      obtain ⟨s, rfl, rfl⟩ := exists_of_ofChars_eq_cons ht
      obtain ⟨⟨c', k⟩, hread, hc⟩ := map_eq_ok h
      obtain ⟨rfl, rfl⟩ := Prod.mk.inj hc
      obtain ⟨u, s', rfl, rfl, hu⟩ := readUnicodeEscape_iff.1 hread
      exact ⟨'u' :: u, s', rfl, rfl, hu⟩
    · rename_i l t _ ht
      obtain ⟨s, rfl, rfl⟩ := exists_of_ofChars_eq_cons ht
      split at h
      · rename_i c' hc'
        obtain ⟨rfl, rfl⟩ := Prod.mk.inj (Except.ok.inj h)
        exact ⟨[l], s, rfl, rfl, .short hc'⟩
      · cases h
    · cases h
  · rintro ⟨u, s', rfl, rfl, hu⟩
    have hnumber : ∀ {u : List Char}, Escape c ('u' :: u) →
        readEscape (ofChars ('u' :: u ++ s')) o = .ok (c, ('u' :: u).length) := by
      intro u hu
      have hread := readUnicodeEscape_iff (o := o + 1).2 ⟨u, s', rfl, rfl, hu⟩
      have hmap : (readUnicodeEscape (ofChars (u ++ s')) (o + 1)).map (fun r => (r.1, r.2 + 1)) =
          .ok (c, ('u' :: u).length) := by
        rw [hread]
        rfl
      exact hmap
    cases hu with
    | @short _ l h =>
        have hl : l ≠ 'u' := by
          rintro rfl
          cases h
        show readEscape (.char l :: ofChars s') o = _
        unfold readEscape
        split
        · rename_i ht
          cases ht
        · rename_i ht
          exact absurd (Letter.char.inj (List.cons.inj ht).1) hl
        · rename_i ht
          obtain rfl := Letter.char.inj (List.cons.inj ht).1
          rw [h]
          rfl
        · rename_i ht
          cases (List.cons.inj ht).1
    | number hlength hn hlow hhigh => exact hnumber (.number hlength hn hlow hhigh)
    | pair hlength hlength' hds hds' hhigh hlow =>
        exact hnumber (.pair hlength hlength' hds hds' hhigh hlow)

/-! ## Strings -/

lemma reverse_cons_append (c : Char) (done : Text) (cs : List Char) :
    (Letter.char c :: done).reverse ++ ofChars cs = done.reverse ++ ofChars (c :: cs) := by
  rw [List.reverse_cons, List.append_assoc]
  rfl

/-- The letters of an escape that has been read are left out. -/
lemma readLetters_skip (u : List Char) (done : Text) (s : List Char) (o : Nat) :
    readLetters u.length done (ofChars (u ++ s)) o = readLetters 0 done (ofChars s) o := by
  induction u with
  | nil => rfl
  | cons c u ih => exact ih

lemma readLetters_cons (done : Text) (c : Char) (s : List Char) (o : Nat) :
    readLetters 0 done (ofChars (c :: s)) o =
      if c = '"' then .ok (done.reverse, ⟨ofChars s, o + 1⟩)
      else if c = '\\' then
        match readEscape (ofChars s) (o + 1) with
        | .error f => .error f
        | .ok (e, width) => readLetters width (.char e :: done) (ofChars s) (o + 1 + width)
      else if c.toNat < 32 then .error ⟨.character, o⟩
      else readLetters 0 (.char c :: done) (ofChars s) (o + c.utf8Size) := rfl

/-- **The letters of a string are read** up to the closing quote. -/
lemma readLetters_of_letters {cs s rest : List Char} (h : Letters cs s rest) :
    ∀ (done : Text) (o : Nat), ∃ o', readLetters 0 done (ofChars s) o =
      .ok (done.reverse ++ ofChars cs, ⟨ofChars rest, o'⟩) := by
  induction h with
  | close rest =>
      intro done o
      refine ⟨o + 1, ?_⟩
      rw [readLetters_cons, if_pos rfl]
      exact congrArg (fun t => Except.ok (t, _)) (List.append_nil _).symm
  | @plain c cs s rest hquote hslash hc _ ih =>
      intro done o
      rw [readLetters_cons, if_neg hquote, if_neg hslash, if_neg (Nat.not_lt.2 hc),
        ← reverse_cons_append]
      exact ih _ _
  | @escape c u cs s rest hu _ ih =>
      intro done o
      rw [readLetters_cons, if_neg (by decide), if_pos rfl,
        readEscape_iff.2 ⟨u, s, rfl, rfl, hu⟩, ← reverse_cons_append]
      obtain ⟨o', hread⟩ := ih (.char c :: done) (o + 1 + u.length)
      exact ⟨o', (readLetters_skip u _ s _).trans hread⟩

/-- **What is read as a string** are the letters of one. -/
lemma letters_of_readLetters {k : Nat} : ∀ {s : List Char}, s.length ≤ k → ∀ {done t : Text}
    {o : Nat} {c : Cursor}, readLetters 0 done (ofChars s) o = .ok (t, c) →
      ∃ cs rest o', t = done.reverse ++ ofChars cs ∧ c = ⟨ofChars rest, o'⟩ ∧
        Letters cs s rest := by
  induction k with
  | zero =>
      intro s hs done t o c h
      obtain rfl := List.length_eq_zero_iff.1 (Nat.le_zero.1 hs)
      cases h
  | succ k ih =>
      intro s hs done t o c h
      cases s with
      | nil => cases h
      | cons d s =>
          have hlength : s.length ≤ k := Nat.le_of_succ_le_succ hs
          rw [readLetters_cons] at h
          split_ifs at h with hquote hslash hcontrol
          · obtain ⟨rfl, rfl⟩ := Prod.mk.inj (Except.ok.inj h)
            subst hquote
            exact ⟨[], s, o + 1, (List.append_nil _).symm, rfl, .close s⟩
          · subst hslash
            split at h
            · cases h
            · rename_i e width hread
              obtain ⟨u, s', rfl, rfl, hu⟩ := readEscape_iff.1 hread
              rw [readLetters_skip] at h
              have hlength' : s'.length ≤ k := by
                rw [List.length_append] at hlength
                omega
              obtain ⟨cs, rest, o', rfl, rfl, hletters⟩ := ih hlength' h
              exact ⟨e :: cs, rest, o', reverse_cons_append e done cs, rfl, .escape hu hletters⟩
          · obtain ⟨cs, rest, o', rfl, rfl, hletters⟩ := ih hlength h
            exact ⟨d :: cs, rest, o', reverse_cons_append d done cs, rfl,
              .plain hquote hslash (Nat.not_lt.1 hcontrol) hletters⟩

/-- Characters are a string. -/
lemma stringOf_ofChars (cs : List Char) : stringOf (ofChars cs) = .ok (String.ofList cs) := by
  have hfault : Utf8.firstFault (Text.encode (ofChars cs)) = none := Utf8.faultFrom_encode cs 0
  rw [stringOf, hfault, Text.chars_ofChars]

/-- **A string is read.** -/
lemma readString_of_letters {cs s rest : List Char} (h : Letters cs s rest) (o : Nat) :
    ∃ o', readString (ofChars s) o = .ok (.ok (String.ofList cs), ⟨ofChars rest, o'⟩) := by
  obtain ⟨o', hread⟩ := readLetters_of_letters h [] o
  refine ⟨o', ?_⟩
  rw [readString, hread, ← stringOf_ofChars]
  rfl

/-- **What is read as a string** is one. -/
lemma letters_of_readString {s : List Char} {o : Nat} {name : DraftName} {c : Cursor}
    (h : readString (ofChars s) o = .ok (name, c)) :
    ∃ cs rest o', name = .ok (String.ofList cs) ∧ c = ⟨ofChars rest, o'⟩ ∧ Letters cs s rest := by
  obtain ⟨⟨t, c'⟩, hread, hc⟩ := map_eq_ok h
  obtain ⟨rfl, rfl⟩ := Prod.mk.inj hc
  obtain ⟨cs, rest, o', rfl, rfl, hletters⟩ := letters_of_readLetters (Nat.le_refl _) hread
  exact ⟨cs, rest, o', stringOf_ofChars cs, rfl, hletters⟩

/-! ## Numbers -/

/-- **Digits are read** as far as they go. -/
lemma spanDigits_append {ds s : List Char} (hds : ∀ c ∈ ds, c.isDigit = true)
    (hs : NoDigit s) : spanDigits (ofChars (ds ++ s)) = (ds, ofChars s) := by
  induction ds with
  | nil =>
      cases s with
      | nil => rfl
      | cons c s => exact if_neg (by rw [hs c rfl]; exact Bool.false_ne_true)
  | cons c ds ih =>
      have hcons : spanDigits (ofChars (c :: ds ++ s)) =
          if c.isDigit then (c :: (spanDigits (ofChars (ds ++ s))).1,
            (spanDigits (ofChars (ds ++ s))).2)
          else ([], ofChars (c :: ds ++ s)) := rfl
      rw [hcons, if_pos (hds c List.mem_cons_self),
        ih fun d hd => hds d (List.mem_cons_of_mem _ hd)]

/-- There are digits in front, and none after them. -/
lemma exists_digits (s : List Char) :
    ∃ ds s', s = ds ++ s' ∧ (∀ c ∈ ds, c.isDigit = true) ∧ NoDigit s' := by
  induction s with
  | nil => exact ⟨[], [], rfl, by simp, by simp [NoDigit]⟩
  | cons c s ih =>
      by_cases hc : c.isDigit = true
      · obtain ⟨ds, s', rfl, hds, hs'⟩ := ih
        exact ⟨c :: ds, s', rfl, List.forall_mem_cons.2 ⟨hc, hds⟩, hs'⟩
      · refine ⟨[], c :: s, rfl, by simp, fun d hd => ?_⟩
        obtain rfl := Option.some.inj hd
        exact Bool.eq_false_iff.2 hc

/-- **The digits before the point** are read. -/
lemma readWhole_append {ds s : List Char} (hds : AreDigits ds) (hzero : NoLeadingZero ds)
    (hs : NoDigit s) (o : Nat) :
    ∃ o', readWhole (ofChars (ds ++ s)) o = .ok (ds, ⟨ofChars s, o'⟩) := by
  have hspan := spanDigits_append hds.2 hs
  unfold readWhole
  split
  · rename_i h
    exact absurd (Prod.mk.inj (hspan.symm.trans h)).1 hds.1
  · rename_i h
    exact absurd (Prod.mk.inj (hspan.symm.trans h)).1 hds.1
  · rename_i h
    obtain ⟨rfl, rfl⟩ := Prod.mk.inj (hspan.symm.trans h)
    exact ⟨_, rfl⟩
  · rename_i hmore h
    obtain ⟨rfl, rfl⟩ := Prod.mk.inj (hspan.symm.trans h)
    exact absurd (List.cons.inj (hzero rfl)).2 hmore
  · rename_i h
    obtain ⟨rfl, rfl⟩ := Prod.mk.inj (hspan.symm.trans h)
    exact ⟨_, rfl⟩

lemma of_readWhole {ds s : List Char} {o : Nat} {c : Cursor}
    (h : readWhole (ofChars s) o = .ok (ds, c)) :
    ∃ s' o', s = ds ++ s' ∧ c = ⟨ofChars s', o'⟩ ∧ AreDigits ds ∧ NoLeadingZero ds ∧
      NoDigit s' := by
  obtain ⟨ds', s', rfl, hds, hs'⟩ := exists_digits s
  have hspan := spanDigits_append hds hs'
  unfold readWhole at h
  split at h
  · cases h
  · cases h
  · rename_i hread
    obtain ⟨rfl, rfl⟩ := Prod.mk.inj (hspan.symm.trans hread)
    obtain ⟨rfl, rfl⟩ := Prod.mk.inj (Except.ok.inj h)
    exact ⟨s', _, rfl, rfl, ⟨by simp, hds⟩, fun _ => rfl, hs'⟩
  · cases h
  · rename_i hempty hmore _ hzero hread
    obtain ⟨rfl, rfl⟩ := Prod.mk.inj (hspan.symm.trans hread)
    obtain ⟨rfl, rfl⟩ := Prod.mk.inj (Except.ok.inj h)
    refine ⟨s', _, rfl, rfl, ⟨?_, hds⟩, ?_, hs'⟩
    · rintro rfl
      cases s' with
      | nil => exact hempty rfl rfl
      | cons d s' => exact hmore _ _ rfl rfl
    · intro hhead
      obtain ⟨tail, rfl⟩ := List.head?_eq_some_iff.1 hhead
      exact (hzero tail rfl).elim

/-- **The digits after the point** are read, if there are any. -/
lemma readFraction_append {fraction : Option (List Char)} {s : List Char}
    (h : ∀ ds ∈ fraction, AreDigits ds) (hs : NoDigit s) (hpoint : '.' ∉ s.head?) (o : Nat) :
    ∃ o', readFraction ⟨ofChars ((fraction.map ('.' :: ·)).getD [] ++ s), o⟩ =
      .ok (fraction, ⟨ofChars s, o'⟩) := by
  cases fraction with
  | none =>
      refine ⟨o, ?_⟩
      unfold readFraction
      split
      · rename_i t ht
        obtain ⟨s', hs', -⟩ := exists_of_ofChars_eq_cons ht
        exact absurd (by rw [show s = '.' :: s' from hs']; rfl) hpoint
      · rfl
  | some ds =>
      have hds := h ds rfl
      refine ⟨o + 1 + ds.length, ?_⟩
      unfold readFraction
      split
      · rename_i t ht
        obtain rfl : ofChars (ds ++ s) = t := (List.cons.inj ht).2
        rw [spanDigits_append hds.2 hs]
        cases ds with
        | nil => exact absurd rfl hds.1
        | cons d ds => rfl
      · rename_i hother
        exact absurd rfl (hother _)

lemma of_readFraction {fraction : Option (List Char)} {s : List Char} {o : Nat} {c : Cursor}
    (h : readFraction ⟨ofChars s, o⟩ = .ok (fraction, c)) :
    ∃ s' o', s = (fraction.map ('.' :: ·)).getD [] ++ s' ∧ c = ⟨ofChars s', o'⟩ ∧
      ∀ ds ∈ fraction, AreDigits ds := by
  unfold readFraction at h
  split at h
  · rename_i t ht
    obtain ⟨s, rfl, rfl⟩ := exists_of_ofChars_eq_cons ht
    obtain ⟨ds, s', rfl, hds, hs'⟩ := exists_digits s
    rw [spanDigits_append hds hs'] at h
    cases ds with
    | nil => cases h
    | cons d ds =>
        obtain ⟨rfl, rfl⟩ := Prod.mk.inj (Except.ok.inj h)
        refine ⟨s', _, rfl, rfl, fun ds' hds' => ?_⟩
        obtain rfl := Option.some.inj hds'
        exact ⟨List.cons_ne_nil _ _, hds⟩
  · obtain ⟨rfl, rfl⟩ := Prod.mk.inj (Except.ok.inj h)
    exact ⟨s, o, rfl, rfl, fun ds hds => nomatch hds⟩

/-- The digits of an exponent, read after its sign. -/
def exponentFrom (negative : Bool) (rest : Text) (o : Nat) : Except SyntaxFault (Int × Cursor) :=
  match spanDigits rest with
  | ([], _) => .error ⟨.number, o⟩
  | (ds, after) =>
    let e : Int := natOfDigits ds
    .ok (if negative then -e else e, ⟨after, o + ds.length⟩)

lemma readExponent_of_unsigned {s : List Char} (hminus : '-' ∉ s.head?) (hplus : '+' ∉ s.head?)
    (o : Nat) : readExponent (ofChars s) o = exponentFrom false (ofChars s) o := by
  unfold readExponent
  split
  rename_i negative rest o' h
  split at h
  · rename_i t ht
    obtain ⟨s', rfl, -⟩ := exists_of_ofChars_eq_cons ht
    exact absurd rfl hminus
  · rename_i t ht
    obtain ⟨s', rfl, -⟩ := exists_of_ofChars_eq_cons ht
    exact absurd rfl hplus
  · obtain ⟨rfl, hrest⟩ := Prod.mk.inj h
    obtain ⟨rfl, rfl⟩ := Prod.mk.inj hrest
    rfl

lemma exponentFrom_append {ds s : List Char} (hds : AreDigits ds) (hs : NoDigit s)
    (negative : Bool) (o : Nat) : exponentFrom negative (ofChars (ds ++ s)) o =
      .ok (if negative then -(natOfDigits ds : Int) else natOfDigits ds,
        ⟨ofChars s, o + ds.length⟩) := by
  rw [exponentFrom, spanDigits_append hds.2 hs]
  cases ds with
  | nil => exact absurd rfl hds.1
  | cons d ds => rfl

lemma of_exponentFrom {negative : Bool} {s : List Char} {o : Nat} {n : Int} {c : Cursor}
    (h : exponentFrom negative (ofChars s) o = .ok (n, c)) :
    ∃ ds s' o', s = ds ++ s' ∧ AreDigits ds ∧ c = ⟨ofChars s', o'⟩ ∧
      n = if negative then -(natOfDigits ds : Int) else natOfDigits ds := by
  obtain ⟨ds, s', rfl, hds, hs'⟩ := exists_digits s
  cases ds with
  | nil =>
      rw [exponentFrom, spanDigits_append hds hs'] at h
      cases h
  | cons d ds =>
      have hdigits : AreDigits (d :: ds) := ⟨List.cons_ne_nil _ _, hds⟩
      rw [exponentFrom_append hdigits hs'] at h
      obtain ⟨hn, hc⟩ := Prod.mk.inj (Except.ok.inj h)
      exact ⟨d :: ds, s', _, rfl, hdigits, hc.symm, hn.symm⟩

/-- No digit is a sign. -/
lemma AreDigits.head?_ne {ds s : List Char} (h : AreDigits ds) {c : Char}
    (hc : c.isDigit = false) : c ∉ (ds ++ s).head? := by
  cases ds with
  | nil => exact absurd rfl h.1
  | cons d ds =>
      intro hd
      obtain rfl := Option.some.inj hd
      exact Bool.false_ne_true (hc.symm.trans (h.2 d List.mem_cons_self))

/-- **An exponent** is read after its letter. -/
lemma readExponent_append {e : Exponent} (h : e.WellFormed) {s : List Char} (hs : NoDigit s)
    (o : Nat) : ∃ o', readExponent (ofChars (e.sign.toList ++ e.digits ++ s)) o =
      .ok (e.value, ⟨ofChars s, o'⟩) := by
  obtain ⟨letter, sign, ds⟩ := e
  have hds : AreDigits ds := h.digits
  cases sign with
  | none =>
      exact ⟨_, (readExponent_of_unsigned (hds.head?_ne rfl) (hds.head?_ne rfl) o).trans
        (exponentFrom_append hds hs false o)⟩
  | some sign =>
      rcases h.sign sign rfl with rfl | rfl
      · exact ⟨_, exponentFrom_append hds hs false (o + 1)⟩
      · exact ⟨_, exponentFrom_append hds hs true (o + 1)⟩

lemma of_readExponent {s : List Char} {o : Nat} {n : Int} {c : Cursor}
    (h : readExponent (ofChars s) o = .ok (n, c)) {letter : Char}
    (hletter : letter = 'e' ∨ letter = 'E') :
    ∃ (e : Exponent) (s' : List Char) (o' : Nat), e.WellFormed ∧ e.value = n ∧
      letter :: s = e.chars ++ s' ∧ c = ⟨ofChars s', o'⟩ := by
  have hsign : ∀ (sign : Option Char) (negative : Bool) {s : List Char} {o : Nat},
      (∀ c ∈ sign, c = '+' ∨ c = '-') → (negative = true ↔ sign = some '-') →
      exponentFrom negative (ofChars s) o = .ok (n, c) →
      ∃ (e : Exponent) (s' : List Char) (o' : Nat), e.WellFormed ∧ e.value = n ∧
        letter :: (sign.toList ++ s) = e.chars ++ s' ∧ c = ⟨ofChars s', o'⟩ := by
    intro sign negative s o hsign hnegative h
    obtain ⟨ds, s', o', rfl, hds, hc, hn⟩ := of_exponentFrom h
    refine ⟨⟨letter, sign, ds⟩, s', o', ⟨hletter, hsign, hds⟩, ?_, by simp [Exponent.chars], hc⟩
    rw [hn, Exponent.value]
    exact if_congr hnegative.symm rfl rfl
  have hnone : '-' ∉ s.head? → '+' ∉ s.head? → ∃ (e : Exponent) (s' : List Char) (o' : Nat),
      e.WellFormed ∧ e.value = n ∧ letter :: s = e.chars ++ s' ∧ c = ⟨ofChars s', o'⟩ := by
    intro hminus hplus
    rw [readExponent_of_unsigned hminus hplus] at h
    exact hsign none false (by simp) (by simp) h
  by_cases hminus : '-' ∈ s.head?
  · obtain ⟨s, rfl⟩ := List.head?_eq_some_iff.1 hminus
    exact hsign (some '-') true (by simp) (by simp) h
  by_cases hplus : '+' ∈ s.head?
  · obtain ⟨s, rfl⟩ := List.head?_eq_some_iff.1 hplus
    exact hsign (some '+') false (by simp) (by simp) h
  exact hnone hminus hplus

/-- What follows a number ends its digits, too. -/
lemma EndsNumber.noDigit {s : List Char} (h : EndsNumber s) : NoDigit s := fun c hc => (h c hc).1

lemma EndsNumber.ne {s : List Char} (h : EndsNumber s) {c : Char}
    (hc : c = '.' ∨ c = 'e' ∨ c = 'E') : c ∉ s.head? := by
  intro hs
  obtain ⟨-, hpoint, hlower, hupper⟩ := h c hs
  rcases hc with rfl | rfl | rfl
  · exact hpoint rfl
  · exact hlower rfl
  · exact hupper rfl

lemma readExponent?_of_none {s : List Char} (hlower : 'e' ∉ s.head?) (hupper : 'E' ∉ s.head?)
    (o : Nat) : readExponent? ⟨ofChars s, o⟩ = .ok (none, ⟨ofChars s, o⟩) := by
  unfold readExponent?
  split
  · rename_i t ht
    obtain ⟨s', rfl, -⟩ := exists_of_ofChars_eq_cons ht
    exact absurd rfl hlower
  · rename_i t ht
    obtain ⟨s', rfl, -⟩ := exists_of_ofChars_eq_cons ht
    exact absurd rfl hupper
  · rfl

/-- **An exponent is read,** if there is one. -/
lemma readExponent?_append {exponent : Option Exponent} {s : List Char}
    (h : ∀ e ∈ exponent, e.WellFormed) (hs : EndsNumber s) (o : Nat) :
    ∃ o', readExponent? ⟨ofChars ((exponent.map Exponent.chars).getD [] ++ s), o⟩ =
      .ok (exponent.map Exponent.value, ⟨ofChars s, o'⟩) := by
  cases exponent with
  | none =>
      exact ⟨o, readExponent?_of_none (hs.ne (Or.inr (Or.inl rfl))) (hs.ne (Or.inr (Or.inr rfl))) o⟩
  | some e =>
      have he := h e rfl
      obtain ⟨o', hread⟩ := readExponent_append he hs.noDigit (o + 1)
      have hmap : ((readExponent (ofChars (e.sign.toList ++ e.digits ++ s)) (o + 1)).map fun r =>
          (some r.1, r.2)) = .ok (some e.value, ⟨ofChars s, o'⟩) := by
        rw [hread]
        rfl
      refine ⟨o', ?_⟩
      obtain ⟨letter, sign, ds⟩ := e
      rcases he.letter with hletter | hletter
      · obtain rfl : letter = 'e' := hletter
        exact hmap
      · obtain rfl : letter = 'E' := hletter
        exact hmap

lemma of_readExponent? {s : List Char} {o : Nat} {exponent : Option Int} {c : Cursor}
    (h : readExponent? ⟨ofChars s, o⟩ = .ok (exponent, c)) :
    ∃ (e : Option Exponent) (s' : List Char) (o' : Nat), (∀ x ∈ e, x.WellFormed) ∧
      e.map Exponent.value = exponent ∧ s = (e.map Exponent.chars).getD [] ++ s' ∧
        c = ⟨ofChars s', o'⟩ := by
  have hletter : ∀ {letter : Char} {s : List Char}, letter = 'e' ∨ letter = 'E' →
      ((readExponent (ofChars s) (o + 1)).map fun r => (some r.1, r.2)) = .ok (exponent, c) →
      ∃ (e : Option Exponent) (s' : List Char) (o' : Nat), (∀ x ∈ e, x.WellFormed) ∧
        e.map Exponent.value = exponent ∧ letter :: s = (e.map Exponent.chars).getD [] ++ s' ∧
          c = ⟨ofChars s', o'⟩ := by
    intro letter s hletter h
    obtain ⟨⟨n, c'⟩, hread, hc⟩ := map_eq_ok h
    obtain ⟨rfl, rfl⟩ := Prod.mk.inj hc
    obtain ⟨e, s', o', he, rfl, hs, hc⟩ := of_readExponent hread hletter
    exact ⟨some e, s', o', by simpa using he, rfl, hs, hc⟩
  by_cases hlower : 'e' ∈ s.head?
  · obtain ⟨s, rfl⟩ := List.head?_eq_some_iff.1 hlower
    exact hletter (Or.inl rfl) h
  by_cases hupper : 'E' ∈ s.head?
  · obtain ⟨s, rfl⟩ := List.head?_eq_some_iff.1 hupper
    exact hletter (Or.inr rfl) h
  rw [readExponent?_of_none hlower hupper] at h
  obtain ⟨rfl, rfl⟩ := Prod.mk.inj (Except.ok.inj h)
  exact ⟨none, s, o, by simp, rfl, rfl, rfl⟩

namespace Numeral

/-- The draft of a number. -/
def draft (x : Numeral) : Draft :=
  numberOf x.negative x.whole x.fraction (x.exponent.map Exponent.value)

variable {x : Numeral} {rest : List Char}

lemma WellFormed.exponent_head? (h : x.WellFormed) (hrest : EndsNumber rest) :
    ∀ c ∈ ((x.exponent.map Exponent.chars).getD [] ++ rest).head?, c.isDigit = false ∧ c ≠ '.' := by
  cases hx : x.exponent with
  | none => exact fun c hc => ⟨(hrest c hc).1, (hrest c hc).2.1⟩
  | some e =>
      intro c hc
      obtain rfl : e.letter = c := Option.some.inj hc
      rcases (h.exponent e hx).letter with hletter | hletter <;> rw [hletter] <;> decide

lemma WellFormed.noDigit_afterWhole (h : x.WellFormed) (hrest : EndsNumber rest) :
    NoDigit (x.afterWhole ++ rest) := by
  rw [afterWhole, List.append_assoc]
  cases x.fraction with
  | none => exact fun c hc => (h.exponent_head? hrest c hc).1
  | some ds =>
      intro c hc
      obtain rfl := Option.some.inj hc
      rfl

/-- **A number is read** after its sign. -/
lemma WellFormed.readUnsigned (h : x.WellFormed) (hrest : EndsNumber rest) (o : Nat) :
    ∃ o', Json.readUnsigned x.negative (ofChars (x.whole ++ (x.afterWhole ++ rest))) o =
      .ok (x.draft, ⟨ofChars rest, o'⟩) := by
  have hexponent := h.exponent_head? hrest
  obtain ⟨o₁, hwhole⟩ := readWhole_append h.whole h.leading (h.noDigit_afterWhole hrest) o
  obtain ⟨o₂, hfraction⟩ := readFraction_append h.fraction (fun c hc => (hexponent c hc).1)
    (fun hpoint => (hexponent _ hpoint).2 rfl) o₁
  obtain ⟨o₃, hexp⟩ := readExponent?_append h.exponent hrest o₂
  rw [← List.append_assoc, ← afterWhole] at hfraction
  refine ⟨o₃, ?_⟩
  rw [Json.readUnsigned, hwhole]
  show (readFraction _ >>= _) = _
  rw [hfraction]
  show (readExponent? _ >>= _) = _
  rw [hexp]
  rfl

end Numeral

/-- **A number is read** as far as it goes. -/
theorem readNumber_of_wellFormed {x : Numeral} (h : x.WellFormed) {rest : List Char}
    (hrest : EndsNumber rest) (o : Nat) :
    ∃ o', readNumber (ofChars (x.chars ++ rest)) o = .ok (x.draft, ⟨ofChars rest, o'⟩) := by
  rw [Numeral.chars, Numeral.wholeChars, List.append_assoc, List.append_assoc]
  cases hneg : x.negative with
  | true =>
      obtain ⟨o', hread⟩ := h.readUnsigned hrest (o + 1)
      rw [hneg] at hread
      exact ⟨o', hread⟩
  | false =>
      obtain ⟨o', hread⟩ := h.readUnsigned hrest o
      rw [hneg] at hread
      refine ⟨o', Eq.trans ?_ hread⟩
      cases hwhole : x.whole with
      | nil => exact absurd hwhole h.whole.1
      | cons d ds =>
          have hd : d.isDigit = true := h.whole.2 d (hwhole ▸ List.mem_cons_self)
          have hminus : d ≠ '-' := by
            rintro rfl
            cases hd
          show readNumber (ofChars (d :: (ds ++ _))) o = _
          unfold readNumber
          split
          · rename_i t ht
            obtain ⟨s', hs', -⟩ := exists_of_ofChars_eq_cons ht
            exact absurd (List.cons.inj hs').1 hminus
          · rename_i c t _ ht
            obtain ⟨s', hs', -⟩ := exists_of_ofChars_eq_cons ht
            rw [← (List.cons.inj hs').1, if_pos hd]
            rfl
          · rename_i hother
            exact absurd rfl (hother _ _)

/-- **What is read as a number** is one. -/
theorem wellFormed_of_readNumber {s : List Char} {o : Nat} {d : Draft} {c : Cursor}
    (h : readNumber (ofChars s) o = .ok (d, c)) :
    ∃ (x : Numeral) (rest : List Char) (o' : Nat), x.WellFormed ∧ x.draft = d ∧
      s = x.chars ++ rest ∧ c = ⟨ofChars rest, o'⟩ := by
  have hunsigned : ∀ (negative : Bool) {s : List Char} {o : Nat},
      readUnsigned negative (ofChars s) o = .ok (d, c) →
      ∃ (x : Numeral) (rest : List Char) (o' : Nat), x.WellFormed ∧ x.draft = d ∧
        (if negative then ['-'] else []) ++ s = x.chars ++ rest ∧ c = ⟨ofChars rest, o'⟩ := by
    intro negative s o h
    rw [readUnsigned] at h
    cases hwhole : readWhole (ofChars s) o with
    | error f =>
        rw [hwhole] at h
        cases h
    | ok r =>
        obtain ⟨whole, c₁⟩ := r
        rw [hwhole] at h
        obtain ⟨s₁, o₁, rfl, rfl, hdigits, hzero, -⟩ := of_readWhole hwhole
        change (readFraction _ >>= _) = _ at h
        cases hfraction : readFraction ⟨ofChars s₁, o₁⟩ with
        | error f =>
            rw [hfraction] at h
            cases h
        | ok r =>
            obtain ⟨fraction, c₂⟩ := r
            rw [hfraction] at h
            obtain ⟨s₂, o₂, rfl, rfl, hfr⟩ := of_readFraction hfraction
            change (readExponent? _ >>= _) = _ at h
            cases hexponent : readExponent? ⟨ofChars s₂, o₂⟩ with
            | error f =>
                rw [hexponent] at h
                cases h
            | ok r =>
                obtain ⟨exponent, c₃⟩ := r
                rw [hexponent] at h
                obtain ⟨e, s₃, o₃, he, rfl, rfl, rfl⟩ := of_readExponent? hexponent
                obtain ⟨rfl, rfl⟩ := Prod.mk.inj (Except.ok.inj h)
                refine ⟨⟨negative, whole, fraction, e⟩, s₃, o₃, ⟨hdigits, hzero, hfr, he⟩, rfl, ?_,
                  rfl⟩
                simp only [Numeral.chars, Numeral.wholeChars, Numeral.afterWhole, List.append_assoc]
  unfold readNumber at h
  split at h
  · rename_i t ht
    obtain ⟨s, rfl, rfl⟩ := exists_of_ofChars_eq_cons ht
    exact hunsigned true h
  · rename_i t _ ht
    split_ifs at h
    exact hunsigned false h
  · cases h

end Json

end ScarbCrates
