import ScarbCrates.Proofs.Derivation.Naming
import ScarbCrates.Proofs.Path.Walking
import ScarbCrates.Proofs.Query.Freshness

/-!
# Which paths are strings

No character but the slash has the byte of a slash in its UTF-8.  So bytes that are UTF-8 are cut
into names that are UTF-8, and a path is a string exactly if all of its names are.

* `Path.isUtf8_of_mem_pieces` — bytes cut at their slashes.
* `Path.encodable_iff` — a path is judged by its names.
* `Path.encodable_ofString` — a path that is read from a string is one.
-/

namespace ScarbCrates

namespace SourceRoot

/-! ## Bytes -/

lemma isUtf8_iff (bytes : List UInt8) :
    IsUtf8 bytes ↔ ∃ s, Text.toString? (Text.decode bytes) = .ok s := by
  rw [← not_iff_not, not_isUtf8_iff]
  cases Text.toString? (Text.decode bytes) <;> simp

lemma isUtf8_nil : IsUtf8 [] := ⟨"", rfl⟩

lemma IsUtf8.append {a b : List UInt8} (ha : IsUtf8 a) (hb : IsUtf8 b) : IsUtf8 (a ++ b) := by
  obtain ⟨s, rfl⟩ := ha
  obtain ⟨t, rfl⟩ := hb
  exact ⟨s ++ t, Text.encode_ofString_append s t⟩

lemma isUtf8_char (c : Char) : IsUtf8 (String.utf8EncodeChar c) :=
  ⟨String.singleton c, by simp [Text.ofString, Text.ofChars, Text.encode, Letter.bytes]⟩

end SourceRoot

namespace Path

open SourceRoot

lemma slash_notMem_utf8EncodeChar {c : Char} (h : c ≠ '/') : slash ∉ String.utf8EncodeChar c :=
  fun hmem => h (Char.toNat_inj.1 (Utf8.toNat_of_mem_utf8EncodeChar (by decide) hmem))

/-! ## Bytes cut at their slashes -/

lemma exists_pieces (bytes : List UInt8) : ∃ piece more, pieces bytes = piece :: more := by
  induction bytes with
  | nil => exact ⟨[], [], rfl⟩
  | cons b rest ih =>
      obtain ⟨piece, more, h⟩ := ih
      rw [pieces, h]
      split_ifs
      · exact ⟨[], piece :: more, rfl⟩
      · exact ⟨b :: piece, more, rfl⟩

/-- Bytes without a slash belong to the first piece. -/
lemma pieces_append_of_no_slash {a rest piece : List UInt8} {more : List (List UInt8)}
    (ha : slash ∉ a) (h : pieces rest = piece :: more) :
    pieces (a ++ rest) = (a ++ piece) :: more := by
  induction a with
  | nil => exact h
  | cons b a ih =>
      rw [List.mem_cons, not_or] at ha
      rw [List.cons_append, pieces, if_neg (Ne.symm ha.1), ih ha.2]
      rfl

/-- **UTF-8 is cut into UTF-8.** -/
lemma isUtf8_of_mem_pieces {bytes : List UInt8} (h : IsUtf8 bytes) :
    ∀ piece ∈ pieces bytes, IsUtf8 piece := by
  obtain ⟨s, rfl⟩ := h
  rw [Text.ofString]
  induction s.toList with
  | nil => exact List.forall_mem_singleton.2 isUtf8_nil
  | cons c cs ih =>
      obtain ⟨piece, more, hpieces⟩ := exists_pieces (Text.encode (Text.ofChars cs))
      have hcons : Text.encode (Text.ofChars (c :: cs)) =
          String.utf8EncodeChar c ++ Text.encode (Text.ofChars cs) := rfl
      rw [hcons]
      by_cases hc : c = '/'
      · rw [hc, show String.utf8EncodeChar '/' = [slash] by decide, List.singleton_append, pieces,
          if_pos rfl]
        exact List.forall_mem_cons.2 ⟨isUtf8_nil, ih⟩
      · rw [pieces_append_of_no_slash (slash_notMem_utf8EncodeChar hc) hpieces]
        rw [hpieces, List.forall_mem_cons] at ih
        exact List.forall_mem_cons.2 ⟨(isUtf8_char c).append ih.1, ih.2⟩

lemma isUtf8_of_mem_ofBytes {bytes : List UInt8} (h : IsUtf8 bytes) :
    ∀ n ∈ (ofBytes bytes).names, IsUtf8 n.bytes := by
  intro n hn
  obtain ⟨piece, hpiece, hname⟩ := List.mem_filterMap.1 hn
  rw [Name.ofBytes?] at hname
  split_ifs at hname
  obtain rfl := Option.some.inj hname
  exact isUtf8_of_mem_pieces h piece hpiece

/-! ## Paths -/

lemma isUtf8_joinNames {ns : List Name} (h : ∀ n ∈ ns, IsUtf8 n.bytes) :
    IsUtf8 (joinNames ns) := by
  induction ns with
  | nil => exact isUtf8_nil
  | cons n rest ih =>
      rw [List.forall_mem_cons] at h
      cases rest with
      | nil => exact h.1
      | cons n' rest =>
          have hslash : IsUtf8 [slash] := ⟨"/", rfl⟩
          exact h.1.append (hslash.append (ih h.2))

variable {p q : Path} {n : Name}

/-- **A path is a string** exactly if all of its names are UTF-8. -/
lemma encodable_iff : p.Encodable ↔ ∀ n ∈ p.names, IsUtf8 n.bytes := by
  have hbytes : p.Encodable ↔ IsUtf8 p.bytes := (isUtf8_iff p.bytes).symm
  rw [hbytes]
  constructor
  · intro h
    have hnames := isUtf8_of_mem_ofBytes h
    rwa [ofBytes_bytes] at hnames
  · intro h
    obtain ⟨root, names⟩ := p
    have hroot : IsUtf8 (rootBytes root) := by
      cases root with
      | none => exact isUtf8_nil
      | single => exact ⟨"/", rfl⟩
      | double => exact ⟨"//", rfl⟩
    have hall := hroot.append (isUtf8_joinNames h)
    cases root with
    | none =>
        cases names with
        | nil => exact ⟨".", rfl⟩
        | cons n rest => exact hall
    | single | double => exact hall

/-- A path that is read from a string is a string. -/
lemma encodable_ofString (s : String) : (ofString s).Encodable :=
  encodable_iff.2 (isUtf8_of_mem_ofBytes ⟨s, rfl⟩)

lemma Encodable.parent (h : p.Encodable) : p.parent.Encodable := by
  rw [encodable_iff] at h ⊢
  exact fun n hn => h n (List.mem_of_mem_dropLast hn)

lemma Encodable.child (h : p.Encodable) (hn : IsUtf8 n.bytes) : (p.child n).Encodable := by
  rw [encodable_iff] at h ⊢
  exact List.forall_mem_append.2 ⟨h, List.forall_mem_singleton.2 hn⟩

end Path

end ScarbCrates
