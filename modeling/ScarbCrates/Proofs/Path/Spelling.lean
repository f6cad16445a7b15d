import ScarbCrates.Path.Basic
import ScarbCrates.Proofs.Text.Encoding

/-!
# The spelling of a path

The normalised spelling of a path reads back as the path, so a path is its text.

* `Path.ofBytes_bytes` — writing and reading.
* `Path.text_injective` — different paths have different texts.
-/

namespace ScarbCrates

namespace Name

lemma ofBytes?_bytes (n : Name) : ofBytes? n.bytes = some n := by
  rw [ofBytes?, dif_pos ⟨n.ne_nil, n.no_slash, n.ne_dot⟩]

lemma ofBytes?_nil : ofBytes? [] = none := by
  rw [ofBytes?, dif_neg fun h => h.1 rfl]

lemma head_ne_slash {n : Name} {b : UInt8} {rest : List UInt8} (h : n.bytes = b :: rest) :
    b ≠ slash := by
  intro hb
  apply n.no_slash
  rw [h, hb]
  exact List.mem_cons_self

end Name

namespace Path

/-- Bytes without a slash are one piece with what follows them up to the next slash. -/
lemma pieces_append {bytes : List UInt8} (h : slash ∉ bytes) (rest : List UInt8) :
    pieces (bytes ++ slash :: rest) = bytes :: pieces rest := by
  induction bytes with
  | nil => simp [pieces]
  | cons b more ih =>
      rw [List.mem_cons, not_or] at h
      rw [List.cons_append, pieces, if_neg (Ne.symm h.1), ih h.2]

lemma pieces_of_no_slash {bytes : List UInt8} (h : slash ∉ bytes) : pieces bytes = [bytes] := by
  induction bytes with
  | nil => rfl
  | cons b more ih =>
      rw [List.mem_cons, not_or] at h
      rw [pieces, if_neg (Ne.symm h.1), ih h.2]

lemma pieces_joinNames (names : List Name) :
    (pieces (joinNames names)).filterMap Name.ofBytes? = names := by
  induction names with
  | nil => simp [joinNames, pieces, Name.ofBytes?_nil]
  | cons n rest ih =>
      cases rest with
      | nil =>
          rw [joinNames, pieces_of_no_slash n.no_slash]
          simp [Name.ofBytes?_bytes]
      | cons m more =>
          rw [joinNames, pieces_append n.no_slash, List.filterMap_cons, Name.ofBytes?_bytes, ih]
          simp

/-- Slashes in front are no names. -/
lemma pieces_rootBytes (root : Root) (bytes : List UInt8) :
    (pieces (rootBytes root ++ bytes)).filterMap Name.ofBytes? =
      (pieces bytes).filterMap Name.ofBytes? := by
  cases root <;> simp [rootBytes, pieces, Name.ofBytes?_nil]

lemma takeWhile_joinNames (names : List Name) :
    (joinNames names).takeWhile (· = slash) = [] := by
  cases names with
  | nil => rfl
  | cons n rest =>
      cases hn : n.bytes with
      | nil => exact absurd hn n.ne_nil
      | cons b more =>
          have hb := Name.head_ne_slash hn
          cases rest <;> simp [joinNames, hn, hb]

lemma rootOf_rootBytes (root : Root) (names : List Name) :
    rootOf (rootBytes root ++ joinNames names) = root := by
  have h := takeWhile_joinNames names
  cases root <;> simp [rootOf, rootBytes, h]

/-- **The normalised spelling reads back as the path.** -/
theorem ofBytes_bytes (p : Path) : ofBytes p.bytes = p := by
  obtain ⟨root, names⟩ := p
  cases names with
  | nil => cases root <;> decide
  | cons n rest =>
      have hb : bytes ⟨root, n :: rest⟩ = rootBytes root ++ joinNames (n :: rest) := by
        cases root <;> rfl
      rw [hb, ofBytes, rootOf_rootBytes, pieces_rootBytes, pieces_joinNames]

/-- **Different paths have different texts.** -/
theorem text_injective : Function.Injective text := fun _ _ h =>
  Function.LeftInverse.injective ofBytes_bytes (Text.decode_injective h)

/-- Different paths have different names, where they have any. -/
lemma eq_of_toString? {p q : Path} {s : String} (hp : p.toString? = .ok s)
    (hq : q.toString? = .ok s) : p = q :=
  text_injective ((Text.eq_ofString hp).trans (Text.eq_ofString hq).symm)

end Path

end ScarbCrates
