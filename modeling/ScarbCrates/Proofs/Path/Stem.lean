import Mathlib.Data.List.TakeWhile
import Mathlib.Tactic.Common
import ScarbCrates.Proofs.Path.Spelling

/-!
# The stem of a name

The last full stop of a name divides it into a stem and an ending, unless it is the first byte or
the last one.  A name that is not divided is its own stem.  So a hidden file has no ending but the
one after its second full stop, and several endings make one ending only, the last.

* `Name.Divides` — a stem and an ending on either side of the full stop.
* `Name.HasStem`, `Name.hasStem_iff` — the stem of a name.
* `Name.HasSuffix`, `Name.hasSuffix_iff` — what follows the stem.
* `Name.stemBytes_append_suffixBytes` — the stem and what follows it are the name.
-/

namespace ScarbCrates

namespace Name

variable {n : Name} {stem ending suffix : List UInt8}

/-- **A stem and an ending divide a name** at its last full stop; neither is empty. -/
structure Divides (n : Name) (stem ending : List UInt8) : Prop where
  bytes : n.bytes = stem ++ dot :: ending
  stem_ne_nil : stem ≠ []
  ending_ne_nil : ending ≠ []
  dot_not_mem : dot ∉ ending

/-- **The stem of a name:** what stands before the ending, or all of a name that has none. -/
def HasStem (n : Name) (stem : List UInt8) : Prop :=
  (∃ ending, n.Divides stem ending) ∨ stem = n.bytes ∧ ∀ stem' ending, ¬n.Divides stem' ending

/-- **The suffix of a name:** the full stop and the ending, or nothing. -/
def HasSuffix (n : Name) (suffix : List UInt8) : Prop :=
  (∃ stem ending, n.Divides stem ending ∧ suffix = dot :: ending) ∨
    suffix = [] ∧ ∀ stem ending, ¬n.Divides stem ending

/-! ## How the stem is found -/

/-- Read from behind, the ending reaches up to the first full stop. -/
lemma takeWhile_reverse (hdot : dot ∉ ending) :
    (stem ++ dot :: ending).reverse.takeWhile (· ≠ dot) = ending.reverse := by
  have hreverse : (stem ++ dot :: ending).reverse = ending.reverse ++ dot :: stem.reverse := by
    simp
  rw [hreverse, List.takeWhile_append_of_pos]
  · simp
  · intro b hb
    rw [List.mem_reverse] at hb
    exact decide_eq_true fun heq => hdot (heq ▸ hb)

lemma take_stem (stem ending : List UInt8) : (stem ++ dot :: ending).take
    ((stem ++ dot :: ending).length - ending.reverse.length - 1) = stem := by
  have hlength : (stem ++ dot :: ending).length - ending.reverse.length - 1 = stem.length := by
    simp only [List.length_append, List.length_cons, List.length_reverse]
    omega
  rw [hlength, List.take_left']
  rfl

lemma Divides.stemBytes (h : n.Divides stem ending) : n.stemBytes = stem := by
  rw [Name.stemBytes, h.bytes]
  simp only [takeWhile_reverse h.dot_not_mem, take_stem]
  refine if_pos ⟨?_, ?_, h.stem_ne_nil⟩
  · simp only [List.length_append, List.length_cons, List.length_reverse]
    omega
  · simpa using h.ending_ne_nil

/-- A name that has a full stop has a last one. -/
lemma exists_last_dot {bytes : List UInt8} (h : dot ∈ bytes) :
    ∃ stem ending, bytes = stem ++ dot :: ending ∧ dot ∉ ending := by
  obtain ⟨front, back, hbytes, hfront⟩ := List.eq_append_cons_of_mem (List.mem_reverse.2 h)
  refine ⟨back.reverse, front.reverse, ?_, by simpa using hfront⟩
  rw [← List.reverse_inj, hbytes]
  simp

/-- The stem is what stands before the ending, if the name has one. -/
lemma divides_or (n : Name) : (∃ ending, n.Divides n.stemBytes ending) ∨
    n.stemBytes = n.bytes ∧ ∀ stem ending, ¬n.Divides stem ending := by
  by_cases hdivides : ∃ stem ending, n.Divides stem ending
  · obtain ⟨stem, ending, h⟩ := hdivides
    exact .inl ⟨ending, h.stemBytes ▸ h⟩
  · push Not at hdivides
    refine .inr ⟨?_, hdivides⟩
    rw [Name.stemBytes]
    refine if_neg ?_
    rintro ⟨hlength, htail, hhead⟩
    have hmem : dot ∈ n.bytes := by
      by_contra hnot
      rw [List.takeWhile_eq_self_iff.2, List.length_reverse] at hlength
      · exact Nat.lt_irrefl _ hlength
      · intro b hb
        exact decide_eq_true fun heq => hnot (heq ▸ List.mem_reverse.1 hb)
    obtain ⟨stem, ending, hbytes, hdot⟩ := exists_last_dot hmem
    rw [hbytes, takeWhile_reverse hdot] at htail hhead
    rw [take_stem] at hhead
    exact hdivides stem ending ⟨hbytes, hhead, by simpa using htail, hdot⟩

/-- **The stem that is found is the stem.** -/
theorem hasStem_iff : n.HasStem stem ↔ n.stemBytes = stem := by
  constructor
  · rintro (⟨ending, h⟩ | ⟨rfl, h⟩)
    · exact h.stemBytes
    · rcases n.divides_or with ⟨ending, hdivides⟩ | ⟨hstem, -⟩
      · exact absurd hdivides (h _ ending)
      · exact hstem
  · rintro rfl
    exact n.divides_or

lemma stemBytes_ne_nil (n : Name) : n.stemBytes ≠ [] := by
  rcases n.divides_or with ⟨ending, h⟩ | ⟨h, -⟩
  · exact h.stem_ne_nil
  · exact h ▸ n.ne_nil

/-- **The stem and what follows it are the name.** -/
theorem stemBytes_append_suffixBytes (n : Name) : n.stemBytes ++ n.suffixBytes = n.bytes := by
  have hprefix : n.stemBytes <+: n.bytes := by
    rcases n.divides_or with ⟨ending, h⟩ | ⟨h, -⟩
    · exact ⟨dot :: ending, h.bytes.symm⟩
    · exact h ▸ List.prefix_rfl
  rw [suffixBytes]
  exact (List.prefix_iff_eq_append.1 hprefix)

/-- **What follows the stem is the suffix.** -/
theorem hasSuffix_iff : n.HasSuffix suffix ↔ n.suffixBytes = suffix := by
  have hname := n.stemBytes_append_suffixBytes
  constructor
  · rintro (⟨stem, ending, h, rfl⟩ | ⟨rfl, h⟩)
    · rw [h.stemBytes, h.bytes] at hname
      exact List.append_cancel_left hname
    · rcases n.divides_or with ⟨ending, hdivides⟩ | ⟨hstem, -⟩
      · exact absurd hdivides (h _ ending)
      · rw [hstem] at hname
        simpa using hname
  · rintro rfl
    rcases n.divides_or with ⟨ending, h⟩ | ⟨hstem, h⟩
    · exact .inl ⟨_, ending, h, List.append_cancel_left (hname.trans h.bytes)⟩
    · rw [hstem] at hname
      exact .inr ⟨by simpa using hname, h⟩

end Name

/-! ## Names as paths -/

namespace Path

/-- A name by itself is a path of one step. -/
lemma ofBytes_name (n : Name) : ofBytes n.bytes = ⟨.none, [n]⟩ :=
  ofBytes_bytes ⟨.none, [n]⟩

/-- The path of the directory and the name in it. -/
lemma child_parent {p : Path} {n : Name} (h : p.name? = some n) : p.parent.child n = p := by
  obtain ⟨root, names⟩ := p
  obtain ⟨front, rfl⟩ := List.getLast?_eq_some_iff.1 h
  simp [child, parent]

/-- A name that is put after a path is its new final name. -/
lemma join_ofBytes_name (p : Path) (n : Name) : p.join (ofBytes n.bytes) = p.child n := by
  rw [ofBytes_name]
  rfl

end Path

end ScarbCrates
