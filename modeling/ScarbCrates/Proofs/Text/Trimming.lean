import Mathlib.Data.List.TakeWhile
import ScarbCrates.Text.Classes

/-!
# White space at the ends

What a text is without the white space at its ends: the part of it that neither begins nor ends
with a blank letter and has nothing but blank letters around it.

* `exists_trimmed` — the text and what is left of it.
* `trimmed_eq` — the part that is left is the only one of its kind.
-/

namespace ScarbCrates

namespace Text

lemma dropWhile_isBlank_of_head? {cs : List Char} (h : ∀ c ∈ cs.head?, isBlank c = false) :
    cs.dropWhile isBlank = cs := by
  cases cs with
  | nil => rfl
  | cons c cs => exact List.dropWhile_cons_of_neg (by simp [h c rfl])

/-- What is left at both ends is blank. -/
lemma exists_trimmed (cs : List Char) :
    ∃ w w', cs = w ++ (trimmed cs ++ w') ∧ (∀ c ∈ w, isBlank c = true) ∧
      ∀ c ∈ w', isBlank c = true := by
  refine ⟨cs.takeWhile isBlank, ((cs.dropWhile isBlank).reverse.takeWhile isBlank).reverse, ?_,
    fun c hc => List.mem_takeWhile_imp hc,
    fun c hc => List.mem_takeWhile_imp (List.mem_reverse.1 hc)⟩
  rw [trimmed, ← List.reverse_append, List.takeWhile_append_dropWhile, List.reverse_reverse,
    List.takeWhile_append_dropWhile]

/-- **Letters between blank ones** that neither begin nor end with a blank one. -/
lemma trimmed_eq {w t w' : List Char} (hw : ∀ c ∈ w, isBlank c = true)
    (hw' : ∀ c ∈ w', isBlank c = true) (hfirst : ∀ c ∈ t.head?, isBlank c = false)
    (hlast : ∀ c ∈ t.getLast?, isBlank c = false) : trimmed (w ++ (t ++ w')) = t := by
  have hright : (t ++ w').reverse.dropWhile isBlank = t.reverse := by
    rw [List.reverse_append, List.dropWhile_append_of_pos fun c hc => hw' c (List.mem_reverse.1 hc)]
    refine dropWhile_isBlank_of_head? ?_
    rwa [List.head?_reverse]
  have hleft : (t ++ w').dropWhile isBlank = if t = [] then [] else t ++ w' := by
    cases t with
    | nil => exact List.dropWhile_eq_nil_iff.2 hw'
    | cons c t => exact dropWhile_isBlank_of_head? hfirst
  rw [trimmed, List.dropWhile_append_of_pos hw, hleft]
  split_ifs with ht
  · exact ht.symm
  · rw [hright, List.reverse_reverse]

lemma trimmed_eq_nil_iff {cs : List Char} : trimmed cs = [] ↔ ∀ c ∈ cs, isBlank c = true := by
  constructor
  · intro h
    obtain ⟨w, w', hcs, hw, hw'⟩ := exists_trimmed cs
    rw [h, List.nil_append] at hcs
    rw [hcs]
    exact List.forall_mem_append.2 ⟨hw, hw'⟩
  · intro h
    rw [trimmed, List.dropWhile_eq_nil_iff.2 h]
    rfl

/-- What is left begins with no blank letter. -/
lemma isBlank_of_head?_trimmed {cs : List Char} {c : Char} (h : c ∈ (trimmed cs).head?) :
    isBlank c = false := by
  have hprefix : trimmed cs <+: cs.dropWhile isBlank := by
    rw [trimmed, ← List.reverse_suffix, List.reverse_reverse]
    exact List.dropWhile_suffix _
  obtain ⟨rest, hrest⟩ := hprefix
  have hhead := List.head?_dropWhile_not isBlank cs
  rw [← hrest, List.head?_append, Option.mem_def.1 h] at hhead
  exact hhead

/-- What is left ends with no blank letter. -/
lemma isBlank_of_getLast?_trimmed {cs : List Char} {c : Char} (h : c ∈ (trimmed cs).getLast?) :
    isBlank c = false := by
  rw [trimmed, List.getLast?_reverse] at h
  have hhead := List.head?_dropWhile_not isBlank (cs.dropWhile isBlank).reverse
  rw [Option.mem_def.1 h] at hhead
  exact hhead

/-- What is left a second time is what was left. -/
@[simp]
lemma trimmed_trimmed (cs : List Char) : trimmed (trimmed cs) = trimmed cs := by
  have hfirst : ∀ c ∈ (trimmed cs).head?, isBlank c = false :=
    fun _ hc => isBlank_of_head?_trimmed hc
  have h := trimmed_eq (List.forall_mem_nil _) (List.forall_mem_nil _) hfirst
    fun _ hc => isBlank_of_getLast?_trimmed hc
  rwa [List.nil_append, List.append_nil] at h

end Text

end ScarbCrates
