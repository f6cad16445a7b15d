import Mathlib.Tactic.Common
import ScarbCrates.Text.Classes

/-!
# Cutting at line ends

What the lines of a text are, and that a line end cuts a text in two for everyone to whom an
empty line means nothing.  (The lines themselves need not be those of the two halves: a line feed
after a carriage return ends no further line, one after another line feed ends an empty one.)

* `foldl_lines_append`, `foldl_lines_intercalate` — texts with line ends between them.
* `lines_of_unbroken` — a text without line ends.
* `exists_of_mem_lines` — where a line stands in its text.
-/

namespace ScarbCrates

namespace Text

/-! ## Texts put together -/

lemma linesFrom_cons (line : List Char) {c : Char} {cs : List Char}
    (h : c = '\r' → '\n' ∉ cs.head?) :
    linesFrom line (c :: cs) =
      if isLineEnd c then line.reverse :: linesFrom [] cs else linesFrom (c :: line) cs := by
  rw [linesFrom]
  rintro rest rfl rfl
  exact h rfl rfl

lemma linesFrom_of_isLineEnd_eq_false (line : List Char) {c : Char} (hc : isLineEnd c = false)
    (cs : List Char) : linesFrom line (c :: cs) = linesFrom (c :: line) cs := by
  rw [linesFrom_cons line, if_neg (Bool.eq_false_iff.1 hc)]
  rintro rfl
  cases hc

section Folding

variable {β : Type} {f : β → List Char → β} (hf : ∀ b, f b [] = b)

include hf

/-- A line that is left over at the end is met if it is not empty. -/
lemma foldl_linesFrom_nil (line : List Char) (b : β) :
    (linesFrom line []).foldl f b = f b line.reverse := by
  cases line with
  | nil => exact (hf b).symm
  | cons c line => rfl

lemma foldl_linesFrom_append {e : Char} (he : isLineEnd e = true) (line cs rest : List Char)
    (b : β) : (linesFrom line (cs ++ e :: rest)).foldl f b =
      (lines rest).foldl f ((linesFrom line cs).foldl f b) := by
  induction line, cs using linesFrom.induct generalizing b with
  | case1 line _ | case2 line _ =>
      rw [foldl_linesFrom_nil hf, List.nil_append]
      -- A carriage return takes a line feed with it, which by itself would end an empty line.
      by_cases hpair : e = '\r' ∧ ∃ rest', rest = '\n' :: rest'
      · obtain ⟨rfl, rest, rfl⟩ := hpair
        show (linesFrom [] rest).foldl f _ = (linesFrom [] rest).foldl f (f _ [])
        rw [hf]
      · rw [linesFrom_cons line, if_pos he]
        · rfl
        · intro hreturn hhead
          exact hpair ⟨hreturn, List.head?_eq_some_iff.1 hhead⟩
  | case3 line cs ih => exact ih _
  | case4 line c cs hfeed hend ih =>
      by_cases hlast : c = '\r' ∧ cs = [] ∧ e = '\n'
      · obtain ⟨rfl, rfl, rfl⟩ := hlast
        rfl
      · have hcs : c = '\r' → '\n' ∉ cs.head? := fun hc hhead => by
          obtain ⟨rest', rfl⟩ := List.head?_eq_some_iff.1 hhead
          exact hfeed rest' hc rfl
        have hcs' : c = '\r' → '\n' ∉ (cs ++ e :: rest).head? := fun hc => by
          cases cs with
          | nil => exact fun hhead => hlast ⟨hc, rfl, Option.some.inj hhead⟩
          | cons d cs => exact hcs hc
        rw [List.cons_append, linesFrom_cons line hcs, linesFrom_cons line hcs', if_pos hend,
          if_pos hend]
        exact ih _
  | case5 line c cs hfeed hend ih =>
      have hc := Bool.eq_false_iff.2 hend
      rw [List.cons_append, linesFrom_of_isLineEnd_eq_false line hc,
        linesFrom_of_isLineEnd_eq_false line hc]
      exact ih _

/-- **A line end cuts a text in two** if an empty line means nothing. -/
theorem foldl_lines_append {e : Char} (he : isLineEnd e = true) (cs rest : List Char) (b : β) :
    (lines (cs ++ e :: rest)).foldl f b = (lines rest).foldl f ((lines cs).foldl f b) :=
  foldl_linesFrom_append hf he [] cs rest b

/-- **Line feeds cut a text in its parts** if an empty line means nothing. -/
theorem foldl_lines_intercalate (parts : List (List Char)) (b : β) :
    (lines (['\n'].intercalate parts)).foldl f b = (parts.flatMap lines).foldl f b := by
  induction parts generalizing b with
  | nil => rfl
  | cons part parts ih =>
      cases parts with
      | nil =>
          rw [List.intercalate_singleton, List.flatMap_cons, List.flatMap_nil, List.append_nil]
      | cons next parts =>
          rw [List.intercalate_cons_cons, List.append_assoc, List.singleton_append,
            foldl_lines_append hf rfl, ih, ← List.foldl_append]
          rfl

end Folding

/-! ## Lines in their text -/

/-- A text without line ends. -/
def Unbroken (cs : List Char) : Prop := ∀ c ∈ cs, isLineEnd c = false

instance (cs : List Char) : Decidable (Unbroken cs) := List.decidableBAll _ cs

lemma Unbroken.append {cs ds : List Char} (hcs : Unbroken cs) (hds : Unbroken ds) :
    Unbroken (cs ++ ds) := List.forall_mem_append.2 ⟨hcs, hds⟩

lemma linesFrom_of_unbroken {line cs : List Char} (hcs : Unbroken cs)
    (hne : line.reverse ++ cs ≠ []) : linesFrom line cs = [line.reverse ++ cs] := by
  induction cs generalizing line with
  | nil =>
      cases line with
      | nil => exact absurd rfl hne
      | cons c line => rw [linesFrom, List.append_nil, if_neg (by simp)]
  | cons c cs ih =>
      obtain ⟨hc, hcs⟩ := List.forall_mem_cons.1 hcs
      rw [linesFrom_of_isLineEnd_eq_false line hc, ih hcs (by simp), List.reverse_cons,
        List.append_assoc, List.singleton_append]

/-- **A text without line ends** is one line. -/
lemma lines_of_unbroken {cs : List Char} (hcs : Unbroken cs) (hne : cs ≠ []) :
    lines cs = [cs] := linesFrom_of_unbroken hcs hne

/-- **Where a line stands:** after a line end, if anything is before it, before a line end, if
anything is after it, and with none in it. -/
structure StandsAs (cs before line after : List Char) : Prop where
  eq : cs = before ++ (line ++ after)
  before : ∀ c ∈ before.getLast?, isLineEnd c = true
  after : ∀ c ∈ after.head?, isLineEnd c = true
  unbroken : Unbroken line

/-- A line stands as it does when more is in front of what is before it, up to a line end. -/
lemma StandsAs.cons {cs before line after : List Char} (h : StandsAs cs before line after)
    {c : Char} (hc : isLineEnd c = true) (start : List Char) :
    StandsAs (start ++ c :: cs) (start ++ c :: before) line after where
  eq := by rw [h.eq, List.append_assoc, List.cons_append]
  before d hd := by
    cases before with
    | nil =>
        rw [List.getLast?_concat] at hd
        exact Option.some.inj hd ▸ hc
    | cons b before =>
        rw [List.getLast?_append, List.getLast?_cons_cons, List.getLast?_cons, Option.some_or] at hd
        exact h.before d (by rwa [List.getLast?_cons])
  after := h.after
  unbroken := h.unbroken

lemma exists_of_mem_linesFrom {start cs line : List Char} (hstart : Unbroken start)
    (h : line ∈ linesFrom start cs) :
    ∃ before after, StandsAs (start.reverse ++ cs) before line after := by
  have hreverse : ∀ {start : List Char}, Unbroken start → Unbroken start.reverse :=
    fun hs c hc => hs c (List.mem_reverse.1 hc)
  have hnil : Unbroken [] := List.forall_mem_nil _
  have hfirst : ∀ {start after : List Char}, Unbroken start →
      (∀ c ∈ after.head?, isLineEnd c = true) →
      StandsAs (start.reverse ++ after) [] start.reverse after := fun hs hafter =>
    ⟨rfl, fun c hc => (by cases hc), hafter, hreverse hs⟩
  induction start, cs using linesFrom.induct with
  | case1 start hempty =>
      rw [linesFrom, if_pos hempty] at h
      cases h
  | case2 start hempty =>
      rw [linesFrom, if_neg hempty] at h
      obtain rfl := List.mem_singleton.1 h
      exact ⟨[], [], hfirst hstart (by simp)⟩
  | case3 start cs ih =>
      rcases List.mem_cons.1 h with rfl | h
      · exact ⟨[], '\r' :: '\n' :: cs, hfirst hstart (by simp [isLineEnd])⟩
      · obtain ⟨before, after, hstands⟩ := ih hnil h
        exact ⟨_, after, (hstands.cons (c := '\n') rfl []).cons (c := '\r') rfl start.reverse⟩
  | case4 start c cs hfeed hend ih =>
      rw [linesFrom_cons start, if_pos hend] at h
      · rcases List.mem_cons.1 h with rfl | h
        · exact ⟨[], c :: cs, hfirst hstart fun d hd => Option.some.inj hd ▸ hend⟩
        · obtain ⟨before, after, hstands⟩ := ih hnil h
          exact ⟨_, after, hstands.cons hend start.reverse⟩
      · rintro rfl hhead
        obtain ⟨rest, rfl⟩ := List.head?_eq_some_iff.1 hhead
        exact hfeed rest rfl rfl
  | case5 start c cs hfeed hend ih =>
      have hc := Bool.eq_false_iff.2 hend
      rw [linesFrom_of_isLineEnd_eq_false start hc] at h
      obtain ⟨before, after, hstands⟩ := ih (List.forall_mem_cons.2 ⟨hc, hstart⟩) h
      rw [List.reverse_cons, List.append_assoc, List.singleton_append] at hstands
      exact ⟨before, after, hstands⟩

/-- **Where the lines of a text stand.** -/
theorem exists_of_mem_lines {cs line : List Char} (h : line ∈ lines cs) :
    ∃ before after, StandsAs cs before line after :=
  exists_of_mem_linesFrom (List.forall_mem_nil _) h

end Text

end ScarbCrates
