import Mathlib.Data.List.Infix
import ScarbCrates.Proofs.Text.Trimming
import ScarbCrates.Schema.Report

/-!
# Messages taken apart

A message and the place at its end are joined by a dash, the word `at` and marks around the place,
with white space in between.  A report takes the two apart again.  The last two marks of a message
hold its place, and from there the way back to the message itself is the only one, so that marks
and further dashes in the message do no harm.

* `Suffix` — the way in which a place is joined to a message.
* `Suffix.unique` — a text ends in one place at most, and where it begins is settled up to blanks.
* `ofMessage_join` — a message is taken apart where it was joined.
-/

namespace ScarbCrates

namespace Report

open Text (isBlank trimmed)

/-! ## The end of a message -/

/-- White space, of which there is some. -/
def Blanks (b : List Char) : Prop := b ≠ [] ∧ ∀ c ∈ b, isBlank c = true

/-- **A place as the end of a message:** a dash, the word `at` and the place in marks, with white
space in front of each. -/
def Suffix (place cs : List Char) : Prop :=
  ∃ b₁ b₂ b₃, Blanks b₁ ∧ Blanks b₂ ∧ Blanks b₃ ∧ place ≠ [] ∧ mark ∉ place ∧
    cs = b₁ ++ '-' :: (b₂ ++ 'a' :: 't' :: (b₃ ++ mark :: (place ++ [mark])))

namespace Suffix

variable {place y : List Char}

/-- More white space may stand in front. -/
lemma blanks_append (h : Suffix place y) {w : List Char} (hw : ∀ c ∈ w, isBlank c = true) :
    Suffix place (w ++ y) := by
  obtain ⟨b₁, b₂, b₃, ⟨hne, hblank⟩, hb₂, hb₃, hplace, hmark, rfl⟩ := h
  have hb₁ : Blanks (w ++ b₁) :=
    ⟨List.append_ne_nil_of_right_ne_nil w hne, List.forall_mem_append.2 ⟨hw, hblank⟩⟩
  exact ⟨w ++ b₁, b₂, b₃, hb₁, hb₂, hb₃, hplace, hmark, by rw [List.append_assoc]⟩

lemma getLast? (h : Suffix place y) : y.getLast? = some mark := by
  obtain ⟨b₁, b₂, b₃, -, -, -, -, -, rfl⟩ := h
  simp [List.getLast?_append, List.getLast?_cons]

end Suffix

/-! ## Reading it off -/

lemma afterBlanks?_append {b cs : List Char} (hb : Blanks b)
    (hcs : ∀ c ∈ cs.head?, isBlank c = false) : afterBlanks? (b ++ cs) = some cs := by
  obtain ⟨hne, hblank⟩ := hb
  cases b with
  | nil => exact absurd rfl hne
  | cons c b =>
      obtain ⟨hc, hb⟩ := List.forall_mem_cons.1 hblank
      rw [List.cons_append, afterBlanks?, if_pos hc, List.dropWhile_append_of_pos hb,
        Text.dropWhile_isBlank_of_head? hcs]

lemma blanks_of_afterBlanks? {cs rest : List Char} (h : afterBlanks? cs = some rest) :
    ∃ b, Blanks b ∧ cs = b ++ rest := by
  cases cs with
  | nil => cases h
  | cons c cs =>
      rw [afterBlanks?] at h
      split_ifs at h with hc
      obtain rfl := Option.some.inj h
      refine ⟨c :: cs.takeWhile isBlank, ⟨List.cons_ne_nil _ _, ?_⟩, ?_⟩
      · exact List.forall_mem_cons.2 ⟨hc, fun d hd => List.mem_takeWhile_imp hd⟩
      · rw [List.cons_append, List.takeWhile_append_dropWhile]

lemma after?_eq_some_iff {ps cs rest : List Char} :
    after? ps cs = some rest ↔ cs = ps ++ rest := by
  induction ps generalizing cs with
  | nil => simp [after?]
  | cons p ps ih =>
      cases cs with
      | nil => simp [after?]
      | cons c cs =>
          rw [after?, List.cons_append, List.cons.injEq, eq_comm (a := c)]
          split_ifs with hc
          · rw [ih, and_iff_right hc]
          · simp [hc]

lemma markedPlace?_eq_some_iff {cs place : List Char} :
    markedPlace? cs = some place ↔
      place ≠ [] ∧ mark ∉ place ∧ cs = mark :: (place ++ [mark]) := by
  cases cs with
  | nil => simp [markedPlace?]
  | cons c cs =>
      rw [markedPlace?]
      constructor
      · intro h
        split_ifs at h with hplace
        obtain rfl := Option.some.inj h
        obtain ⟨rfl, hne, hlast⟩ := hplace
        refine ⟨hne, fun hmem => ?_, ?_⟩
        · have hnot := List.mem_takeWhile_imp hmem
          rw [decide_eq_true_iff] at hnot
          exact hnot rfl
        · rw [← hlast, List.takeWhile_append_dropWhile]
      · rintro ⟨hne, hmark, hcs⟩
        obtain ⟨rfl, rfl⟩ := List.cons.inj hcs
        have hall : ∀ c ∈ place, decide (c ≠ mark) = true := by
          intro c hc
          rw [decide_eq_true_iff]
          rintro rfl
          exact hmark hc
        have htake : (place ++ [mark]).takeWhile (· ≠ mark) = place := by
          rw [List.takeWhile_append_of_pos hall]
          simp
        have hdrop : (place ++ [mark]).dropWhile (· ≠ mark) = [mark] := by
          rw [List.dropWhile_append_of_pos hall]
          simp
        rw [htake, hdrop, if_pos ⟨rfl, hne, rfl⟩]

/-- **The end of a message is recognised.** -/
lemma suffixPlace?_eq_some_iff {cs place : List Char} :
    suffixPlace? cs = some place ↔ Suffix place cs := by
  constructor
  · intro h
    simp only [suffixPlace?, Option.bind_eq_bind, Option.bind_eq_some_iff] at h
    obtain ⟨_, h₁, _, h₂, _, h₃, _, h₄, _, h₅, hplace⟩ := h
    obtain ⟨b₁, hb₁, rfl⟩ := blanks_of_afterBlanks? h₁
    obtain rfl := after?_eq_some_iff.1 h₂
    obtain ⟨b₂, hb₂, rfl⟩ := blanks_of_afterBlanks? h₃
    obtain rfl := after?_eq_some_iff.1 h₄
    obtain ⟨b₃, hb₃, rfl⟩ := blanks_of_afterBlanks? h₅
    obtain ⟨hne, hmark, rfl⟩ := markedPlace?_eq_some_iff.1 hplace
    exact ⟨b₁, b₂, b₃, hb₁, hb₂, hb₃, hne, hmark, rfl⟩
  · rintro ⟨b₁, b₂, b₃, hb₁, hb₂, hb₃, hne, hmark, rfl⟩
    have hfirst : ∀ {c : Char} {cs : List Char}, isBlank c = false →
        ∀ d ∈ (c :: cs).head?, isBlank d = false := fun hc d hd => Option.some.inj hd ▸ hc
    simp only [suffixPlace?, Option.bind_eq_bind, Option.bind_eq_some_iff]
    exact ⟨_, afterBlanks?_append hb₁ (hfirst rfl), _, after?_eq_some_iff.2 rfl,
      _, afterBlanks?_append hb₂ (hfirst rfl), _, after?_eq_some_iff.2 rfl,
      _, afterBlanks?_append hb₃ (hfirst rfl), markedPlace?_eq_some_iff.2 ⟨hne, hmark, rfl⟩⟩

/-! ## One end only -/

/-- A list that is cut at its last letter without a property is cut in one way. -/
lemma append_cons_inj {α : Type} {p : α → Prop} {u u' b b' : List α} {a a' : α}
    (h : u ++ a :: b = u' ++ a' :: b') (ha : ¬p a) (ha' : ¬p a') (hb : ∀ c ∈ b, p c)
    (hb' : ∀ c ∈ b', p c) : u = u' ∧ a = a' ∧ b = b' := by
  have hshort : ∀ {v : List α} {c c' : α} {d d' : List α}, c :: d = v ++ c' :: d' → ¬p c' →
      (∀ x ∈ d, p x) → v = [] := by
    intro v c c' d d' heq hc' hd
    cases v with
    | nil => rfl
    | cons x v =>
        obtain ⟨-, rfl⟩ := List.cons.inj heq
        exact absurd (hd c' (List.mem_append_right _ List.mem_cons_self)) hc'
  rcases List.append_eq_append_iff.1 h with ⟨v, rfl, heq⟩ | ⟨v, rfl, heq⟩
  · obtain rfl := hshort heq ha' hb
    obtain ⟨rfl, rfl⟩ := List.cons.inj heq
    exact ⟨(List.append_nil u).symm, rfl, rfl⟩
  · obtain rfl := hshort heq ha hb'
    obtain ⟨rfl, rfl⟩ := List.cons.inj heq
    exact ⟨List.append_nil u', rfl, rfl⟩

/-- **A text ends in one place at most,** and two of its ends differ in white space in front of
them only. -/
lemma Suffix.unique {x y place place' : List Char} (h : Suffix place y)
    (h' : Suffix place' (x ++ y)) : place' = place ∧ ∀ c ∈ x, isBlank c = true := by
  obtain ⟨b₁, b₂, b₃, -, hb₂, hb₃, -, hmark, rfl⟩ := h
  obtain ⟨b₁', b₂', b₃', hb₁', hb₂', hb₃', -, hmark', heq⟩ := h'
  have hne : ∀ {l : List Char}, mark ∉ l → ∀ c ∈ l, c ≠ mark := by
    rintro l hl c hc rfl
    exact hl hc
  -- From the right: the place between the marks, the blanks before it, the word and the dash.
  have hall : (x ++ b₁ ++ '-' :: (b₂ ++ 'a' :: 't' :: b₃) ++ mark :: place) ++ [mark] =
      (b₁' ++ '-' :: (b₂' ++ 'a' :: 't' :: b₃') ++ mark :: place') ++ [mark] := by
    simpa using heq
  obtain ⟨hbefore, -, rfl⟩ := append_cons_inj (p := (· ≠ mark)) (List.append_cancel_right hall)
    (by simp) (by simp) (hne hmark) (hne hmark')
  have hword : (x ++ b₁ ++ '-' :: (b₂ ++ ['a'])) ++ 't' :: b₃ =
      (b₁' ++ '-' :: (b₂' ++ ['a'])) ++ 't' :: b₃' := by
    simpa using hbefore
  obtain ⟨hword, -, -⟩ := append_cons_inj (p := (isBlank · = true)) hword (by decide) (by decide)
    hb₃.2 hb₃'.2
  have hdash : (x ++ b₁ ++ '-' :: b₂) ++ ['a'] = (b₁' ++ '-' :: b₂') ++ ['a'] := by
    simpa using hword
  obtain ⟨hblanks, -, -⟩ := append_cons_inj (p := (isBlank · = true))
    (List.append_cancel_right hdash) (by decide) (by decide) hb₂.2 hb₂'.2
  refine ⟨rfl, fun c hc => hb₁'.2 c ?_⟩
  rw [← hblanks]
  exact List.mem_append_left _ hc

/-! ## Where a message is cut -/

lemma cut_cons (c : Char) (cs : List Char) : cut (c :: cs) =
    (suffixPlace? (c :: cs)).elim
      (if c = '\n' then none else (cut cs).map fun r => (c :: r.1, r.2))
      fun place => some ([], some place) := by
  conv_lhs => unfold cut
  cases suffixPlace? (c :: cs) with
  | none => rw [Option.elim_none]
  | some place => rw [Option.elim_some]

/-- A text that ends in a place and nothing else is cut at its beginning. -/
lemma cut_of_suffix {y place : List Char} (hy : Suffix place y) :
    cut y = some ([], some place) := by
  have hplace := suffixPlace?_eq_some_iff.2 hy
  cases y with
  | nil => cases hplace
  | cons c y => rw [cut_cons, hplace, Option.elim_some]

/-- A summary that does not end in a blank is cut off in front of a place. -/
lemma cut_append {summary y place : List Char} (hy : Suffix place y)
    (hlast : ∀ c ∈ summary.getLast?, isBlank c = false) (hfeed : '\n' ∉ summary) :
    cut (summary ++ y) = some (summary, some place) := by
  induction summary with
  | nil => exact cut_of_suffix hy
  | cons c summary ih =>
      -- No place begins here: it would leave nothing but blanks of the summary.
      have hnone : suffixPlace? (c :: (summary ++ y)) = none := by
        rw [Option.eq_none_iff_forall_ne_some]
        intro place' hplace
        obtain ⟨-, hblank⟩ := hy.unique (x := c :: summary) (suffixPlace?_eq_some_iff.1 hplace)
        have hmem := List.getLast?_eq_some_getLast (List.cons_ne_nil c summary)
        have hfalse := hlast _ hmem
        rw [hblank _ (List.mem_of_getLast? hmem)] at hfalse
        cases hfalse
      have hrest := ih (fun d hd => hlast d (by
        rw [List.getLast?_cons, Option.mem_def.1 hd]
        rfl)) fun hmem => hfeed (List.mem_cons_of_mem _ hmem)
      have hc : c ≠ '\n' := fun hc => hfeed (hc ▸ List.mem_cons_self)
      rw [List.cons_append, cut_cons, hnone, Option.elim_none, if_neg hc, hrest, Option.map_some]

/-- A text that does not end in a place is not cut. -/
lemma cut_of_no_suffix {cs : List Char}
    (h : ∀ place x y, cs = x ++ y → ¬Suffix place y) :
    cut cs = if '\n' ∈ cs then none else some (cs, none) := by
  induction cs with
  | nil => rfl
  | cons c cs ih =>
      have hnone : suffixPlace? (c :: cs) = none := by
        rw [Option.eq_none_iff_forall_ne_some]
        intro place hplace
        exact h place [] _ rfl (suffixPlace?_eq_some_iff.1 hplace)
      rw [cut_cons, hnone, Option.elim_none,
        ih fun place x y heq => h place (c :: x) y (by rw [heq, List.cons_append])]
      by_cases hc : c = '\n'
      · simp [hc]
      · by_cases hmem : '\n' ∈ cs
        · simp [hmem]
        · simp [hmem, hc, Ne.symm hc]

/-! ## Reports -/

lemma nonEmpty?_eq (cs : List Char) :
    nonEmpty? cs = if String.ofList cs = "" then none else some (String.ofList cs) := by
  have hempty : String.ofList cs = "" ↔ cs.isEmpty = true := by
    rw [List.isEmpty_iff, ← String.toList_inj, String.toList_ofList]
    rfl
  rw [nonEmpty?]
  exact (if_congr hempty rfl rfl).symm

lemma nonEmpty?_of_ne_nil {cs : List Char} (h : cs ≠ []) :
    nonEmpty? cs = some (String.ofList cs) := by
  rw [nonEmpty?, if_neg]
  rwa [List.isEmpty_iff]

/-- **A message that does not end in a place** is a summary as a whole. -/
lemma ofMessage_of_no_suffix {message : String}
    (h : ∀ place x y, trimmed message.toList = x ++ y → ¬Suffix place y) :
    ofMessage message = ⟨nonEmpty? (trimmed message.toList), none⟩ := by
  rw [ofMessage]
  simp only [cut_of_no_suffix h]
  split_ifs with hfeed
  · simp only [nonEmpty?_of_ne_nil (List.ne_nil_of_mem hfeed)]
  · simp only [Text.trimmed_trimmed, Option.map_none]

/-- **A summary of one line and a place** are taken apart again. -/
lemma ofMessage_append {summary y place : List Char} (hy : Suffix place y)
    (hne : trimmed summary ≠ []) (hfeed : '\n' ∉ trimmed summary) :
    ofMessage (String.ofList (summary ++ y)) =
      ⟨some (String.ofList (trimmed summary)), some (String.ofList place)⟩ := by
  obtain ⟨w, w', hsummary, hw, hw'⟩ := Text.exists_trimmed summary
  -- The white space after the summary belongs to the place.
  have hplace := hy.blanks_append hw'
  have htrimmed : trimmed (summary ++ y) = trimmed summary ++ (w' ++ y) := by
    have hsplit : summary ++ y = w ++ ((trimmed summary ++ (w' ++ y)) ++ []) :=
      calc summary ++ y = w ++ (trimmed summary ++ w') ++ y := by rw [← hsummary]
        _ = _ := by simp only [List.append_assoc, List.append_nil]
    rw [hsplit]
    refine Text.trimmed_eq hw (List.forall_mem_nil _) (fun c hc => ?_) fun c hc => ?_
    · obtain ⟨d, rest, hd⟩ := List.exists_cons_of_ne_nil hne
      have hhead : c ∈ (trimmed summary).head? := by rwa [hd] at hc ⊢
      exact Text.isBlank_of_head?_trimmed hhead
    · rw [List.getLast?_append, hplace.getLast?, Option.some_or] at hc
      obtain rfl := Option.some.inj hc
      rfl
  rw [ofMessage, String.toList_ofList]
  simp only [htrimmed, cut_append hplace (fun c hc => Text.isBlank_of_getLast?_trimmed hc) hfeed,
    Text.trimmed_trimmed, nonEmpty?_of_ne_nil hne, Option.map_some]

lemma ofMessage_joined {s p : String} (hs : Text.trim s ≠ "") (hfeed : '\n' ∉ (Text.trim s).toList)
    (hp : p ≠ "") (hmark : mark ∉ p.toList) :
    ofMessage (s ++ " - at `" ++ p ++ "`") = ⟨some (Text.trim s), some p⟩ := by
  have hblank : Blanks [' '] := ⟨List.cons_ne_nil _ _, List.forall_mem_singleton.2 rfl⟩
  have hy : Suffix p.toList (" - at `".toList ++ p.toList ++ "`".toList) := by
    refine ⟨[' '], [' '], [' '], hblank, hblank, hblank, ?_, hmark, rfl⟩
    rwa [ne_eq, String.toList_eq_nil_iff]
  have hmessage : s ++ " - at `" ++ p ++ "`" =
      String.ofList (s.toList ++ (" - at `".toList ++ p.toList ++ "`".toList)) := by
    rw [← String.toList_inj]
    simp only [String.toList_append, String.toList_ofList, List.append_assoc]
  rw [Text.trim, String.toList_ofList] at hfeed
  rw [hmessage, ofMessage_append hy (fun h => hs (by rw [Text.trim, h])) hfeed,
    String.ofList_toList, Text.trim]

/-- **Taking a message apart undoes joining it.**  A summary of one line comes back without the
white space at its ends, and the place as it was, whatever marks and dashes the summary holds; and
a message that does not end in a place after white space is a summary as a whole. -/
theorem ofMessage_join :
    (∀ s p : String, Text.trim s ≠ "" → '\n' ∉ (Text.trim s).toList → p ≠ "" → mark ∉ p.toList →
      ofMessage (s ++ " - at `" ++ p ++ "`") = ⟨some (Text.trim s), some p⟩) ∧
    ∀ message : String,
      (¬∃ summary place y, (Text.trim message).toList = summary ++ y ∧ Suffix place y) →
      ofMessage message =
        ⟨if Text.trim message = "" then none else some (Text.trim message), none⟩ := by
  constructor
  · exact fun s p => ofMessage_joined
  · intro message h
    rw [Text.trim, String.toList_ofList] at h
    rw [ofMessage_of_no_suffix fun place x y heq hy => h ⟨x, place, y, heq, hy⟩, nonEmpty?_eq,
      Text.trim]

/-- A summary with a mark, a dash and a place of its own, and a message whose dash has nothing in
front of it. -/
theorem ofMessage_join_marked :
    (Text.trim " a `b` - at `c`\n" ≠ "" ∧ '\n' ∉ (Text.trim " a `b` - at `c`\n").toList ∧
      "$.d[0]" ≠ "" ∧ mark ∉ "$.d[0]".toList ∧
      ofMessage (" a `b` - at `c`\n" ++ " - at `" ++ "$.d[0]" ++ "`") =
        ⟨some "a `b` - at `c`", some "$.d[0]"⟩) ∧
    ofMessage "- at `$`" = ⟨some "- at `$`", none⟩ := by
  have hsummary : Text.trim " a `b` - at `c`\n" = "a `b` - at `c`" := by decide
  have hne : Text.trim " a `b` - at `c`\n" ≠ "" := by decide
  have hfeed : '\n' ∉ (Text.trim " a `b` - at `c`\n").toList := by decide
  have hmark : mark ∉ "$.d[0]".toList := by decide
  refine ⟨⟨hne, hfeed, by decide, hmark, ?_⟩, ?_⟩
  · rw [ofMessage_join.1 _ _ hne hfeed (by decide) hmark, hsummary]
  · rw [ofMessage_join.2 "- at `$`" ?_]
    · decide
    · rintro ⟨x, place, y, heq, hy⟩
      have hnone : ∀ y ∈ (Text.trim "- at `$`").toList.tails, suffixPlace? y = none := by decide
      have hplace := hnone y (List.mem_tails _ _ |>.2 ⟨x, heq.symm⟩)
      rw [suffixPlace?_eq_some_iff.2 hy] at hplace
      cases hplace

end Report

end ScarbCrates
