import Mathlib.Algebra.Group.Nat.Defs
import ScarbCrates.Proofs.Toolchain.Outcome

/-!
# Outputs after one another

What the lines of an output contribute adds up, so an output may be cut at any line end and its
parts scanned on their own: the messages follow one another, and the last document wins.  A line
that holds no object may be put in or left out.

* `Scan.followedBy` — two scans after one another.
* `Scan.ofText_standsAs` — a scan by what is before a line, the line, and what is after it.
* `Scan.ofText_composition` — scanning composes.
* `Scan.ofText_numbered` — an error with an integer that is too long is none.
-/

namespace ScarbCrates

namespace Scan

open Json (IsText Value longestWhole)
open Text (StandsAs Unbroken isLineEnd lines)

variable {line : List Char} {ms : List (String × Value)}

/-! ## Scans after one another -/

/-- A scan and what is scanned after it. -/
def followedBy (s t : Scan) : Scan := ⟨t.document.or s.document, s.messages ++ t.messages⟩

@[simp]
lemma followedBy_empty (s : Scan) : s.followedBy empty = s := by
  rw [followedBy, empty, Option.none_or, List.append_nil]

@[simp]
lemma empty_followedBy (s : Scan) : empty.followedBy s = s := by
  rw [followedBy, empty, Option.or_none, List.nil_append]

lemma followedBy_assoc (s t u : Scan) :
    (s.followedBy t).followedBy u = s.followedBy (t.followedBy u) := by
  simp only [followedBy, Option.or_assoc, List.append_assoc]

/-- What a line contributes does not depend on what is before it. -/
lemma after_eq_followedBy (s : Scan) (line : List Char) :
    s.after line = s.followedBy (empty.after line) := by
  rw [after, after]
  cases Line.of line with
  | nothing => exact (followedBy_empty s).symm
  | message text => rfl
  | document doc => simp [followedBy, add, empty]

/-- Nor does what some lines contribute. -/
lemma foldl_after_eq_followedBy (ls : List (List Char)) (s : Scan) :
    ls.foldl after s = s.followedBy (ls.foldl after empty) := by
  induction ls generalizing s with
  | nil => exact (followedBy_empty s).symm
  | cons line ls ih =>
      rw [List.foldl_cons, List.foldl_cons, ih, ih (empty.after line), after_eq_followedBy,
        followedBy_assoc]

/-! ## What a line contributes -/

lemma after_of_not_holds (h : ∀ ms, ¬Holds line ms) (s : Scan) : s.after line = s := by
  have hnone : membersOf? line = none :=
    Option.eq_none_iff_forall_ne_some.2 fun ms hms => h ms (membersOf?_eq_some_iff.1 hms)
  rw [after, Line.of, hnone]
  rfl

lemma after_of_isError (h : Holds line ms) (herror : isError ms = true) (s : Scan) :
    s.after line = ⟨s.document, s.messages ++ [errorText ms]⟩ := by
  rw [after, Line.of, membersOf?_eq_some_iff.2 h]
  simp only [herror, if_true]
  rfl

/-! ## Texts after one another -/

/-- **A line end cuts an output in two.** -/
lemma ofText_append {e : Char} (he : isLineEnd e = true) (cs rest : List Char) :
    ofText (String.ofList (cs ++ e :: rest)) =
      (ofText (String.ofList cs)).followedBy (ofText (String.ofList rest)) := by
  simp only [ofText_ofList]
  rw [Text.foldl_lines_append after_nil he, foldl_after_eq_followedBy]

/-- Line ends at the beginning of an output end nothing. -/
lemma ofText_ends {ends : List Char} (hends : ∀ c ∈ ends, isLineEnd c = true) (rest : List Char) :
    ofText (String.ofList (ends ++ rest)) = ofText (String.ofList rest) := by
  induction ends with
  | nil => rfl
  | cons e ends ih =>
      obtain ⟨he, hends⟩ := List.forall_mem_cons.1 hends
      exact (ofText_append he [] _).trans ((empty_followedBy _).trans (ih hends))

/-- What is before a line is scanned on its own. -/
lemma ofText_before {before : List Char} (h : ∀ c ∈ before.getLast?, isLineEnd c = true)
    (rest : List Char) : ofText (String.ofList (before ++ rest)) =
      (ofText (String.ofList before)).followedBy (ofText (String.ofList rest)) := by
  rcases List.eq_nil_or_concat' before with rfl | ⟨start, e, rfl⟩
  · exact (empty_followedBy _).symm
  · have he := h e List.getLast?_concat
    -- The line end that is left at the end of the first text ends a line there as well.
    have hstart : ofText (String.ofList (start ++ [e])) = ofText (String.ofList start) :=
      (ofText_append he start []).trans (followedBy_empty _)
    rw [List.append_assoc, List.singleton_append, ofText_append he, hstart]

/-- A line and what is after it. -/
lemma ofText_line (hline : Unbroken line) {rest : List Char}
    (h : ∀ c ∈ rest.head?, isLineEnd c = true) : ofText (String.ofList (line ++ rest)) =
      (empty.after line).followedBy (ofText (String.ofList rest)) := by
  have hone : ofText (String.ofList line) = empty.after line := by
    rw [ofText_ofList]
    by_cases hne : line = []
    · rw [hne, after_nil]
      rfl
    · rw [Text.lines_of_unbroken hline hne, List.foldl_cons, List.foldl_nil]
  cases rest with
  | nil =>
      rw [List.append_nil, hone]
      exact (followedBy_empty _).symm
  | cons e rest =>
      have he := h e rfl
      have hend := ofText_ends (List.forall_mem_singleton.2 he) rest
      rw [ofText_append he, hone, ← hend, List.singleton_append]

/-- **A scan at one of its lines:** of what is before the line, of the line, and of what is after
it. -/
lemma ofText_standsAs {cs before rest : List Char} (h : StandsAs cs before line rest) :
    ofText (String.ofList cs) = (ofText (String.ofList before)).followedBy
      ((empty.after line).followedBy (ofText (String.ofList rest))) := by
  rw [h.eq, ofText_before h.before, ofText_line h.unbroken h.after]

/-- **Scanning composes.**  Two texts with a line feed between them have the messages of both, one
after the other, and the document of the second, or that of the first if the second has none.  A
line that holds no object may be left out, and with it any line ends that follow.  A line that
holds an error is one message, after those of the lines before it, and never a document.  Every
line of an output stands in it in this way. -/
theorem ofText_composition :
    (∀ a b : String, ofText (a ++ "\n" ++ b) = (ofText a).followedBy (ofText b)) ∧
    (∀ cs line, line ∈ lines cs → ∃ before rest, StandsAs cs before line rest) ∧
    ∀ cs before line rest, StandsAs cs before line rest →
      ((∀ ms, ¬Holds line ms) → ∀ ends others, rest = ends ++ others →
        (∀ c ∈ ends, isLineEnd c = true) →
        ofText (String.ofList cs) = ofText (String.ofList (before ++ others))) ∧
      ∀ ms, Holds line ms → isError ms = true →
        ofText (String.ofList cs) =
          ⟨(ofText (String.ofList rest)).document.or (ofText (String.ofList before)).document,
            (ofText (String.ofList before)).messages ++
              errorText ms :: (ofText (String.ofList rest)).messages⟩ := by
  refine ⟨fun a b => ?_, fun cs line => Text.exists_of_mem_lines,
    fun cs before line rest h => ⟨?_, fun ms hms herror => ?_⟩⟩
  · have htext : a ++ "\n" ++ b = String.ofList (a.toList ++ '\n' :: b.toList) := by
      rw [← String.toList_inj]
      simp
    have hcut := ofText_append (e := '\n') rfl a.toList b.toList
    rwa [← htext, String.ofList_toList, String.ofList_toList] at hcut
  · rintro hnone ends others rfl hends
    rw [ofText_standsAs h, after_of_not_holds hnone, empty_followedBy, ofText_ends hends,
      ofText_before h.before]
  · rw [ofText_standsAs h, after_of_isError hms herror]
    simp [followedBy, empty]

/-- An error that looks like a document too. -/
def sampleError : List (String × Value) :=
  [("type", .text "error"), ("message", .text "m"), ("version", .int 1), ("workspace", .object [])]

lemma holds_sampleError : Holds (Value.object sampleError).compact sampleError := by
  refine membersOf?_eq_some_iff.1 ?_
  rw [membersOf?_of_isText (Value.isText_compact (v := .object sampleError) rfl rfl)]
  exact if_pos (by decide)

/-- An error between a truncated object, which counts for nothing, and a document. -/
theorem ofText_composition_sample :
    (StandsAs ("\x7b\r\n".toList ++ (Value.object sampleError).compact) [] "\x7b".toList
        ("\r\n".toList ++ (Value.object sampleError).compact) ∧
      (∀ ms, ¬Holds "\x7b".toList ms) ∧
      ofText (String.ofList ("\x7b\r\n".toList ++ (Value.object sampleError).compact)) =
        ofText (String.ofList (Value.object sampleError).compact)) ∧
    StandsAs (Value.object sampleError).compact [] (Value.object sampleError).compact [] ∧
      Holds (Value.object sampleError).compact sampleError ∧ isError sampleError = true ∧
      ofText (String.ofList (Value.object sampleError).compact) = ⟨none, ["m"]⟩ := by
  have htruncated : StandsAs ("\x7b\r\n".toList ++ (Value.object sampleError).compact) []
      "\x7b".toList ("\r\n".toList ++ (Value.object sampleError).compact) :=
    ⟨rfl, by simp, by rintro _ ⟨⟩; rfl, by decide⟩
  have hnone : ∀ ms, ¬Holds "\x7b".toList ms := by
    intro ms hms
    have hmembers : membersOf? "\x7b".toList = none := by cbv
    rw [membersOf?_eq_some_iff.2 hms] at hmembers
    cases hmembers
  have herror : StandsAs (Value.object sampleError).compact [] (Value.object sampleError).compact
      [] := ⟨by simp, by simp, by simp, by decide⟩
  have hends : ∀ c ∈ "\r\n".toList, isLineEnd c = true := List.all_eq_true.1 rfl
  refine ⟨⟨htruncated, hnone, ?_⟩, herror, holds_sampleError, rfl, ?_⟩
  · exact (ofText_composition.2.2 _ _ _ _ htruncated).1 hnone "\r\n".toList _ rfl hends
  · exact (ofText_composition.2.2 _ _ _ _ herror).2 sampleError holds_sampleError rfl

/-! ## An error that is too long -/

/-- An error with a number. -/
def numbered (n : Nat) : List (String × Value) :=
  [("type", .text "error"), ("message", .text "m"), ("n", .int n)]

/-- The text of an error with a number. -/
def numberedLine (n : Nat) : List Char := (Value.object (numbered n)).compact

lemma isText_numberedLine (n : Nat) :
    IsText (.object (numbered n)) (Nat.toDigits 10 n).length (numberedLine n) := by
  have hwidth : (Value.object (numbered n)).width = (Nat.toDigits 10 n).length := by
    simp [numbered, Value.width, Value.widthOfMembers, Json.intChars]
  exact hwidth ▸ Value.isText_compact rfl rfl

lemma unbroken_numberedLine (n : Nat) : Unbroken (numberedLine n) := by
  have hline : numberedLine n =
      '\x7b' :: (Json.stringChars "type" ++ ':' :: (Json.stringChars "error" ++ ',' ::
        (Json.stringChars "message" ++ ':' :: (Json.stringChars "m" ++ ',' ::
          (Json.stringChars "n" ++ [':']))))) ++ (Nat.toDigits 10 n ++ ['\x7d']) := by
    simp [numberedLine, numbered, Value.compact, Json.compactMembers, Json.intChars]
  have hdigits : Unbroken (Nat.toDigits 10 n) := by
    intro c hc
    have hdigit := (Json.areDigits_toDigits n).2 c hc
    rw [← Bool.not_eq_true]
    intro hend
    rcases Json.Bare.lineEnd (.inr (.inl hdigit)) hend with rfl | rfl <;> cases hdigit
  rw [hline]
  exact .append (by decide) (.append hdigits (by decide))

/-- **An error with an integer of too many digits** is none: its line is a text of an object of
type `error` and contributes nothing. -/
theorem ofText_numbered :
    Unbroken (numberedLine (10 ^ longestWhole)) ∧
      IsText (.object (numbered (10 ^ longestWhole))) (Nat.toDigits 10 (10 ^ longestWhole)).length
        (numberedLine (10 ^ longestWhole)) ∧
      isError (numbered (10 ^ longestWhole)) = true ∧
      ofText (String.ofList (numberedLine (10 ^ longestWhole))) = empty := by
  have htext := isText_numberedLine (10 ^ longestWhole)
  have hunbroken := unbroken_numberedLine (10 ^ longestWhole)
  have hlong : ¬(Nat.toDigits 10 (10 ^ longestWhole)).length ≤ longestWhole := by
    rw [Nat.length_toDigits_le_iff (by decide) (by decide)]
    exact Nat.lt_irrefl _
  have hnone : ∀ ms, ¬Holds (numberedLine (10 ^ longestWhole)) ms := by
    intro ms hms
    have hmembers := membersOf?_of_isText htext
    rw [membersOf?_eq_some_iff.2 hms, if_neg hlong] at hmembers
    cases hmembers
  refine ⟨hunbroken, htext, rfl, ?_⟩
  have hend : ∀ c ∈ ([] : List Char).head?, isLineEnd c = true := by simp
  have hline := ofText_line hunbroken hend
  rw [List.append_nil, after_of_not_holds hnone] at hline
  exact hline

end Scan

end ScarbCrates
