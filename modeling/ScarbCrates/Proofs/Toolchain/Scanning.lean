import ScarbCrates.Proofs.Json.Writing
import ScarbCrates.Proofs.Text.Lines
import ScarbCrates.Proofs.Text.Trimming
import ScarbCrates.Toolchain.Output

/-!
# Documents in an output

Where an output holds a metadata document on a line of its own, and whether a scan comes back with
it.  The line is what stands between line feeds; the scan cuts at other characters as well, and in
JSON these may stand inside of strings.

* `isPlain_of_broken` — the pieces of a document that is cut are no documents.
* `document_ofText` — the document of an output.
-/

namespace ScarbCrates

/-! ## Blank letters -/

namespace Text

lemma isBlank_of_isSpace {c : Char} (h : Json.isSpace c = true) : isBlank c = true := by
  simp only [Json.isSpace, Bool.or_eq_true, decide_eq_true_eq] at h
  rcases h with ((rfl | rfl) | rfl) | rfl <;> rfl

lemma ne_of_isBlank {c d : Char} (hc : isBlank c = true) (hd : isBlank d = false) : c ≠ d := by
  rintro rfl
  exact Bool.false_ne_true (hd.symm.trans hc)

/-- Blank letters are neither quotes nor backslashes. -/
lemma plain_of_isBlank {w : List Char} (hw : ∀ c ∈ w, isBlank c = true) :
    ∀ c ∈ w, c ≠ '"' ∧ c ≠ '\\' := fun c hc =>
  ⟨ne_of_isBlank (hw c hc) rfl, ne_of_isBlank (hw c hc) rfl⟩

end Text

namespace Scan

open Json (IsText Value longestWhole)
open Json.Quoting (outside inside)

/-! ## Lines -/

variable {line t : List Char} {ms : List (String × Value)} {n : Nat}

/-- A line that is no text of an object with a version and a workspace. -/
def IsPlain (line : List Char) : Prop :=
  ∀ ms n, IsText (.object ms) n (Text.trimmed line) → isDocument ms = false

/-- The members that a line holds are those of an object. -/
lemma isText_of_membersOf? (h : membersOf? line = some ms) :
    ∃ n ≤ longestWhole, IsText (.object ms) n (Text.trimmed line) := by
  unfold membersOf? at h
  simp only at h
  split_ifs at h
  split at h
  · rename_i hvalue htrailing
    obtain rfl := Option.some.inj h
    exact Json.isText_of_ofText hvalue htrailing
  · cases h

/-- **The members of an object's text,** unless an integer in it is too long. -/
lemma membersOf?_of_isText (h : IsText (.object ms) n line) :
    membersOf? line = if n ≤ longestWhole then some ms else none := by
  obtain ⟨w, u, w', rfl, hw, hw', htext⟩ := h.braces
  have htrimmed : Text.trimmed (w ++ '\x7b' :: (u ++ '\x7d' :: w')) = '\x7b' :: (u ++ ['\x7d']) := by
    have hsplit : '\x7b' :: (u ++ '\x7d' :: w') = ('\x7b' :: (u ++ ['\x7d'])) ++ w' := by simp
    rw [hsplit]
    refine Text.trimmed_eq (fun c hc => Text.isBlank_of_isSpace (hw c hc))
      (fun c hc => Text.isBlank_of_isSpace (hw' c hc)) (fun c hc => ?_) fun c hc => ?_
    · obtain rfl := Option.some.inj hc
      rfl
    · rw [← List.cons_append, List.getLast?_concat] at hc
      obtain rfl := Option.some.inj hc
      rfl
  obtain ⟨hholds, htrailing⟩ := htext.ofText
  have hbrace : ¬('\x7b' :: (u ++ ['\x7d'])).head? ≠ some '\x7b' := not_not_intro rfl
  unfold membersOf?
  simp only [htrimmed, if_neg hbrace, htrailing]
  by_cases hn : n ≤ longestWhole
  · rw [if_pos hn, (hholds [] _).2 ⟨hn, rfl⟩]
  · rw [if_neg hn]
    split
    · rename_i hvalue _
      exact absurd ((hholds [] _).1 hvalue).1 hn
    · rfl

/-- A scan after one more line. -/
def after (s : Scan) (line : List Char) : Scan := s.add (Line.of line)

lemma after_nil (s : Scan) : s.after [] = s := rfl

lemma ofText_ofList (cs : List Char) :
    ofText (String.ofList cs) = (Text.lines cs).foldl after empty := by
  rw [ofText, String.toList_ofList]
  rfl

/-- A plain line changes no document. -/
lemma IsPlain.document_after (h : IsPlain line) (s : Scan) :
    (s.after line).document = s.document := by
  rw [after, Line.of]
  split
  · rfl
  · rename_i ms hms
    obtain ⟨n, -, htext⟩ := isText_of_membersOf? hms
    split_ifs with herror hdocument
    · rfl
    · exact absurd hdocument (by rw [h ms n htext]; exact Bool.false_ne_true)
    · rfl

lemma document_foldl {lines : List (List Char)} (h : ∀ line ∈ lines, IsPlain line) (s : Scan) :
    (lines.foldl after s).document = s.document := by
  induction lines generalizing s with
  | nil => rfl
  | cons line lines ih =>
      obtain ⟨hline, hlines⟩ := List.forall_mem_cons.1 h
      exact (ih hlines _).trans (hline.document_after s)

/-- The document on a line. -/
lemma document_after_of_isText (h : IsText (.object ms) n line) (hdocument : isDocument ms = true)
    (herror : isError ms = false) (s : Scan) :
    (s.after line).document = if n ≤ longestWhole then some (.object ms) else s.document := by
  rw [after, Line.of, membersOf?_of_isText h]
  by_cases hn : n ≤ longestWhole
  · rw [if_pos hn, if_pos hn]
    simp only [herror, hdocument, Bool.false_eq_true, if_false, if_true]
    rfl
  · rw [if_neg hn, if_neg hn]
    rfl

/-! ## Documents that are cut -/

/-- **A piece that begins inside of a string** is plain. -/
lemma isPlain_of_inside {q : Json.Quoting} (h : Json.Quoting.Leads inside line q) : IsPlain line := by
  intro ms n htext
  obtain ⟨w, w', hline, hw, -⟩ := Text.exists_trimmed line
  rw [hline] at h
  obtain ⟨q₁, hfirst, hrest⟩ := h.split
  obtain rfl := hfirst.eq_of_plain (Text.plain_of_isBlank hw) (by rintro ⟨⟩)
  obtain ⟨q₂, hmiddle, -⟩ := hrest.split
  have hversion : Assoc.has ms "version" = false :=
    htext.has_eq_false hmiddle (c := 'v') (by decide) (by rw [Json.Bare]; decide)
  rw [isDocument, hversion, Bool.false_and]

/-- **A piece that ends inside of a string,** but begins outside, is plain. -/
lemma isPlain_of_outside (h : Json.Quoting.Leads outside line inside) : IsPlain line := by
  intro ms n htext
  obtain ⟨w, w', hline, hw, hw'⟩ := Text.exists_trimmed line
  rw [hline] at h
  obtain ⟨q₁, hfirst, hrest⟩ := h.split
  obtain rfl := hfirst.eq_of_plain (Text.plain_of_isBlank hw) (by rintro ⟨⟩)
  obtain ⟨q₂, hmiddle, hlast⟩ := hrest.split
  obtain rfl := hmiddle.unique htext.leads
  cases hlast.eq_of_plain (Text.plain_of_isBlank hw') (by rintro ⟨⟩)

/-- **The pieces of a document that is cut** are plain: each of them begins or ends inside of a
string. -/
theorem isPlain_of_broken (h : IsText (.object ms) n t) (hfeed : '\n' ∉ t) (hreturn : '\r' ∉ t)
    (hbroken : ¬Text.Unbroken t) (hline : line ∈ Text.lines t) : IsPlain line := by
  have hinside : ∀ {q : Json.Quoting} {c : Char}, c ∈ t → Text.isLineEnd c = true → q.Admits c →
      q = inside := by
    intro q c hmem hc hq
    refine hq.eq_inside hc fun hbare => ?_
    rcases hbare.lineEnd hc with rfl | rfl
    · exact hfeed hmem
    · exact hreturn hmem
  obtain ⟨before, after, hstands⟩ := Text.exists_of_mem_lines hline
  have hleads := h.leads
  rw [hstands.eq] at hleads
  obtain ⟨q, hbefore, hrest⟩ := hleads.split
  obtain ⟨q', hpiece, hafter⟩ := hrest.split
  rcases List.eq_nil_or_concat' before with rfl | ⟨start, c, rfl⟩
  · cases hbefore
    cases after with
    | nil =>
        have hall : t = line := by rw [hstands.eq, List.nil_append, List.append_nil]
        exact absurd (hall ▸ hstands.unbroken) hbroken
    | cons c after =>
        have hmem : c ∈ t := by
          rw [hstands.eq]
          exact List.mem_append_right _ (List.mem_append_right _ List.mem_cons_self)
        cases hafter with
        | cons hc _ =>
            obtain rfl := hinside hmem (hstands.after c rfl) hc
            exact isPlain_of_outside hpiece
  · have hend : Text.isLineEnd c = true := hstands.before c List.getLast?_concat
    have hmem : c ∈ t := by
      rw [hstands.eq]
      exact List.mem_append_left _ (List.mem_append_right _ List.mem_cons_self)
    obtain ⟨q₁, -, hlast⟩ := hbefore.split
    obtain rfl : q₁ = inside := by
      cases hlast with
      | cons hc _ => exact hinside hmem hend hc
    have hplain : ∀ d ∈ [c], d ≠ '"' ∧ d ≠ '\\' := by
      intro d hd
      obtain rfl := List.mem_singleton.1 hd
      constructor <;> rintro rfl <;> cases hend
    obtain rfl := hlast.eq_of_plain hplain (by rintro ⟨⟩)
    exact isPlain_of_inside hpiece

/-! ## Outputs -/

/-- **The document of an output** in which a text of an object with a version and a workspace is
one line between line feeds, and no piece of a later line is a text of such an object.  If the
line holds no other line ends and no integer that is too long, the object is the document.
Otherwise the line counts for nothing, and the document is that of the lines before it. -/
theorem document_ofText (earlier later : List (List Char)) (h : IsText (.object ms) n t)
    (hfeed : '\n' ∉ t) (hreturn : '\r' ∉ t) (hdocument : isDocument ms = true)
    (herror : isError ms = false)
    (hlater : ∀ line ∈ later, ∀ piece ∈ Text.lines line, IsPlain piece) :
    (ofText (String.ofList (['\n'].intercalate (earlier ++ t :: later)))).document =
      if Text.Unbroken t ∧ n ≤ longestWhole then some (.object ms)
      else (ofText (String.ofList (['\n'].intercalate earlier))).document := by
  have hparts : ∀ parts s, (Text.lines (['\n'].intercalate parts)).foldl Scan.after s =
      (parts.flatMap Text.lines).foldl Scan.after s :=
    fun parts s => Text.foldl_lines_intercalate after_nil parts s
  have hplain : ∀ piece ∈ later.flatMap Text.lines, IsPlain piece := by
    intro piece hpiece
    obtain ⟨line, hline, hpiece⟩ := List.mem_flatMap.1 hpiece
    exact hlater line hline piece hpiece
  rw [ofText_ofList, ofText_ofList, hparts, hparts, List.flatMap_append, List.flatMap_cons,
    List.foldl_append, List.foldl_append, document_foldl hplain]
  by_cases hbroken : Text.Unbroken t
  · have hne : t ≠ [] := by
      obtain ⟨w, u, w', rfl, -⟩ := h.braces
      simp
    rw [Text.lines_of_unbroken hbroken hne, List.foldl_cons, List.foldl_nil,
      document_after_of_isText h hdocument herror]
    exact if_congr (and_iff_right hbroken).symm rfl rfl
  · rw [if_neg fun hboth => hbroken hboth.1]
    exact document_foldl (fun line hline => isPlain_of_broken h hfeed hreturn hbroken hline) _

/-- A document with the root of a workspace. -/
def sampleDocument (root : String) : Value :=
  .object [("version", .int 1), ("workspace", .object [("root", .text root)])]

/-- The document among other lines. -/
def sampleOutput (root : String) : String :=
  String.ofList (['\n'].intercalate
    ["Compiling".toList, (sampleDocument root).compact, "Finished".toList])

/-- A document comes back from among other lines, but not with a line separator in a name. -/
theorem document_ofText_sample :
    (ofText (sampleOutput "/ab")).document = some (sampleDocument "/ab") ∧
      (ofText (sampleOutput "/a\u2028b")).document = none := by
  have hcontrol : ∀ root, ∀ c ∈ (sampleDocument root).compact, 32 ≤ c.toNat := fun root =>
    Value.noControl_compact rfl
  have hplain : ∀ line ∈ ["Finished".toList], ∀ piece ∈ Text.lines line, IsPlain piece := by
    intro line hline piece hpiece ms n htext
    obtain rfl := List.mem_singleton.1 hline
    rw [show Text.lines "Finished".toList = ["Finished".toList] by decide] at hpiece
    obtain rfl := List.mem_singleton.1 hpiece
    cases htext.head? fun c hc => (by cases hc; rfl)
  have hsample := fun root => document_ofText ["Compiling".toList] ["Finished".toList]
    (Value.isText_compact (v := sampleDocument root) rfl rfl)
    (fun h => absurd (hcontrol root _ h) (by decide))
    (fun h => absurd (hcontrol root _ h) (by decide)) rfl rfl hplain
  constructor
  · exact (hsample "/ab").trans (if_pos (by decide))
  · exact (hsample "/a\u2028b").trans (if_neg (by decide))

end Scan

end ScarbCrates
