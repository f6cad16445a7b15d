import ScarbCrates.Proofs.Json.Writing

/-!
# The drafts of written texts

A written text, on one line or indented, is read exactly: its draft holds the members of every
object as they stand in the value, in their order, each once.  What two members of one name would
do to a typed reader is no question then, other than in texts from elsewhere.

* `Value.draft` — the draft of a value.
* `Layout`, `Value.laid` — texts that differ in white space only.
* `Value.ofText_render` — reading a written text.
-/

namespace ScarbCrates

namespace Json

open Text (ofChars)

/-! ## The draft of a value -/

mutual

/-- The draft of a value, without any fault. -/
def Value.draft : Value → Draft
  | .null => .null
  | .bool b => .bool b
  | .int i => .int i
  | .float x => .float x
  | .text s => .text s
  | .array items => .array (draftItems items) none
  | .object members => .object (draftMembers members) none

/-- The drafts of some items. -/
def draftItems : List Value → List Draft
  | [] => []
  | v :: rest => v.draft :: draftItems rest

/-- The drafts of some members. -/
def draftMembers : List (String × Value) → List (DraftName × Draft)
  | [] => []
  | (name, v) :: rest => (.ok name, v.draft) :: draftMembers rest

end

lemma draftMembers_eq (ms : List (String × Value)) :
    draftMembers ms = ms.map fun m => (.ok m.1, m.2.draft) := by
  induction ms with
  | nil => rfl
  | cons m rest ih =>
      obtain ⟨name, v⟩ := m
      rw [draftMembers, ih, List.map_cons]

namespace Value

/-- A value without parts. -/
def IsScalar : Value → Prop
  | .array _ => False
  | .object _ => False
  | _ => True

/-- The draft of a value without parts is the only one that has this value. -/
lemma IsScalar.eq_draft {v : Value} (hv : v.IsScalar) {d : Draft} {p : Place}
    (h : d.value p = .ok v) : d = v.draft := by
  cases d with
  | null | bool | int | float | text =>
      rw [Draft.value, Except.ok.injEq] at h
      subst h
      rfl
  | tooLarge | garbled | broken =>
      rw [Draft.value] at h
      cases h
  | array items stop =>
      obtain ⟨-, vs, -, rfl⟩ := value_array_iff.1 h
      exact hv.elim
  | object members stop =>
      obtain ⟨-, ms, -, rfl⟩ := value_object_iff.1 h
      exact hv.elim

end Value

/-! ## White space between the parts -/

/-- The white space of a written text: what stands before an item, a member or a closing bracket
that is some levels deep, and what stands after a colon. -/
structure Layout where
  line : Nat → List Char
  gap : List Char
  line_blank : ∀ depth, IsBlank (line depth)
  gap_blank : IsBlank gap

namespace Layout

/-- No white space at all. -/
def compact : Layout := ⟨fun _ => [], [], fun _ => isBlank_nil, isBlank_nil⟩

@[simp]
lemma line_compact (depth : Nat) : compact.line depth = [] := rfl

@[simp]
lemma gap_compact : compact.gap = [] := rfl

lemma newLine_blank (depth : Nat) : IsBlank (newLine depth) := by
  intro c hc
  rcases List.mem_cons.1 hc with rfl | hc
  · rfl
  · rw [List.eq_of_mem_replicate hc]
    rfl

/-- A line for each part, and a space after a colon. -/
def indented : Layout := ⟨newLine, [' '], newLine_blank, List.forall_mem_singleton.2 rfl⟩

@[simp]
lemma line_indented (depth : Nat) : indented.line depth = newLine depth := rfl

@[simp]
lemma gap_indented : indented.gap = [' '] := rfl

end Layout

mutual

/-- The text of a value that stands `depth` levels deep, with some layout. -/
def Value.laid (l : Layout) (depth : Nat) : Value → List Char
  | .array [] => ['[', ']']
  | .array (v :: rest) =>
    '[' :: l.line (depth + 1) ++ v.laid l (depth + 1) ++ laidItems l (depth + 1) rest
      ++ l.line depth ++ [']']
  | .object [] => ['\x7b', '\x7d']
  | .object ((name, v) :: rest) =>
    '\x7b' :: l.line (depth + 1) ++ stringChars name ++ ':' :: l.gap ++ v.laid l (depth + 1)
      ++ laidMembers l (depth + 1) rest ++ l.line depth ++ ['\x7d']
  | v => v.compact

/-- The items after the first. -/
def laidItems (l : Layout) (depth : Nat) : List Value → List Char
  | [] => []
  | v :: rest => ',' :: l.line depth ++ v.laid l depth ++ laidItems l depth rest

/-- The members after the first. -/
def laidMembers (l : Layout) (depth : Nat) : List (String × Value) → List Char
  | [] => []
  | (name, v) :: rest =>
    ',' :: l.line depth ++ stringChars name ++ ':' :: l.gap ++ v.laid l depth
      ++ laidMembers l depth rest

end

mutual

/-- The compact text has no white space. -/
lemma Value.laid_compact (depth : Nat) : ∀ v : Value, v.laid .compact depth = v.compact
  | .null | .bool true | .bool false | .int _ | .float _ | .text _ | .array [] | .object [] => rfl
  | .array (v :: rest) => by
      simp [Value.laid, Value.compact, Value.laid_compact (depth + 1) v,
        laidItems_compact (depth + 1) rest]
  | .object ((name, v) :: rest) => by
      simp [Value.laid, Value.compact, Value.laid_compact (depth + 1) v,
        laidMembers_compact (depth + 1) rest]

/-- The same for the items after the first. -/
lemma laidItems_compact (depth : Nat) :
    ∀ vs : List Value, laidItems .compact depth vs = compactItems vs
  | [] => rfl
  | v :: rest => by
      simp [laidItems, compactItems, Value.laid_compact depth v, laidItems_compact depth rest]

/-- The same for the members after the first. -/
lemma laidMembers_compact (depth : Nat) :
    ∀ ms : List (String × Value), laidMembers .compact depth ms = compactMembers ms
  | [] => rfl
  | (name, v) :: rest => by
      simp [laidMembers, compactMembers, Value.laid_compact depth v,
        laidMembers_compact depth rest]

end

mutual

/-- The indented text has a line for each part. -/
lemma Value.laid_indented : ∀ (v : Value) (depth : Nat),
    v.laid .indented depth = v.indented depth
  | .null, _ | .bool true, _ | .bool false, _ | .int _, _ | .float _, _ | .text _, _
  | .array [], _ | .object [], _ => rfl
  | .array (v :: rest), depth => by
      simp [Value.laid, Value.indented, Value.laid_indented v (depth + 1),
        laidItems_indented rest (depth + 1)]
  | .object ((name, v) :: rest), depth => by
      simp [Value.laid, Value.indented, Value.laid_indented v (depth + 1),
        laidMembers_indented rest (depth + 1)]

/-- The same for the items after the first. -/
lemma laidItems_indented : ∀ (vs : List Value) (depth : Nat),
    laidItems .indented depth vs = indentedItems depth vs
  | [], _ => rfl
  | v :: rest, depth => by
      simp [laidItems, indentedItems, Value.laid_indented v depth, laidItems_indented rest depth]

/-- The same for the members after the first. -/
lemma laidMembers_indented : ∀ (ms : List (String × Value)) (depth : Nat),
    laidMembers .indented depth ms = indentedMembers depth ms
  | [], _ => rfl
  | (name, v) :: rest, depth => by
      simp [laidMembers, indentedMembers, Value.laid_indented v depth,
        laidMembers_indented rest depth]

end

/-! ## Written texts are read -/

section Blanks

variable {P : Draft → Prop} {name : String} {w s rest : List Char} {start : Bool}

lemma ReadsValue.blanks (hw : IsBlank w) (h : ReadsValue P s rest) : ReadsValue P (w ++ s) rest :=
  hw.append (R := (ReadsValue P · rest)) ReadsValue.blank h

lemma ReadsItems.blanks {Q : List Draft → Prop} (hw : IsBlank w)
    (h : ReadsItems start Q s rest) : ReadsItems start Q (w ++ s) rest :=
  hw.append (R := (ReadsItems start Q · rest)) ReadsItems.blank h

lemma ReadsMembers.blanks {M : List (DraftName × Draft) → Prop} (hw : IsBlank w)
    (h : ReadsMembers start M s rest) : ReadsMembers start M (w ++ s) rest :=
  hw.append (R := (ReadsMembers start M · rest)) ReadsMembers.blank h

lemma ReadsMember.blanks (hw : IsBlank w) (h : ReadsMember name P s rest) :
    ReadsMember name P (w ++ s) rest :=
  hw.append (R := (ReadsMember name P · rest)) ReadsMember.blank h

end Blanks

/-- A value without parts is read as its draft. -/
lemma Value.IsScalar.reads {v : Value} (hv : v.IsScalar) (hfloat : v.floatFree = true)
    (hwidth : v.width ≤ longestWhole) (rest : List Char) :
    ReadsValue (· = v.draft) (v.compact ++ rest) rest := by
  intro hrest fuel o hle
  have hdistinct : v.distinct = true := by
    cases v with
    | array | object => exact hv.elim
    | _ => rfl
  obtain ⟨d, o', hread, hd⟩ :=
    (Value.spells_compact v rest hfloat hdistinct).readAs hrest fuel o hle
  exact ⟨d, o', hread, hv.eq_draft ((hd [] v).2 ⟨hwidth, rfl⟩)⟩

lemma length_pos_intChars (i : Int) : 0 < (intChars i).length := by
  cases i with
  | ofNat n => exact Nat.length_toDigits_pos
  | negSucc n => exact Nat.succ_pos _

section Laid

variable (l : Layout)

/-- No value has an empty text. -/
lemma Value.length_pos_laid (depth : Nat) :
    ∀ {v : Value}, v.floatFree = true → 0 < (v.laid l depth).length
  | .null, _ | .bool true, _ | .bool false, _ | .text _, _ => Nat.succ_pos _
  | .array [], _ | .object [], _ => Nat.succ_pos _
  | .array (_ :: _), _ | .object (_ :: _), _ => by simp [Value.laid]
  | .int i, _ => length_pos_intChars i
  | .float x, hfloat => by simp [Value.floatFree] at hfloat

/-- What stands in front of a rest is shorter without a value in between. -/
lemma length_lt_laid (depth : Nat) {v : Value} (hfloat : v.floatFree = true) (w s : List Char) :
    s.length < (w ++ (v.laid l depth ++ s)).length := by
  have hpos := Value.length_pos_laid l depth hfloat
  rw [List.length_append, List.length_append]
  omega

lemma endsNumber_line (depth : Nat) {c : Char} (hc : c ∈ [',', ']', '\x7d']) (s : List Char) :
    EndsNumber (l.line depth ++ c :: s) :=
  (l.line_blank depth).append (fun hc _ => endsNumber_of_isSpace hc _) (endsNumber_of_mem hc s)

lemma endsNumber_laidItems (depth : Nat) (rest : List Char) (vs : List Value) :
    EndsNumber (laidItems l (depth + 1) vs ++ (l.line depth ++ ']' :: rest)) := by
  cases vs with
  | nil => exact endsNumber_line l depth (by decide) rest
  | cons v vs => exact endsNumber_of_mem (by decide) _

lemma endsNumber_laidMembers (depth : Nat) (rest : List Char) (ms : List (String × Value)) :
    EndsNumber (laidMembers l (depth + 1) ms ++ (l.line depth ++ '\x7d' :: rest)) := by
  cases ms with
  | nil => exact endsNumber_line l depth (by decide) rest
  | cons m ms => exact endsNumber_of_mem (by decide) _

/-- A name, a colon and a value on a line. -/
lemma readsMember_laid (depth : Nat) (name : String) {P : Draft → Prop} {s rest : List Char}
    (h : ReadsValue P s rest) :
    ReadsMember name P (l.line depth ++ (stringChars name ++ ':' :: (l.gap ++ s))) rest := by
  have hletters := letters_flatMap_escaped name.toList (':' :: (l.gap ++ s))
  have hmember := ReadsColon.member hletters (ReadsValue.colon (h.blanks l.gap_blank))
  rw [String.ofList_toList] at hmember
  refine ReadsMember.blanks (l.line_blank depth) ?_
  simpa [stringChars] using hmember

mutual

/-- **The text of a value is read as its draft,** with any layout. -/
theorem Value.reads_laid : ∀ (v : Value) (depth : Nat) (rest : List Char),
    v.floatFree = true → v.width ≤ longestWhole →
      ReadsValue (· = v.draft) (v.laid l depth ++ rest) rest
  | .null, _, rest, hfloat, hwidth => Value.IsScalar.reads (v := .null) trivial hfloat hwidth rest
  | .bool b, _, rest, hfloat, hwidth =>
    Value.IsScalar.reads (v := .bool b) trivial hfloat hwidth rest
  | .int i, _, rest, hfloat, hwidth =>
    Value.IsScalar.reads (v := .int i) trivial hfloat hwidth rest
  | .float x, _, rest, hfloat, hwidth =>
    Value.IsScalar.reads (v := .float x) trivial hfloat hwidth rest
  | .text s, _, rest, hfloat, hwidth =>
    Value.IsScalar.reads (v := .text s) trivial hfloat hwidth rest
  | .array [], _, rest, _, _ =>
    ReadsItems.array (Q := (· = [])) (ReadsItems.end true rest rfl) (congrArg (Draft.array · none))
  | .array (v :: vs), depth, rest, hfloat, hwidth => by
      simp only [Value.floatFree, Value.floatFreeItems, Bool.and_eq_true] at hfloat
      simp only [Value.width, Value.widthOfItems, Nat.max_le] at hwidth
      have hvalue := Value.reads_laid v (depth + 1)
        (laidItems l (depth + 1) vs ++ (l.line depth ++ ']' :: rest)) hfloat.1 hwidth.1
      have hitems := readsItems_laid vs depth rest hfloat.2 hwidth.2
      have hfirst : ReadsItems true (· = draftItems (v :: vs)) _ rest :=
        ReadsItems.first (hvalue.blanks (l.line_blank (depth + 1))) hitems
          (endsNumber_laidItems l depth rest vs) (length_lt_laid l (depth + 1) hfloat.1 _ _)
          (congrArg₂ List.cons)
      have harray : ReadsValue (· = (Value.array (v :: vs)).draft) _ rest :=
        hfirst.array (congrArg (Draft.array · none))
      simpa [Value.laid] using harray
  | .object [], _, rest, _, _ =>
    ReadsMembers.object (M := (· = [])) (ReadsMembers.end true rest rfl)
      (congrArg (Draft.object · none))
  | .object ((name, v) :: ms), depth, rest, hfloat, hwidth => by
      simp only [Value.floatFree, Value.floatFreeMembers, Bool.and_eq_true] at hfloat
      simp only [Value.width, Value.widthOfMembers, Nat.max_le] at hwidth
      have hvalue := Value.reads_laid v (depth + 1)
        (laidMembers l (depth + 1) ms ++ (l.line depth ++ '\x7d' :: rest)) hfloat.1 hwidth.1
      have hmembers := readsMembers_laid ms depth rest hfloat.2 hwidth.2
      have hlt := length_lt_laid l (depth + 1) hfloat.1
        (l.line (depth + 1) ++ (stringChars name ++ ':' :: l.gap))
        (laidMembers l (depth + 1) ms ++ (l.line depth ++ '\x7d' :: rest))
      have hfirst : ReadsMembers true (· = draftMembers ((name, v) :: ms)) _ rest :=
        ReadsMembers.first (readsMember_laid l (depth + 1) name hvalue) hmembers
          (endsNumber_laidMembers l depth rest ms) (by simpa using hlt)
          (fun hd hds => by rw [hd, hds, draftMembers])
      have hobject : ReadsValue (· = (Value.object ((name, v) :: ms)).draft) _ rest :=
        hfirst.object (congrArg (Draft.object · none))
      simpa [Value.laid] using hobject

/-- The items after the first, and the bracket after them. -/
theorem readsItems_laid : ∀ (vs : List Value) (depth : Nat) (rest : List Char),
    Value.floatFreeItems vs = true → Value.widthOfItems vs ≤ longestWhole →
      ReadsItems false (· = draftItems vs)
        (laidItems l (depth + 1) vs ++ (l.line depth ++ ']' :: rest)) rest
  | [], depth, rest, _, _ => by
      rw [laidItems, List.nil_append]
      exact ReadsItems.blanks (l.line_blank depth) (ReadsItems.end false rest rfl)
  | v :: vs, depth, rest, hfloat, hwidth => by
      simp only [Value.floatFreeItems, Bool.and_eq_true] at hfloat
      simp only [Value.widthOfItems, Nat.max_le] at hwidth
      have hvalue := Value.reads_laid v (depth + 1)
        (laidItems l (depth + 1) vs ++ (l.line depth ++ ']' :: rest)) hfloat.1 hwidth.1
      have hitems := readsItems_laid vs depth rest hfloat.2 hwidth.2
      have hnext : ReadsItems false (· = draftItems (v :: vs)) _ rest :=
        ReadsItems.next (hvalue.blanks (l.line_blank (depth + 1))) hitems
          (endsNumber_laidItems l depth rest vs) (length_lt_laid l (depth + 1) hfloat.1 _ _)
          (congrArg₂ List.cons)
      simpa [laidItems] using hnext

/-- The members after the first, and the brace after them. -/
theorem readsMembers_laid : ∀ (ms : List (String × Value)) (depth : Nat) (rest : List Char),
    Value.floatFreeMembers ms = true → Value.widthOfMembers ms ≤ longestWhole →
      ReadsMembers false (· = draftMembers ms)
        (laidMembers l (depth + 1) ms ++ (l.line depth ++ '\x7d' :: rest)) rest
  | [], depth, rest, _, _ => by
      rw [laidMembers, List.nil_append]
      exact ReadsMembers.blanks (l.line_blank depth) (ReadsMembers.end false rest rfl)
  | (name, v) :: ms, depth, rest, hfloat, hwidth => by
      simp only [Value.floatFreeMembers, Bool.and_eq_true] at hfloat
      simp only [Value.widthOfMembers, Nat.max_le] at hwidth
      have hvalue := Value.reads_laid v (depth + 1)
        (laidMembers l (depth + 1) ms ++ (l.line depth ++ '\x7d' :: rest)) hfloat.1 hwidth.1
      have hmembers := readsMembers_laid ms depth rest hfloat.2 hwidth.2
      have hlt := length_lt_laid l (depth + 1) hfloat.1
        (l.line (depth + 1) ++ (stringChars name ++ ':' :: l.gap))
        (laidMembers l (depth + 1) ms ++ (l.line depth ++ '\x7d' :: rest))
      have hnext : ReadsMembers false (· = draftMembers ((name, v) :: ms)) _ rest :=
        ReadsMembers.next (readsMember_laid l (depth + 1) name hvalue) hmembers
          (endsNumber_laidMembers l depth rest ms) (by simpa using hlt)
          (fun hd hds => by rw [hd, hds, draftMembers])
      simpa [laidMembers] using hnext

end

end Laid

/-- **A written text is read as the draft of its value,** and nothing is left over; white space
may follow. -/
theorem Value.ofText_render {v : Value} (hfloat : v.floatFree = true)
    (hwidth : v.width ≤ longestWhole) (pretty : Bool) {w : List Char} (hw : IsBlank w) :
    Document.ofText (ofChars ((v.render pretty).toList ++ w)) = ⟨v.draft, none⟩ := by
  have hlaid : ∃ l : Layout, (v.render pretty).toList = v.laid l 0 := by
    cases pretty with
    | false => exact ⟨.compact, by simp [Value.render, Value.laid_compact]⟩
    | true => exact ⟨.indented, by simp [Value.render, Value.laid_indented]⟩
  obtain ⟨l, hl⟩ := hlaid
  obtain ⟨hroot, htrailing⟩ := (Value.reads_laid l v 0 w hfloat hwidth).ofText hw
  rw [hl]
  exact congrArg₂ Document.mk hroot htrailing

end Json

end ScarbCrates
