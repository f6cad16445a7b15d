import ScarbCrates.Text.Classes

/-!
# Reports of validation errors

A message about data that does not fit ends in the place of the misfit: `… - at `` `$.a` ``.  A
report takes the two apart.

* `Report.ofMessage` — the summary and the place of a message.
-/

namespace ScarbCrates

/-- A message taken apart: what is wrong, unless that is empty, and where, if it says so. -/
structure Report where
  summary : Option String
  place : Option String
deriving DecidableEq, Repr

namespace Report

/-- The quotation mark around places. -/
def mark : Char := Char.ofNat 0x60

/-- What follows white space, of which there must be some. -/
def afterBlanks? (cs : List Char) : Option (List Char) :=
  match cs with
  | [] => none
  | c :: rest => if Text.isBlank c then some (rest.dropWhile Text.isBlank) else none

/-- What follows a given beginning. -/
def after? : List Char → List Char → Option (List Char)
  | [], cs => some cs
  | _ :: _, [] => none
  | p :: ps, c :: cs => if p = c then after? ps cs else none

/-- The place between marks, when nothing follows the second and there is something between. -/
def markedPlace? (cs : List Char) : Option (List Char) :=
  match cs with
  | [] => none
  | c :: rest =>
    let place := rest.takeWhile (· ≠ mark)
    if c = mark ∧ place ≠ [] ∧ rest.dropWhile (· ≠ mark) = [mark] then some place else none

/-- The place that a text of the form ` - at ` and a place in marks names, with any white space
in place of the blanks. -/
def suffixPlace? (cs : List Char) : Option (List Char) := do
  let cs ← afterBlanks? cs
  let cs ← after? ['-'] cs
  let cs ← afterBlanks? cs
  let cs ← after? ['a', 't'] cs
  let cs ← afterBlanks? cs
  markedPlace? cs

/-- A summary on one line and what follows it: nothing, or a place.  The shortest summary counts;
`none` means that a line ends before any such point. -/
def cut : List Char → Option (List Char × Option (List Char))
  | [] => some ([], none)
  | c :: rest =>
    match suffixPlace? (c :: rest) with
    | some place => some ([], some place)
    | none =>
      if c = '\n' then none
      else (cut rest).map fun r => (c :: r.1, r.2)

/-- A text that is there only when it is not empty. -/
def nonEmpty? (cs : List Char) : Option String := if cs.isEmpty then none else some (String.ofList cs)

/-- **The report of a message.**  A message of several lines that does not end in a place is a
summary as a whole. -/
def ofMessage (message : String) : Report :=
  let cs := Text.trimmed message.toList
  match cut cs with
  | some (summary, place) => ⟨nonEmpty? (Text.trimmed summary), place.map String.ofList⟩
  | none => ⟨some (String.ofList cs), none⟩

end Report

end ScarbCrates
