import ScarbCrates.Json.Reader
import ScarbCrates.Schema.Shape

/-!
# Reading typed data

Decoders for the types that schemas are made of.  A decoder is given the place of a value and the
value, and looks at one layer.

* `asInt`, `asText`, `asPath`, … — scalars.
* `listOf`, `pairFrom`, `membersOf` — containers.
* `Fields` and `record` — objects with known members.
* `Decoder.load` — typed data from a text.

A *lax* decoder also takes the usual spellings of a scalar in another kind: numbers and truth
values in a text, whole numbers written as floating-point numbers, `0` and `1` as truth values.
-/

namespace ScarbCrates

/-- Reads typed data from a value at a place. -/
abbrev Decoder (ι α : Type) := Place → ι → Except ReadFault α

namespace Decoder

variable {ι ρ α β : Type} [Readable ι ρ]

/-- A value does not fit: the fault in the value itself, or its kind against the kinds expected. -/
def misfit (expected : List Kind) (p : Place) (s : Shape ι) : Except ReadFault α :=
  match s with
  | .broken fault => .error (.malformed fault)
  | .tooLarge _ => .error (.at p (.tooLarge false))
  | .wide i =>
    if (Binary64.ofInt? i).isNone then .error (.at p (.tooLarge false))
    else .error (.at p (.kind expected (some s.kind)))
  | s => .error (.at p (.kind expected (some s.kind)))

/-! ## Scalars -/

/-- The number that a text spells, as JSON does. -/
def spelledNumber (s : String) : Option Json.Draft :=
  match Json.readNumber (Text.ofString s) 0 with
  | .ok (d, c) => if c.rest.isEmpty then some d else none
  | .error _ => none

/-- Whether a number is too large for a floating-point number. -/
def overflows : Json.Draft → Bool
  | .int i => (Binary64.ofInt? i).isNone
  | .tooLarge _ => true
  | _ => false

/-- A text in lower case, as far as ASCII goes. -/
def lowered (s : String) : String := String.ofList (s.toList.map Char.toLower)

/-- Whether a text spells a word, in any case. -/
def spells (s word : String) : Bool := lowered s == word

/-- The number that a word spells: an infinity or no number. -/
def spelledSpecial (s : String) : Option Binary64 :=
  let s := lowered s
  let (negative, s) :=
    match s.toList with
    | '-' :: rest => (true, String.ofList rest)
    | _ => (false, s)
  if s == "nan" then some (.signedNaN negative)
  else if s == "inf" || s == "infinity" then some (.infinity negative)
  else none

/-- Anything. -/
def anything : Decoder ι ρ := fun p v => Readable.raw p v

/-- A truth value. -/
def asBool (lax : Bool) : Decoder ι Bool := fun p v =>
  match Readable.look v with
  | .bool b => .ok b
  | .int i =>
    if lax && i == 0 then .ok false
    else if lax && i == 1 then .ok true
    else misfit [.bool] p (.int i : Shape ι)
  | .text s =>
    if lax && spells s "false" then .ok false
    else if lax && spells s "true" then .ok true
    else if lax && (spelledNumber s).any overflows then .error (.at p (.tooLarge false))
    else
      match if lax then spelledNumber s else none with
      | some (.int 0) => .ok false
      | some (.int 1) => .ok true
      | _ => misfit [.bool] p (.text s : Shape ι)
  | s => misfit [.bool] p s

/-- The bound up to which floating-point numbers tell all integers apart. -/
def exactWhole : Nat := twoTo 53

/-- The integer that a floating-point number stands for, unless its neighbours do not. -/
def wholeOf? (x : Binary64) : Option Int := x.toInt?.filter fun i => i.natAbs ≤ exactWhole

/-- An integer. -/
def asInt (lax : Bool) : Decoder ι Int := fun p v =>
  match Readable.look v with
  | .int i => .ok i
  | .wide i => .ok i
  | .tooLarge isWhole => .error (.at p (.tooLarge isWhole))
  | .float x =>
    match if lax then wholeOf? x else none with
    | some i => .ok i
    | none => misfit [.int] p (.float x : Shape ι)
  | .text s =>
    match if lax then spelledNumber s else none with
    | some (.int i) => .ok i
    | some (.tooLarge isWhole) => .error (.at p (.tooLarge isWhole))
    | some (.float x) =>
      match wholeOf? x with
      | some i => .ok i
      | none => misfit [.int] p (.text s : Shape ι)
    | _ => misfit [.int] p (.text s : Shape ι)
  | s => misfit [.int] p s

/-- An integer as a floating-point number. -/
def intAsFloat (p : Place) (i : Int) : Except ReadFault Binary64 :=
  match Binary64.ofInt? i with
  | some x => .ok x
  | none => .error (.at p (.tooLarge false))

/-- A floating-point number; integers are numbers too. -/
def asFloat (lax : Bool) : Decoder ι Binary64 := fun p v =>
  match Readable.look v with
  | .float x => .ok x
  | .int i => intAsFloat p i
  | .wide i => intAsFloat p i
  | .text s =>
    if lax then
      match spelledNumber s, spelledSpecial s with
      | some (.int i), _ => intAsFloat p i
      | some (.float x), _ => .ok x
      | some (.tooLarge _), _ => .error (.at p (.tooLarge false))
      | _, some x => .ok x
      | _, none => misfit [.float] p (.text s : Shape ι)
    else misfit [.float] p (.text s : Shape ι)
  | s => misfit [.float] p s

/-- A text. -/
def asText : Decoder ι String := fun p v =>
  match Readable.look v with
  | .text s => .ok s
  | .garbled fault => .error (.garbled fault)
  | s => misfit [.str] p s

/-- A text or null. -/
def asText? : Decoder ι (Option String) := fun p v =>
  match Readable.look v with
  | .null => .ok none
  | .text s => .ok (some s)
  | .garbled fault => .error (.garbled fault)
  | s => misfit [.str, .null] p s

/-- A path: a text, or a path already. -/
def asPath : Decoder ι Path := fun p v => do
  let _ ← (Readable.raw p v : Except ReadFault ρ)
  match Readable.look v with
  | .text s => return Path.ofString s
  | .path q => return q
  | _ => throw (.at p (.kind [.named "Path"] (some (.named (Readable.className v)))))

/-- One of a few texts. -/
def asChoice (choose : String → Option α) : Decoder ι α := fun p v =>
  match Readable.look v with
  | .text s =>
    match choose s with
    | some a => .ok a
    | none => .error (.at p (.choice s))
  | .garbled fault => .error (.garbled fault)
  | s => misfit [.str] p s

/-! ## Lists -/

/-- The end of a list or object. -/
def finish (stop : Option Json.SyntaxFault) (a : α) : Except ReadFault α :=
  match stop with
  | some fault => .error (.malformed fault)
  | none => .ok a

/-- Items of one type, the first of which has index `i`. -/
def itemsFrom (item : Decoder ι α) (p : Place) (i : Nat) : List ι → Except ReadFault (List α)
  | [] => .ok []
  | v :: rest => do
    let a ← item (p ++ [.item i]) v
    let as ← itemsFrom item p (i + 1) rest
    return a :: as

/-- A list. -/
def listOf (item : Decoder ι α) : Decoder ι (List α) := fun p v =>
  match Readable.look v with
  | .array items stop => do
    let as ← itemsFrom item p 0 items
    finish stop as
  | .set items => itemsFrom item p 0 items
  | s => misfit [.array] p s

/-- Whether null stands for nothing: null itself and, for a lax reader, its name. -/
def isNothing (lax : Bool) : Shape ι → Bool
  | .null => true
  | .text s => lax && spells s "null"
  | _ => false

/-- A list or null. -/
def listOf? (lax : Bool) (item : Decoder ι α) : Decoder ι (Option (List α)) := fun p v =>
  let s := Readable.look v
  if isNothing lax s then .ok none
  else match s with
    | .array items stop => do
      let as ← itemsFrom item p 0 items
      finish stop (some as)
    | .set items => (itemsFrom item p 0 items).map some
    | s => misfit [.array, .null] p s

/-- A list of two.  A source that knows the length beforehand is told of a wrong one first;
another one is read item by item, up to the first that is one too many. -/
def pairFrom (item : Decoder ι α) (p : Place) (items : List ι) (stop : Option Json.SyntaxFault) :
    Except ReadFault (α × α) :=
  let wrongLength : Except ReadFault (α × α) :=
    .error (.at p (.length 2 (if Readable.countsAhead ι then some items.length else none)))
  if Readable.countsAhead ι && items.length != 2 then wrongLength
  else match items with
    | [] => (finish stop ()).bind fun _ => wrongLength
    | [v] => do
      let _ ← item (p ++ [.item 0]) v
      (finish stop ()).bind fun _ => wrongLength
    | [v, w] => do
      let a ← item (p ++ [.item 0]) v
      let b ← item (p ++ [.item 1]) w
      finish stop (a, b)
    | v :: w :: _ => do
      let _ ← item (p ++ [.item 0]) v
      let _ ← item (p ++ [.item 1]) w
      wrongLength

/-- A text, or a list of two texts. -/
def textOrPair : Decoder ι (String ⊕ (String × String)) := fun p v =>
  match Readable.look v with
  | .text s => .ok (.inl s)
  | .garbled fault => .error (.garbled fault)
  | .array items stop => (pairFrom asText p items stop).map .inr
  | s => misfit [.str, .array] p s

/-! ## Objects -/

/-- The name of a member, which must be a text. -/
def memberName (p : Place) : MemberName → Except ReadFault String
  | .text s => .ok s
  | .symbol s => .ok s
  | .garbled fault => .error (.garbled fault)
  | .other kind => .error (.schema ⟨.kind [.str] (some kind), p, .name⟩)

/-- Members with any names and values of one type. -/
def membersFrom (item : Decoder ι α) (p : Place) :
    List (MemberName × ι) → Except ReadFault (List (String × α))
  | [] => .ok []
  | (name, v) :: rest => do
    let name ← memberName p name
    let a ← item (p ++ [.anyMember]) v
    let as ← membersFrom item p rest
    return (name, a) :: as

/-- An object with any names and values of one type. -/
def membersOf (item : Decoder ι α) : Decoder ι (List (String × α)) := fun p v =>
  match Readable.look v with
  | .object members stop => do
    let as ← membersFrom item p members
    match stop with
    | some stop => throw stop.readFault
    | none => return Json.collect as
  | s => misfit [.object] p s

end Decoder

/-! ## Records -/

/-- The known members of an object, read into one value.  `check` judges the value of a member
by the member's name, and `build` puts the values of all members together. -/
structure Fields (ι α : Type) where
  /-- What a member of this name must be; `none` if there is no such member. -/
  check : String → Option (Decoder ι Unit)
  /-- The value of an object at a place with the given members. -/
  build : Place → List (String × ι) → Except ReadFault α

namespace Fields

variable {ι ρ α β : Type} [Readable ι ρ]

/-- The last member of a name, which is the one that counts. -/
def last? (name : String) (members : List (String × ι)) : Option ι := members.reverse.lookup name

/-- The check of one member. -/
def checkOne (name : String) (d : Decoder ι α) : String → Option (Decoder ι Unit) := fun n =>
  if n = name then some fun p v => (d p v).map fun _ => () else none

/-- A member that must be there. -/
def required (name : String) (d : Decoder ι α) : Fields ι α where
  check := checkOne name d
  build := fun p members =>
    match last? name members with
    | some v => d (p ++ [.member name]) v
    | none => .error (.at p (.missing name))

/-- A member that may be absent. -/
def optional (name : String) (d : Decoder ι α) (default : α) : Fields ι α where
  check := checkOne name d
  build := fun p members =>
    match last? name members with
    | some v => d (p ++ [.member name]) v
    | none => .ok default

/-- Two groups of members; of two faults in putting them together, the first group's counts. -/
def both (f : Fields ι α) (g : Fields ι β) : Fields ι (α × β) where
  check := fun n => (f.check n).orElse fun _ => g.check n
  build := fun p members => do
    let a ← f.build p members
    let b ← g.build p members
    return (a, b)

/-- The value of some members, changed. -/
def map (h : α → β) (f : Fields ι α) : Fields ι β where
  check := f.check
  build := fun p members => (f.build p members).map h

end Fields

/-- Whether an object may have members that its schema does not know. -/
inductive Unknown
  | refused
  | ignored
deriving DecidableEq, Repr

namespace Decoder

variable {ι ρ α : Type} [Readable ι ρ]

/-- Judges the members of an object in their order, and keeps those that are known. -/
def checkMembers (unknown : Unknown) (fields : Fields ι α) (p : Place) :
    List (MemberName × ι) → Except ReadFault (List (String × ι))
  | [] => .ok []
  | (.garbled fault, v) :: rest =>
    match unknown with
    | .refused => .error (.garbled fault)
    | .ignored => do
      Readable.skip v
      checkMembers unknown fields p rest
  | (.symbol _, _) :: _ => .error (.schema ⟨.kind [.str] none, p, .name⟩)
  | (.other _, _) :: _ => .error (.schema ⟨.kind [.str] none, p, .name⟩)
  | (.text name, v) :: rest =>
    match fields.check name, unknown with
    | some d, _ => do
      d (p ++ [.member name]) v
      let known ← checkMembers unknown fields p rest
      return (name, v) :: known
    | none, .refused => .error (.at p (.unknown name))
    | none, .ignored => do
      Readable.skip v
      checkMembers unknown fields p rest

/-- The value of an object's members. -/
def recordFrom (unknown : Unknown) (fields : Fields ι α) (p : Place)
    (members : List (MemberName × ι)) (stop : Option Json.Break) : Except ReadFault α := do
  let known ← checkMembers unknown fields p members
  let known ← finish (stop.map Json.Break.fault) known
  fields.build p known

/-- **An object with known members,** or data of the class already.  Members are judged in the
order in which they stand; only then is a missing one noticed. -/
def record (kind : String) (unknown : Unknown) (fields : Fields ι α) : Decoder ι α := fun p v =>
  match Readable.look v with
  | .object members stop => recordFrom unknown fields p members stop
  | .record k members =>
    if k = kind then recordFrom unknown fields p (members.map fun m => (.text m.1, m.2)) none
    else misfit [.object] p (.record k members : Shape ι)
  | s => misfit [.object] p s

/-- An object with known members, or null. -/
def record? (lax : Bool) (kind : String) (unknown : Unknown) (fields : Fields ι α) :
    Decoder ι (Option α) := fun p v =>
  let s := Readable.look v
  if isNothing lax s then .ok none
  else match s with
    | .object members stop => (recordFrom unknown fields p members stop).map some
    | .record k members =>
      if k = kind then
        (recordFrom unknown fields p (members.map fun m => (.text m.1, m.2)) none).map some
      else misfit [.object, .null] p (.record k members : Shape ι)
    | s => misfit [.object, .null] p s

/-! ## Tags -/

/-- A tag: the text that tells the form of an object. -/
def asTag (choose : String → Option α) : Decoder ι α := fun p v =>
  match (Readable.tag v : Except ReadFault (String ⊕ Option Kind)) with
  | .error fault => .error fault
  | .ok (.inr kind) => .error (.at p (.kind [.str] kind))
  | .ok (.inl s) =>
    match choose s with
    | some a => .ok a
    | none => .error (.at p (.tag s))

/-- The first tag among some members. -/
def findTag (name : String) (choose : String → Option α) (p : Place)
    (stop : Option Json.Break) : List (MemberName × ι) → Except ReadFault α
  | [] => (finish (stop.map Json.Break.fault) ()).bind fun _ => .error (.at p (.missing name))
  | (.text n, v) :: rest =>
    if n = name then asTag choose (p ++ [.member name]) v
    else do
      Readable.skip v
      findTag name choose p stop rest
  | (_, v) :: rest => do
    Readable.skip v
    findTag name choose p stop rest

/-! ## Whole texts -/

/-- Reads a whole text; that something follows its value is noticed last. -/
def readDocument (d : Decoder Json.Draft α) (doc : Json.Document) : Except ReadFault α := do
  let a ← d [] doc.root
  finish doc.trailing a

/-- **The typed data that a text in bytes holds.** -/
def load (d : Decoder Json.Draft α) (bytes : List UInt8) : Except ReadFault α :=
  d.readDocument (Json.Document.ofBytes bytes)

end Decoder

end ScarbCrates
