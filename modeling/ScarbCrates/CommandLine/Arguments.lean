import ScarbCrates.CommandLine.Numeral
import ScarbCrates.Config

/-!
# Arguments

What a user asks for on the command line.  Options of the session may stand anywhere before a
`--`; what they leave is a command with its own arguments.

* `session` — the options of the session, and the other words.
* `Request.ofWords` — the command.
-/

namespace ScarbCrates

namespace CommandLine

/-- Why the words on a command line ask for nothing. -/
inductive UsageFault
  /-- A value is none that the option takes. -/
  | coercion
  /-- An option has no value, or a command lacks an argument. -/
  | missingArgument
  /-- An option is given twice. -/
  | repeatedArgument
  | unknownCommand
  | unknownOption
  /-- There are more words than arguments. -/
  | unusedWords
deriving DecidableEq, Repr

/-- A fault in words. -/
def UsageFault.message : UsageFault → String
  | .coercion => "invalid value for an option"
  | .missingArgument => "missing argument"
  | .repeatedArgument => "option given more than once"
  | .unknownCommand => "unknown command"
  | .unknownOption => "unknown option"
  | .unusedWords => "too many arguments"

/-! ## Words -/

/-- Whether a word looks like an option: it begins with a hyphen and is no number. -/
def isOptionLike (w : String) : Bool := w.toList.head? = some '-' && !isNumeral w

/-- An option as a word gives it: its name, and the value after an equals sign. -/
structure Named where
  name : String
  value : Option String
deriving Repr

/-- The option that a word gives.  In its name an underscore stands for a hyphen. -/
def Named.ofWord? (w : String) : Option Named :=
  match w.toList with
  | '-' :: '-' :: cs =>
    let name := (cs.takeWhile (· ≠ '=')).map fun c => if c = '_' then '-' else c
    let value :=
      match cs.dropWhile (· ≠ '=') with
      | [] => none
      | _ :: value => some (String.ofList value)
    some ⟨String.ofList ('-' :: '-' :: name), value⟩
  | _ => none

/-- The word after which nothing is an option. -/
def endOfOptions : String := "--"

/-- Sets an option that must not be set twice. -/
def setOnce {α : Type} (old : Option α) (new : α) : Except UsageFault (Option α) :=
  if old.isSome then .error .repeatedArgument else .ok (some new)

/-- What the words of an option take from the front of a command line: the value of the option,
if it stands there, and the words after it. -/
def optionValue? (name : String) (w : String) (rest : List String) :
    Except UsageFault (Option (String × List String)) :=
  match Named.ofWord? w with
  | none => .ok none
  | some o =>
    if o.name ≠ name then .ok none
    else match o.value, rest with
      | some v, rest => .ok (some (v, rest))
      | none, [] => .error .missingArgument
      | none, v :: rest =>
        if isOptionLike v then .error .missingArgument else .ok (some (v, rest))

/-! ## The session -/

/-- The options of a session as they are given. -/
structure Options where
  logLevel : Option String
  scarb : Option String
deriving Repr

/-- Takes the options of the session out of some words.  Every word costs a unit of `fuel`. -/
def takeOptions : (fuel : Nat) → Options → List String →
    Except UsageFault (Options × List String)
  | 0, o, words => .ok (o, words)
  | _ + 1, o, [] => .ok (o, [])
  | fuel + 1, o, w :: rest =>
    if w = endOfOptions then .ok (o, w :: rest)
    else do
      match ← optionValue? "--log-level" w rest with
      | some (v, rest) =>
        let level ← setOnce o.logLevel v
        takeOptions fuel { o with logLevel := level } rest
      | none =>
        match ← optionValue? "--scarb" w rest with
        | some (v, rest) =>
          let scarb ← setOnce o.scarb v
          takeOptions fuel { o with scarb := scarb } rest
        | none =>
          let (o, words) ← takeOptions fuel o rest
          return (o, w :: words)

/-- **The configuration of a session,** and the words that are left.  What is given on the command
line goes before the environment, whose values count as they stand. -/
def session (env : Environment) (words : List String) :
    Except UsageFault (Config × List String) := do
  let (o, rest) ← takeOptions words.length ⟨none, none⟩ words
  let level := (o.logLevel.or (env.get? Config.logLevelVariable)).getD Config.defaultLogLevel
  if Config.logLevels.contains level then
    return (⟨o.scarb.or (env.get? Config.scarbVariable), level⟩, rest)
  else throw .coercion

/-! ## Commands -/

/-- What is asked for. -/
inductive Request
  | crates (manifest : Path) (compact : Bool)
  | metadata (manifest : Path)
  | discover (start : Path)
  /-- The versions of the program and of what it runs on. -/
  | version
  /-- The version of the program alone. -/
  | programVersion
  | help
deriving DecidableEq

/-- A word that no option takes, and whether it may be one itself: after `--` none is. -/
structure Spare where
  word : String
  mayBeOption : Bool
deriving Repr

/-- What a word asks for that counts wherever it stands. -/
def asksEverywhere? (words : List String) : Option Request :=
  let words := words.takeWhile (· ≠ endOfOptions)
  if words.any ["--help", "-h"].contains then some .help
  else if words.any ["--version", "-V"].contains then some .programVersion
  else none

/-- What the words of a command are: the value of its one argument, if an option gives it; the
value of its switch, by the word that sets it; and the words left over, in order. -/
structure Given where
  argument : Option String
  switch : Option Bool
  spare : List Spare

/-- Words for truth values. -/
def truth? (s : String) : Except UsageFault Bool :=
  let s := String.ofList (s.toList.map Char.toLower)
  if ["yes", "y", "1", "t", "true"].contains s then .ok true
  else if ["no", "n", "0", "f", "false"].contains s then .ok false
  else .error .coercion

/-- The value that a word gives to the switch `--compact`.  A word that denies the switch may have
a value too, which is denied with it. -/
def switchValue? (w : String) : Except UsageFault (Option Bool) :=
  match Named.ofWord? w with
  | some ⟨"--compact", value⟩ => (value.elim (.ok true) truth?).map some
  | some ⟨"--no-compact", value⟩ => (value.elim (.ok true) truth?).map fun b => some !b
  | _ => .ok none

/-- What some words give, with one more word that no option takes. -/
def Given.addSpare (g : Given) (w : String) : Given := { g with spare := g.spare ++ [⟨w, true⟩] }

/-- Sorts the words of a command whose argument has the option `name`, and which may have a
switch.  Every word costs a unit of `fuel`. -/
def sortWords (name : String) (hasSwitch : Bool) : (fuel : Nat) → Given → List String →
    Except UsageFault Given
  | 0, g, _ => .ok g
  | _ + 1, g, [] => .ok g
  | fuel + 1, g, w :: rest =>
    if w = endOfOptions then .ok { g with spare := g.spare ++ rest.map fun w => ⟨w, false⟩ }
    else do
      match ← optionValue? name w rest with
      | some (v, rest) =>
        let argument ← setOnce g.argument v
        sortWords name hasSwitch fuel { g with argument := argument } rest
      | none =>
        match ← if hasSwitch then switchValue? w else pure none with
        | some v =>
          let switch ← setOnce g.switch v
          sortWords name hasSwitch fuel { g with switch := switch } rest
        | none => sortWords name hasSwitch fuel (g.addSpare w) rest

/-- The argument of a command and the words then left over.  Without its option it is the first
word that no option takes, which must not look like an option itself. -/
def Given.takeArgument (g : Given) : Except UsageFault (String × List Spare) :=
  match g.argument, g.spare with
  | some v, left => .ok (v, left)
  | none, w :: left =>
    if w.mayBeOption && isOptionLike w.word then .error .unknownOption else .ok (w.word, left)
  | none, [] => .error .missingArgument

/-- Nothing may be left over; an unknown option counts more than a word too many. -/
def checkRest (left : List String) : Except UsageFault Unit :=
  if left.any isOptionLike then .error .unknownOption
  else if left.isEmpty then .ok ()
  else .error .unusedWords

/-- The argument and the switch of a command.  A fault in sorting the words counts more than a
missing argument, and both more than what is left over. -/
def argumentAndSwitch (name : String) (hasSwitch : Bool) (words : List String) :
    Except UsageFault (Path × Bool) := do
  let g ← sortWords name hasSwitch words.length ⟨none, none, []⟩ words
  let (argument, left) ← g.takeArgument
  checkRest (left.map (·.word))
  return (Path.ofString argument, g.switch.getD false)

/-- A command without arguments.  A first `--` is not left over. -/
def noArguments (words : List String) (r : Request) : Except UsageFault Request := do
  checkRest (words.erase endOfOptions)
  return r

/-- **The command that some words ask for.** -/
def Request.ofWords : List String → Except UsageFault Request
  | [] => .ok .help
  | w :: rest =>
    if w = "crates" then
      (argumentAndSwitch "--manifest-path" true rest).map fun a => .crates a.1 a.2
    else if w = "metadata" then
      (argumentAndSwitch "--manifest-path" false rest).map fun a => .metadata a.1
    else if w = "discover" then
      (argumentAndSwitch "--path" false rest).map fun a => .discover a.1
    else if w = "version" || w = "v" then noArguments rest .version
    else .error .unknownCommand

end CommandLine

end ScarbCrates
