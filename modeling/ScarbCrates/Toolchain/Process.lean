import ScarbCrates.FileTree.Disk
import ScarbCrates.Text.Classes

/-!
# Processes

A command is started as a process.  A process sees the files and may change them; it does not start,
or it exits with a code and what it has printed.  The operating system hands over bytes, and the
program that waits for the process reads them as text.

* `System` — what an operating system makes of commands.
* `Behaviour` — what comes of a command for the program that runs it.
* `Behaviour.ofSystem` — the one from the other.
-/

namespace ScarbCrates

/-- A command: its words, and the directory that it is started in, if not the current one. -/
structure Command where
  words : List Text
  directory : Option Path
deriving DecidableEq

/-! ## Faults -/

/-- Why a process could not be started: an error of the operating system, perhaps about a file, or
an error that only has a text. -/
inductive StartFault
  | numbered (number : Int) (description : String) (file : Option String)
  | described (text : String)
deriving DecidableEq, Repr

/-- A fault in words. -/
def StartFault.message : StartFault → String
  | .numbered number description none => s!"[Errno {number}] " ++ description
  | .numbered number description (some file) =>
    s!"[Errno {number}] " ++ description ++ ": " ++ Text.quote file
  | .described text => text

/-- Why running a command breaks off though the operating system has refused nothing: the command
holds a byte zero and cannot be handed over, or what the process has printed is no text. -/
inductive ProcessFault
  | nul
  | undecodable (fault : Utf8.Fault)
deriving DecidableEq, Repr

/-- A fault in words. -/
def ProcessFault.message : ProcessFault → String
  | .nul => "embedded null byte"
  | .undecodable fault => fault.message

/-! ## Processes as a program sees them -/

/-- How running a command ends: the process does not start, the run breaks off, or the process exits
with a code and two texts. -/
inductive Ending
  | notStarted (fault : StartFault)
  | broken (fault : ProcessFault)
  | exited (code : Int) (out err : String)
deriving DecidableEq, Repr

/-- What comes of a command: the files afterwards, and how running it ends. -/
abbrev Behaviour := Command → FileTree → FileTree × Ending

/-- The processes of a machine: what comes of commands, and those that have been run so far. -/
structure Machine where
  behaviour : Behaviour
  started : List Command

/-! ## Processes as an operating system sees them -/

/-- How a process ends: it does not start, or it exits with a code and the bytes that it has written
to its two outputs. -/
inductive Exit
  | notStarted (fault : StartFault)
  | exited (code : Int) (out err : List UInt8)
deriving DecidableEq, Repr

/-- What an operating system makes of a command: the files afterwards, and how the process ends. -/
abbrev System := Command → FileTree → FileTree × Exit

/-- Whether a command holds a byte zero. -/
def Command.holdsNul (c : Command) : Bool :=
  c.words.any (fun w => (Text.encode w).any (· == 0)) || c.directory.any Disk.holdsNul

/-- **An output as text:** UTF-8 without a fault, in which all lines end with a line feed. -/
def Text.ofOutput (bytes : List UInt8) : Except Utf8.Fault String :=
  match Utf8.firstFault bytes with
  | some fault => .error fault
  | none => .ok (String.ofList (Text.unifyLines (Text.chars (Text.decode bytes))))

/-- How a process has ended for a program that reads its outputs as texts, the first one first. -/
def Exit.ending : Exit → Ending
  | .notStarted fault => .notStarted fault
  | .exited code out err =>
    match Text.ofOutput out, Text.ofOutput err with
    | .error fault, _ => .broken (.undecodable fault)
    | .ok _, .error fault => .broken (.undecodable fault)
    | .ok out, .ok err => .exited code out err

/-- **What comes of a command,** where an operating system runs the processes.  A command that holds
a byte zero does not reach it. -/
def Behaviour.ofSystem (system : System) : Behaviour := fun c files =>
  if c.holdsNul then (files, .broken .nul)
  else ((system c files).1, (system c files).2.ending)

end ScarbCrates
