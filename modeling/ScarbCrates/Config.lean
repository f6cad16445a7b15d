import ScarbCrates.Datum.Encode
import ScarbCrates.Notice
import ScarbCrates.Text.Classes
import ScarbCrates.Text.Upper

/-!
# Configuration

What can be set for a run of the program: the Scarb executable and the log level.  Settings come
from environment variables.  White space at the ends of a value does not count, and a variable that
holds nothing else is as good as unset.

* `Environment.value?`, `Environment.choice` — settings.
* `Config.ofEnvironment`, `Config.fingerprint` — the configuration of a run.
-/

namespace ScarbCrates

/-! ## The environment -/

/-- The variables of a process and their values. -/
abbrev Environment := List (String × String)

namespace Environment

/-- The value of a variable as it stands. -/
def get? (env : Environment) (name : String) : Option String := List.lookup name env

/-- **The value of a variable** without the white space at its ends; `none` if nothing is left. -/
def value? (env : Environment) (name : String) : Option String :=
  match env.get? name with
  | none => none
  | some raw =>
    let s := Text.trim raw
    if s.isEmpty then none else some s

/-- Texts in ascending order, as a message lists them. -/
def listed (choices : List String) : String :=
  (Datum.ofList ((choices.mergeSort fun a b => !decide (b < a)).map Datum.ofString)).literal

/-- A variable that should hold one of a few texts: its value, in upper case if `normalize` says
so.  A value that is none of them draws a warning and counts as unset. -/
def choice (env : Environment) (name : String) (choices : List String) (default : String)
    (normalize : Bool) : Noted String :=
  match env.value? name with
  | none => pure default
  | some raw =>
    let s := if normalize then Text.upper raw else raw
    if choices.contains s then pure s
    else do
      Noted.note .warning "utils.env_utils"
        ("Invalid value for " ++ name ++ ": " ++ Text.quote raw ++ " (expected one of "
          ++ listed choices ++ ")")
      return default

end Environment

/-! ## The configuration -/

/-- The configuration of a run. -/
structure Config where
  /-- The Scarb executable, if one is named. -/
  scarbPath : Option String
  logLevel : String
deriving DecidableEq, Repr

namespace Config

/-- The names of the log levels. -/
def logLevels : List String := Level.all.map Level.name

/-- The log level when none is set. -/
def defaultLogLevel : String := "WARNING"

/-- The variable that names the Scarb executable. -/
def scarbVariable : String := "CAIRO_PROJECT_MODEL_SCARB"

/-- The variable that sets the log level. -/
def logLevelVariable : String := "CAIRO_PROJECT_MODEL_LOG_LEVEL"

/-- **The configuration that the environment asks for.** -/
def ofEnvironment (env : Environment) : Noted Config := do
  let logLevel ← env.choice logLevelVariable logLevels defaultLogLevel true
  return ⟨env.value? scarbVariable, logLevel⟩

/-- What identifies a configuration. -/
def payload (c : Config) : Datum :=
  .ofMembers [("version", .int 1), ("scarb_path", .ofOption c.scarbPath),
    ("log_level", .ofString c.logLevel)]

/-- The fingerprint of a configuration. -/
def fingerprint (c : Config) : Except DatumFault String := c.payload.fingerprint

end Config

end ScarbCrates
