/-!
# Notices

Messages about what a computation met on its way.  They do not change its outcome, but their
order and their texts are part of what a user sees.

* `Noted` — a value together with the notices of its computation.
-/

namespace ScarbCrates

/-- How much a notice matters. -/
inductive Level
  | debug
  | info
  | warning
  | error
deriving DecidableEq, Repr, Inhabited

namespace Level

/-- Levels as numbers; a higher one matters more. -/
def rank : Level → Nat
  | .debug => 0
  | .info => 1
  | .warning => 2
  | .error => 3

/-- The name of a level. -/
def name : Level → String
  | .debug => "DEBUG"
  | .info => "INFO"
  | .warning => "WARNING"
  | .error => "ERROR"

/-- All levels, in ascending order. -/
def all : List Level := [.debug, .info, .warning, .error]

/-- The level with a name. -/
def ofName? (s : String) : Option Level := all.find? (·.name == s)

end Level

/-- A notice: how much it matters, which part of the program it is from, and its text. -/
structure Notice where
  level : Level
  origin : String
  message : String
deriving DecidableEq, Repr

/-- The notices that matter at least as much as a level. -/
def Notice.atLeast (level : Level) (ns : List Notice) : List Notice :=
  ns.filter fun n => level.rank ≤ n.level.rank

/-- A value with the notices of its computation, in order. -/
structure Noted (α : Type) where
  value : α
  notices : List Notice

namespace Noted

variable {α β : Type}

instance : Monad Noted where
  pure a := ⟨a, []⟩
  bind x f := ⟨(f x.value).value, x.notices ++ (f x.value).notices⟩

/-- A notice and nothing else. -/
def note (level : Level) (origin message : String) : Noted Unit := ⟨(), [⟨level, origin, message⟩]⟩

@[simp]
theorem value_pure (a : α) : (pure a : Noted α).value = a := rfl

@[simp]
theorem notices_pure (a : α) : (pure a : Noted α).notices = [] := rfl

@[simp]
theorem value_bind (x : Noted α) (f : α → Noted β) : (x >>= f).value = (f x.value).value := rfl

@[simp]
theorem notices_bind (x : Noted α) (f : α → Noted β) :
    (x >>= f).notices = x.notices ++ (f x.value).notices := rfl

end Noted

end ScarbCrates
