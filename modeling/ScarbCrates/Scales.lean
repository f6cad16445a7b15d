/-!
# Editions and durabilities

Two scales whose steps have names: the editions of the Cairo language, and how often a cached value
is expected to change.
-/

namespace ScarbCrates

/-! ## Editions -/

/-- An edition of the language. -/
inductive Edition
  | v2023_01
  | v2023_10
  | v2023_11
  | v2024_07
deriving DecidableEq, Repr, Inhabited

namespace Edition

/-- All editions, oldest first. -/
def all : List Edition := [.v2023_01, .v2023_10, .v2023_11, .v2024_07]

/-- The name of an edition as manifests write it. -/
def name : Edition → String
  | .v2023_01 => "2023_01"
  | .v2023_10 => "2023_10"
  | .v2023_11 => "2023_11"
  | .v2024_07 => "2024_07"

/-- The edition with a name. -/
def ofName? (s : String) : Option Edition := all.find? (·.name == s)

/-- The edition of a package that declares none. -/
def default : Edition := .v2023_01

theorem ofName?_name (e : Edition) : ofName? e.name = some e := by
  cases e <;> decide

end Edition

/-! ## Durabilities -/

/-- How long a value is expected to last.  A value is as durable as the least durable thing that went
into it. -/
inductive Durability
  | low
  | medium
  | high
deriving DecidableEq, Repr, Inhabited

namespace Durability

/-- Levels as numbers; a lower one changes more often. -/
def level : Durability → Nat
  | .low => 0
  | .medium => 1
  | .high => 2

/-- The name of a level. -/
def name : Durability → String
  | .low => "LOW"
  | .medium => "MEDIUM"
  | .high => "HIGH"

/-- The level with a name. -/
def ofName? (s : String) : Option Durability := [low, medium, high].find? (·.name == s)

/-- Whether one level is at most another. -/
def atMost (a b : Durability) : Bool := a.level ≤ b.level

/-- The lower of two levels; of two equal ones either. -/
def min (a b : Durability) : Durability := if b.level < a.level then b else a

@[simp]
theorem atMost_iff (a b : Durability) : a.atMost b = true ↔ a.level ≤ b.level := by simp [atMost]

@[simp]
theorem level_min (a b : Durability) : (a.min b).level = Nat.min a.level b.level := by
  cases a <;> cases b <;> decide

end Durability

end ScarbCrates
