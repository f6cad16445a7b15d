import ScarbCrates.Datum.Basic
import ScarbCrates.Schema.Decode

/-!
# Configuration flags

A flag is a name, or a key with a value.  A set of flags lists each of them once, in the order in
which they first occurred.
-/

namespace ScarbCrates

/-- A flag: `key`, or `key: "value"`. -/
structure Cfg where
  key : String
  value : Option String
deriving DecidableEq, Repr, Inhabited

namespace Cfg

/-- A flag as text. -/
def render (c : Cfg) : String :=
  match c.value with
  | none => c.key
  | some v => c.key ++ ": \"" ++ v ++ "\""

/-- **The order of flags:** by key, then by value.  A flag without a value and one with a value
have no order when their keys are the same. -/
def compare? (a b : Cfg) : Option Ordering :=
  match compare a.key b.key with
  | .lt => some .lt
  | .gt => some .gt
  | .eq =>
    match a.value, b.value with
    | none, none => some .eq
    | some v, some w => some (compare v w)
    | _, _ => none

/-- The fields that a flag is written with. -/
def toDatum (c : Cfg) : Datum :=
  .record "Cfg" (("key", .ofString c.key) ::
    match c.value with
    | none => []
    | some v => [("value", .ofString v)])

variable {ι ρ : Type} [Readable ι ρ]

/-- The fields of a flag. -/
def fields : Fields ι Cfg :=
  (Fields.both (.required "key" Decoder.asText) (.optional "value" Decoder.asText? none)).map
    fun f => ⟨f.1, f.2⟩

/-- Reads a flag. -/
def decoder : Decoder ι Cfg := Decoder.record "Cfg" .refused fields

/-- Puts a flag into a sorted list. -/
def insertSorted? (c : Cfg) : List Cfg → Option (List Cfg)
  | [] => some [c]
  | d :: rest =>
    match compare? c d with
    | none => none
    | some .lt => some (c :: d :: rest)
    | some _ => (insertSorted? c rest).map (d :: ·)

/-- Flags in ascending order, unless two of them have none. -/
def sort? (cs : List Cfg) : Option (List Cfg) :=
  cs.foldlM (fun sorted c => insertSorted? c sorted) []

end Cfg

/-- Flags in an order.  Sets that are built from flags have each of them once. -/
structure CfgSet where
  items : List Cfg
deriving DecidableEq, Repr, Inhabited

namespace CfgSet

/-- The flags in order of first occurrence. -/
def ofItems (cs : List Cfg) : CfgSet :=
  ⟨cs.foldl (fun seen c => if c ∈ seen then seen else seen ++ [c]) []⟩

/-- Whether a flag is in the set. -/
def contains (s : CfgSet) (c : Cfg) : Bool := c ∈ s.items

/-- How many flags there are. -/
def size (s : CfgSet) : Nat := s.items.length

/-- The fields that a set is written with. -/
def toDatum (s : CfgSet) : Datum :=
  .record "CfgSet" (if s.items.isEmpty then []
    else [("items", .sequence .tuple (s.items.map Cfg.toDatum))])

variable {ι ρ : Type} [Readable ι ρ]

/-- The fields of a set. -/
def fields : Fields ι CfgSet :=
  (Fields.optional "items" (Decoder.listOf Cfg.decoder) []).map CfgSet.mk

/-- Reads a set as it is written. -/
def decoder : Decoder ι CfgSet := Decoder.record "CfgSet" .refused fields

end CfgSet

end ScarbCrates
