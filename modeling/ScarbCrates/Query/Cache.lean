import ScarbCrates.Query.Digests
import ScarbCrates.Scales

/-!
# The query cache

Results of queries by query name and key.  An entry records what its computation has seen, and may
be used again as long as all of that is as it was.  For each key there is a lock, so that one
computation at a time is under way.

* `Frame` — what a computation under way has reported.
* `Entry` — a stored result.
* `Cache` — the entries, the locks and the counters, and the atomic steps that a request takes.
-/

namespace ScarbCrates

/-- A kind of keys. -/
class QueryKey (κ : Type) where
  /-- A key in a message. -/
  shown : κ → String

/-- A question: the name of the query and its key. -/
structure Question (κ : Type) where
  query : String
  key : κ
deriving DecidableEq

/-! ## Frames and entries -/

/-- What a computation under way has reported: the files it depends on, how durable its result can
be, and whether it depends on something that no digest captures. -/
structure Frame (κ : Type) where
  question : Question κ
  digests : Digests
  durability : Durability
  untracked : Bool

/-- The frame of a computation that has reported nothing. -/
def Frame.start {κ : Type} (q : Question κ) : Frame κ := ⟨q, [], .high, false⟩

/-- A stored result with what it depends on.  Generations number the results in the order in which
they were computed. -/
structure Entry (V : Type) where
  value : V
  digests : Digests
  inputsDigest : String
  durability : Durability
  untracked : Bool
  generation : Nat

namespace Frame

variable {κ V : Type}

/-- Lowers the durability to at most a level. -/
def lower (f : Frame κ) (level : Durability) : Frame κ :=
  { f with durability := f.durability.min level }

/-- Marks the result as depending on something that no digest captures. -/
def markUntracked (f : Frame κ) : Frame κ := { f with untracked := true }

/-- **Inherits what a nested result depends on.** -/
def absorb (f : Frame κ) (e : Entry V) : Frame κ :=
  { f with
    digests := f.digests.merge e.digests
    durability := f.durability.min e.durability
    untracked := f.untracked || e.untracked }

end Frame

/-- Why the freshness of a result cannot be told, or a result cannot be stored. -/
inductive InputFault
  | access (fault : AccessFault)
  | datum (fault : DatumFault)
deriving DecidableEq

/-- A fault in words. -/
def InputFault.message : InputFault → String
  | .access fault => fault.message
  | .datum fault => fault.message

/-- **Whether a result may be used again:** it depends on nothing untracked, and the files it
depends on have the content that they had. -/
def Entry.isFresh {V : Type} (e : Entry V) (d : Disk) : ExceptT InputFault Noted Bool :=
  if e.untracked then pure false
  else do
    let now ← ExceptT.adapt InputFault.access (Digests.current d e.digests.files)
    let digest ← ExceptT.mk (pure (now.fingerprint.mapError InputFault.datum))
    return digest == e.inputsDigest

/-! ## The cache -/

/-- How requests were answered: from a stored result, by a computation, or by sharing the result of
a computation that was under way. -/
structure Stats where
  hits : Nat
  misses : Nat
  shared : Nat
deriving DecidableEq, Repr

/-- The three ways of answering a request. -/
inductive Answered
  | hit
  | miss
  | shared
deriving DecidableEq, Repr

/-- The counters after one more answer. -/
def Stats.record (s : Stats) : Answered → Stats
  | .hit => { s with hits := s.hits + 1 }
  | .miss => { s with misses := s.misses + 1 }
  | .shared => { s with shared := s.shared + 1 }

/-- The state of a cache.  `locks` are the questions that have a lock, and `held` those whose lock
is held by a computation under way, innermost first. -/
structure Cache (κ V : Type) where
  entries : List (Question κ × Entry V)
  locks : List (Question κ)
  held : List (Question κ)
  generation : Nat
  stats : Stats

namespace Cache

variable {κ V : Type}

/-- A cache without results. -/
def empty : Cache κ V := ⟨[], [], [], 0, ⟨0, 0, 0⟩⟩

instance : Inhabited (Cache κ V) := ⟨empty⟩

variable [DecidableEq κ]

/-- The stored result of a question. -/
def entry? (c : Cache κ V) (q : Question κ) : Option (Entry V) := Assoc.get? c.entries q

/-- The generation of the stored result, or zero; stored generations are positive. -/
def storedGeneration (c : Cache κ V) (q : Question κ) : Nat :=
  match c.entry? q with
  | some e => e.generation
  | none => 0

/-- Makes the lock of a question if there is none. -/
def ensureLock (c : Cache κ V) (q : Question κ) : Cache κ V :=
  if q ∈ c.locks then c else { c with locks := c.locks ++ [q] }

/-- Whether the lock of a question is held. -/
def isHeld (c : Cache κ V) (q : Question κ) : Bool := q ∈ c.held

/-- Takes the lock of a question. -/
def acquire (c : Cache κ V) (q : Question κ) : Cache κ V := { c with held := q :: c.held }

/-- Gives the lock of a question back. -/
def release (c : Cache κ V) (q : Question κ) : Cache κ V := { c with held := c.held.erase q }

/-- Counts an answer. -/
def record (c : Cache κ V) (a : Answered) : Cache κ V := { c with stats := c.stats.record a }

/-- A new generation for the result of a computation that has ended. -/
def advance (c : Cache κ V) : Cache κ V := { c with generation := c.generation + 1 }

/-- The entry for a value whose computation has reported what a frame holds. -/
def entryOf (c : Cache κ V) (f : Frame κ) (value : V) (inputsDigest : String) : Entry V :=
  ⟨value, f.digests, inputsDigest, f.durability, f.untracked, c.generation⟩

/-- Stores a result. -/
def store (c : Cache κ V) (q : Question κ) (e : Entry V) : Cache κ V :=
  { c with entries := Assoc.put c.entries q e }

/-- Drops the locks that are of no use: without a stored result, and not held. -/
def prune (c : Cache κ V) : Cache κ V :=
  { c with locks := c.locks.filter fun q => Assoc.has c.entries q || c.isHeld q }

/-- **Drops the results of at most a durability,** and says how many there were. -/
def invalidate (c : Cache κ V) (level : Durability) : Cache κ V × Nat :=
  let kept := c.entries.filter fun e => !e.2.durability.atMost level
  (prune { c with entries := kept }, c.entries.length - kept.length)

/-- Drops all results. -/
def clear (c : Cache κ V) : Cache κ V := prune { c with entries := [] }

end Cache

end ScarbCrates
