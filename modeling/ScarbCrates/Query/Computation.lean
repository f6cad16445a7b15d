import ScarbCrates.FileTree.Disk
import ScarbCrates.Query.Cache

/-!
# Computations

What the computation of a query consists of.  A computation reports what it depends on, asks
further questions, and acts on the world; between its steps it decides freely what to do next.
Asking a question brings along the computation that answers it where no stored result does, so a
computation is a finite tree and always comes to its end.

A step that can fail hands its failure on, and the computation decides what to make of it.
-/

namespace ScarbCrates

/-- The state that questions are asked in. -/
structure Session (κ σ V : Type) where
  cache : Cache κ V
  /-- The frames of the computations under way, innermost first. -/
  frames : List (Frame κ)
  world : World σ
  /-- The notices so far, in order. -/
  notices : List Notice

/-- Why a computation fails. -/
inductive Failure (ε : Type)
  /-- The computation itself says so. -/
  | raised (e : ε)
  /-- A file cannot be looked at, or a result cannot be stored. -/
  | input (fault : InputFault)
  /-- A question is asked while its own computation is under way, which would wait for ever. -/
  | deadlock

/-- A computation with a result of type `α`, whose questions have keys of type `κ` and answers of
type `V`. -/
inductive Computation (κ σ V ε : Type) : Type → Type 1
  /-- The end, with a result. -/
  | done {α : Type} (a : α) : Computation κ σ V ε α
  /-- The end, without one. -/
  | fail {α : Type} (f : Failure ε) : Computation κ σ V ε α
  /-- Reports that the result depends on the content of a file. -/
  | declare {α : Type} (p : Path) (next : Except (Failure ε) Unit → Computation κ σ V ε α) :
      Computation κ σ V ε α
  /-- Reports that the result is no more durable than a level. -/
  | lower {α : Type} (level : Durability) (next : Computation κ σ V ε α) : Computation κ σ V ε α
  /-- Reports that the result depends on something that no digest captures. -/
  | untracked {α : Type} (next : Computation κ σ V ε α) : Computation κ σ V ε α
  /-- Asks a question. -/
  | request {α : Type} (q : Question κ) (compute : Computation κ σ V ε V)
      (next : Except (Failure ε) V → Computation κ σ V ε α) : Computation κ σ V ε α
  /-- Drops the stored results of at most a durability. -/
  | invalidate {α : Type} (level : Durability) (next : Nat → Computation κ σ V ε α) :
      Computation κ σ V ε α
  /-- Drops all stored results. -/
  | clear {α : Type} (next : Computation κ σ V ε α) : Computation κ σ V ε α
  /-- Looks at the session. -/
  | inspect {α : Type} (next : Session κ σ V → Computation κ σ V ε α) : Computation κ σ V ε α
  /-- Acts on the world. -/
  | perform {α β : Type} (act : World σ → Noted (β × World σ))
      (next : β → Computation κ σ V ε α) : Computation κ σ V ε α

namespace Computation

variable {κ σ V ε α β : Type}

/-- One computation after the other. -/
def andThen (f : α → Computation κ σ V ε β) : Computation κ σ V ε α → Computation κ σ V ε β
  | .done a => f a
  | .fail e => .fail e
  | .declare p next => .declare p fun r => andThen f (next r)
  | .lower level next => .lower level (andThen f next)
  | .untracked next => .untracked (andThen f next)
  | .request q compute next => .request q compute fun r => andThen f (next r)
  | .invalidate level next => .invalidate level fun n => andThen f (next n)
  | .clear next => .clear (andThen f next)
  | .inspect next => .inspect fun s => andThen f (next s)
  | .perform act next => .perform act fun b => andThen f (next b)

instance : Monad (Computation κ σ V ε) where
  pure := .done
  bind x f := andThen f x

/-- A computation whose failure is a result. -/
def attempt : Computation κ σ V ε α → Computation κ σ V ε (Except (Failure ε) α)
  | .done a => .done (.ok a)
  | .fail e => .done (.error e)
  | .declare p next => .declare p fun r => attempt (next r)
  | .lower level next => .lower level (attempt next)
  | .untracked next => .untracked (attempt next)
  | .request q compute next => .request q compute fun r => attempt (next r)
  | .invalidate level next => .invalidate level fun n => attempt (next n)
  | .clear next => .clear (attempt next)
  | .inspect next => .inspect fun s => attempt (next s)
  | .perform act next => .perform act fun b => attempt (next b)

/-- The end, with a result or a failure. -/
def ofExcept : Except (Failure ε) α → Computation κ σ V ε α
  | .ok a => .done a
  | .error f => .fail f

/-- Reports a file. -/
def declareFile (p : Path) : Computation κ σ V ε Unit := .declare p ofExcept

/-- Reports a durability. -/
def lowerTo (level : Durability) : Computation κ σ V ε Unit := .lower level (.done ())

/-- Reports an untracked read. -/
def markUntracked : Computation κ σ V ε Unit := .untracked (.done ())

/-- Asks a question. -/
def ask (q : Question κ) (compute : Computation κ σ V ε V) : Computation κ σ V ε V :=
  .request q compute ofExcept

/-- Acts on the world. -/
def act (f : World σ → Noted (β × World σ)) : Computation κ σ V ε β := .perform f .done

/-- Leaves a notice. -/
def note (level : Level) (origin message : String) : Computation κ σ V ε Unit :=
  .perform (fun w => do
    Noted.note level origin message
    return ((), w)) .done

end Computation

end ScarbCrates
