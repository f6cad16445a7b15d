import ScarbCrates.Query.Computation

/-!
# Asking questions

How a session answers a request.  The stored result is given if it may be used again; otherwise
the computation runs in a frame of its own, and its result is stored with what the frame has
collected.  Either way the computation that asked inherits what the result depends on.  A
computation that fails leaves no trace but what it has done to the world and to other questions.

* `Session.serve` — one request.
* `Session.run` — a computation.
* `Session.concurrent` — several callers who ask the same question at the same time.
-/

namespace ScarbCrates

namespace Session

variable {κ σ V ε : Type}

/-! ## Parts of a session -/

/-- A session in which nothing has been asked. -/
def start (w : World σ) : Session κ σ V := ⟨.empty, [], w, []⟩

/-- The session with another cache. -/
def withCache (s : Session κ σ V) (f : Cache κ V → Cache κ V) : Session κ σ V :=
  { s with cache := f s.cache }

/-- The session with more notices. -/
def withNotices (s : Session κ σ V) (ns : List Notice) : Session κ σ V :=
  { s with notices := s.notices ++ ns }

/-- The session after a change of the innermost frame, if there is one. -/
def withFrame (s : Session κ σ V) (f : Frame κ → Frame κ) : Session κ σ V :=
  { s with frames := match s.frames with
      | [] => []
      | frame :: rest => f frame :: rest }

/-- The innermost frame. -/
def frame? (s : Session κ σ V) : Option (Frame κ) := s.frames.head?

/-- The outcome of something that leaves notices. -/
def noted {β : Type} (s : Session κ σ V) (n : Noted β) : β × Session κ σ V :=
  (n.value, s.withNotices n.notices)

variable [DecidableEq κ] [QueryKey κ]

/-! ## Reports -/

/-- **Reports a file to the innermost frame.**  Outside of a computation nothing depends on
anything, and the file is not looked at. -/
def declare (s : Session κ σ V) (p : Path) : Except (Failure ε) Unit × Session κ σ V :=
  match s.frame? with
  | none => (.ok (), s)
  | some frame =>
    match s.noted (frame.digests.declare s.world.disk p).run with
    | (.error fault, s) => (.error (.input (.access fault)), s)
    | (.ok digests, s) => (.ok (), s.withFrame fun f => { f with digests := digests })

/-! ## Requests -/

/-- The part of the program that the notices are from. -/
def origin : String := "project_model.query"

/-- The notice that a computation begins. -/
def computing (q : Question κ) : Notice :=
  ⟨.debug, origin, "computing query " ++ q.query ++ " for " ++ QueryKey.shown q.key⟩

/-- What becomes of a value: it gets a generation, and is stored if its inputs have a
fingerprint. -/
def settle (s : Session κ σ V) (q : Question κ) (frame : Frame κ) (value : V) :
    Except (Failure ε) (Entry V) × Session κ σ V :=
  let s := s.withCache Cache.advance
  match frame.digests.fingerprint with
  | .error fault => (.error (.input (.datum fault)), s)
  | .ok digest =>
    let e := s.cache.entryOf frame value digest
    (.ok e, s.withCache (·.store q e))

/-- Runs the computation of a question in a frame of its own. -/
def compute (s : Session κ σ V) (q : Question κ)
    (body : Session κ σ V → Except (Failure ε) V × Session κ σ V) :
    Except (Failure ε) (Entry V) × Session κ σ V :=
  let s := (s.withCache (·.record .miss)).withNotices [computing q]
  let (outcome, after) := body { s with frames := Frame.start q :: s.frames }
  let frame := after.frame?.getD (Frame.start q)
  let after := { after with frames := s.frames }
  match outcome with
  | .error f => (.error f, after)
  | .ok value => settle after q frame value

/-- Finds the result of a question whose lock is held.  A result that is newer than the one that
the caller has seen is shared, whatever it depends on: it was computed while the caller waited. -/
def obtain (s : Session κ σ V) (seen : Nat) (q : Question κ)
    (body : Session κ σ V → Except (Failure ε) V × Session κ σ V) :
    Except (Failure ε) (Entry V) × Session κ σ V :=
  match s.cache.entry? q with
  | none => s.compute q body
  | some e =>
    if e.generation ≠ seen then (.ok e, s.withCache (·.record .shared))
    else
      match s.noted (e.isFresh s.world.disk).run with
      | (.error fault, s) => (.error (.input fault), s)
      | (.ok true, s) => (.ok e, s.withCache (·.record .hit))
      | (.ok false, s) => s.compute q body

/-- **One request** by a caller who has seen generation `seen` of the result.  The lock is given
back whatever happens, and only a result is inherited by the frame that asked. -/
def serve (s : Session κ σ V) (seen : Nat) (q : Question κ)
    (body : Session κ σ V → Except (Failure ε) V × Session κ σ V) :
    Except (Failure ε) V × Session κ σ V :=
  let s := s.withCache (·.ensureLock q)
  if s.cache.isHeld q then (.error .deadlock, s)
  else
    let (outcome, s) := (s.withCache (·.acquire q)).obtain seen q body
    let s := s.withCache (·.release q)
    match outcome with
    | .error f => (.error f, s)
    | .ok e => (.ok e.value, s.withFrame (·.absorb e))

/-- **Runs a computation.** -/
def run : {α : Type} → Computation κ σ V ε α → Session κ σ V →
    Except (Failure ε) α × Session κ σ V
  | _, .done a, s => (.ok a, s)
  | _, .fail f, s => (.error f, s)
  | _, .declare p next, s =>
    let (r, s) := s.declare p
    run (next r) s
  | _, .lower level next, s => run next (s.withFrame (·.lower level))
  | _, .untracked next, s => run next (s.withFrame Frame.markUntracked)
  | _, .request q body next, s =>
    let (r, s) := s.serve (s.cache.storedGeneration q) q (run body)
    run (next r) s
  | _, .invalidate level next, s =>
    let (cache, n) := s.cache.invalidate level
    run (next n) { s with cache := cache }
  | _, .clear next, s => run next (s.withCache Cache.clear)
  | _, .inspect next, s => run (next s) s
  | _, .perform act next, s =>
    let ((b, world), s) := s.noted (act s.world)
    run (next b) { s with world := world }

/-! ## Concurrent callers -/

/-- Serves some callers one after the other. -/
def serveAll (seen : Nat) (q : Question κ)
    (body : Session κ σ V → Except (Failure ε) V × Session κ σ V) :
    (callers : Nat) → Session κ σ V → List (Except (Failure ε) V) × Session κ σ V
  | 0, s => ([], s)
  | callers + 1, s =>
    let (r, s) := s.serve seen q body
    let (rs, s) := serveAll seen q body callers s
    (r :: rs, s)

/-- **Callers who ask the same question before any of them is answered.**  Each has seen the same
generation and has a stack of frames of its own, and the lock lets one in after the other. -/
def concurrent (callers : Nat) (q : Question κ) (body : Computation κ σ V ε V)
    (s : Session κ σ V) : List (Except (Failure ε) V) × Session κ σ V :=
  let (rs, after) :=
    serveAll (s.cache.storedGeneration q) q (run body) callers { s with frames := [] }
  (rs, { after with frames := s.frames })

end Session

end ScarbCrates
