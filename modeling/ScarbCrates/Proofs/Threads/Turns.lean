import Mathlib.Logic.Function.Basic
import ScarbCrates.Proofs.Query.Reading
import ScarbCrates.Query.Session

/-!
# Threads that share a cache

A request is no single step.  The lock of its question is looked up, or made, under the lock of the
cache; it is taken some time later; and what is stored meanwhile, or dropped, or written to a file,
is up to everybody else.  Here a thread takes one such step at a time, and threads take turns in any
order.  What the computations are does not matter: in a turn of its own each may report anything,
ask any question, drop results, or come to an end.

Locks are numbered, since a question may come to have another lock than the one that somebody still
waits for.  Besides what a cache holds there is a record of the past: what each computation has
reported, and which computation a stored result is from.

* `Job` — a computation under way, with what it has reported.
* `Shared`, `Thread` — what all threads see, and where one of them is.
* `Turn`, `Course` — one step of a thread, and some steps of one thread after the other.
* `Pool`, `Pool.Step`, `Pool.Run` — threads that take turns.
* `Pool.solo` — one thread by itself.
-/

namespace ScarbCrates

variable {κ σ V : Type}

/-! ## Computations under way -/

/-- What a computation reports: a file with the digest that it has for it, a durability, an
untracked read, or a nested result. -/
inductive Observation (V : Type)
  | file (p : Path) (digest : Option String)
  | level (level : Durability)
  | untracked
  | nested (e : Entry V)

def Frame.hear (f : Frame κ) : Observation V → Frame κ
  | .file p digest => { f with digests := Assoc.keep f.digests p digest }
  | .level level => f.lower level
  | .untracked => f.markUntracked
  | .nested e => f.absorb e

/-- A computation under way: the question that it answers, the lock that it runs under, its number
in the order in which computations begin, and what it has reported so far. -/
structure Job (κ V : Type) where
  question : Question κ
  lock : Nat
  number : Nat
  reports : List (Observation V)

namespace Job

def hear (j : Job κ V) (r : Observation V) : Job κ V := { j with reports := j.reports ++ [r] }

/-- **The frame of a computation** is what its reports come to. -/
def frame (j : Job κ V) : Frame κ := j.reports.foldl Frame.hear (Frame.start j.question)

@[simp]
lemma frame_hear (j : Job κ V) (r : Observation V) : (j.hear r).frame = j.frame.hear r := by
  rw [frame, hear, List.foldl_append]
  rfl

end Job

/-! ## What threads share -/

lemma Cache.storedGeneration_of_entry? [DecidableEq κ] {c : Cache κ V} {q : Question κ}
    {e : Entry V} (h : c.entry? q = some e) : c.storedGeneration q = e.generation := by
  rw [storedGeneration, h]

/-- **What all threads see:** the stored results, the table of the locks and which locks are taken,
the counters, and the world.  `made` has the question of every lock so far, a lock being known by
its place there; `begun` counts the computations so far; and `log` has every result that was ever
stored, the latest first, with its computation. -/
structure Shared (κ σ V : Type) where
  entries : List (Question κ × Entry V)
  generation : Nat
  stats : Stats
  table : List (Question κ × Nat)
  made : List (Question κ)
  taken : List Nat
  begun : Nat
  world : World σ
  log : List (Job κ V × Entry V)

namespace Shared

def start (w : World σ) : Shared κ σ V := ⟨[], 0, ⟨0, 0, 0⟩, [], [], [], 0, w, []⟩

/-- **The cache as a session knows it.**  The lock of a question is the one in the table. -/
def cache (S : Shared κ σ V) : Cache κ V :=
  ⟨S.entries, Assoc.keys S.table, Assoc.keys (S.table.filter fun x => x.2 ∈ S.taken), S.generation,
    S.stats⟩

variable [DecidableEq κ]

/-- What threads share after an operation of the cache.  A lock that the cache drops goes from the
table; whoever has been handed it still has it. -/
def withCache (S : Shared κ σ V) (f : Cache κ V → Cache κ V) : Shared κ σ V :=
  { S with
    entries := (f S.cache).entries
    generation := (f S.cache).generation
    stats := (f S.cache).stats
    table := S.table.filter fun x => (f S.cache).locks.contains x.1 }

/-- An operation that leaves the locks alone leaves the table alone. -/
lemma table_withCache {S : Shared κ σ V} {f : Cache κ V → Cache κ V}
    (h : (f S.cache).locks = S.cache.locks) : (S.withCache f).table = S.table := by
  refine List.filter_eq_self.2 fun x hx => ?_
  rw [h, List.contains_iff_mem]
  exact List.mem_map_of_mem hx

/-- What threads share after a question without a lock has been given a new one. -/
def addLock (S : Shared κ σ V) (q : Question κ) : Shared κ σ V :=
  { S with table := S.table ++ [(q, S.made.length)], made := S.made ++ [q] }

def take (S : Shared κ σ V) (l : Nat) : Shared κ σ V := { S with taken := l :: S.taken }

def giveBack (S : Shared κ σ V) (l : Nat) : Shared κ σ V := { S with taken := S.taken.erase l }

def begin (S : Shared κ σ V) : Shared κ σ V :=
  { S.withCache (·.record .miss) with begun := S.begun + 1 }

def store (S : Shared κ σ V) (j : Job κ V) (e : Entry V) : Shared κ σ V :=
  { S.withCache (fun c => c.advance.store j.question e) with log := (j, e) :: S.log }

lemma table_begin (S : Shared κ σ V) : S.begin.table = S.table :=
  table_withCache (f := (·.record .miss)) rfl

lemma table_store (S : Shared κ σ V) (j : Job κ V) (e : Entry V) : (S.store j e).table = S.table :=
  table_withCache (f := fun c => c.advance.store j.question e) rfl

/-- The result of a computation, with the next generation. -/
def result (S : Shared κ σ V) (j : Job κ V) (v : V) (digest : String) : Entry V :=
  S.cache.advance.entryOf j.frame v digest

end Shared

/-! ## Where a thread is -/

/-- Where a thread is in a request: nowhere, as its computation runs; before it has been handed the
lock; waiting for the lock that it has been handed; with the lock, about to look for a result; or
with what has come of it, about to give the lock back.  `seen` is the generation that it saw when
it asked. -/
inductive Phase (κ V : Type)
  | running
  | asking (q : Question κ) (seen : Nat)
  | waiting (q : Question κ) (seen lock : Nat)
  | inside (q : Question κ) (seen lock : Nat)
  | leaving (q : Question κ) (lock : Nat) (result : Option (Entry V))

/-- A thread: where it is, and its computations under way, innermost first. -/
structure Thread (κ V : Type) where
  phase : Phase κ V
  jobs : List (Job κ V)

def Thread.idle : Thread κ V := ⟨.running, []⟩

/-- The computations of a thread that has obtained a result: the innermost one inherits it. -/
def inherit : Option (Entry V) → List (Job κ V) → List (Job κ V)
  | some e, j :: js => j.hear (.nested e) :: js
  | _, js => js

/-! ## Turns -/

inductive Action (κ σ V : Type)
  | request (q : Question κ)
  | lock
  | enter
  | refuse
  | share
  | hit
  | begin
  | falter
  | report (r : Observation V)
  | store (v : V)
  | discard (v : V)
  | abort
  | leave
  | invalidate (level : Durability)
  | clear
  | change (w : World σ)

variable [DecidableEq κ]

/-- **One step of a thread** by what is shared. -/
inductive Turn (S : Shared κ σ V) :
    Thread κ V → Action κ σ V → Shared κ σ V → Thread κ V → Prop
  /-- A question is asked, and the generation of its stored result is read. -/
  | request (js : List (Job κ V)) (q : Question κ) :
      Turn S ⟨.running, js⟩ (.request q) S ⟨.asking q (S.cache.storedGeneration q), js⟩
  /-- The lock of the question is handed out. -/
  | lock {q : Question κ} {seen l : Nat} {js : List (Job κ V)} (h : Assoc.get? S.table q = some l) :
      Turn S ⟨.asking q seen, js⟩ .lock S ⟨.waiting q seen l, js⟩
  /-- The question has no lock, and one is made. -/
  | make {q : Question κ} {seen : Nat} {js : List (Job κ V)} (h : Assoc.get? S.table q = none) :
      Turn S ⟨.asking q seen, js⟩ .lock (S.addLock q)
        ⟨.waiting q seen S.made.length, js⟩
  /-- The lock is free, and the thread takes it. -/
  | enter {q : Question κ} {seen l : Nat} {js : List (Job κ V)} (h : l ∉ S.taken) :
      Turn S ⟨.waiting q seen l, js⟩ .enter (S.take l) ⟨.inside q seen l, js⟩
  /-- The lock is held by a computation of the thread itself, which would wait for ever. -/
  | refuse {q : Question κ} {seen l : Nat} {js : List (Job κ V)} (h : ∃ j ∈ js, j.lock = l) :
      Turn S ⟨.waiting q seen l, js⟩ .refuse S ⟨.running, js⟩
  /-- There is a newer result than the one that was seen. -/
  | share {q : Question κ} {seen l : Nat} {js : List (Job κ V)} {e : Entry V}
      (he : S.cache.entry? q = some e) (hgen : e.generation ≠ seen) :
      Turn S ⟨.inside q seen l, js⟩ .share (S.withCache (·.record .shared))
        ⟨.leaving q l (some e), js⟩
  /-- The stored result may be used again. -/
  | hit {q : Question κ} {seen l : Nat} {js : List (Job κ V)} {e : Entry V}
      (he : S.cache.entry? q = some e) (hgen : e.generation = seen)
      (hfresh : (e.isFresh S.world.disk).run.value = .ok true) :
      Turn S ⟨.inside q seen l, js⟩ .hit (S.withCache (·.record .hit)) ⟨.leaving q l (some e), js⟩
  /-- There is no result that may be used, and a computation begins. -/
  | begin {q : Question κ} {seen l : Nat} {js : List (Job κ V)}
      (h : ∀ e, S.cache.entry? q = some e →
        e.generation = seen ∧ (e.isFresh S.world.disk).run.value = .ok false) :
      Turn S ⟨.inside q seen l, js⟩ .begin S.begin ⟨.running, ⟨q, l, S.begun, []⟩ :: js⟩
  /-- Whether the stored result may be used cannot be told. -/
  | falter {q : Question κ} {seen l : Nat} {js : List (Job κ V)} {e : Entry V} {fault : InputFault}
      (he : S.cache.entry? q = some e) (hgen : e.generation = seen)
      (hfault : (e.isFresh S.world.disk).run.value = .error fault) :
      Turn S ⟨.inside q seen l, js⟩ .falter S ⟨.leaving q l none, js⟩
  /-- The computation depends on a file. -/
  | file {j : Job κ V} {js : List (Job κ V)} {p : Path} {ds : Digests} {digest : Option String}
      (hd : (j.frame.digests.declare S.world.disk p).run.value = .ok ds)
      (hp : Assoc.get? ds p = some digest) :
      Turn S ⟨.running, j :: js⟩ (.report (.file p digest)) S
        ⟨.running, j.hear (.file p digest) :: js⟩
  /-- The computation is no more durable than a level. -/
  | level {j : Job κ V} {js : List (Job κ V)} (level : Durability) :
      Turn S ⟨.running, j :: js⟩ (.report (.level level)) S ⟨.running, j.hear (.level level) :: js⟩
  /-- The computation depends on something that no digest captures. -/
  | untracked {j : Job κ V} {js : List (Job κ V)} :
      Turn S ⟨.running, j :: js⟩ (.report .untracked) S ⟨.running, j.hear .untracked :: js⟩
  /-- The computation ends with a value, which is stored. -/
  | store {j : Job κ V} {js : List (Job κ V)} {digest : String} (v : V)
      (hd : j.frame.digests.fingerprint = .ok digest) :
      Turn S ⟨.running, j :: js⟩ (.store v) (S.store j (S.result j v digest))
        ⟨.leaving j.question j.lock (some (S.result j v digest)), js⟩
  /-- The computation ends with a value, which has no fingerprint to be stored with. -/
  | discard {j : Job κ V} {js : List (Job κ V)} {fault : DatumFault} (v : V)
      (hd : j.frame.digests.fingerprint = .error fault) :
      Turn S ⟨.running, j :: js⟩ (.discard v) (S.withCache Cache.advance)
        ⟨.leaving j.question j.lock none, js⟩
  /-- The computation fails. -/
  | abort {j : Job κ V} {js : List (Job κ V)} :
      Turn S ⟨.running, j :: js⟩ .abort S ⟨.leaving j.question j.lock none, js⟩
  /-- The lock is given back, and a result is inherited by the computation that asked. -/
  | leave {q : Question κ} {l : Nat} {result : Option (Entry V)} {js : List (Job κ V)} :
      Turn S ⟨.leaving q l result, js⟩ .leave (S.giveBack l) ⟨.running, inherit result js⟩
  /-- The results of at most a durability are dropped. -/
  | invalidate {js : List (Job κ V)} (level : Durability) :
      Turn S ⟨.running, js⟩ (.invalidate level) (S.withCache fun c => (c.invalidate level).1)
        ⟨.running, js⟩
  /-- All results are dropped. -/
  | clear {js : List (Job κ V)} :
      Turn S ⟨.running, js⟩ .clear (S.withCache Cache.clear) ⟨.running, js⟩
  /-- The world changes, whatever the thread is doing. -/
  | change (t : Thread κ V) (w : World σ) : Turn S t (.change w) { S with world := w } t

/-- **Some steps of one thread,** one after the other. -/
inductive Course (S : Shared κ σ V) (t : Thread κ V) :
    List (Action κ σ V) → Shared κ σ V → Thread κ V → Prop
  | none : Course S t [] S t
  | snoc {S' S'' : Shared κ σ V} {t' t'' : Thread κ V} {as : List (Action κ σ V)}
      {a : Action κ σ V} (h : Course S t as S' t') (ha : Turn S' t' a S'' t'') :
      Course S t (as ++ [a]) S'' t''

variable {S S' S'' : Shared κ σ V} {t t' t'' : Thread κ V}

lemma Turn.course {a : Action κ σ V} (h : Turn S t a S' t') : Course S t [a] S' t' :=
  .snoc .none h

lemma Course.trans {as bs : List (Action κ σ V)} (h : Course S t as S' t')
    (h' : Course S' t' bs S'' t'') : Course S t (as ++ bs) S'' t'' := by
  induction h' with
  | none => rwa [List.append_nil]
  | snoc _ ha ih =>
      rw [← List.append_assoc]
      exact .snoc ih ha

section

variable {js : List (Job κ V)} {q : Question κ}

/-- A question is asked that has a lock, and the lock is free. -/
lemma Course.returns {l : Nat} (hlock : Assoc.get? S.table q = some l) (hfree : l ∉ S.taken) :
    Course S ⟨.running, js⟩ [.request q, .lock, .enter] (S.take l)
      ⟨.inside q (S.cache.storedGeneration q) l, js⟩ :=
  .snoc (.snoc (.snoc .none (.request js q)) (.lock hlock)) (.enter hfree)

/-- A question is asked for the first time, and its computation begins. -/
lemma Course.opens (hlock : Assoc.get? S.table q = .none) (hfree : S.made.length ∉ S.taken)
    (hentry : S.cache.entry? q = .none) :
    Course S ⟨.running, js⟩ [.request q, .lock, .enter, .begin]
      ((S.addLock q).take S.made.length).begin
      ⟨.running, ⟨q, S.made.length, S.begun, []⟩ :: js⟩ :=
  .snoc (.snoc (.snoc (.snoc .none (.request js q)) (.make hlock)) (.enter hfree))
    (.begin fun _ he => absurd (hentry.symm.trans he) nofun)

/-- A computation ends with a value that is stored. -/
lemma Course.closes {j : Job κ V} {digest : String} (v : V)
    (hd : j.frame.digests.fingerprint = .ok digest) :
    Course S ⟨.running, j :: js⟩ [.store v, .leave]
      ((S.store j (S.result j v digest)).giveBack j.lock)
      ⟨.running, inherit (some (S.result j v digest)) js⟩ :=
  .snoc (.snoc .none (.store v hd)) .leave

end

/-! ## Pools -/

/-- Threads with what they share.  There are as many as there are numbers; all but finitely many
have never done anything. -/
structure Pool (κ σ V : Type) where
  shared : Shared κ σ V
  threads : Nat → Thread κ V

namespace Pool

/-- No thread has done anything. -/
def start (w : World σ) : Pool κ σ V := ⟨.start w, fun _ => .idle⟩

/-- A computation is under way in some thread. -/
def UnderWay (P : Pool κ σ V) (j : Job κ V) : Prop := ∃ i, j ∈ (P.threads i).jobs

/-- **One thread takes a turn.** -/
inductive Step (P : Pool κ σ V) (i : Nat) (a : Action κ σ V) : Pool κ σ V → Prop
  | turn {S : Shared κ σ V} {t : Thread κ V} (h : Turn P.shared (P.threads i) a S t) :
      Step P i a ⟨S, Function.update P.threads i t⟩

/-- **Threads take turns,** in any order. -/
inductive Run (P : Pool κ σ V) : List (Nat × Action κ σ V) → Pool κ σ V → Prop
  | none : Run P [] P
  | snoc {P' P'' : Pool κ σ V} {as : List (Nat × Action κ σ V)} {i : Nat} {a : Action κ σ V}
      (h : Run P as P') (ha : Step P' i a P'') : Run P (as ++ [(i, a)]) P''

variable {P P' P'' : Pool κ σ V}

section

variable {i k : Nat} {a : Action κ σ V}

/-- The thread whose turn it is does one step. -/
lemma Step.toTurn (h : P.Step i a P') :
    Turn P.shared (P.threads i) a P'.shared (P'.threads i) := by
  cases h with
  | turn h =>
      show Turn _ _ _ _ (Function.update P.threads i _ i)
      rwa [Function.update_self]

/-- All other threads stay where they are. -/
lemma Step.other (h : P.Step i a P') (hk : k ≠ i) : P'.threads k = P.threads k := by
  cases h with
  | turn h => exact Function.update_of_ne hk _ _

lemma Step.run (h : P.Step i a P') : Run P [(i, a)] P' := .snoc .none h

end

lemma Run.trans {as bs : List (Nat × Action κ σ V)} (h : Run P as P') (h' : Run P' bs P'') :
    Run P (as ++ bs) P'' := by
  induction h' with
  | none => rwa [List.append_nil]
  | snoc _ ha ih =>
      rw [← List.append_assoc]
      exact .snoc ih ha

/-- The pools that threads come to. -/
def Reachable (P : Pool κ σ V) : Prop := ∃ w as, Run (start w) as P

lemma Reachable.run {as : List (Nat × Action κ σ V)} (h : P.Reachable) (hr : P.Run as P') :
    P'.Reachable := by
  obtain ⟨w, bs, hb⟩ := h
  exact ⟨w, bs ++ as, hb.trans hr⟩

/-- What is true at the start, and stays true in every turn, is true of every pool that threads come
to. -/
lemma Reachable.induct {Inv : Pool κ σ V → Prop} (h : P.Reachable)
    (hstart : ∀ w, Inv (start w)) (hstep : ∀ P i a P', Step P i a P' → Inv P → Inv P') : Inv P := by
  obtain ⟨w, as, hr⟩ := h
  induction hr with
  | none => exact hstart w
  | snoc _ ha ih => exact hstep _ _ _ _ ha ih

/-! ## One thread by itself -/

/-- A pool in which one thread has done something. -/
def solo (S : Shared κ σ V) (t : Thread κ V) : Pool κ σ V :=
  ⟨S, Function.update (fun _ => .idle) 0 t⟩

omit [DecidableEq κ] in
@[simp]
lemma threads_solo (S : Shared κ σ V) (t : Thread κ V) : (solo S t).threads 0 = t := rfl

omit [DecidableEq κ] in
lemma solo_start (w : World σ) : solo (Shared.start w) (.idle : Thread κ V) = start w := by
  rw [solo, Function.update_eq_self_iff.2 rfl]
  rfl

end Pool

lemma Turn.solo {a : Action κ σ V} (h : Turn S t a S' t') :
    (Pool.solo S t).Step 0 a (Pool.solo S' t') := by
  have hstep : (Pool.solo S t).Step 0 a ⟨S', Function.update (Pool.solo S t).threads 0 t'⟩ :=
    .turn (by rwa [Pool.threads_solo])
  rwa [Pool.solo, Function.update_idem] at hstep

lemma Course.solo {as : List (Action κ σ V)} (h : Course S t as S' t') :
    (Pool.solo S t).Run (as.map fun a => (0, a)) (Pool.solo S' t') := by
  induction h with
  | none => exact .none
  | snoc _ ha ih =>
      rw [List.map_append]
      exact .snoc ih ha.solo

/-- What one thread comes to by itself. -/
lemma Course.reachable {w : World σ} {as : List (Action κ σ V)}
    (h : Course (Shared.start w) .idle as S t) : (Pool.solo S t).Reachable :=
  ⟨w, _, Pool.solo_start (κ := κ) (V := V) w ▸ h.solo⟩

end ScarbCrates
