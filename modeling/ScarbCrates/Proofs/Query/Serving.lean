import ScarbCrates.Proofs.Query.Reading
import ScarbCrates.Query.Session

/-!
# The parts of a request

A request takes a lock, finds a result or computes one, and gives the lock back.  These are the
equations that put the parts together, and what the session is like in between.

* `Session.serve_eq`, `Session.compute_eq` — a request, and a computation, in parts.
* `Session.serve_of_fresh`, `Session.serve_of_stale` — the two ways in which a request is answered
  if nobody else asks at the same time.
-/

namespace ScarbCrates

namespace Session

variable {κ σ V ε : Type} [DecidableEq κ]

/-! ## The lock -/

/-- The session in which a result is looked for: with the lock of the question. -/
def locked (s : Session κ σ V) (q : Question κ) : Session κ σ V :=
  (s.withCache (·.ensureLock q)).withCache (·.acquire q)

/-- What a session makes of a result that it has obtained. -/
def unlocked (q : Question κ) :
    Except (Failure ε) (Entry V) × Session κ σ V → Except (Failure ε) V × Session κ σ V
  | (.error f, s) => (.error f, s.withCache (·.release q))
  | (.ok e, s) => (.ok e.value, (s.withCache (·.release q)).withFrame (·.absorb e))

lemma entries_locked (s : Session κ σ V) (q : Question κ) :
    (s.locked q).cache.entries = s.cache.entries := by
  show (s.cache.ensureLock q).entries = _
  rw [Cache.ensureLock]
  split <;> rfl

lemma held_ensureLock (c : Cache κ V) (q : Question κ) : (c.ensureLock q).held = c.held := by
  rw [Cache.ensureLock]
  split <;> rfl

lemma held_locked (s : Session κ σ V) (q : Question κ) :
    (s.locked q).cache.held = q :: s.cache.held :=
  congrArg (q :: ·) (held_ensureLock s.cache q)

lemma storedGeneration_locked (s : Session κ σ V) (q : Question κ) :
    (s.locked q).cache.storedGeneration q = s.cache.storedGeneration q := by
  rw [Cache.storedGeneration, Cache.entry?, entries_locked]
  rfl

variable [QueryKey κ]

/-! ## The computation -/

/-- The session in which the computation of a question begins. -/
def opened (s : Session κ σ V) (q : Question κ) : Session κ σ V :=
  let s := (s.withCache (·.record .miss)).withNotices [computing q]
  { s with frames := Frame.start q :: s.frames }

/-- What a session makes of the end of a computation. -/
def closed (s : Session κ σ V) (q : Question κ) :
    Except (Failure ε) V × Session κ σ V → Except (Failure ε) (Entry V) × Session κ σ V
  | (.error f, after) => (.error f, { after with frames := s.frames })
  | (.ok v, after) =>
    settle { after with frames := s.frames } q (after.frame?.getD (Frame.start q)) v

lemma compute_eq (s : Session κ σ V) (q : Question κ)
    (body : Session κ σ V → Except (Failure ε) V × Session κ σ V) :
    s.compute q body = s.closed q (body (s.opened q)) := by
  cases h : body (s.opened q) with
  | mk outcome after =>
      rw [opened] at h
      simp only [compute, h]
      cases outcome <;> rfl

omit [DecidableEq κ] [QueryKey κ] in
/-- **A report to the innermost frame:** the file cannot be looked at, or the frame has its digest. -/
lemma declare_cases {s : Session κ σ V} {f : Frame κ} {rest : List (Frame κ)}
    (hf : s.frames = f :: rest) (p : Path) :
    ∃ ns, (∃ fault, (f.digests.declare s.world.disk p).run.value = .error fault ∧
        s.declare p = (Except.error (Failure.input (ε := ε) (.access fault)), s.withNotices ns)) ∨
      ∃ ds, (f.digests.declare s.world.disk p).run.value = .ok ds ∧
        s.declare p = ((.ok () : Except (Failure ε) Unit),
          { s.withNotices ns with frames := { f with digests := ds } :: rest }) := by
  have hframe : s.frame? = some f := by
    rw [frame?, hf]
    rfl
  refine ⟨(f.digests.declare s.world.disk p).run.notices, ?_⟩
  cases hd : (f.digests.declare s.world.disk p).run.value with
  | error fault =>
      refine Or.inl ⟨fault, rfl, ?_⟩
      simp only [declare, hframe, noted, hd]
  | ok ds =>
      refine Or.inr ⟨ds, rfl, ?_⟩
      simp only [declare, hframe, noted, hd, withFrame, withNotices, hf]

/-! ## The request -/

lemma serve_eq {s : Session κ σ V} {q : Question κ} (hheld : q ∉ s.cache.held) (seen : Nat)
    (body : Session κ σ V → Except (Failure ε) V × Session κ σ V) :
    s.serve seen q body = unlocked q ((s.locked q).obtain seen q body) := by
  have hfree : ¬(s.withCache (·.ensureLock q)).cache.isHeld q = true := by
    rw [Cache.isHeld, decide_eq_true_iff]
    show q ∉ (s.cache.ensureLock q).held
    rwa [held_ensureLock]
  cases h : (s.locked q).obtain seen q body with
  | mk outcome after =>
      rw [locked] at h
      simp only [serve, hfree, h]
      cases outcome <;> rfl

lemma obtain_of_fresh {s : Session κ σ V} {q : Question κ} {e : Entry V}
    (he : s.cache.entry? q = some e) (hb : (e.isFresh s.world.disk).run.value = .ok true)
    (body : Session κ σ V → Except (Failure ε) V × Session κ σ V) :
    s.obtain (s.cache.storedGeneration q) q body =
      (.ok e, (s.withNotices (e.isFresh s.world.disk).run.notices).withCache (·.record .hit)) := by
  have hgen : ¬e.generation ≠ s.cache.storedGeneration q := by
    rw [Cache.storedGeneration, he]
    exact fun h => h rfl
  rw [obtain, he]
  simp only [if_neg hgen, noted, hb]

lemma obtain_of_stale {s : Session κ σ V} {q : Question κ}
    (hb : ∀ e, s.cache.entry? q = some e → (e.isFresh s.world.disk).run.value = .ok false) :
    ∃ ns, ∀ {ε : Type} (body : Session κ σ V → Except (Failure ε) V × Session κ σ V),
      s.obtain (s.cache.storedGeneration q) q body = (s.withNotices ns).compute q body := by
  cases he : s.cache.entry? q with
  | none =>
      refine ⟨[], fun body => ?_⟩
      rw [obtain, he, withNotices, List.append_nil]
  | some e =>
      have hgen : ¬e.generation ≠ s.cache.storedGeneration q := by
        rw [Cache.storedGeneration, he]
        exact fun h => h rfl
      refine ⟨(e.isFresh s.world.disk).run.notices, fun body => ?_⟩
      rw [obtain, he]
      simp only [if_neg hgen, noted, hb e he]

/-- **A hit** gives the stored value and changes nothing that later requests depend on. -/
lemma serve_of_fresh {s : Session κ σ V} {q : Question κ} {e : Entry V}
    (hheld : q ∉ s.cache.held) (he : s.cache.entry? q = some e)
    (hb : (e.isFresh s.world.disk).run.value = .ok true)
    (body : Session κ σ V → Except (Failure ε) V × Session κ σ V) :
    ∃ s', s.serve (s.cache.storedGeneration q) q body = (.ok e.value, s') ∧
      s'.frames = (s.withFrame (·.absorb e)).frames ∧ s'.world = s.world ∧
      s'.cache.entries = s.cache.entries ∧ s'.cache.held = s.cache.held := by
  have he' : (s.locked q).cache.entry? q = some e := by
    rwa [Cache.entry?, entries_locked]
  refine ⟨_, by rw [serve_eq hheld, ← storedGeneration_locked, obtain_of_fresh he' hb]; rfl, ?_⟩
  refine ⟨rfl, rfl, entries_locked s q, ?_⟩
  show (s.locked q).cache.held.erase q = _
  rw [held_locked, List.erase_cons_head]

/-- **A miss** computes the answer. -/
lemma serve_of_stale {s : Session κ σ V} {q : Question κ} (hheld : q ∉ s.cache.held)
    (hb : ∀ e, s.cache.entry? q = some e → (e.isFresh s.world.disk).run.value = .ok false)
    (body : Session κ σ V → Except (Failure ε) V × Session κ σ V) :
    ∃ s₀ : Session κ σ V, s₀.frames = s.frames ∧ s₀.world = s.world ∧
      s₀.cache.entries = s.cache.entries ∧ s₀.cache.held = q :: s.cache.held ∧
      s.serve (s.cache.storedGeneration q) q body = unlocked q (s₀.compute q body) := by
  have hb' : ∀ e, (s.locked q).cache.entry? q = some e →
      (e.isFresh (s.locked q).world.disk).run.value = .ok false := by
    intro e he
    rw [Cache.entry?, entries_locked] at he
    exact hb e he
  obtain ⟨ns, h⟩ := obtain_of_stale hb'
  refine ⟨(s.locked q).withNotices ns, rfl, rfl, entries_locked s q, held_locked s q, ?_⟩
  rw [serve_eq hheld, ← storedGeneration_locked, h]

lemma run_ask (q : Question κ) (c : Computation κ σ V ε V) (s : Session κ σ V) :
    run (Computation.ask q c) s = s.serve (s.cache.storedGeneration q) q (run c) := by
  rw [Computation.ask, run]
  generalize s.serve (s.cache.storedGeneration q) q (run c) = out
  rcases out with ⟨_ | _, _⟩ <;> rfl

end Session

end ScarbCrates
