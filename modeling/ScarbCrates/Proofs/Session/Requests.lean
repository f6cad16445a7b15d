import ScarbCrates.Proofs.Threads.Sessions

/-!
# What becomes of a request

A session answers a request, or does not, in one of four ways, and each of them leaves the frames,
the locks and the stored results in one way.  This holds in every session, whatever the computation
of the question does.

* `Session.begins_some` — the session that a computation begins in.
* `Session.Outcome`, `Session.outcome` — the four ways.
-/

namespace ScarbCrates

namespace Session

variable {κ σ V ε : Type} [DecidableEq κ]

lemma entry?_of_put {c : Cache κ V} {entries : List (Question κ × Entry V)} {q : Question κ}
    {e : Entry V} (h : c.entries = Assoc.put entries q e) : c.entry? q = some e := by
  rw [Cache.entry?, h, Assoc.get?_put_self]

section

variable [QueryKey κ] {s s₀ : Session κ σ V} {q : Question κ}

/-- A computation begins in a frame and under a lock of its own, and all else is as it was. -/
lemma begins_some (h : s.begins q = some s₀) :
    q ∉ s.cache.held ∧ s₀.frames = Frame.start q :: s.frames ∧
      s₀.cache.entries = s.cache.entries ∧ s₀.cache.held = q :: s.cache.held := by
  have hheld : q ∉ s.cache.held := by
    intro hheld
    rw [begins_of_held hheld] at h
    cases h
  rw [begins_eq hheld, opening] at h
  cases (s.locked q).finding (s.cache.storedGeneration q) q with
  | shared _ _ ho | fresh _ _ _ ho | unclear _ _ _ ho =>
      rw [ho] at h
      cases h
  | stale _ ho =>
      rw [ho] at h
      cases h
      exact ⟨hheld, rfl, entries_locked s q, held_locked s q⟩

end

/-- The innermost frame as a computation has left it. -/
def ending (q : Question κ) (after : Session κ σ V) : Frame κ :=
  after.frame?.getD (Frame.start q)

/-- The result of a computation that has left its frame behind. -/
def resultOf (q : Question κ) (v : V) (digest : String) (after : Session κ σ V) : Entry V :=
  after.cache.advance.entryOf (ending q after) v digest

/-- A computation fails if it says so, or if what its value depends on has no fingerprint. -/
def Fails (q : Question κ) (f : Failure ε) (out : Except (Failure ε) V × Session κ σ V) : Prop :=
  out.1 = .error f ∨ ∃ v fault, out.1 = .ok v ∧
    (ending q out.2).digests.fingerprint = .error fault ∧ f = .input (.datum fault)

variable [QueryKey κ]

/-- **What becomes of a request.** -/
inductive Outcome (s : Session κ σ V) (q : Question κ) (body : Body κ σ V ε) :
    Except (Failure ε) V × Session κ σ V → Prop
  /-- Nothing is computed, and there is no answer. -/
  | refused {f : Failure ε} {s' : Session κ σ V} (hbegins : s.begins q = none)
      (hentries : s'.cache.entries = s.cache.entries) (hheld : s'.cache.held = s.cache.held)
      (hframes : s'.frames = s.frames) : Outcome s q body (.error f, s')
  /-- The stored result is the answer. -/
  | found {e : Entry V} {s' : Session κ σ V} (hbegins : s.begins q = none)
      (he : s.cache.entry? q = some e) (hentries : s'.cache.entries = s.cache.entries)
      (hheld : s'.cache.held = s.cache.held)
      (hframes : s'.frames = (s.withFrame (·.absorb e)).frames) :
      Outcome s q body (.ok e.value, s')
  /-- The computation fails, or there is nothing to store its value with. -/
  | failed {f : Failure ε} {s₀ s' : Session κ σ V} (hbegins : s.begins q = some s₀)
      (hfails : Fails q f (body s₀))
      (hentries : s'.cache.entries = (body s₀).2.cache.entries)
      (hheld : s'.cache.held = (body s₀).2.cache.held.erase q)
      (hframes : s'.frames = s.frames) : Outcome s q body (.error f, s')
  /-- The value of the computation is stored, and is the answer. -/
  | stored {v : V} {digest : String} {s₀ s' : Session κ σ V} (hbegins : s.begins q = some s₀)
      (hv : (body s₀).1 = .ok v)
      (hd : (ending q (body s₀).2).digests.fingerprint = .ok digest)
      (hentries : s'.cache.entries =
        Assoc.put (body s₀).2.cache.entries q (resultOf q v digest (body s₀).2))
      (hheld : s'.cache.held = (body s₀).2.cache.held.erase q)
      (hframes : s'.frames = (s.withFrame (·.absorb (resultOf q v digest (body s₀).2))).frames) :
      Outcome s q body (.ok v, s')

lemma outcome_closed {s s₁ s₀ : Session κ σ V} {q : Question κ} (hbegins : s.begins q = some s₀)
    (hframes : s₁.frames = s.frames) (body : Body κ σ V ε) :
    Outcome s q body (unlocked q (s₁.closed q (body s₀))) := by
  rcases hout : body s₀ with ⟨r, after⟩
  cases r with
  | error f =>
      have hfails : Fails q f (body s₀) := .inl (by rw [hout])
      exact .failed hbegins hfails (by rw [hout]; rfl) (by rw [hout]; rfl) hframes
  | ok v =>
      have hv : (body s₀).1 = .ok v := by rw [hout]
      -- A value is not stored without a fingerprint of what it depends on.
      cases hd : (ending q after).digests.fingerprint with
      | error fault =>
          have hfails : Fails q (.input (.datum fault)) (body s₀) :=
            .inr ⟨v, fault, hv, by rw [hout, hd], rfl⟩
          rw [ending] at hd
          simp only [closed, settle, hd]
          exact .failed hbegins hfails (by rw [hout]; rfl) (by rw [hout]; rfl) hframes
      | ok digest =>
          have hd' : (ending q (body s₀).2).digests.fingerprint = .ok digest := by rw [hout, hd]
          rw [ending] at hd
          simp only [closed, settle, hd]
          refine .stored hbegins hv hd' (by rw [hout]; rfl) (by rw [hout]; rfl) ?_
          rw [hout]
          simp only [withFrame, hframes]
          rfl

/-- **A request in any session,** whatever its computation does. -/
theorem outcome (s : Session κ σ V) (q : Question κ) (body : Body κ σ V ε) :
    Outcome s q body (s.serve (s.cache.storedGeneration q) q body) := by
  by_cases hheld : q ∈ s.cache.held
  · rw [serve_of_held hheld]
    refine .refused (begins_of_held hheld) ?_ (held_ensureLock s.cache q) rfl
    exact entries_locked s q
  · have hbegins := begins_eq hheld
    have hreleased : (s.locked q).cache.held.erase q = s.cache.held := by
      rw [held_locked, List.erase_cons_head]
    rw [serve_eq hheld]
    -- What the stored result is worth decides whether there is a computation.
    rw [opening] at hbegins
    cases (s.locked q).finding (s.cache.storedGeneration q) q with
    | shared he _ h | fresh he _ _ h =>
        rw [h] at hbegins ⊢
        rw [Cache.entry?, entries_locked] at he
        exact .found hbegins he (entries_locked s q) hreleased rfl
    | unclear _ _ _ h =>
        rw [h] at hbegins ⊢
        exact .refused hbegins (entries_locked s q) hreleased rfl
    | stale _ h =>
        rw [h] at hbegins ⊢
        exact outcome_closed hbegins rfl body

variable {s s' s₀ : Session κ σ V} {q : Question κ} {body : Body κ σ V ε}

/-- Only a computation that has a value and something to store it with is answered. -/
lemma Outcome.of_ok {v : V} (h : Outcome s q body (.ok v, s')) (hbegins : s.begins q = some s₀) :
    ∃ digest, (body s₀).1 = .ok v ∧ (ending q (body s₀).2).digests.fingerprint = .ok digest ∧
      s'.cache.entry? q = some (resultOf q v digest (body s₀).2) ∧
      s'.frames = (s.withFrame (·.absorb (resultOf q v digest (body s₀).2))).frames := by
  cases h with
  | found hnone => simp [hbegins] at hnone
  | stored hbegins' hv hd hentries _ hframes =>
      obtain rfl := Option.some.inj (hbegins.symm.trans hbegins')
      exact ⟨_, hv, hd, entry?_of_put hentries, hframes⟩

/-- A computation that fails leaves what it has done to other questions. -/
lemma Outcome.of_error {f : Failure ε} (h : Outcome s q body (.error f, s'))
    (hbegins : s.begins q = some s₀) :
    Fails q f (body s₀) ∧ s'.cache.entries = (body s₀).2.cache.entries ∧
      s'.cache.held = (body s₀).2.cache.held.erase q ∧ s'.frames = s.frames := by
  cases h with
  | refused hnone => simp [hbegins] at hnone
  | failed hbegins' hfails hentries hheld hframes =>
      obtain rfl := Option.some.inj (hbegins.symm.trans hbegins')
      exact ⟨hfails, hentries, hheld, hframes⟩

/-- The failure of a computation is the answer. -/
lemma Outcome.eq_error_of_fails {r : Except (Failure ε) V} {f : Failure ε}
    (h : Outcome s q body (r, s')) (hbegins : s.begins q = some s₀)
    (hfails : Fails q f (body s₀)) : r = .error f := by
  cases r with
  | ok v =>
      obtain ⟨digest, hv, hd, -⟩ := h.of_ok hbegins
      simp [Fails, hv, hd] at hfails
  | error g =>
      obtain ⟨hfails', -⟩ := h.of_error hbegins
      rcases hfails with hf | ⟨v, fault, hv, hd, rfl⟩
      · simp [Fails, hf] at hfails'
        rw [hfails']
      · simp [Fails, hv, hd] at hfails'
        rw [hfails']

end Session

end ScarbCrates
