import ScarbCrates.Proofs.Query.Sequencing
import ScarbCrates.Proofs.Query.Soundness

/-!
# Computations that ask nothing

What a computation does in its frame and to the world, if it asks no questions and leaves the
stored results alone.  Here the world may change in the course of the computation.

* `Computation.solo` — the result, the frame and the world at the end.
* `Session.run_solo` — what a session makes of such a computation.
* `Session.Asked`, `Session.serve_solo` — all that can come of a request that leads to one.
* `Computation.eval_eq_solo` — in a steady world nothing of this depends on the order of steps.
-/

namespace ScarbCrates

variable {κ σ V ε α β : Type}

namespace Computation

/-- No questions are asked, and the stored results are left alone. -/
def Solitary : {α : Type} → Computation κ σ V ε α → Prop
  | _, .done _ => True
  | _, .fail _ => True
  | _, .declare _ next => ∀ r, Solitary (next r)
  | _, .lower _ next => Solitary next
  | _, .untracked next => Solitary next
  | _, .request _ _ _ => False
  | _, .invalidate _ _ => False
  | _, .clear _ => False
  | _, .inspect _ => False
  | _, .perform _ next => ∀ b, Solitary (next b)

/-- **The course of a computation that asks nothing:** its result, its frame and the world. -/
def solo : {α : Type} → Computation κ σ V ε α → Frame κ → World σ →
    Except (Failure ε) α × Frame κ × World σ
  | _, .done a, f, w => (.ok a, f, w)
  | _, .fail e, f, w => (.error e, f, w)
  | _, .declare p next, f, w =>
    match (f.digests.declare w.disk p).run.value with
    | .error fault => solo (next (.error (.input (.access fault)))) f w
    | .ok ds => solo (next (.ok ())) { f with digests := ds } w
  | _, .lower level next, f, w => solo next (f.lower level) w
  | _, .untracked next, f, w => solo next f.markUntracked w
  | _, .request _ _ _, f, w => (.error .deadlock, f, w)
  | _, .invalidate _ _, f, w => (.error .deadlock, f, w)
  | _, .clear _, f, w => (.error .deadlock, f, w)
  | _, .inspect _, f, w => (.error .deadlock, f, w)
  | _, .perform act next, f, w => solo (next (act w).value.1) f (act w).value.2

lemma solitary_ofExcept (r : Except (Failure ε) α) :
    (ofExcept r : Computation κ σ V ε α).Solitary := by
  cases r <;> trivial

lemma Solitary.bind {c : Computation κ σ V ε α} {g : α → Computation κ σ V ε β}
    (hc : c.Solitary) (hg : ∀ a, (g a).Solitary) : (c >>= g).Solitary := by
  show (andThen g c).Solitary
  induction c with
  | done a => exact hg a
  | fail e => trivial
  | declare p next ih => exact fun r => ih r (hc r) hg
  | lower level next ih => exact ih hc hg
  | untracked next ih => exact ih hc hg
  | request q body next _ ih => exact hc.elim
  | invalidate level next ih => exact hc.elim
  | clear next ih => exact hc.elim
  | inspect next ih => exact hc.elim
  | perform act next ih => exact fun b => ih b (hc b) hg

/-- The second computation goes on in the frame and the world of the first. -/
lemma solo_bind {c : Computation κ σ V ε α} (hc : c.Solitary) (g : α → Computation κ σ V ε β)
    (f : Frame κ) (w : World σ) :
    (c >>= g).solo f w =
      match c.solo f w with
      | (.ok a, f', w') => (g a).solo f' w'
      | (.error e, f', w') => (.error e, f', w') := by
  show (andThen g c).solo f w = _
  induction c generalizing f w with
  | done a => rfl
  | fail e => rfl
  | declare p next ih =>
      simp only [andThen, solo]
      split <;> exact ih _ (hc _) g _ _
  | lower level next ih => exact ih hc g _ _
  | untracked next ih => exact ih hc g _ _
  | request q body next _ ih => exact hc.elim
  | invalidate level next ih => exact hc.elim
  | clear next ih => exact hc.elim
  | inspect next ih => exact hc.elim
  | perform act next ih => exact ih _ (hc _) g _ _

lemma solo_bind_ok {c : Computation κ σ V ε α} (hc : c.Solitary) {f f' : Frame κ}
    {w w' : World σ} {a : α} (h : c.solo f w = (.ok a, f', w')) (g : α → Computation κ σ V ε β) :
    (c >>= g).solo f w = (g a).solo f' w' := by
  rw [solo_bind hc, h]

lemma solo_bind_error {c : Computation κ σ V ε α} (hc : c.Solitary) {f f' : Frame κ}
    {w w' : World σ} {e : Failure ε} (h : c.solo f w = (.error e, f', w'))
    (g : α → Computation κ σ V ε β) : (c >>= g).solo f w = (.error e, f', w') := by
  rw [solo_bind hc, h]

lemma Solitary.not_asks {w : World σ} {q : Question κ} {c : Computation κ σ V ε α}
    (hc : c.Solitary) : ¬c.Asks w q := by
  induction c with
  | done a => exact fun h => h
  | fail e => exact fun h => h
  | declare p next ih => exact fun ⟨r, h⟩ => ih r (hc r) h
  | lower level next ih => exact ih hc
  | untracked next ih => exact ih hc
  | request q body next _ ih => exact hc.elim
  | invalidate level next ih => exact hc.elim
  | clear next ih => exact hc.elim
  | inspect next ih => exact hc.elim
  | perform act next ih => exact ih _ (hc _)

/-- In a class of worlds where acting changes nothing that is seen, the course of a solitary
computation is its evaluation. -/
lemma eval_eq_solo {P : Question κ → Computation κ σ V ε V} {W : World σ → Prop} {w w' : World σ}
    (hW : ∀ w', W w' → w'.disk = w.disk) (hw : W w) {c : Computation κ σ V ε α}
    (hs : c.Solitary) (hc : c.Steady P W) (f : Frame κ) (hw' : W w') :
    c.eval w f.tally = ((c.solo f w').1, (c.solo f w').2.1.tally) := by
  induction c generalizing f w' with
  | done a => rfl
  | fail e => rfl
  | declare p next ih =>
      simp only [eval, solo, hW w' hw']
      show (match (f.digests.declare w.disk p).run.value with
        | .error fault => _
        | .ok ds => _) = _
      cases (f.digests.declare w.disk p).run.value with
      | error fault => exact ih _ (hs _) (hc _) f hw'
      | ok ds => exact ih _ (hs _) (hc _) { f with digests := ds } hw'
  | lower level next ih => exact ih hs hc (f.lower level) hw'
  | untracked next ih => exact ih hs hc f.markUntracked hw'
  | request q body next _ ih => exact hs.elim
  | invalidate level next ih => exact hs.elim
  | clear next ih => exact hs.elim
  | inspect next ih => exact hs.elim
  | perform act next ih =>
      obtain ⟨b, hb, hn⟩ := hc
      simp only [eval, solo, (hb w hw).1, (hb w' hw').1]
      exact ih b (hs b) hn f (hb w' hw').2

end Computation

namespace Session

variable [DecidableEq κ] [QueryKey κ]

/-- **A session while a solitary computation runs in its innermost frame:** the frame, the world and
the notices change, and nothing else. -/
lemma run_solo {c : Computation κ σ V ε α} (hc : c.Solitary) {s : Session κ σ V} {f : Frame κ}
    {rest : List (Frame κ)} (hf : s.frames = f :: rest) :
    ∃ ns, run c s = ((c.solo f s.world).1,
      { cache := s.cache, frames := (c.solo f s.world).2.1 :: rest,
        world := (c.solo f s.world).2.2, notices := s.notices ++ ns }) := by
  induction c generalizing s f with
  | done a => exact ⟨[], by rw [List.append_nil, Computation.solo, ← hf]; rfl⟩
  | fail e => exact ⟨[], by rw [List.append_nil, Computation.solo, ← hf]; rfl⟩
  | declare p next ih =>
      obtain ⟨noted, ⟨fault, hd, h⟩ | ⟨ds, hd, h⟩⟩ := declare_cases (ε := ε) hf p
      · obtain ⟨ns, hrun⟩ := ih (.error (.input (.access fault))) (hc _)
          (s := s.withNotices noted) hf
        refine ⟨noted ++ ns, ?_⟩
        simp only [run, h, Computation.solo, hd]
        rw [hrun, ← List.append_assoc]
        rfl
      · obtain ⟨ns, hrun⟩ := ih (.ok ()) (hc _) (f := { f with digests := ds })
          (s := { s.withNotices noted with frames := { f with digests := ds } :: rest }) rfl
        refine ⟨noted ++ ns, ?_⟩
        simp only [run, h, Computation.solo, hd]
        rw [hrun, ← List.append_assoc]
        rfl
  | lower level next ih =>
      have hf' : (s.withFrame (·.lower level)).frames = f.lower level :: rest := by
        rw [withFrame, hf]
      exact ih hc hf'
  | untracked next ih =>
      have hf' : (s.withFrame Frame.markUntracked).frames = f.markUntracked :: rest := by
        rw [withFrame, hf]
      exact ih hc hf'
  | request q body next _ ih => exact hc.elim
  | invalidate level next ih => exact hc.elim
  | clear next ih => exact hc.elim
  | inspect next ih => exact hc.elim
  | perform act next ih =>
      obtain ⟨ns, h⟩ := ih (act s.world).value.1 (hc _) (f := f)
        (s := { s.withNotices (act s.world).notices with world := (act s.world).value.2 }) hf
      refine ⟨(act s.world).notices ++ ns, ?_⟩
      rw [← List.append_assoc]
      exact h

/-- A result has been stored: what a course has led to, with the fingerprint of its table. -/
structure StoredBy (course : Except (Failure ε) V × Frame κ × World σ) (e : Entry V) : Prop where
  settled : Computation.settled (course.1, course.2.1.tally) = .ok (e.value, e.tally)
  fingerprint : e.digests.fingerprint = .ok e.inputsDigest

/-- **What comes of a request** for a question whose computation takes some course: the stored result
if it may be used again, and else a failure or a new result. -/
inductive Asked (q : Question κ) (course : Except (Failure ε) V × Frame κ × World σ)
    (s : Session κ σ V) : Except (Failure ε) (Entry V) → Session κ σ V → Prop
  | hit {e : Entry V} {s' : Session κ σ V} (he : s.cache.entry? q = some e)
      (hfresh : (e.isFresh s.world.disk).run.value = .ok true) (hworld : s'.world = s.world)
      (hentries : s'.cache.entries = s.cache.entries) : Asked q course s (.ok e) s'
  | refused {f : Failure ε} {s' : Session κ σ V} (hcold : ¬s.Warm q)
      (hf : Computation.settled (course.1, course.2.1.tally) = .error f)
      (hworld : s'.world = course.2.2) (hentries : s'.cache.entries = s.cache.entries) :
      Asked q course s (.error f) s'
  | stored {e : Entry V} {s' : Session κ σ V} (hcold : ¬s.Warm q) (he : StoredBy course e)
      (hworld : s'.world = course.2.2)
      (hentries : s'.cache.entries = Assoc.put s.cache.entries q e) : Asked q course s (.ok e) s'

/-- The frames after a request: only a result is inherited. -/
def framesAfter (s : Session κ σ V) : Except (Failure ε) (Entry V) → List (Frame κ)
  | .error _ => s.frames
  | .ok e => (s.withFrame (·.absorb e)).frames

/-- **One request** whose computation is solitary. -/
lemma serve_solo {c : Computation κ σ V ε V} (hc : c.Solitary) {s : Session κ σ V} (hs : s.Sound)
    {q : Question κ} (hheld : q ∉ s.cache.held) :
    ∃ out s', s.serve (s.cache.storedGeneration q) q (run c) = (out.map Entry.value, s') ∧
      s'.cache.held = s.cache.held ∧ s'.frames = s.framesAfter out ∧
      Asked q (c.solo (Frame.start q) s.world) s out s' := by
  by_cases hwarm : s.Warm q
  · obtain ⟨e, he, hfresh⟩ := hwarm
    obtain ⟨s', h, hframes, hworld, hentries, hheld'⟩ := serve_of_fresh hheld he hfresh (run c)
    exact ⟨.ok e, s', h, hheld', hframes, .hit he hfresh hworld hentries⟩
  have hstale := stale_of_not_warm hs.entries hwarm
  obtain ⟨s₀, hframes, hworld, hentries, hheld₀, h⟩ := serve_of_stale hheld hstale (run c)
  have hopen : (s₀.opened q).frames = Frame.start q :: s₀.frames := rfl
  obtain ⟨ns, hrun⟩ := run_solo hc hopen
  have hw : (s₀.opened q).world = s.world := hworld
  rw [hw] at hrun
  rw [h, compute_eq, hrun]
  generalize c.solo (Frame.start q) s.world = course
  have hheld' : (s₀.opened q).cache.held.erase q = s.cache.held := by
    show s₀.cache.held.erase q = _
    rw [hheld₀, List.erase_cons_head]
  rcases course with ⟨outcome, f, w⟩
  cases outcome with
  | error e =>
      exact ⟨.error e, _, rfl, hheld', hframes, .refused hwarm rfl rfl hentries⟩
  | ok v =>
      simp only [closed, frame?, List.head?_cons, Option.getD_some, settle]
      cases hd : f.digests.fingerprint with
      | error fault =>
          refine ⟨.error _, _, rfl, hheld', hframes, .refused hwarm ?_ rfl hentries⟩
          simp only [Computation.settled, Frame.tally, hd]
      | ok digest =>
          have hset : Computation.settled ((.ok v : Except (Failure ε) V), f.tally) =
              .ok (v, f.tally) := by
            simp only [Computation.settled, Frame.tally, hd]
          refine ⟨.ok ⟨v, f.digests, digest, f.durability, f.untracked, s₀.cache.generation + 1⟩, _,
            rfl, hheld', ?_, .stored hwarm ⟨hset, hd⟩ rfl ?_⟩
          · simp only [framesAfter, withFrame, withCache, hframes]
            rfl
          · exact congrArg (fun entries => Assoc.put entries q _) hentries

section Asked

omit [QueryKey κ]

variable {q : Question κ} {course : Except (Failure ε) V × Frame κ × World σ}
variable {s s₀ s' : Session κ σ V} {out : Except (Failure ε) (Entry V)}

/-- Only the stored results and the world matter to what comes of a request. -/
lemma Asked.congr (h : Asked q course s₀ out s') (hw : s₀.world = s.world)
    (he : s₀.cache.entries = s.cache.entries) : Asked q course s out s' := by
  have hentry : s.cache.entry? q = s₀.cache.entry? q := by
    rw [Cache.entry?, Cache.entry?, he]
  have hcold : ¬s₀.Warm q → ¬s.Warm q := by
    rw [Warm, Warm, hentry, hw]
    exact id
  cases h with
  | hit he' hfresh hworld hentries =>
      exact .hit (hentry.trans he') (hw ▸ hfresh) (hworld.trans hw) (hentries.trans he)
  | refused hc hf hworld hentries => exact .refused (hcold hc) hf hworld (hentries.trans he)
  | stored hc he' hworld hentries => exact .stored (hcold hc) he' hworld (he ▸ hentries)

lemma Asked.entry? {e : Entry V} (h : Asked q course s (.ok e) s') : s'.cache.entry? q = some e := by
  cases h with
  | hit he hfresh hworld hentries => rwa [Cache.entry?, hentries]
  | stored hc he hworld hentries =>
      rw [Cache.entry?, hentries]
      exact Assoc.get?_put_self _ _ _

/-- What comes of a request is determined, as far as the value and the world are concerned. -/
lemma Asked.unique {out' : Except (Failure ε) (Entry V)} {s'' : Session κ σ V}
    (h : Asked q course s out s') (h' : Asked q course s out' s'') :
    out.map Entry.value = out'.map Entry.value ∧ s'.world = s''.world := by
  cases h with
  | hit he hfresh hworld _ =>
      cases h' with
      | hit he' _ hworld' _ =>
          obtain rfl := Option.some.inj (he.symm.trans he')
          exact ⟨rfl, hworld.trans hworld'.symm⟩
      | refused hcold => exact absurd ⟨_, he, hfresh⟩ hcold
      | stored hcold => exact absurd ⟨_, he, hfresh⟩ hcold
  | refused hcold hf hworld _ =>
      cases h' with
      | hit he' hfresh' => exact absurd ⟨_, he', hfresh'⟩ hcold
      | refused _ hf' hworld' _ =>
          obtain rfl := Except.error.inj (hf.symm.trans hf')
          exact ⟨rfl, hworld.trans hworld'.symm⟩
      | stored _ he' => exact nomatch hf.symm.trans he'.settled
  | stored hcold he hworld _ =>
      cases h' with
      | hit he' hfresh' => exact absurd ⟨_, he', hfresh'⟩ hcold
      | refused _ hf' => exact nomatch hf'.symm.trans he.settled
      | stored _ he' hworld' _ =>
          have hvalue := congrArg Prod.fst (Except.ok.inj (he.settled.symm.trans he'.settled))
          exact ⟨congrArg Except.ok hvalue, hworld.trans hworld'.symm⟩

lemma Asked.world_of_warm (h : Asked q course s out s') (hwarm : s.Warm q) :
    s'.world = s.world := by
  cases h with
  | hit _ _ hworld _ => exact hworld
  | refused hcold => exact absurd hwarm hcold
  | stored hcold => exact absurd hwarm hcold

lemma Asked.world_of_cold (h : Asked q course s out s') (hcold : ¬s.Warm q) :
    s'.world = course.2.2 := by
  cases h with
  | hit he hfresh => exact absurd ⟨_, he, hfresh⟩ hcold
  | refused _ _ hworld _ => exact hworld
  | stored _ _ hworld _ => exact hworld

lemma Asked.sealed {e : Entry V} (h : Asked q course s (.ok e) s') (hs : s'.Sound) : e.Sealed :=
  hs.entries _ (Assoc.mem_of_get? h.entry?)

end Asked

end Session

end ScarbCrates
