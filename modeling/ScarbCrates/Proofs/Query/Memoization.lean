import Mathlib.Tactic.Common
import ScarbCrates.Proofs.Query.Serving
import ScarbCrates.Proofs.Query.Uncached

/-!
# A session agrees with computations without a cache

One request, and one computation, in a session whose stored results are right wherever they would
be used: they give what the computations give without a cache, and whatever they store is right
too.

* `Entry.ProducedBy` — the result is the answer to its question in some world.
* `Entry.Agrees` — if the result would be used in a world, it is the answer in that world.
* `Session.serve_spec`, `Session.run_spec` — a request, and a computation.
-/

namespace ScarbCrates

variable {κ σ V ε : Type}

/-! ## Results that are right -/

namespace Entry

variable {P : Question κ → Computation κ σ V ε V} {w : World σ} {q : Question κ} {e : Entry V}

/-- The result is what a question is answered with in a world, with the fingerprint of the files
that the answer depends on. -/
structure ProducedBy (P : Question κ → Computation κ σ V ε V) (w : World σ) (q : Question κ)
    (e : Entry V) : Prop where
  answer : (P q).answer w = .ok (e.value, e.tally)
  fingerprint : e.digests.fingerprint = .ok e.inputsDigest

/-- It can be told whether the result may be used, and only the answer to the question may. -/
def Agrees (P : Question κ → Computation κ σ V ε V) (w : World σ) (q : Question κ)
    (e : Entry V) : Prop :=
  ∃ b, (e.isFresh w.disk).run.value = .ok b ∧
    (b = true → (P q).answer w = .ok (e.value, e.tally))

lemma ProducedBy.sealed (h : e.ProducedBy P w q) : e.Sealed :=
  have ht := Computation.accurate_of_answer h.answer
  ⟨ht.nodup, ht.holds.nulFree, h.fingerprint⟩

lemma ProducedBy.agrees (h : e.ProducedBy P w q) : e.Agrees P w q := by
  obtain ⟨b, hb⟩ := exists_isFresh h.sealed w.disk
  exact ⟨b, hb, fun _ => h.answer⟩

end Entry

namespace Session

open ScarbCrates.Computation

/-! ## What a session does while something runs -/

/-- A session after something has run in it: the world is still of its class, the locks are held
as before, and whatever has been stored is right. -/
structure Evolves (P : Question κ → Computation κ σ V ε V) (W : World σ → Prop) (w : World σ)
    (s s' : Session κ σ V) : Prop where
  world : W s'.world
  held : s'.cache.held = s.cache.held
  entries : ∀ x ∈ s'.cache.entries, x ∈ s.cache.entries ∨ x.2.ProducedBy P w x.1

/-- A computation has run in frame `f`: with the result, and the tally, that it has without a
cache. -/
structure Ran {α : Type} (P : Question κ → Computation κ σ V ε V) (W : World σ → Prop)
    (w : World σ) (c : Computation κ σ V ε α) (f : Frame κ) (rest : List (Frame κ))
    (s : Session κ σ V) (out : Except (Failure ε) α × Session κ σ V) : Prop where
  result : out.1 = (c.eval w f.tally).1
  frames : ∃ f' : Frame κ, out.2.frames = f' :: rest ∧ f'.tally = (c.eval w f.tally).2
  evolves : Evolves P W w s out.2

/-- A result has been obtained for a question: the answer that it has without a cache. -/
structure Obtained [DecidableEq κ] (P : Question κ → Computation κ σ V ε V) (W : World σ → Prop) (w : World σ)
    (q : Question κ) (s : Session κ σ V) (out : Except (Failure ε) (Entry V) × Session κ σ V) :
    Prop where
  result : (out.1.map fun e => (e.value, e.tally)) = (P q).answer w
  stored : ∀ e, out.1 = .ok e → out.2.cache.entry? q = some e
  frames : out.2.frames = s.frames
  evolves : Evolves P W w s out.2

/-- A request has been served: with the answer that the question has without a cache, which the
innermost frame has inherited. -/
structure Served [DecidableEq κ] (P : Question κ → Computation κ σ V ε V) (W : World σ → Prop)
    (w : World σ) (q : Question κ) (s : Session κ σ V)
    (out : Except (Failure ε) V × Session κ σ V) : Prop where
  evolves : Evolves P W w s out.2
  result : (∃ f, (P q).answer w = .error f ∧ out.1 = .error f ∧ out.2.frames = s.frames) ∨
    ∃ e : Entry V, (P q).answer w = .ok (e.value, e.tally) ∧ out.1 = .ok e.value ∧
      out.2.frames = (s.withFrame (·.absorb e)).frames ∧ out.2.cache.entry? q = some e

section Spec

variable {P : Question κ → Computation κ σ V ε V} {W : World σ → Prop} {w : World σ}
variable {s s' s'' : Session κ σ V} {q : Question κ}

lemma Evolves.trans (h : Evolves P W w s s') (h' : Evolves P W w s' s'') :
    Evolves P W w s s'' := by
  refine ⟨h'.world, h'.held.trans h.held, fun x hx => ?_⟩
  rcases h'.entries x hx with hx | hx
  · exact h.entries x hx
  · exact Or.inr hx

/-- Whatever a step does besides, the session evolves if it stores nothing. -/
lemma Evolves.of_entries_eq (hw : W s'.world) (hh : s'.cache.held = s.cache.held)
    (he : s'.cache.entries = s.cache.entries) : Evolves P W w s s' :=
  ⟨hw, hh, fun _ hx => Or.inl (he ▸ hx)⟩

lemma Evolves.agrees (h : Evolves P W w s s')
    (ha : ∀ e, (q, e) ∈ s.cache.entries → e.Agrees P w q) (e : Entry V)
    (he : (q, e) ∈ s'.cache.entries) : e.Agrees P w q := by
  rcases h.entries _ he with he | he
  · exact ha e he
  · exact he.agrees

/-- A computation that comes to another one after one step. -/
lemma Ran.of_step {α : Type} {c c' : Computation κ σ V ε α} {f f' : Frame κ}
    {rest : List (Frame κ)} {out : Except (Failure ε) α × Session κ σ V}
    (hs : Evolves P W w s s') (he : c.eval w f.tally = c'.eval w f'.tally)
    (h : Ran P W w c' f' rest s' out) : Ran P W w c f rest s out :=
  ⟨he ▸ h.result, he ▸ h.frames, hs.trans h.evolves⟩

/-! ## One request -/

variable [DecidableEq κ]

/-- What becomes of a value is what becomes of it without a cache; what is stored is right. -/
lemma settle_spec {f : Frame κ} {v : V} (hw : W s.world)
    (ha : (P q).eval w .start = (.ok v, f.tally)) :
    Obtained P W w q s (s.settle q f v) := by
  have hans : (P q).answer w = Computation.settled (.ok v, f.tally) := by
    rw [Computation.answer, ha]
  simp only [Computation.settled, Frame.tally] at hans
  rw [settle]
  cases hd : f.digests.fingerprint with
  | error fault =>
      rw [hd] at hans
      exact ⟨hans.symm, fun e he => by simp at he, rfl, .of_entries_eq hw rfl rfl⟩
  | ok digest =>
      rw [hd] at hans
      refine ⟨hans.symm, fun e he => ?_, rfl, hw, rfl, fun x hx => ?_⟩
      · cases he
        exact Assoc.get?_put_self _ _ _
      · rcases Assoc.mem_put hx with hx | rfl
        · exact Or.inl hx
        · exact Or.inr ⟨hans, hd⟩

lemma unlocked_spec {s₀ : Session κ σ V} {out : Except (Failure ε) (Entry V) × Session κ σ V}
    (hframes : s₀.frames = s.frames) (hentries : s₀.cache.entries = s.cache.entries)
    (hheld : s₀.cache.held = q :: s.cache.held) (h : Obtained P W w q s₀ out) :
    Served P W w q s (unlocked q out) := by
  obtain ⟨outcome, after⟩ := out
  obtain ⟨hresult, hstored, hf, hev⟩ := h
  have hev' : Evolves P W w s (after.withCache (·.release q)) := by
    refine ⟨hev.world, ?_, fun x hx => hentries ▸ hev.entries x hx⟩
    show after.cache.held.erase q = _
    rw [hev.held, hheld, List.erase_cons_head]
  cases outcome with
  | error f => exact ⟨hev', Or.inl ⟨f, hresult.symm, rfl, hf.trans hframes⟩⟩
  | ok e =>
      have hf' : (after.withFrame (·.absorb e)).frames = (s.withFrame (·.absorb e)).frames := by
        rw [withFrame, withFrame, hf, hframes]
      exact ⟨⟨hev'.world, hev'.held, hev'.entries⟩,
        Or.inr ⟨e, hresult.symm, rfl, hf', hstored e rfl⟩⟩

variable [QueryKey κ]

lemma compute_spec {body : Session κ σ V → Except (Failure ε) V × Session κ σ V}
    (hbody : Ran P W w (P q) (Frame.start q) s.frames (s.opened q) (body (s.opened q))) :
    Obtained P W w q s (s.compute q body) := by
  rw [compute_eq]
  revert hbody
  generalize body (s.opened q) = out
  rcases out with ⟨outcome, after⟩
  rintro ⟨hresult, ⟨f', hframes, htally⟩, hev⟩
  have hev' : Evolves P W w s { after with frames := s.frames } :=
    ⟨hev.world, hev.held, hev.entries⟩
  have heval : (P q).eval w .start = (outcome, f'.tally) := Prod.ext hresult.symm htally.symm
  have hf : after.frame?.getD (Frame.start q) = f' := by
    show after.frames.head?.getD (Frame.start q) = f'
    rw [show after.frames = f' :: s.frames from hframes]
    rfl
  cases outcome with
  | error f =>
      refine ⟨?_, fun _ he => (nomatch he), rfl, hev'⟩
      rw [Computation.answer, heval]
      rfl
  | ok v =>
      rw [closed, hf]
      have hset := settle_spec (s := { after with frames := s.frames }) hev'.world heval
      exact ⟨hset.result, hset.stored, hset.frames, hev'.trans hset.evolves⟩

/-- **One request** for a question that is not under way: it has the answer that it has without a
cache, and the computation that asked inherits what the answer depends on. -/
lemma serve_spec (body : Session κ σ V → Except (Failure ε) V × Session κ σ V)
    (hw : W s.world) (hdisk : s.world.disk = w.disk) (hheld : q ∉ s.cache.held)
    (ha : ∀ e, (q, e) ∈ s.cache.entries → e.Agrees P w q)
    (hbody : ∀ s₁ : Session κ σ V, s₁.frames = Frame.start q :: s.frames →
      s₁.world = s.world → s₁.cache.entries = s.cache.entries →
      s₁.cache.held = q :: s.cache.held →
      Ran P W w (P q) (Frame.start q) s.frames s₁ (body s₁)) :
    Served P W w q s (s.serve (s.cache.storedGeneration q) q body) := by
  by_cases hfresh : ∃ e, s.cache.entry? q = some e ∧
      (e.isFresh s.world.disk).run.value = .ok true
  · obtain ⟨e, he, hb⟩ := hfresh
    obtain ⟨b, hb', hans⟩ := ha e (Assoc.mem_of_get? he)
    have hbt : b = true := by
      rw [← hdisk, hb, Except.ok.injEq] at hb'
      exact hb'.symm
    obtain ⟨s', hs', hframes, hworld, hentries, hheld'⟩ := serve_of_fresh hheld he hb body
    rw [hs']
    refine ⟨.of_entries_eq (hworld ▸ hw) hheld' hentries,
      Or.inr ⟨e, hans hbt, rfl, hframes, ?_⟩⟩
    rwa [Cache.entry?, hentries]
  · have hstale : ∀ e, s.cache.entry? q = some e →
        (e.isFresh s.world.disk).run.value = .ok false := by
      intro e he
      obtain ⟨b, hb, _⟩ := ha e (Assoc.mem_of_get? he)
      rw [hdisk, hb]
      cases b with
      | false => rfl
      | true => exact absurd ⟨e, he, hdisk ▸ hb⟩ hfresh
    obtain ⟨s₀, hframes, hworld, hentries, hheld₀, h⟩ := serve_of_stale hheld hstale body
    have hopened := hbody (s₀.opened q) (congrArg _ hframes) hworld hentries hheld₀
    rw [← hframes] at hopened
    rw [h]
    exact unlocked_spec hframes hentries hheld₀ (compute_spec hopened)

/-! ## One computation -/

/-- A question in the course of a computation, given what the request comes to and how the
computation goes on after any answer. -/
lemma Ran.of_served {α : Type} {next : Except (Failure ε) V → Computation κ σ V ε α} {f : Frame κ}
    {rest : List (Frame κ)} {out : Except (Failure ε) V × Session κ σ V}
    (hserve : Served P W w q s out) (hf : s.frames = f :: rest)
    (hnext : ∀ r f' s', Evolves P W w s s' → s'.frames = f' :: rest →
      Ran P W w (next r) f' rest s' (run (next r) s')) :
    Ran P W w (.request q (P q) next) f rest s (run (next out.1) out.2) := by
  obtain ⟨r, s'⟩ := out
  obtain ⟨hev, hcase⟩ := hserve
  rcases hcase with ⟨g, hans, rfl, hframes⟩ | ⟨e, hans, rfl, hframes, -⟩
  · have heval : eval w (.request q (P q) next) f.tally = (next (.error g)).eval w f.tally := by
      rw [answer] at hans
      simp only [eval, hans]
    exact .of_step hev heval (hnext _ f s' hev (hframes.trans hf))
  · have heval : eval w (.request q (P q) next) f.tally =
        (next (.ok e.value)).eval w (f.absorb e).tally := by
      rw [answer] at hans
      simp only [eval, hans]
      rfl
    have hf' : s'.frames = f.absorb e :: rest := by
      rw [hframes, withFrame, hf]
    exact .of_step hev heval (hnext _ _ s' hev hf')

/-- **A computation in a frame** has the result and the tally that it has without a cache, if none
of the questions that it asks is under way and their stored results agree. -/
theorem run_spec (hP : ∀ q, (P q).Steady P W) (hw : W w) (hW : ∀ w', W w' → w'.disk = w.disk)
    {α : Type} {c : Computation κ σ V ε α} (hc : c.Steady P W) {f : Frame κ}
    {rest : List (Frame κ)} (hs : W s.world) (hf : s.frames = f :: rest)
    (hheld : ∀ q, c.Asks w q → q ∉ s.cache.held)
    (ha : ∀ q, c.Asks w q → ∀ e, (q, e) ∈ s.cache.entries → e.Agrees P w q) :
    Ran P W w c f rest s (run c s) := by
  -- Besides the computation, the induction is on the body of every question that it asks.
  induction c generalizing s f rest with
  | done a => exact ⟨rfl, ⟨f, hf, rfl⟩, .of_entries_eq hs rfl rfl⟩
  | fail g => exact ⟨rfl, ⟨f, hf, rfl⟩, .of_entries_eq hs rfl rfl⟩
  | declare p next ih =>
      obtain ⟨ns, hd⟩ := declare_cases (ε := ε) hf p
      rw [hW _ hs] at hd
      rcases hd with ⟨fault, hd, hdeclare⟩ | ⟨ds, hd, hdeclare⟩
      · have hev : Evolves P W w s (s.withNotices ns) := .of_entries_eq hs rfl rfl
        have heval : eval w (.declare p next) f.tally =
            (next (.error (.input (.access fault)))).eval w f.tally := by
          simp only [eval, Frame.tally, hd]
        rw [run, hdeclare]
        exact .of_step hev heval (ih _ (hc _) hev.world hf (fun q h => hheld q ⟨_, h⟩)
          fun q h => ha q ⟨_, h⟩)
      · have hev : Evolves P W w s
            { s.withNotices ns with frames := { f with digests := ds } :: rest } :=
          .of_entries_eq hs rfl rfl
        have heval : eval w (.declare p next) f.tally =
            (next (.ok ())).eval w (Frame.tally { f with digests := ds }) := by
          simp only [eval, Frame.tally, hd]
        rw [run, hdeclare]
        exact .of_step hev heval (ih _ (hc _) hev.world rfl (fun q h => hheld q ⟨_, h⟩)
          fun q h => ha q ⟨_, h⟩)
  | lower level next ih =>
      have hev : Evolves P W w s (s.withFrame (·.lower level)) := .of_entries_eq hs rfl rfl
      have hf' : (s.withFrame (·.lower level)).frames = f.lower level :: rest := by
        rw [withFrame, hf]
      have heval : eval w (.lower level next) f.tally = next.eval w (f.lower level).tally := rfl
      exact .of_step hev heval (ih hc hev.world hf' hheld ha)
  | untracked next ih =>
      have hev : Evolves P W w s (s.withFrame Frame.markUntracked) := .of_entries_eq hs rfl rfl
      have hf' : (s.withFrame Frame.markUntracked).frames = f.markUntracked :: rest := by
        rw [withFrame, hf]
      have heval : eval w (.untracked next) f.tally = next.eval w f.markUntracked.tally := rfl
      exact .of_step hev heval (ih hc hev.world hf' hheld ha)
  | request q body next ihb ihn =>
      obtain ⟨rfl, hn⟩ := hc
      -- In the body the lock of the question itself is held, but the body never asks for it.
      have hserve := serve_spec (run (P q)) hs (hW _ hs) (hheld q (Or.inl rfl))
        (ha q (Or.inl rfl)) fun s₁ hf₁ hw₁ he₁ hh₁ =>
          ihb (hP q) (hw₁ ▸ hs) hf₁
            (fun q' h => hh₁ ▸ List.not_mem_cons_of_ne_of_not_mem
              (fun hq => not_asks_self hP hw q (hq ▸ h)) (hheld q' (Or.inr (Or.inl h))))
            fun q' h => he₁ ▸ ha q' (Or.inr (Or.inl h))
      rw [run]
      exact .of_served hserve hf fun r f' s' hev hf' => ihn r (hn r) hev.world hf'
        (fun q' h => hev.held ▸ hheld q' (Or.inr (Or.inr ⟨r, h⟩)))
        fun q' h => hev.agrees (ha q' (Or.inr (Or.inr ⟨r, h⟩)))
  | invalidate level next ih => exact hc.elim
  | clear next ih => exact hc.elim
  | inspect next ih => exact hc.elim
  | perform act next ih =>
      obtain ⟨b, hb, hn⟩ := hc
      have hval := (hb _ hs).1
      have heval : eval w (.perform act next) f.tally = (next b).eval w f.tally := by
        rw [eval, (hb w hw).1]
      have hasks : ∀ q, (next b).Asks w q → Asks w q (.perform act next) := fun q h => by
        show (next (act w).value.1).Asks w q
        rwa [(hb w hw).1]
      have hev : Evolves P W w s { s.withNotices (act s.world).notices with
          world := (act s.world).value.2 } := .of_entries_eq (hb _ hs).2 rfl rfl
      simp only [run, noted, hval]
      exact .of_step hev heval (ih b hn hev.world hf (fun q h => hheld q (hasks q h))
        fun q h => ha q (hasks q h))

end Spec

end Session

end ScarbCrates
