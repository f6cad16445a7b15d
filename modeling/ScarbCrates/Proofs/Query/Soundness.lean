import ScarbCrates.Proofs.Query.Freshness
import ScarbCrates.Proofs.Query.Serving

/-!
# Sound sessions

Whatever runs in a session, and whatever becomes of the files meanwhile, every table of digests has
each file once and only files that can be looked at, every stored result has the fingerprint of its
table, and all locks that were taken are given back.

* `Session.run_keeps` — one computation, of any kind.
* `Session.Reachable`, `Session.Idle` — the states between two computations.
* `Session.Warm` — a stored result may be used again.
-/

namespace ScarbCrates

variable {κ σ V ε : Type}

namespace Digests

variable {d : Disk} {ds ds' other : Digests} {p : Path}

/-- A table as computations make it: each file once, and all of them can be looked at. -/
structure Sound (ds : Digests) : Prop where
  nodup : ds.files.Nodup
  nulFree : ds.NulFree

lemma sound_nil : Sound [] := ⟨List.nodup_nil, fun _ hp => absurd hp List.not_mem_nil⟩

lemma Sound.declare (h : ds.Sound) (hv : (declare d ds p).run.value = .ok ds') : ds'.Sound := by
  refine ⟨nodup_declare h.nodup hv, fun g hg => ?_⟩
  rcases declare_cases hv with ⟨-, rfl⟩ | ⟨digest, -, hp, rfl⟩
  · exact h.nulFree g hg
  · have hfiles : files (ds ++ [(p, digest)]) = ds.files ++ [p] := List.map_append
    rcases List.mem_append.1 (hfiles ▸ hg) with hg | hg
    · exact h.nulFree g hg
    · obtain rfl := List.mem_singleton.1 hg
      rw [ofFile_value] at hp
      by_contra hn
      rw [if_pos (Bool.not_eq_false _ ▸ hn)] at hp
      cases hp

lemma Sound.declareAll {ps : List Path} (h : ds.Sound) (hv : declareAll d ds ps = .ok ds') :
    ds'.Sound := by
  induction ps generalizing ds with
  | nil =>
      cases hv
      exact h
  | cons p rest ih =>
      obtain ⟨ds₁, hp, hv⟩ := declareAll_cons hv
      exact ih (h.declare hp) hv

lemma Sound.merge (h : ds.Sound) (h' : other.Sound) : (ds.merge other).Sound := by
  refine ⟨nodup_merge h.nodup other, fun g hg => ?_⟩
  obtain ⟨e, he, rfl⟩ := List.mem_map.1 hg
  rcases mem_merge he with he | he
  · exact h.nulFree e.1 (List.mem_map_of_mem he)
  · exact h'.nulFree e.1 (List.mem_map_of_mem he)

end Digests

lemma Entry.Sealed.sound {e : Entry V} (h : e.Sealed) : e.digests.Sound := ⟨h.nodup, h.nulFree⟩

namespace Session

/-! ## What every run keeps -/

/-- All tables are sound, and all stored results have their fingerprints. -/
structure Sound (s : Session κ σ V) : Prop where
  frames : ∀ f ∈ s.frames, f.digests.Sound
  entries : ∀ x ∈ s.cache.entries, x.2.Sealed

/-- What is true of a session after something has run in it: it is sound, it has the locks that it
had, and as many frames. -/
structure Keeps (s s' : Session κ σ V) : Prop where
  sound : s'.Sound
  held : s'.cache.held = s.cache.held
  depth : s'.frames.length = s.frames.length

variable {s s' s'' : Session κ σ V} {q : Question κ}

lemma Keeps.trans (h : Keeps s s') (h' : Keeps s' s'') : Keeps s s'' :=
  ⟨h'.sound, h'.held.trans h.held, h'.depth.trans h.depth⟩

lemma Sound.keeps_of_eq (h : s.Sound) (hf : s'.frames = s.frames)
    (he : s'.cache.entries = s.cache.entries) (hh : s'.cache.held = s.cache.held) : Keeps s s' :=
  ⟨⟨hf ▸ h.frames, he ▸ h.entries⟩, hh, congrArg List.length hf⟩

/-- Any change of the innermost frame is fine that leaves a sound table. -/
lemma Sound.keeps_withFrame (h : s.Sound) {g : Frame κ → Frame κ}
    (hg : ∀ f ∈ s.frame?, (g f).digests.Sound) : Keeps s (s.withFrame g) := by
  cases hs : s.frames with
  | nil =>
      refine h.keeps_of_eq ?_ rfl rfl
      rw [withFrame, hs]
  | cons f rest =>
      have hframe : f ∈ s.frame? := by
        rw [frame?, hs]
        rfl
      have hframes : (s.withFrame g).frames = g f :: rest := by
        rw [withFrame, hs]
      refine ⟨⟨?_, h.entries⟩, rfl, by rw [hframes, hs]; rfl⟩
      rw [hframes]
      intro f' hf'
      rcases List.mem_cons.1 hf' with rfl | hf'
      · exact hg f hframe
      · exact h.frames f' (hs ▸ List.mem_cons_of_mem _ hf')

lemma Sound.frame (h : s.Sound) {f : Frame κ} (hf : f ∈ s.frame?) : f.digests.Sound :=
  h.frames f (List.mem_of_mem_head? hf)

lemma Sound.opened [QueryKey κ] (h : s.Sound) (q : Question κ) : (s.opened q).Sound := by
  refine ⟨fun f hf => ?_, h.entries⟩
  rcases List.mem_cons.1 hf with rfl | hf
  · exact Digests.sound_nil
  · exact h.frames f hf

/-- Nothing is under way, and every stored result is sealed. -/
structure Idle (s : Session κ σ V) : Prop where
  frames : s.frames = []
  held : s.cache.held = []
  entries : ∀ x ∈ s.cache.entries, x.2.Sealed

lemma Idle.sound (h : s.Idle) : s.Sound := by
  refine ⟨?_, h.entries⟩
  rw [h.frames]
  exact fun _ hf => absurd hf List.not_mem_nil

lemma Idle.free (h : s.Idle) (q : Question κ) : q ∉ s.cache.held := by
  rw [h.held]
  exact List.not_mem_nil

/-- Looking for a result keeps the session, and a result that is found is sealed. -/
def Yields (s : Session κ σ V) (out : Except (Failure ε) (Entry V) × Session κ σ V) : Prop :=
  Keeps s out.2 ∧ ∀ e, out.1 = .ok e → e.Sealed

lemma Keeps.yields_error (h : Keeps s s') (f : Failure ε) : Yields s (.error f, s') := by
  refine ⟨h, fun e he => ?_⟩
  cases he

section Runs

variable [DecidableEq κ]

lemma Sound.yields_settle (h : s.Sound) {f : Frame κ} (hf : f.digests.Sound) (v : V) :
    Yields s (settle s q f v : Except (Failure ε) (Entry V) × Session κ σ V) := by
  rw [settle]
  cases hd : f.digests.fingerprint with
  | error fault =>
      have hkeeps : Keeps s (s.withCache Cache.advance) := h.keeps_of_eq rfl rfl rfl
      exact hkeeps.yields_error _
  | ok digest =>
      have hsealed : ((s.withCache Cache.advance).cache.entryOf f v digest).Sealed :=
        ⟨hf.nodup, hf.nulFree, hd⟩
      refine ⟨⟨⟨h.frames, fun x hx => ?_⟩, rfl, rfl⟩, fun e he => ?_⟩
      · rcases Assoc.mem_put hx with hx | rfl
        · exact h.entries x hx
        · exact hsealed
      · cases he
        exact hsealed

variable [QueryKey κ] {body : Session κ σ V → Except (Failure ε) V × Session κ σ V}

lemma Sound.yields_compute (h : s.Sound) (hbody : ∀ s, s.Sound → Keeps s (body s).2) :
    Yields s (s.compute q body) := by
  have hkeeps := hbody _ (h.opened q)
  rw [compute_eq]
  generalize body (s.opened q) = out at hkeeps
  obtain ⟨outcome, after⟩ := out
  have hclosed : Keeps s { after with frames := s.frames } :=
    ⟨⟨h.frames, hkeeps.sound.entries⟩, hkeeps.held, rfl⟩
  cases outcome with
  | error f => exact hclosed.yields_error f
  | ok v =>
      have hframe : (after.frame?.getD (Frame.start q)).digests.Sound := by
        cases hf : after.frame? with
        | none => exact Digests.sound_nil
        | some f => exact hkeeps.sound.frame hf
      have hsettle := hclosed.sound.yields_settle (ε := ε) (q := q) hframe v
      exact ⟨hclosed.trans hsettle.1, hsettle.2⟩

lemma Sound.yields_obtain (h : s.Sound) (seen : Nat) (hbody : ∀ s, s.Sound → Keeps s (body s).2) :
    Yields s (s.obtain seen q body) := by
  rw [obtain]
  cases he : s.cache.entry? q with
  | none => exact h.yields_compute hbody
  | some e =>
      have hfound : ∀ e', (Except.ok e : Except (Failure ε) (Entry V)) = .ok e' → e'.Sealed := by
        intro e' he'
        cases he'
        exact h.entries _ (Assoc.mem_of_get? he)
      by_cases hgen : e.generation ≠ seen
      · simp only [if_pos hgen]
        exact ⟨h.keeps_of_eq rfl rfl rfl, hfound⟩
      · simp only [if_neg hgen, noted]
        have hnoted : Keeps s (s.withNotices (e.isFresh s.world.disk).run.notices) :=
          h.keeps_of_eq rfl rfl rfl
        cases (e.isFresh s.world.disk).run.value with
        | error fault => exact hnoted.yields_error _
        | ok fresh =>
            cases fresh with
            | true => exact ⟨h.keeps_of_eq rfl rfl rfl, hfound⟩
            | false =>
                have hcompute := hnoted.sound.yields_compute (q := q) hbody
                exact ⟨hnoted.trans hcompute.1, hcompute.2⟩

/-- **One request** keeps the session, whether or not its question is under way. -/
lemma Sound.keeps_serve (h : s.Sound) (seen : Nat) (hbody : ∀ s, s.Sound → Keeps s (body s).2) :
    Keeps s (s.serve seen q body).2 := by
  by_cases hheld : q ∈ s.cache.held
  · have hbusy : (s.withCache (·.ensureLock q)).cache.isHeld q = true := by
      rw [Cache.isHeld, decide_eq_true_iff]
      show q ∈ (s.cache.ensureLock q).held
      rwa [held_ensureLock]
    rw [serve]
    simp only [hbusy, if_true]
    refine h.keeps_of_eq rfl ?_ (held_ensureLock s.cache q)
    exact entries_locked s q
  · have hlocked : (s.locked q).Sound := ⟨h.frames, entries_locked s q ▸ h.entries⟩
    have hyields := hlocked.yields_obtain (q := q) seen hbody
    rw [serve_eq hheld]
    generalize (s.locked q).obtain seen q body = out at hyields
    obtain ⟨outcome, after⟩ := out
    obtain ⟨hkeeps, hsealed⟩ := hyields
    have hreleased : Keeps s (after.withCache (·.release q)) := by
      refine ⟨⟨hkeeps.sound.frames, hkeeps.sound.entries⟩, ?_, hkeeps.depth⟩
      show after.cache.held.erase q = _
      rw [hkeeps.held, held_locked, List.erase_cons_head]
    cases outcome with
    | error f => exact hreleased
    | ok e =>
        exact hreleased.trans (hreleased.sound.keeps_withFrame fun f hf =>
          (hreleased.sound.frame hf).merge (hsealed e rfl).sound)

/-- **Every computation keeps a sound session,** whatever it does to the world. -/
theorem run_keeps {α : Type} (c : Computation κ σ V ε α) {s : Session κ σ V} (h : s.Sound) :
    Keeps s (run c s).2 := by
  -- The induction is on the body of every question as well, which `keeps_serve` asks for.
  induction c generalizing s with
  | done a => exact h.keeps_of_eq rfl rfl rfl
  | fail f => exact h.keeps_of_eq rfl rfl rfl
  | declare p next ih =>
      have hdeclare : ∃ r s', (s.declare p : Except (Failure ε) Unit × Session κ σ V) = (r, s') ∧
          Keeps s s' := by
        cases hf : s.frames with
        | nil => exact ⟨.ok (), s, by rw [declare, frame?, hf]; rfl, h.keeps_of_eq rfl rfl rfl⟩
        | cons f rest =>
            have hsound : f.digests.Sound := h.frames f (hf ▸ List.mem_cons_self)
            obtain ⟨ns, ⟨fault, -, hd⟩ | ⟨ds, hd, hs'⟩⟩ := declare_cases (ε := ε) hf p
            · exact ⟨_, _, hd, h.keeps_of_eq rfl rfl rfl⟩
            · have hkeeps : Keeps s (s.withFrame fun f => { f with digests := ds }) :=
                h.keeps_withFrame fun _ _ => hsound.declare hd
              rw [withFrame, hf] at hkeeps
              exact ⟨_, _, hs', hkeeps.trans (hkeeps.sound.keeps_of_eq rfl rfl rfl)⟩
      obtain ⟨r, s', hs', hkeeps⟩ := hdeclare
      rw [run, hs']
      exact hkeeps.trans (ih r hkeeps.sound)
  | lower level next ih =>
      have hkeeps : Keeps s (s.withFrame (·.lower level)) :=
        h.keeps_withFrame fun f hf => (h.frame hf : f.digests.Sound)
      exact hkeeps.trans (ih hkeeps.sound)
  | untracked next ih =>
      have hkeeps : Keeps s (s.withFrame Frame.markUntracked) :=
        h.keeps_withFrame fun f hf => (h.frame hf : f.digests.Sound)
      exact hkeeps.trans (ih hkeeps.sound)
  | request q body next ihb ihn =>
      have hkeeps := h.keeps_serve (q := q) (s.cache.storedGeneration q) fun _ hs => ihb hs
      rw [run]
      exact hkeeps.trans (ihn _ hkeeps.sound)
  | invalidate level next ih =>
      have hkeeps : Keeps s { s with cache := (s.cache.invalidate level).1 } :=
        ⟨⟨h.frames, fun x hx => h.entries x (List.mem_of_mem_filter hx)⟩, rfl, rfl⟩
      exact hkeeps.trans (ih _ hkeeps.sound)
  | clear next ih =>
      have hkeeps : Keeps s (s.withCache Cache.clear) :=
        ⟨⟨h.frames, fun x hx => absurd hx List.not_mem_nil⟩, rfl, rfl⟩
      exact hkeeps.trans (ih hkeeps.sound)
  | inspect next ih => exact ih s h
  | perform act next ih =>
      have hkeeps : Keeps s { s.withNotices (act s.world).notices with
          world := (act s.world).value.2 } := h.keeps_of_eq rfl rfl rfl
      exact hkeeps.trans (ih _ hkeeps.sound)

/-! ## Between two computations -/

/-- **The states that a session comes to:** computations of any kind run in it, one after the other,
and between them the world changes at will. -/
inductive Reachable (ε : Type) : Session κ σ V → Prop
  | start (w : World σ) : Reachable ε (start w)
  | run {α : Type} (c : Computation κ σ V ε α) {s : Session κ σ V} :
      Reachable ε s → Reachable ε (run c s).2
  | change (w : World σ) {s : Session κ σ V} : Reachable ε s → Reachable ε { s with world := w }

lemma Reachable.idle (h : s.Reachable ε) : s.Idle := by
  induction h with
  | start w => exact ⟨rfl, rfl, fun _ hx => absurd hx List.not_mem_nil⟩
  | run c _ ih =>
      have hkeeps := run_keeps c ih.sound
      refine ⟨List.length_eq_zero_iff.1 ?_, hkeeps.held.trans ih.held, hkeeps.sound.entries⟩
      rw [hkeeps.depth, ih.frames]
      rfl
  | change w _ ih => exact ⟨ih.frames, ih.held, ih.entries⟩

end Runs

/-! ## Results that may be used again -/

variable [DecidableEq κ]

/-- The question has a stored result that may be used again. -/
def Warm (s : Session κ σ V) (q : Question κ) : Prop :=
  ∃ e, s.cache.entry? q = some e ∧ (e.isFresh s.world.disk).run.value = .ok true

lemma not_warm_start (w : World σ) (q : Question κ) : ¬(start w : Session κ σ V).Warm q := by
  rintro ⟨e, he, -⟩
  exact Option.some_ne_none e he.symm

/-- Of a sealed result it can always be told that it may not be used again. -/
lemma stale_of_not_warm (h : ∀ x ∈ s.cache.entries, x.2.Sealed) (hq : ¬s.Warm q) :
    ∀ e, s.cache.entry? q = some e → (e.isFresh s.world.disk).run.value = .ok false := by
  intro e he
  obtain ⟨b, hb⟩ := Entry.exists_isFresh (h _ (Assoc.mem_of_get? he)) s.world.disk
  cases b with
  | false => exact hb
  | true => exact absurd ⟨e, he, hb⟩ hq

end Session

end ScarbCrates
