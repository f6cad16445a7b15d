import ScarbCrates.Proofs.Threads.Gathering

/-!
# Callers who wait for the same answer

Some threads ask the same question, all of them before anything is stored for it, and nobody drops
results.  If the stored result may be used again, each of them is given it.  Otherwise the lock lets
one in after the other: whoever comes in computes the answer, until a computation ends with a
result, and everybody after that is given this result, whatever it depends on.

* `Scene` — how far their requests have come.
* `Pool.Unfolded`, `Pool.Gathering.unfolded` — at every moment the requests have come to a scene.
* `Pool.gathered` — how they have been answered when all of them have been.
-/

namespace ScarbCrates

variable {κ σ V : Type} [DecidableEq κ]

/-! ## Scenes -/

/-- **How far the requests have come.**  The stored result is used again; computations have failed;
one is under way, after others have failed; or one has ended with a result, which has been shared
since. -/
inductive Scene (V : Type)
  | reusing (e : Entry V) (hs : List Nat)
  | failing (fs : List Nat)
  | computing (fs : List Nat) (k : Nat)
  | sharing (fs : List Nat) (k : Nat) (e : Entry V) (ss : List Nat)

namespace Scene

/-- What has happened so far. -/
def events : Scene V → List (Nat × Incident V)
  | reusing e hs => hs.map fun i => (i, .hits e)
  | failing fs => Incident.failures fs
  | computing fs k => Incident.failures fs ++ [(k, .begins)]
  | sharing fs k e ss =>
    Incident.failures fs ++ [(k, .begins)] ++ [(k, .stores e)] ++ Incident.sharings ss e

/-- What has been counted so far. -/
def stats : Scene V → Stats
  | reusing _ hs => ⟨hs.length, 0, 0⟩
  | failing fs => ⟨0, fs.length, 0⟩
  | computing fs _ => ⟨0, fs.length + 1, 0⟩
  | sharing fs _ _ ss => ⟨0, fs.length + 1, ss.length⟩

lemma tally_events (scene : Scene V) :
    Incident.tally (scene.events.map Prod.snd) = scene.stats := by
  cases scene with
  | reusing e hs =>
      exact Incident.tally_hits hs e
  | failing fs => exact Incident.tally_failures fs
  | computing fs k =>
      rw [events, List.map_append, Incident.tally_append, Incident.tally_failures]
      rfl
  | sharing fs k e ss =>
      rw [events, List.map_append, List.map_append, List.map_append, Incident.tally_append,
        Incident.tally_append, Incident.tally_append, Incident.tally_failures,
        Incident.tally_sharings]
      exact congrArg (Stats.mk 0 (fs.length + 1)) (Nat.zero_add _)

/-- The callers whose requests have been answered, in their order. -/
def served : Scene V → List Nat
  | reusing _ hs => hs
  | failing fs => fs
  | computing fs _ => fs
  | sharing fs k _ ss => fs ++ k :: ss

/-- The caller that computes the answer. -/
def current? : Scene V → Option Nat
  | computing _ k => some k
  | _ => none

/-- The result that is used again. -/
def reused? : Scene V → Option (Entry V)
  | reusing e _ => some e
  | _ => none

/-- What is stored for the question, by what was stored at the beginning and what its generation
was. -/
def Stored (q : Question κ) (before : Option (Entry V)) (seen : Nat) (S : Shared κ σ V) :
    Scene V → Prop
  | reusing e _ => before = some e ∧ S.cache.entry? q = some e ∧
      (e.isFresh S.world.disk).run.value = .ok true
  | failing _ => S.cache.entry? q = before ∧
      ∀ e, before = some e → (e.isFresh S.world.disk).run.value = .ok false
  | computing _ _ => S.cache.entry? q = before ∧
      ∀ e, before = some e → (e.isFresh S.world.disk).run.value = .ok false
  | sharing _ _ e _ => S.cache.entry? q = some e ∧ e.generation ≠ seen

/-- What is stored stays as it is if it stays in its place and its files are left alone. -/
lemma Stored.congr {S S' : Shared κ σ V} {before : Option (Entry V)} {seen : Nat}
    {scene : Scene V} (h : scene.Stored q before seen S)
    (hentry : S'.cache.entry? q = S.cache.entry? q)
    (hfresh : ∀ e, before = some e → S.cache.entry? q = some e →
      (e.isFresh S'.world.disk).run.value = (e.isFresh S.world.disk).run.value) :
    scene.Stored q before seen S' := by
  cases scene with
  | reusing e hs =>
      obtain ⟨hbefore, he, htrue⟩ := h
      exact ⟨hbefore, hentry.trans he, (hfresh e hbefore he).trans htrue⟩
  | failing fs =>
      obtain ⟨he, hfalse⟩ := h
      exact ⟨hentry.trans he, fun e hbefore =>
        (hfresh e hbefore (he.trans hbefore)).trans (hfalse e hbefore)⟩
  | computing fs k =>
      obtain ⟨he, hfalse⟩ := h
      exact ⟨hentry.trans he, fun e hbefore =>
        (hfresh e hbefore (he.trans hbefore)).trans (hfalse e hbefore)⟩
  | sharing fs k e ss =>
      obtain ⟨he, hgen⟩ := h
      exact ⟨hentry.trans he, hgen⟩

end Scene

namespace Pool

variable {P P' P'' : Pool κ σ V} {i : Nat} {a : Action κ σ V} {q : Question κ}
  {E E' : List (Nat × Incident V)} {scene scene' : Scene V} {waiting waiting' : List Nat}

/-- **At every moment the requests have come to a scene:** those that have asked have been answered,
or compute the answer, or wait with what they have seen. -/
structure Unfolded (q : Question κ) (P : Pool κ σ V) (E : List (Nat × Incident V))
    (scene : Scene V) (waiting : List Nat) (P' : Pool κ σ V) : Prop where
  reachable : P'.Reachable
  table : ∀ i l, (P'.threads i).Claims (q, l) → (q, l) ∈ P'.shared.table
  later : P.shared.cache.storedGeneration q ≤ P'.shared.generation
  nodup : (Incident.callers E).Nodup
  perm : (scene.served ++ scene.current?.toList ++ waiting).Perm (Incident.callers E)
  answers : Incident.answers E = scene.events
  seen : ∀ i g, (P'.threads i).phase.seen? = some (q, g) ↔
    i ∈ waiting ∧ g = P.shared.cache.storedGeneration q
  computing : ∀ i, (P'.threads i).computing q = if scene.current? = some i then 1 else 0
  reused : ∀ e, scene.reused? = some e ↔ P.shared.Reusable q e
  stored : scene.Stored q (P.shared.cache.entry? q) (P.shared.cache.storedGeneration q) P'.shared

namespace Unfolded

/-- What a turn has to keep, and what only the thread that takes it can change. -/
lemma next (h : Unfolded q P E scene waiting P') (hs : P'.Step i a P'') (hkept : ¬a.Dropping)
    (hnodup : (Incident.callers E').Nodup)
    (hperm : (scene'.served ++ scene'.current?.toList ++ waiting').Perm (Incident.callers E'))
    (hanswers : Incident.answers E' = scene'.events)
    (hseen : ∀ g, (P''.threads i).phase.seen? = some (q, g) ↔
      i ∈ waiting' ∧ g = P.shared.cache.storedGeneration q)
    (hwaiting : ∀ k, k ≠ i → (k ∈ waiting' ↔ k ∈ waiting))
    (hcomputing : (P''.threads i).computing q = if scene'.current? = some i then 1 else 0)
    (hcurrent : ∀ k, k ≠ i → (scene'.current? = some k ↔ scene.current? = some k))
    (hreused : scene'.reused? = scene.reused?)
    (hstored : scene'.Stored q (P.shared.cache.entry? q) (P.shared.cache.storedGeneration q)
      P''.shared) :
    Unfolded q P E' scene' waiting' P'' := by
  refine ⟨h.reachable.run hs.run, fun k l hx => ?_, Nat.le_trans h.later hs.grows.generation,
    hnodup, hperm, hanswers, fun k g => ?_, fun k => ?_, fun e => hreused ▸ h.reused e, hstored⟩
  · have htable := hs.toTurn.table_subset hkept
    by_cases hk : k = i
    · subst hk
      exact (hs.toTurn.effect.claims hx).elim (fun hx => htable (h.table k l hx)) id
    · exact htable (h.table k l (hs.other hk ▸ hx))
  · by_cases hk : k = i
    · subst hk
      exact hseen g
    · rw [hs.other hk, h.seen k g, hwaiting k hk]
  · by_cases hk : k = i
    · subst hk
      exact hcomputing
    · rw [hs.other hk, h.computing k]
      exact if_congr (hcurrent k hk).symm rfl rfl

/-- Nobody waits twice. -/
lemma nodup_waiting (h : Unfolded q P E scene waiting P') : waiting.Nodup :=
  (h.perm.nodup_iff.2 h.nodup).of_append_right

/-- Whoever waits does not compute. -/
lemma current_ne (h : Unfolded q P E scene waiting P') (hi : i ∈ waiting) :
    scene.current? ≠ some i := by
  intro hcurrent
  have hnodup := h.perm.nodup_iff.2 h.nodup
  rw [hcurrent] at hnodup
  exact List.disjoint_of_nodup_append hnodup
    (List.mem_append_right _ (List.mem_singleton.2 rfl)) hi

lemma computing_of_waiting (h : Unfolded q P E scene waiting P') (hi : i ∈ waiting) :
    (P'.threads i).computing q = 0 := by
  rw [h.computing, if_neg (h.current_ne hi)]

/-- Somebody else asks. -/
lemma asks (h : Unfolded q P E scene waiting P') (hs : P'.Step i a P'') (hkept : ¬a.Dropping)
    (hi : i ∉ Incident.callers E) (hnothing : ∀ x ∈ E, ∀ e, x.2 ≠ .stores e)
    (hseen : (P''.threads i).phase.seen? = some (q, P'.shared.cache.storedGeneration q))
    (hjobs : (P''.threads i).computing q = (P'.threads i).computing q)
    (hshared : P''.shared = P'.shared) :
    Unfolded q P (E ++ [(i, .asks)]) scene (i :: waiting) P'' := by
  have hsame : P'.shared.cache.entry? q = P.shared.cache.entry? q := by
    have hstored := h.stored
    cases scene with
    | reusing e hs => exact hstored.2.1.trans hstored.1.symm
    | failing fs => exact hstored.1
    | computing fs k => exact hstored.1
    | sharing fs k e ss =>
        have hmem : (k, .stores e) ∈ Incident.answers E := by
          rw [h.answers, Scene.events]
          exact List.mem_append_left _ (List.mem_append_right _ (List.mem_singleton.2 rfl))
        exact absurd rfl (hnothing _ (List.mem_filter.1 hmem).1 e)
  have hgen : P'.shared.cache.storedGeneration q = P.shared.cache.storedGeneration q := by
    rw [Cache.storedGeneration, hsame]
    rfl
  refine h.next hs hkept ?_ ?_ ?_ (fun g => ?_) (fun k hk => ?_) (hjobs.trans (h.computing i))
    (fun _ _ => Iff.rfl) rfl (hshared ▸ h.stored)
  · rw [Incident.callers_concat_asks]
    exact h.nodup.append (List.nodup_singleton i) (List.disjoint_singleton.2 hi)
  · rw [Incident.callers_concat_asks]
    exact List.perm_middle.trans ((h.perm.cons i).trans (List.perm_append_singleton i _).symm)
  · rw [Incident.answers_concat_asks]
    exact h.answers
  · rw [hseen, hgen, Option.some.injEq, Prod.mk.injEq]
    exact ⟨fun heq => ⟨List.mem_cons_self, heq.2.symm⟩, fun heq => ⟨rfl, heq.2.symm⟩⟩
  · rw [List.mem_cons]
    exact or_iff_right hk

/-- Only one thread at a time is inside with a question: if a computation is under way, nobody else
is let in. -/
lemma not_inside {fs : List Nat} {k g l : Nat} (h : Unfolded q P E (.computing fs k) waiting P')
    (hi : i ∈ waiting) : (P'.threads i).phase ≠ .inside q g l := by
  intro hphase
  have horderly := h.reachable.orderly
  have hholds : (q, l) ∈ (P'.threads i).holds := by
    rw [Thread.holds, hphase]
    exact List.mem_cons_self
  have hk : (P'.threads k).computing q = 1 := by
    rw [h.computing]
    exact if_pos rfl
  obtain ⟨j, hj, hq⟩ := List.countP_pos_iff.1 (Nat.lt_of_lt_of_eq Nat.one_pos hk.symm)
  have hticket : (q, j.lock) ∈ (P'.threads k).holds :=
    of_decide_eq_true hq ▸ claims_of_mem_jobs hj
  have hik : i ≠ k := by
    rintro rfl
    rw [h.computing_of_waiting hi] at hk
    cases hk
  exact horderly.exclusive.apart i k hik _ hholds _ hticket
    (horderly.shared.unique (h.table i l (Or.inr hholds)) (h.table k j.lock (Or.inr hticket)))

/-- The requests come to another scene by an incident that is not somebody's asking. -/
lemma goes_on (h : Unfolded q P E scene waiting P') (hs : P'.Step i a P'') (hkept : ¬a.Dropping)
    {x : Incident V} (hx : x.isAnswer = true) (hevents : scene'.events = scene.events ++ [(i, x)])
    (hperm : (scene'.served ++ scene'.current?.toList ++ waiting').Perm
      (scene.served ++ scene.current?.toList ++ waiting))
    (hseen : (P''.threads i).phase.seen? = none) (hi : i ∉ waiting')
    (hwaiting : ∀ k, k ≠ i → (k ∈ waiting' ↔ k ∈ waiting))
    (hcomputing : (P''.threads i).computing q = if scene'.current? = some i then 1 else 0)
    (hcurrent : ∀ k, k ≠ i → (scene'.current? = some k ↔ scene.current? = some k))
    (hreused : scene'.reused? = scene.reused?)
    (hstored : scene'.Stored q (P.shared.cache.entry? q) (P.shared.cache.storedGeneration q)
      P''.shared) :
    Unfolded q P (E ++ [(i, x)]) scene' waiting' P'' := by
  refine h.next hs hkept ?_ ?_ ?_ (fun g => ?_) hwaiting hcomputing hcurrent hreused hstored
  · rw [Incident.callers_concat E i hx]
    exact h.nodup
  · rw [Incident.callers_concat E i hx]
    exact hperm.trans h.perm
  · rw [Incident.answers_concat E i hx, h.answers, hevents]
  · rw [hseen]
    exact iff_of_false nofun fun hmem => hi hmem.1

/-- Who waits no longer. -/
lemma mem_erase (h : Unfolded q P E scene waiting P') (i : Nat) :
    i ∉ waiting.erase i ∧ ∀ k, k ≠ i → (k ∈ waiting.erase i ↔ k ∈ waiting) := by
  refine ⟨fun hi => (h.nodup_waiting.mem_erase_iff.1 hi).1 rfl, fun k hk => ?_⟩
  rw [h.nodup_waiting.mem_erase_iff]
  exact and_iff_right hk

/-- A caller that has waited is let in and computes the answer. -/
lemma begins {g l : Nat} (h : Unfolded q P E scene waiting P') (hs : P'.Step i a P'')
    (hkept : ¬a.Dropping) (hphase : (P'.threads i).phase = .inside q g l)
    (hstale : ∀ e, P'.shared.cache.entry? q = some e →
      e.generation = g ∧ (e.isFresh P'.shared.world.disk).run.value = .ok false)
    (hseen : (P''.threads i).phase.seen? = none)
    (hjobs : (P''.threads i).computing q = (P'.threads i).computing q + 1)
    (hkeep : ∀ scene : Scene V,
      scene.Stored q (P.shared.cache.entry? q) (P.shared.cache.storedGeneration q) P'.shared →
      scene.Stored q (P.shared.cache.entry? q) (P.shared.cache.storedGeneration q) P''.shared) :
    ∃ scene' waiting', Unfolded q P (E ++ [(i, .begins)]) scene' waiting' P'' := by
  obtain ⟨hi, hg⟩ := (h.seen i g).1 (by rw [hphase]; rfl)
  have hstored := h.stored
  cases scene with
  | reusing e hits => cases hstored.2.2.symm.trans (hstale e hstored.2.1).2
  | sharing fs k e ss => exact absurd ((hstale e hstored.1).1.trans hg) hstored.2
  | computing fs k => exact absurd hphase (h.not_inside hi)
  | failing fs =>
      obtain ⟨hgone, hother⟩ := h.mem_erase i
      refine ⟨.computing fs i, waiting.erase i, h.goes_on hs hkept rfl rfl ?_ hseen hgone hother ?_
        (fun k hk => ?_) rfl (hkeep _ hstored)⟩
      · show (fs ++ [i] ++ waiting.erase i).Perm (fs ++ [] ++ waiting)
        rw [List.append_nil, List.append_assoc]
        exact (List.perm_cons_erase hi).symm.append_left fs
      · rw [hjobs, h.computing_of_waiting hi]
        exact (if_pos rfl).symm
      · exact iff_of_false (fun heq => hk (Option.some.inj heq).symm) nofun

/-- A caller that has waited is given the stored result, which has not been stored since it
asked. -/
lemma hits {g : Nat} {e : Entry V} (h : Unfolded q P E scene waiting P') (hs : P'.Step i a P'')
    (hkept : ¬a.Dropping) (hbefore : (P'.threads i).phase.seen? = some (q, g))
    (he : P'.shared.cache.entry? q = some e) (hgen : e.generation = g)
    (hfresh : (e.isFresh P'.shared.world.disk).run.value = .ok true)
    (hseen : (P''.threads i).phase.seen? = none)
    (hjobs : (P''.threads i).computing q = (P'.threads i).computing q)
    (hkeep : ∀ scene : Scene V,
      scene.Stored q (P.shared.cache.entry? q) (P.shared.cache.storedGeneration q) P'.shared →
      scene.Stored q (P.shared.cache.entry? q) (P.shared.cache.storedGeneration q) P''.shared) :
    ∃ scene' waiting', Unfolded q P (E ++ [(i, .hits e)]) scene' waiting' P'' := by
  obtain ⟨hi, hg⟩ := (h.seen i g).1 hbefore
  have hstored := h.stored
  cases scene with
  | failing fs => cases hfresh.symm.trans (hstored.2 e (hstored.1.symm.trans he))
  | computing fs k => cases hfresh.symm.trans (hstored.2 e (hstored.1.symm.trans he))
  | sharing fs k e' ss =>
      obtain rfl := Option.some.inj (he.symm.trans hstored.1)
      exact absurd (hgen.trans hg) hstored.2
  | reusing e' hits =>
      obtain rfl := Option.some.inj (he.symm.trans hstored.2.1)
      obtain ⟨hgone, hother⟩ := h.mem_erase i
      refine ⟨.reusing e (hits ++ [i]), waiting.erase i, h.goes_on hs hkept rfl List.map_append ?_
        hseen hgone hother (hjobs.trans (h.computing i)) (fun _ _ => Iff.rfl) rfl (hkeep _ hstored)⟩
      show (hits ++ [i] ++ [] ++ waiting.erase i).Perm (hits ++ [] ++ waiting)
      rw [List.append_nil, List.append_nil, List.append_assoc]
      exact (List.perm_cons_erase hi).symm.append_left hits

/-- A caller that has waited is given a result that has been stored since it asked. -/
lemma shares {g : Nat} {e : Entry V} (h : Unfolded q P E scene waiting P') (hs : P'.Step i a P'')
    (hkept : ¬a.Dropping) (hbefore : (P'.threads i).phase.seen? = some (q, g))
    (he : P'.shared.cache.entry? q = some e) (hgen : e.generation ≠ g)
    (hseen : (P''.threads i).phase.seen? = none)
    (hjobs : (P''.threads i).computing q = (P'.threads i).computing q)
    (hkeep : ∀ scene : Scene V,
      scene.Stored q (P.shared.cache.entry? q) (P.shared.cache.storedGeneration q) P'.shared →
      scene.Stored q (P.shared.cache.entry? q) (P.shared.cache.storedGeneration q) P''.shared) :
    ∃ scene' waiting', Unfolded q P (E ++ [(i, .shares e)]) scene' waiting' P'' := by
  obtain ⟨hi, hg⟩ := (h.seen i g).1 hbefore
  have hstored := h.stored
  -- What was stored at the beginning has the generation that the caller has seen.
  have hold : P.shared.cache.entry? q ≠ some e := fun hbegin =>
    hgen ((Cache.storedGeneration_of_entry? hbegin).symm.trans hg.symm)
  cases scene with
  | reusing e' hits => exact absurd (hstored.1.trans (hstored.2.1.symm.trans he)) hold
  | failing fs => exact absurd (hstored.1.symm.trans he) hold
  | computing fs k => exact absurd (hstored.1.symm.trans he) hold
  | sharing fs k e' ss =>
      obtain rfl := Option.some.inj (he.symm.trans hstored.1)
      obtain ⟨hgone, hother⟩ := h.mem_erase i
      refine ⟨.sharing fs k e (ss ++ [i]), waiting.erase i, h.goes_on hs hkept rfl ?_ ?_ hseen hgone
        hother (hjobs.trans (h.computing i)) (fun _ _ => Iff.rfl) rfl (hkeep _ hstored)⟩
      · show _ ++ List.map _ (ss ++ [i]) = _
        rw [List.map_append, ← List.append_assoc]
        rfl
      · show (fs ++ k :: (ss ++ [i]) ++ [] ++ waiting.erase i).Perm (fs ++ k :: ss ++ [] ++ waiting)
        rw [List.append_nil, List.append_nil, ← List.cons_append, ← List.append_assoc,
          List.append_assoc (fs ++ k :: ss)]
        exact (List.perm_cons_erase hi).symm.append_left _

/-- The caller that computes the answer. -/
lemma current_of_computing (h : Unfolded q P E scene waiting P')
    (hjobs : (P'.threads i).computing q ≠ 0) : ∃ fs, scene = .computing fs i := by
  have hcurrent : scene.current? = some i := by
    by_contra hne
    exact hjobs ((h.computing i).trans (if_neg hne))
  cases scene with
  | computing fs k =>
      obtain rfl := Option.some.inj hcurrent
      exact ⟨fs, rfl⟩
  | _ => cases hcurrent

/-- A computation comes to its end, and nobody computes the answer any more. -/
lemma ends {fs : List Nat} (h : Unfolded q P E (.computing fs i) waiting P')
    (hs : P'.Step i a P'') (hkept : ¬a.Dropping) {x : Incident V} (hx : x.isAnswer = true)
    (hevents : scene'.events = (Scene.computing fs i).events ++ [(i, x)])
    (hserved : scene'.served = fs ++ [i]) (hcurrent : scene'.current? = none)
    (hreused : scene'.reused? = none)
    (hseen : (P''.threads i).phase.seen? = none)
    (hjobs : (P'.threads i).computing q = (P''.threads i).computing q + 1)
    (hstored : scene'.Stored q (P.shared.cache.entry? q) (P.shared.cache.storedGeneration q)
      P''.shared) :
    Unfolded q P (E ++ [(i, x)]) scene' waiting P'' := by
  have hcomputing : (P'.threads i).computing q = 1 := (h.computing i).trans (if_pos rfl)
  refine h.goes_on hs hkept hx hevents ?_ hseen (fun hi => h.current_ne hi rfl) (fun _ _ => Iff.rfl)
    ?_ (fun k hk => ?_) hreused hstored
  · rw [hserved, hcurrent, Option.toList_none, List.append_nil]
    exact List.Perm.refl _
  · rw [hcurrent, if_neg nofun]
    omega
  · rw [hcurrent]
    exact iff_of_false nofun fun heq => hk (Option.some.inj heq).symm

/-- **Each turn** leaves the requests at a scene. -/
lemma step (h : Unfolded q P E scene waiting P') (hs : P'.Step i a P'') (hkept : ¬a.Dropping)
    (hasks : a = .request q → i ∉ Incident.callers E ∧ ∀ x ∈ E, ∀ e, x.2 ≠ .stores e)
    (hfiles : ∀ w e, a = .change w → P.shared.cache.entry? q = some e →
      P'.shared.cache.entry? q = some e → ∀ p ∈ e.digests.files,
        (Digests.ofFile w.disk p).run.value =
          (Digests.ofFile P'.shared.world.disk p).run.value) :
    ∃ scene' waiting', Unfolded q P (E ++
      ((a.incidentOf (P'.threads i) (P''.threads i) q).map fun x => (i, x)).toList)
      scene' waiting' P'' := by
  have hsealed : ∀ e, P'.shared.cache.entry? q = some e → e.Sealed := fun e he =>
    h.reachable.recorded.shared.sealed (Assoc.mem_of_get? he)
  -- Whether the result from the beginning may be used does not change while it is stored.
  have hkeep : P''.shared.cache.entry? q = P'.shared.cache.entry? q → ∀ scene : Scene V,
      scene.Stored q (P.shared.cache.entry? q) (P.shared.cache.storedGeneration q) P'.shared →
      scene.Stored q (P.shared.cache.entry? q) (P.shared.cache.storedGeneration q) P''.shared := by
    intro hentry scene hstored
    refine hstored.congr hentry fun e hbefore he => ?_
    rcases hs.toTurn.world_eq_or with hworld | hchange
    · rw [hworld]
    · exact Entry.isFresh_congr (hsealed e he) (hfiles _ e hchange hbefore he)
  have habout := hs.toTurn.about hkept q
  have hrequest := hs.toTurn.eq_request (q := q)
  generalize a.incidentOf (P'.threads i) (P''.threads i) q = incident at habout hrequest
  cases habout with
  | nothing hseen hjobs hentry =>
      refine ⟨scene, waiting, ?_⟩
      rw [Option.map_none, Option.toList_none, List.append_nil]
      exact h.next hs hkept h.nodup h.perm h.answers (fun g => (hseen g).trans (h.seen i g))
        (fun _ _ => Iff.rfl) (hjobs.trans (h.computing i)) (fun _ _ => Iff.rfl) rfl
        (hkeep hentry scene h.stored)
  | asks hseen hbefore hjobs hshared =>
      obtain ⟨hi, hnothing⟩ := hasks (hrequest rfl)
      exact ⟨scene, i :: waiting, h.asks hs hkept hi hnothing hseen hjobs hshared⟩
  | @refused g l hphase hj =>
      obtain ⟨j, hj, hlock⟩ := hj
      have hi : i ∈ waiting := ((h.seen i g).1 (by rw [hphase]; rfl)).1
      -- The computation that holds the lock would be one of the answer.
      have hlabel := h.reachable.orderly.claims i (q, l) (Or.inl (by rw [Thread.awaits, hphase]))
      have hlabel' := h.reachable.orderly.claims i j.ticket (Or.inr (claims_of_mem_jobs hj))
      have hquestion : j.question = q :=
        Option.some.inj (hlabel'.symm.trans ((congrArg _ hlock).trans hlabel))
      have hcomputing := List.countP_eq_zero.1 (h.computing_of_waiting hi) j hj
      exact absurd (decide_eq_true hquestion) hcomputing
  | begins hphase hstale hseen hjobs hentry =>
      exact h.begins hs hkept hphase hstale hseen hjobs (hkeep hentry)
  | hits hbefore he hgen hfresh hseen hjobs hentry =>
      exact h.hits hs hkept hbefore he hgen hfresh hseen hjobs (hkeep hentry)
  | shares hbefore he hgen hseen hjobs hentry =>
      exact h.shares hs hkept hbefore he hgen hseen hjobs (hkeep hentry)
  | @stores e hbefore hseen hjobs he hgen =>
      obtain ⟨fs, rfl⟩ := h.current_of_computing (i := i) (by omega)
      refine ⟨.sharing fs i e [], waiting, h.ends hs hkept rfl ?_ rfl rfl rfl hseen hjobs
        ⟨he, ?_⟩⟩
      · exact List.append_nil _
      · have hlater := h.later
        omega
  | @falters e fault he hfault =>
      obtain ⟨b, hb⟩ := Entry.exists_isFresh (hsealed e he) P'.shared.world.disk
      cases hb.symm.trans hfault
  | fails hbefore hseen hjobs hentry =>
      obtain ⟨fs, rfl⟩ := h.current_of_computing (i := i) (by omega)
      exact ⟨.failing (fs ++ [i]), waiting, h.ends hs hkept rfl (Incident.failures_concat fs i) rfl
        rfl rfl hseen hjobs (hkeep hentry (.computing fs i) h.stored)⟩

/-- Nobody is served yet. -/
lemma start (hP : P.Reachable) (hfree : ∀ i, ¬(P.threads i).Busy q) :
    ∃ scene, Unfolded q P [] scene [] P := by
  have hcomputing : ∀ i, (P.threads i).computing q = 0 := fun i => by
    by_contra hne
    exact hfree i (Or.inr (Or.inr hne))
  have hunfolded : ∀ scene : Scene V, scene.events = [] → scene.served = [] →
      scene.current? = none → (∀ e, scene.reused? = some e ↔ P.shared.Reusable q e) →
      scene.Stored q (P.shared.cache.entry? q) (P.shared.cache.storedGeneration q) P.shared →
      Unfolded q P [] scene [] P := by
    intro scene hevents hserved hcurrent hreused hstored
    refine ⟨hP, fun i l hx => absurd (Thread.busy_of_claims hx) (hfree i),
      hP.recorded.shared.storedGeneration_le q, List.nodup_nil, ?_, hevents.symm, fun i g => ?_,
      fun i => ?_, hreused, hstored⟩
    · rw [hserved, hcurrent]
      exact List.Perm.refl _
    · exact iff_of_false (fun hseen => hfree i (Or.inl ⟨g, hseen⟩)) fun hmem =>
        List.not_mem_nil hmem.1
    · rw [hcurrent, if_neg nofun, hcomputing i]
  by_cases hreusable : ∃ e, P.shared.Reusable q e
  · obtain ⟨e, he, hfresh⟩ := hreusable
    refine ⟨.reusing e [], hunfolded _ rfl rfl rfl (fun e' => ?_) ⟨he, he, hfresh⟩⟩
    constructor
    · intro heq
      obtain rfl := Option.some.inj heq
      exact ⟨he, hfresh⟩
    · intro h
      exact he.symm.trans h.1
  · refine ⟨.failing [], hunfolded _ rfl rfl rfl (fun e => ?_) ⟨rfl, fun e he => ?_⟩⟩
    · exact iff_of_false nofun fun h => hreusable ⟨e, h⟩
    · have hsealed : e.Sealed := hP.recorded.shared.sealed (Assoc.mem_of_get? he)
      obtain ⟨b, hb⟩ := Entry.exists_isFresh hsealed P.shared.world.disk
      cases b with
      | false => exact hb
      | true => exact absurd ⟨e, he, hb⟩ hreusable

/-- When nobody has anything to do with the question, all requests have been answered. -/
lemma complete (h : Unfolded q P E scene waiting P') (hfree : ∀ i, ¬(P'.threads i).Busy q) :
    scene.current? = none ∧ scene.served.Perm (Incident.callers E) := by
  have hcurrent : scene.current? = none := by
    cases hk : scene.current? with
    | none => rfl
    | some k =>
        have hcomputing := h.computing k
        rw [if_pos hk] at hcomputing
        refine absurd (Or.inr (Or.inr ?_)) (hfree k)
        omega
  have hwaiting : waiting = [] := List.eq_nil_iff_forall_not_mem.2 fun k hk =>
    hfree k (Or.inl ⟨_, (h.seen k _).2 ⟨hk, rfl⟩⟩)
  have hperm := h.perm
  rw [hcurrent, hwaiting, Option.toList_none, List.append_nil, List.append_nil] at hperm
  exact ⟨hcurrent, hperm⟩

end Unfolded

variable {L : Chronicle κ V}

/-- **At every moment of such a run** the requests have come to a scene. -/
theorem Gathering.unfolded (hP : P.Reachable) (hfree : ∀ i, ¬(P.threads i).Busy q)
    (h : Gathering q P L P') : ∃ scene waiting, Unfolded q P (L.of q) scene waiting P' := by
  induction h with
  | none =>
      obtain ⟨scene, hstart⟩ := Unfolded.start hP hfree
      exact ⟨scene, [], hstart⟩
  | snoc _ hs hkept hasks hfiles ih =>
      obtain ⟨scene, waiting, hunfolded⟩ := ih
      rw [Chronicle.of_concat]
      exact hunfolded.step hs hkept hasks hfiles

/-- **Concurrent callers share.**  Some threads ask a question, each once, before anything has been
stored for it.  They do not block each other: as long as they are busy with it, one of them can go
on, or the answer is being computed, and that only if no stored result could be used again.  When
all of them are done, they have been answered.  If the stored result could be used again, all of
them have been given it, and that many hits are counted.  Otherwise they have been served one after
the other, in some order.  Either the computations of all of them have failed, and that many misses
are counted; or some have failed, the next one has ended with a result, and all others have been
given this result, so there is one miss more than there are failures, and the others share.  Other
questions are counted besides. -/
theorem gathered (hP : P.Reachable) (hbefore : ∀ i, ¬(P.threads i).Busy q)
    (h : Gathering q P L P') :
    (Incident.callers (L.of q)).Nodup ∧
    (∀ i, (P'.threads i).Busy q →
      (∃ k, (P'.threads k).computing q ≠ 0 ∧ ∀ e, ¬P.shared.Reusable q e) ∨
      ∃ k a P'', (P'.threads k).Busy q ∧ P'.Step k a P'' ∧ ¬a.Dropping ∧
        (P''.threads k).phase.ahead < (P'.threads k).phase.ahead) ∧
    ((∀ i, ¬(P'.threads i).Busy q) →
      (∀ e, P.shared.Reusable q e → ∃ hs : List Nat, hs.Perm (Incident.callers (L.of q)) ∧
        Incident.answers (L.of q) = (hs.map fun i => (i, .hits e)) ∧
        P'.shared.cache.entry? q = some e ∧
        P'.shared.stats = (P.shared.stats.plus (L.besides q).tally).plus ⟨hs.length, 0, 0⟩) ∧
      ((∀ e, ¬P.shared.Reusable q e) →
        (∃ fs : List Nat, fs.Perm (Incident.callers (L.of q)) ∧
          Incident.answers (L.of q) = Incident.failures fs ∧
          P'.shared.cache.entry? q = P.shared.cache.entry? q ∧
          P'.shared.stats = (P.shared.stats.plus (L.besides q).tally).plus ⟨0, fs.length, 0⟩) ∨
        ∃ (fs : List Nat) (k : Nat) (e : Entry V) (ss : List Nat),
          (fs ++ k :: ss).Perm (Incident.callers (L.of q)) ∧
          Incident.answers (L.of q) =
            Incident.failures fs ++ [(k, .begins)] ++ [(k, .stores e)] ++
              Incident.sharings ss e ∧
          P'.shared.cache.entry? q = some e ∧
          P'.shared.stats =
            (P.shared.stats.plus (L.besides q).tally).plus ⟨0, fs.length + 1, ss.length⟩)) := by
  obtain ⟨scene, waiting, hunfolded⟩ := h.unfolded hP hbefore
  have hreused := hunfolded.reused
  refine ⟨hunfolded.nodup, fun i hi => ?_, fun hafter => ?_⟩
  · rcases hunfolded.reachable.goes_on hi with ⟨k, hk⟩ | hstep
    · obtain ⟨fs, rfl⟩ := hunfolded.current_of_computing hk
      exact Or.inl ⟨k, hk, fun e he => nomatch (hreused e).2 he⟩
    · exact Or.inr hstep
  obtain ⟨hcurrent, hperm⟩ := hunfolded.complete hafter
  have hstored := hunfolded.stored
  have hstats : P'.shared.stats = (P.shared.stats.plus (L.besides q).tally).plus scene.stats := by
    rw [h.stats, L.tally_eq q, ← Stats.plus_assoc, ← Incident.tally_answers, hunfolded.answers,
      Scene.tally_events]
  refine ⟨fun e he => ?_, fun hnone => ?_⟩
  · cases scene with
    | reusing e' hs =>
        obtain rfl := Option.some.inj ((hreused e).2 he)
        exact ⟨hs, hperm, hunfolded.answers, hstored.2.1, hstats⟩
    | _ => cases (hreused e).2 he
  · cases scene with
    | reusing e hs => exact absurd ((hreused e).1 rfl) (hnone e)
    | failing fs => exact Or.inl ⟨fs, hperm, hunfolded.answers, hstored.1, hstats⟩
    | computing fs k => cases hcurrent
    | sharing fs k e ss =>
        exact Or.inr ⟨fs, k, e, ss, hperm, hunfolded.answers, hstored.1, hstats⟩

/-- One more turn within a request. -/
lemma Gathering.turn {S : Shared κ σ V} {t t' : Thread κ V} (h : Gathering q P L P')
    (hi : P'.threads i = t) (ha : Turn P'.shared t a S t') (hown : a.Own) :
    Gathering q P (L ++ ((a.incident? t t').map fun x => (x.1, i, x.2)).toList)
      ⟨S, Function.update P'.threads i t'⟩ := by
  subst hi
  have hkept : ¬a.Dropping := fun hdrop => by cases a <;> trivial
  have hnext := h.snoc (.turn ha) hkept (fun heq => by subst heq; exact hown.elim) fun w _ heq => by
    subst heq
    exact hown.elim
  rwa [show (⟨S, Function.update P'.threads i t'⟩ : Pool κ σ V).threads i = t' from
    Function.update_self _ _ _] at hnext

/-- A thread asks. -/
lemma Gathering.request {js : List (Job κ V)} (h : Gathering q P L P')
    (hi : P'.threads i = ⟨.running, js⟩) (hcallers : i ∉ Incident.callers (L.of q))
    (hstores : ∀ x ∈ L.of q, ∀ e, x.2 ≠ .stores e) :
    Gathering q P (L ++ [(q, i, .asks)])
      ⟨P'.shared, Function.update P'.threads i
        ⟨.asking q (P'.shared.cache.storedGeneration q), js⟩⟩ := by
  have hturn := Turn.request (S := P'.shared) js q
  rw [← hi] at hturn
  exact h.snoc (.turn hturn) id (fun _ => ⟨hcallers, hstores⟩) nofun

lemma not_busy_idle (q : Question κ) : ¬(Thread.idle : Thread κ V).Busy q := by
  rintro (⟨g, hseen⟩ | ⟨l, result, hp⟩ | hcomputing)
  · cases hseen
  · cases hp
  · exact hcomputing rfl

/-- The first one of three threads fails, the second one ends with a result that depends on
something untracked, and the third one shares it. -/
lemma exists_gathering_three :
    ∃ (L : Chronicle String Nat) (P : Pool String Unit Nat) (e : Entry Nat),
      Gathering ⟨"q", "k"⟩ (start ⟨default, ()⟩) L P ∧ (∀ i, P.threads i = .idle) ∧
      Incident.callers (L.of ⟨"q", "k"⟩) = [0, 1, 2] ∧ P.shared.stats = ⟨0, 2, 1⟩ ∧
      P.shared.cache.entry? ⟨"q", "k"⟩ = some e ∧ e.untracked = true := by
  obtain ⟨digest, hdigest⟩ := Digests.exists_fingerprint_nil
  have h := Gathering.none (q := ⟨"q", "k"⟩) (P := (start ⟨default, ()⟩ : Pool String Unit Nat))
  have h := h.request (i := 0) rfl (by decide) fun _ hx => absurd hx List.not_mem_nil
  have h := h.request (i := 1) rfl (by decide) (by simp [Chronicle.of])
  have h := h.request (i := 2) rfl (by decide) (by simp [Chronicle.of])
  have h := h.turn (i := 0) rfl (.make rfl) trivial
  have h := h.turn (i := 1) rfl (.lock rfl) trivial
  have h := h.turn (i := 2) rfl (.lock rfl) trivial
  have h := h.turn (i := 0) rfl (.enter List.not_mem_nil) trivial
  have h := h.turn (i := 0) rfl (.begin fun _ he => absurd he (Option.some_ne_none _).symm) trivial
  have h := h.turn (i := 0) rfl .abort trivial
  have h := h.turn (i := 0) rfl .leave trivial
  have h := h.turn (i := 1) rfl (.enter List.not_mem_nil) trivial
  have h := h.turn (i := 1) rfl (.begin fun _ he => absurd he (Option.some_ne_none _).symm) trivial
  have h := h.turn (i := 1) rfl .untracked trivial
  have h := h.turn (i := 1) rfl (.store 7 hdigest) trivial
  have h := h.turn (i := 1) rfl .leave trivial
  have h := h.turn (i := 2) rfl (.enter List.not_mem_nil) trivial
  have h := h.turn (i := 2) rfl (.share rfl Nat.one_ne_zero) trivial
  have h := h.turn (i := 2) rfl .leave trivial
  refine ⟨_, _, _, h, fun i => ?_, rfl, rfl, rfl, rfl⟩
  rcases i with _ | _ | _ | i <;> rfl

/-- Three callers of a question for which nothing is stored. -/
theorem gathered_three :
    ∃ (L : Chronicle String Nat) (P : Pool String Unit Nat),
      Gathering ⟨"q", "k"⟩ (start ⟨default, ()⟩) L P ∧ P.shared.stats = ⟨0, 2, 1⟩ ∧
      ∃ (fs : List Nat) (k : Nat) (e : Entry Nat) (ss : List Nat),
        (fs ++ k :: ss).Perm [0, 1, 2] ∧
        Incident.answers (L.of ⟨"q", "k"⟩) =
          Incident.failures fs ++ [(k, .begins)] ++ [(k, .stores e)] ++ Incident.sharings ss e ∧
        P.shared.cache.entry? ⟨"q", "k"⟩ = some e ∧ e.untracked = true := by
  obtain ⟨L, P, e, h, hidle, hcallers, hstats, he, htracked⟩ := exists_gathering_three
  obtain ⟨-, -, hover⟩ := gathered ⟨_, [], .none⟩ (fun _ => not_busy_idle _) h
  obtain ⟨-, hserved⟩ := hover fun i => hidle i ▸ not_busy_idle _
  rcases hserved (fun _ hreusable => nomatch hreusable.1) with
    ⟨_, _, _, hentry, _⟩ | ⟨fs, k, e', ss, hperm, hanswers, he', _⟩
  · cases he.symm.trans hentry
  · obtain rfl := Option.some.inj (he.symm.trans he')
    exact ⟨L, P, h, hstats, fs, k, e, ss, hcallers ▸ hperm, hanswers, he, htracked⟩

end Pool

end ScarbCrates
