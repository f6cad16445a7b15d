import ScarbCrates.Proofs.Threads.Accounting

/-!
# What turns mean to a question

Most turns mean nothing to a question: they are about another one, or about the inside of a
computation.  The others are its incidents: somebody asks it, a computation of its answer begins,
fails or ends with a result, or a stored result is given out.  As long as no results are dropped,
the stored result of a question changes in no other way.

* `Incident`, `Action.incident?` — the incidents, and the one that a turn is.
* `Turn.About`, `Turn.about` — all that a turn can do to a question.
* `Incident.tally`, `Turn.stats` — the counters count incidents.
-/

namespace ScarbCrates

variable {κ σ V : Type}

/-! ## Incidents -/

/-- What happens to a question. -/
inductive Incident (V : Type)
  | asks
  | refused
  | begins
  | hits (e : Entry V)
  | shares (e : Entry V)
  | stores (e : Entry V)
  | fails

/-- What an incident is counted as. -/
def Incident.counted : Incident V → Option Answered
  | .begins => some .miss
  | .hits _ => some .hit
  | .shares _ => some .shared
  | _ => none

/-- **The incident that a turn is,** with its question, by where the thread is before and after. -/
def Action.incident? (a : Action κ σ V) (t t' : Thread κ V) : Option (Question κ × Incident V) :=
  match a, t.phase, t'.phase with
  | .request q, _, _ => some (q, .asks)
  | .refuse, .waiting q _ _, _ => some (q, .refused)
  | .begin, .inside q _ _, _ => some (q, .begins)
  | .hit, _, .leaving q _ (some e) => some (q, .hits e)
  | .share, _, .leaving q _ (some e) => some (q, .shares e)
  | .store _, _, .leaving q _ (some e) => some (q, .stores e)
  | .falter, _, .leaving q _ _ => some (q, .fails)
  | .discard _, _, .leaving q _ _ => some (q, .fails)
  | .abort, _, .leaving q _ _ => some (q, .fails)
  | _, _, _ => none

/-- A turn that drops results. -/
def Action.Dropping : Action κ σ V → Prop
  | .invalidate _ => True
  | .clear => True
  | _ => False

/-- A turn that is no request, drops no results and leaves the world as it is. -/
def Action.Own : Action κ σ V → Prop
  | .request _ => False
  | .invalidate _ => False
  | .clear => False
  | .change _ => False
  | _ => True

/-! ## Counters -/

/-- Counters that count what two have counted. -/
def Stats.plus (s u : Stats) : Stats := ⟨s.hits + u.hits, s.misses + u.misses, s.shared + u.shared⟩

namespace Incident

/-- **What the counters say** of some incidents. -/
def tally (xs : List (Incident V)) : Stats :=
  ⟨xs.countP fun x => x.counted = some .hit, xs.countP fun x => x.counted = some .miss,
    xs.countP fun x => x.counted = some .shared⟩

lemma tally_append (xs ys : List (Incident V)) : tally (xs ++ ys) = (tally xs).plus (tally ys) := by
  simp only [tally, Stats.plus, List.countP_append]

end Incident

lemma Stats.zero_plus (s : Stats) : (⟨0, 0, 0⟩ : Stats).plus s = s := by
  simp only [plus, Nat.zero_add]

lemma Stats.plus_assoc (s u v : Stats) : (s.plus u).plus v = s.plus (u.plus v) := by
  simp only [plus, Nat.add_assoc]

variable [DecidableEq κ] {S S' : Shared κ σ V} {t t' : Thread κ V} {a : Action κ σ V}
  {q : Question κ}

/-- **Each turn is counted** as the incident that it is. -/
lemma Turn.stats (h : Turn S t a S' t') :
    S'.stats = S.stats.plus (Incident.tally ((a.incident? t t').toList.map Prod.snd)) := by
  cases h <;> rfl

/-! ## One question -/

namespace Thread

/-- How many computations of an answer a thread has under way. -/
def computing (t : Thread κ V) (q : Question κ) : Nat := t.jobs.countP fun j => j.question = q

/-- **A thread is busy with a question:** it asks it, computes the answer, or is about to give the
lock back. -/
def Busy (t : Thread κ V) (q : Question κ) : Prop :=
  (∃ g, t.phase.seen? = some (q, g)) ∨ (∃ l result, t.phase = .leaving q l result) ∨
    t.computing q ≠ 0

/-- Whoever holds the lock of a question has come inside with it, is about to leave, or computes the
answer. -/
lemma holds_cases {l : Nat} (h : (q, l) ∈ t.holds) :
    (∃ g, t.phase = .inside q g l) ∨ (∃ result, t.phase = .leaving q l result) ∨
      t.computing q ≠ 0 := by
  rcases List.mem_append.1 h with hphase | hjob
  · cases hp : t.phase with
    | inside q' g l' =>
        rw [hp] at hphase
        cases List.mem_singleton.1 hphase
        exact Or.inl ⟨g, rfl⟩
    | leaving q' l' result =>
        rw [hp] at hphase
        cases List.mem_singleton.1 hphase
        exact Or.inr (Or.inl ⟨result, rfl⟩)
    | _ =>
        rw [hp] at hphase
        cases hphase
  · obtain ⟨j, hj, hticket⟩ := List.mem_map.1 hjob
    refine Or.inr (Or.inr fun hzero => List.countP_eq_zero.1 hzero j hj ?_)
    exact decide_eq_true (congrArg Prod.fst hticket)

/-- Whoever has a claim on the lock of a question is busy with it. -/
lemma busy_of_claims {l : Nat} (h : t.Claims (q, l)) : t.Busy q := by
  rcases h with hawaits | hholds
  · obtain ⟨g, js, rfl⟩ := eq_waiting_of_awaits hawaits
    exact Or.inl ⟨g, rfl⟩
  · rcases holds_cases hholds with ⟨g, hp⟩ | ⟨result, hp⟩ | hcomputing
    · exact Or.inl ⟨g, by rw [hp]; rfl⟩
    · exact Or.inr (Or.inl ⟨l, result, hp⟩)
    · exact Or.inr (Or.inr hcomputing)

end Thread

/-- What a computation inherits does not change its question. -/
lemma countP_inherit (result : Option (Entry V)) (js : List (Job κ V)) :
    (inherit result js).countP (fun j => j.question = q) = js.countP fun j => j.question = q := by
  cases result with
  | none => rfl
  | some e => cases js <;> rfl

/-- **All that a turn can do to a question,** by the incident that it is for it. -/
inductive Turn.About (q : Question κ) (S : Shared κ σ V) (t : Thread κ V) (S' : Shared κ σ V)
    (t' : Thread κ V) : Option (Incident V) → Prop
  | nothing (hseen : ∀ g, t'.phase.seen? = some (q, g) ↔ t.phase.seen? = some (q, g))
      (hjobs : t'.computing q = t.computing q) (hentry : S'.cache.entry? q = S.cache.entry? q) :
      About q S t S' t' none
  | asks (hseen : t'.phase.seen? = some (q, S.cache.storedGeneration q))
      (hbefore : t.phase.seen? = none) (hjobs : t'.computing q = t.computing q)
      (hshared : S' = S) : About q S t S' t' (some .asks)
  | refused {g l : Nat} (hphase : t.phase = .waiting q g l) (hj : ∃ j ∈ t.jobs, j.lock = l) :
      About q S t S' t' (some .refused)
  | begins {g l : Nat} (hphase : t.phase = .inside q g l)
      (hstale : ∀ e, S.cache.entry? q = some e →
        e.generation = g ∧ (e.isFresh S.world.disk).run.value = .ok false)
      (hseen : t'.phase.seen? = none) (hjobs : t'.computing q = t.computing q + 1)
      (hentry : S'.cache.entry? q = S.cache.entry? q) : About q S t S' t' (some .begins)
  | hits {g : Nat} {e : Entry V} (hbefore : t.phase.seen? = some (q, g))
      (he : S.cache.entry? q = some e) (hgen : e.generation = g)
      (hfresh : (e.isFresh S.world.disk).run.value = .ok true) (hseen : t'.phase.seen? = none)
      (hjobs : t'.computing q = t.computing q) (hentry : S'.cache.entry? q = S.cache.entry? q) :
      About q S t S' t' (some (.hits e))
  | shares {g : Nat} {e : Entry V} (hbefore : t.phase.seen? = some (q, g))
      (he : S.cache.entry? q = some e) (hgen : e.generation ≠ g) (hseen : t'.phase.seen? = none)
      (hjobs : t'.computing q = t.computing q) (hentry : S'.cache.entry? q = S.cache.entry? q) :
      About q S t S' t' (some (.shares e))
  | stores {e : Entry V} (hbefore : t.phase.seen? = none) (hseen : t'.phase.seen? = none)
      (hjobs : t.computing q = t'.computing q + 1) (he : S'.cache.entry? q = some e)
      (hgen : e.generation = S.generation + 1) : About q S t S' t' (some (.stores e))
  | falters {e : Entry V} {fault : InputFault} (he : S.cache.entry? q = some e)
      (hfault : (e.isFresh S.world.disk).run.value = .error fault) :
      About q S t S' t' (some .fails)
  | fails (hbefore : t.phase.seen? = none) (hseen : t'.phase.seen? = none)
      (hjobs : t.computing q = t'.computing q + 1)
      (hentry : S'.cache.entry? q = S.cache.entry? q) : About q S t S' t' (some .fails)

/-- What a turn is for a question. -/
def Action.incidentOf (a : Action κ σ V) (t t' : Thread κ V) (q : Question κ) :
    Option (Incident V) :=
  ((a.incident? t t').filter fun x => x.1 = q).map Prod.snd

lemma Action.incidentOf_eq_some {x : Incident V} (h : a.incident? t t' = some (q, x)) :
    a.incidentOf t t' q = some x := by
  rw [incidentOf, h, Option.filter_some, if_pos (decide_eq_true rfl)]
  rfl

lemma Action.incidentOf_eq_none (h : ∀ x, a.incident? t t' ≠ some (q, x)) :
    a.incidentOf t t' q = none := by
  rw [incidentOf, Option.map_eq_none_iff, Option.filter_eq_none_iff]
  rintro ⟨q', x⟩ hx hq
  exact h x (of_decide_eq_true hq ▸ hx)

omit [DecidableEq κ] in
/-- A thread that asks one question does not ask another. -/
lemma Phase.seen?_ne {p : Phase κ V} {q' : Question κ} {n : Nat} (h : p.seen? = some (q', n))
    (hne : q' ≠ q) (g : Nat) : p.seen? ≠ some (q, g) := by
  rw [h]
  exact fun heq => hne (congrArg Prod.fst (Option.some.inj heq))

/-- A turn that is no incident of a question leaves it alone. -/
lemma Turn.about_nothing (h : Turn S t a S' t') (hkept : ¬a.Dropping)
    (hother : ∀ x, a.incident? t t' ≠ some (q, x)) : Turn.About q S t S' t' none := by
  have hne : ∀ {q' x}, a.incident? t t' = some (q', x) → q' ≠ q := fun {_ x} hx heq =>
    hother x (heq ▸ hx)
  cases h with
  | request js q' =>
      have hq : q' ≠ q := hne rfl
      exact .nothing (fun g => iff_of_false (Phase.seen?_ne rfl hq g) nofun) rfl rfl
  | lock h => exact .nothing (fun _ => Iff.rfl) rfl rfl
  | make h => exact .nothing (fun _ => Iff.rfl) rfl rfl
  | enter h => exact .nothing (fun _ => Iff.rfl) rfl rfl
  | refuse h =>
      exact .nothing (fun g => iff_of_false nofun (Phase.seen?_ne rfl (hne rfl) g)) rfl rfl
  | share he hgen =>
      exact .nothing (fun g => iff_of_false nofun (Phase.seen?_ne rfl (hne rfl) g)) rfl rfl
  | hit he hgen hfresh =>
      exact .nothing (fun g => iff_of_false nofun (Phase.seen?_ne rfl (hne rfl) g)) rfl rfl
  | @begin q' seen l js h =>
      have hq : q' ≠ q := hne rfl
      refine .nothing (fun g => iff_of_false nofun (Phase.seen?_ne rfl hq g)) ?_ rfl
      exact List.countP_cons_of_neg (by simpa using hq)
  | falter he hgen hfault =>
      exact .nothing (fun g => iff_of_false nofun (Phase.seen?_ne rfl (hne rfl) g)) rfl rfl
  | file hd hp => exact .nothing (fun _ => Iff.rfl) rfl rfl
  | level level => exact .nothing (fun _ => Iff.rfl) rfl rfl
  | untracked => exact .nothing (fun _ => Iff.rfl) rfl rfl
  | @store j js digest v hd =>
      have hq : j.question ≠ q := hne rfl
      refine .nothing (fun _ => Iff.rfl) ?_ ?_
      · exact (List.countP_cons_of_neg (by simpa using hq)).symm
      · exact Assoc.get?_put_of_ne _ _ hq.symm
  | @discard j js fault v hd =>
      have hq : j.question ≠ q := hne rfl
      exact .nothing (fun _ => Iff.rfl) (List.countP_cons_of_neg (by simpa using hq)).symm rfl
  | @abort j js =>
      have hq : j.question ≠ q := hne rfl
      exact .nothing (fun _ => Iff.rfl) (List.countP_cons_of_neg (by simpa using hq)).symm rfl
  | leave => exact .nothing (fun _ => Iff.rfl) (countP_inherit _ _) rfl
  | invalidate level => exact absurd trivial hkept
  | clear => exact absurd trivial hkept
  | change t w => exact .nothing (fun _ => Iff.rfl) rfl rfl

/-- What a turn is for a question that it is an incident of. -/
lemma Turn.about_incident (h : Turn S t a S' t') {x : Incident V}
    (hx : a.incident? t t' = some (q, x)) : Turn.About q S t S' t' (some x) := by
  cases h with
  | request js q' =>
      cases hx
      exact .asks rfl rfl rfl rfl
  | refuse h =>
      cases hx
      exact .refused rfl h
  | share he hgen =>
      cases hx
      exact .shares rfl he hgen rfl rfl rfl
  | hit he hgen hfresh =>
      cases hx
      exact .hits rfl he hgen hfresh rfl rfl rfl
  | begin h =>
      cases hx
      exact .begins rfl h rfl (List.countP_cons_of_pos (decide_eq_true rfl)) rfl
  | falter he hgen hfault =>
      cases hx
      exact .falters he hfault
  | store v hd =>
      cases hx
      exact .stores rfl rfl (List.countP_cons_of_pos (decide_eq_true rfl))
        (Assoc.get?_put_self _ _ _) rfl
  | discard v hd =>
      cases hx
      exact .fails rfl rfl (List.countP_cons_of_pos (decide_eq_true rfl)) rfl
  | abort =>
      cases hx
      exact .fails rfl rfl (List.countP_cons_of_pos (decide_eq_true rfl)) rfl
  | _ => cases hx

/-- **A turn that drops no results** does one of these things to a question. -/
theorem Turn.about (h : Turn S t a S' t') (hkept : ¬a.Dropping) (q : Question κ) :
    Turn.About q S t S' t' (a.incidentOf t t' q) := by
  by_cases hx : ∃ x, a.incident? t t' = some (q, x)
  · obtain ⟨x, hx⟩ := hx
    rw [Action.incidentOf_eq_some hx]
    exact h.about_incident hx
  · have hother := not_exists.1 hx
    rw [Action.incidentOf_eq_none hother]
    exact h.about_nothing hkept hother

/-- Locks stay in the table as long as no results are dropped. -/
lemma Turn.table_subset (h : Turn S t a S' t') (hkept : ¬a.Dropping) : S.table ⊆ S'.table := by
  have hsame : ∀ {f : Cache κ V → Cache κ V}, (f S.cache).locks = S.cache.locks →
      (S.withCache f).table = S.table := Shared.table_withCache
  have hsub : S'.table = S.table → S.table ⊆ S'.table := fun heq _ hx => heq.symm ▸ hx
  cases h with
  | make h => exact List.subset_append_left _ _
  | share he hgen => exact hsub (hsame rfl)
  | hit he hgen hfresh => exact hsub (hsame rfl)
  | begin h => exact hsub S.table_begin
  | store v hd => exact hsub (S.table_store _ _)
  | discard v hd => exact hsub (hsame rfl)
  | invalidate level => exact absurd trivial hkept
  | clear => exact absurd trivial hkept
  | _ => exact hsub rfl

/-- The world changes only in a turn that is such a change. -/
lemma Turn.world_eq_or (h : Turn S t a S' t') : S'.world = S.world ∨ a = .change S'.world := by
  cases h with
  | change t w => exact Or.inr rfl
  | _ => exact Or.inl rfl

/-- A question is asked only in a turn that is such a request. -/
lemma Turn.eq_request (h : Turn S t a S' t') (hx : a.incidentOf t t' q = some .asks) :
    a = .request q := by
  obtain ⟨⟨q', x⟩, hfilter, rfl⟩ := Option.map_eq_some_iff.1 hx
  obtain ⟨hincident, hq⟩ := Option.filter_eq_some_iff.1 hfilter
  obtain rfl : q' = q := of_decide_eq_true hq
  clear hx hfilter hq
  cases h with
  | request js q' =>
      cases hincident
      rfl
  | _ => cases hincident

end ScarbCrates
