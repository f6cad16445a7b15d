import ScarbCrates.Proofs.Threads.Incidents

/-!
# Callers who come together

Some threads ask the same question, each of them once, before anything is stored for it, and nobody
drops results.  What happens is written down, and the counters count it.  As long as one of them has
not been answered, and no answer is being computed, one of them can go on.

* `Chronicle` — the incidents of a run, with their questions and threads.
* `Pool.Gathering` — a run in which the callers of a question come together.
* `Pool.Gathering.stats` — everything is counted.
* `Pool.Reachable.goes_on` — requests do not block each other.
-/

namespace ScarbCrates

variable {κ σ V : Type}

/-! ## Chronicles -/

/-- The incidents of a run in their order, each with its question and its thread. -/
abbrev Chronicle (κ V : Type) := List (Question κ × Nat × Incident V)

namespace Incident

/-- The threads that have asked. -/
def callers (E : List (Nat × Incident V)) : List Nat :=
  E.filterMap fun x => match x.2 with
    | .asks => some x.1
    | _ => none

/-- Whether an incident is what has come of a request, and not a request. -/
def isAnswer : Incident V → Bool
  | .asks => false
  | _ => true

/-- What has come of the requests. -/
def answers (E : List (Nat × Incident V)) : List (Nat × Incident V) :=
  E.filter fun x => x.2.isAnswer

/-- Computations that begin and fail, one after the other. -/
def failures (fs : List Nat) : List (Nat × Incident V) :=
  fs.flatMap fun i => [(i, .begins), (i, .fails)]

/-- Requests that share a result. -/
def sharings (ss : List Nat) (e : Entry V) : List (Nat × Incident V) :=
  ss.map fun i => (i, .shares e)

lemma callers_concat (E : List (Nat × Incident V)) (i : Nat) {x : Incident V}
    (hx : x.isAnswer = true) : callers (E ++ [(i, x)]) = callers E := by
  rw [callers, List.filterMap_append]
  cases x with
  | asks => cases hx
  | _ => exact List.append_nil _

lemma callers_concat_asks (E : List (Nat × Incident V)) (i : Nat) :
    callers (E ++ [(i, .asks)]) = callers E ++ [i] := List.filterMap_append

lemma answers_concat (E : List (Nat × Incident V)) (i : Nat) {x : Incident V}
    (hx : x.isAnswer = true) : answers (E ++ [(i, x)]) = answers E ++ [(i, x)] := by
  have hone : List.filter (fun y : Nat × Incident V => y.2.isAnswer) [(i, x)] = [(i, x)] :=
    List.filter_cons_of_pos hx
  rw [answers, List.filter_append, hone]
  rfl

lemma answers_concat_asks (E : List (Nat × Incident V)) (i : Nat) :
    answers (E ++ [(i, .asks)]) = answers E := by
  rw [answers, List.filter_append]
  exact List.append_nil _

lemma failures_concat (fs : List Nat) (i : Nat) :
    failures (fs ++ [i]) = failures fs ++ [(i, .begins)] ++ [((i, .fails) : Nat × Incident V)] := by
  rw [failures, List.flatMap_append, List.append_assoc]
  rfl

lemma tally_cons (x : Incident V) (xs : List (Incident V)) :
    tally (x :: xs) = (tally [x]).plus (tally xs) := tally_append [x] xs

/-- A computation that fails is a miss. -/
lemma tally_failures (fs : List Nat) :
    tally ((failures fs : List (Nat × Incident V)).map Prod.snd) = ⟨0, fs.length, 0⟩ := by
  induction fs with
  | nil => rfl
  | cons f fs ih =>
      have hcons : (failures (f :: fs) : List (Nat × Incident V)).map Prod.snd =
          [.begins, .fails] ++ (failures fs).map Prod.snd := rfl
      have hone : tally ([.begins, .fails] : List (Incident V)) = ⟨0, 1, 0⟩ := rfl
      rw [hcons, tally_append, ih, hone, List.length_cons, Nat.add_comm fs.length]
      simp only [Stats.plus, Nat.zero_add]

lemma tally_hits (hs : List Nat) (e : Entry V) :
    tally ((hs.map fun i => (i, hits e)).map Prod.snd) = ⟨hs.length, 0, 0⟩ := by
  simp [tally, counted, Function.comp_def, List.countP_replicate]

lemma tally_sharings (ss : List Nat) (e : Entry V) :
    tally ((sharings ss e).map Prod.snd) = ⟨0, 0, ss.length⟩ := by
  simp [sharings, tally, counted, Function.comp_def, List.countP_replicate]

/-- Only answers are counted. -/
lemma tally_answers (E : List (Nat × Incident V)) :
    tally ((answers E).map Prod.snd) = tally (E.map Prod.snd) := by
  induction E with
  | nil => rfl
  | cons x E ih =>
      obtain ⟨i, x⟩ := x
      rw [List.map_cons, tally_cons, ← ih]
      cases x with
      | asks => exact (Stats.zero_plus _).symm
      | _ => exact tally_cons _ _

end Incident

variable [DecidableEq κ]

/-- The incidents of a question. -/
def Chronicle.of (L : Chronicle κ V) (q : Question κ) : List (Nat × Incident V) :=
  (L.filter fun x => x.1 = q).map Prod.snd

/-- The entries of a chronicle that are about other questions. -/
def Chronicle.besides (L : Chronicle κ V) (q : Question κ) : Chronicle κ V :=
  L.filter fun x => x.1 ≠ q

/-- The counters of a chronicle. -/
def Chronicle.tally (L : Chronicle κ V) : Stats := Incident.tally (L.map fun x => x.2.2)

namespace Chronicle

/-- A turn adds to the incidents of a question what it is for the question. -/
lemma of_concat (L : Chronicle κ V) (a : Action κ σ V) (t t' : Thread κ V) (i : Nat)
    (q : Question κ) :
    of (L ++ ((a.incident? t t').map fun x => (x.1, i, x.2)).toList) q =
      L.of q ++ ((a.incidentOf t t' q).map fun x => (i, x)).toList := by
  rw [of, List.filter_append, List.map_append, Action.incidentOf]
  congr 1
  cases a.incident? t t' with
  | none => rfl
  | some x =>
      rw [Option.map_some, Option.toList_some, Option.filter_some]
      by_cases hx : x.1 = q
      · rw [List.filter_cons_of_pos (by simpa using hx), if_pos (by simpa using hx)]
        rfl
      · rw [List.filter_cons_of_neg (by simpa using hx), if_neg (by simpa using hx)]
        rfl

/-- What is counted is about the question or about other ones. -/
lemma tally_eq (L : Chronicle κ V) (q : Question κ) :
    L.tally = (L.besides q).tally.plus (Incident.tally ((L.of q).map Prod.snd)) := by
  have hcount : ∀ c : Incident V → Bool, (L.map fun x => x.2.2).countP c =
      ((L.besides q).map fun x => x.2.2).countP c + ((L.of q).map Prod.snd).countP c := by
    intro c
    rw [of, besides, List.map_map, List.countP_map, List.countP_map, List.countP_map,
      List.countP_eq_countP_filter_add _ _ fun x => decide (x.1 = q), Nat.add_comm]
    congr 2
    exact List.filter_congr fun x _ => (decide_not).symm
  simp only [tally, Incident.tally, Stats.plus, hcount]

end Chronicle

namespace Pool

variable {P P' : Pool κ σ V} {q : Question κ} {L : Chronicle κ V}

/-- **A run in which the callers of a question come together.**  No results are dropped.  Each
caller asks once, before a result is stored.  As long as the stored result is the one from the
beginning, its files are left alone. -/
inductive Gathering (q : Question κ) (P : Pool κ σ V) : Chronicle κ V → Pool κ σ V → Prop
  | none : Gathering q P [] P
  | snoc {P' P'' : Pool κ σ V} {L : Chronicle κ V} {i : Nat} {a : Action κ σ V}
      (h : Gathering q P L P') (hs : P'.Step i a P'') (hkept : ¬a.Dropping)
      (hasks : a = .request q →
        i ∉ Incident.callers (L.of q) ∧ ∀ x ∈ L.of q, ∀ e, x.2 ≠ .stores e)
      (hfiles : ∀ w e, a = .change w → P.shared.cache.entry? q = some e →
        P'.shared.cache.entry? q = some e → ∀ p ∈ e.digests.files,
          (Digests.ofFile w.disk p).run.value =
            (Digests.ofFile P'.shared.world.disk p).run.value) :
      Gathering q P
        (L ++ ((a.incident? (P'.threads i) (P''.threads i)).map fun x => (x.1, i, x.2)).toList) P''

/-- **Everything is counted.** -/
lemma Gathering.stats (h : Gathering q P L P') :
    P'.shared.stats = P.shared.stats.plus L.tally := by
  induction h with
  | none => rfl
  | @snoc P' P'' L i a _ hs _ _ _ ih =>
      rw [hs.toTurn.stats, ih, Stats.plus_assoc, Chronicle.tally, Chronicle.tally, List.map_append,
        Incident.tally_append]
      congr 3
      cases a.incident? (P'.threads i) (P''.threads i) <;> rfl

end Pool

/-- The result that is stored for a question may be used again. -/
def Shared.Reusable (S : Shared κ σ V) (q : Question κ) (e : Entry V) : Prop :=
  S.cache.entry? q = some e ∧ (e.isFresh S.world.disk).run.value = .ok true

/-! ## Going on -/

/-- How many turns a request still needs if the answer need not be computed. -/
def Phase.ahead : Phase κ V → Nat
  | .asking _ _ => 4
  | .waiting _ _ _ => 3
  | .inside _ _ _ => 2
  | .leaving _ _ _ => 1
  | .running => 0

variable {S : Shared κ σ V} {t : Thread κ V}

/-- A thread goes on with its request, unless it waits for a lock that is held. -/
lemma Thread.goes_on (hS : S.Recorded) (hahead : t.phase.ahead ≠ 0)
    (hfree : ∀ q g l, t.phase = .waiting q g l → l ∉ S.taken) :
    ∃ a S' t', Turn S t a S' t' ∧ ¬a.Dropping ∧ t'.phase.ahead < t.phase.ahead := by
  obtain ⟨phase, js⟩ := t
  cases phase with
  | running => exact absurd rfl hahead
  | asking q g =>
      cases hlock : Assoc.get? S.table q with
      | some l => exact ⟨_, _, _, .lock hlock, id, Nat.lt_succ_self 3⟩
      | none => exact ⟨_, _, _, .make hlock, id, Nat.lt_succ_self 3⟩
  | waiting q g l => exact ⟨_, _, _, .enter (hfree q g l rfl), id, Nat.lt_succ_self 2⟩
  | inside q g l =>
      cases he : S.cache.entry? q with
      | none =>
          exact ⟨_, _, _, .begin fun e he' => absurd (he.symm.trans he') nofun, id, Nat.two_pos⟩
      | some e =>
          by_cases hgen : e.generation = g
          · have hsealed : e.Sealed := hS.sealed (Assoc.mem_of_get? he)
            obtain ⟨b, hb⟩ := Entry.exists_isFresh hsealed S.world.disk
            cases b with
            | true => exact ⟨_, _, _, .hit he hgen hb, id, Nat.one_lt_two⟩
            | false =>
                refine ⟨_, _, _, .begin fun e' he' => ?_, id, Nat.two_pos⟩
                obtain rfl := Option.some.inj (he.symm.trans he')
                exact ⟨hgen, hb⟩
          · exact ⟨_, _, _, .share he hgen, id, Nat.one_lt_two⟩
  | leaving q l result => exact ⟨_, _, _, .leave, id, Nat.one_pos⟩

namespace Pool

variable {P : Pool κ σ V} {q : Question κ} {i : Nat}

/-- **Requests do not block each other.**  As long as a thread is busy with a question, the answer
is being computed, or one of the threads that are busy with it can go on with its request. -/
theorem Reachable.goes_on (hP : P.Reachable) (hi : (P.threads i).Busy q) :
    (∃ k, (P.threads k).computing q ≠ 0) ∨
      ∃ k a P', (P.threads k).Busy q ∧ P.Step k a P' ∧ ¬a.Dropping ∧
        (P'.threads k).phase.ahead < (P.threads k).phase.ahead := by
  by_cases hcomputing : ∃ k, (P.threads k).computing q ≠ 0
  · exact Or.inl hcomputing
  refine Or.inr ?_
  have hstep : ∀ k, (P.threads k).Busy q → (P.threads k).phase.ahead ≠ 0 →
      (∀ q g l, (P.threads k).phase = .waiting q g l → l ∉ P.shared.taken) →
      ∃ k a P', (P.threads k).Busy q ∧ P.Step k a P' ∧ ¬a.Dropping ∧
        (P'.threads k).phase.ahead < (P.threads k).phase.ahead := by
    intro k hk hahead hfree
    obtain ⟨a, S', t', hturn, hkept, hless⟩ := Thread.goes_on hP.recorded.shared hahead hfree
    refine ⟨k, a, _, hk, .turn hturn, hkept, ?_⟩
    show (Function.update P.threads k t' k).phase.ahead < _
    rwa [Function.update_self]
  rcases hi with ⟨g, hseen⟩ | ⟨l, result, hp⟩ | hi
  · cases hp : (P.threads i).phase with
    | waiting q' g' l =>
        rw [hp] at hseen
        obtain ⟨rfl, rfl⟩ := Prod.mk.inj (Option.some.inj hseen)
        by_cases hl : l ∈ P.shared.taken
        · -- The lock is held by a thread that asks the same question, and which can go on.
          obtain ⟨k, ⟨q'', l'⟩, hx, hl'⟩ := hP.orderly.exclusive.held l hl
          obtain rfl : l' = l := hl'
          have hlabel := hP.orderly.claims i (q', l') (Or.inl (by rw [Thread.awaits, hp]))
          have hlabel' := hP.orderly.claims k (q'', l') (Or.inr hx)
          obtain rfl : q' = q'' := Option.some.inj (hlabel.symm.trans hlabel')
          have hk := Thread.busy_of_claims (Or.inr hx)
          rcases Thread.holds_cases hx with ⟨g, hp⟩ | ⟨result, hp⟩ | hk'
          · exact hstep k hk (by rw [hp]; exact nofun) (by rw [hp]; exact nofun)
          · exact hstep k hk (by rw [hp]; exact nofun) (by rw [hp]; exact nofun)
          · exact absurd ⟨k, hk'⟩ hcomputing
        · refine hstep i (Or.inl ⟨g', by rw [hp]; rfl⟩) (by rw [hp]; exact nofun) ?_
          rintro q g l' hp'
          cases hp.symm.trans hp'
          exact hl
    | asking q' g' =>
        exact hstep i (Or.inl ⟨g, hseen⟩) (by rw [hp]; exact nofun) (by rw [hp]; exact nofun)
    | inside q' g' l =>
        exact hstep i (Or.inl ⟨g, hseen⟩) (by rw [hp]; exact nofun) (by rw [hp]; exact nofun)
    | _ =>
        rw [hp] at hseen
        cases hseen
  · exact hstep i (Or.inr (Or.inl ⟨l, result, hp⟩)) (by rw [hp]; exact nofun)
      (by rw [hp]; exact nofun)
  · exact absurd ⟨i, hi⟩ hcomputing

end Pool

end ScarbCrates
