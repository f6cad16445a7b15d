import ScarbCrates.Proofs.Query.Serving
import ScarbCrates.Proofs.Threads.SingleFlight

/-!
# A session is a thread by itself

A session takes many steps of a thread at once: a whole request, with all that its computation does.
Here a session is compared with one thread that has the cache to itself, step by step, so that what
is known about threads, and about the past, is known of sessions.

* `Neat` — the locks of a thread by itself.
* `Action.Tells` — the questions that are asked in some steps.
* `Shows` — a session is what one thread has come to.
-/

namespace ScarbCrates

variable {κ σ V ε : Type} [DecidableEq κ] {S S' : Shared κ σ V} {t t' : Thread κ V}

/-! ## The locks of a thread by itself -/

/-- **The locks of a thread by itself** are in order, and all that it has a claim on are in the
table. -/
structure Neat (S : Shared κ σ V) (t : Thread κ V) : Prop where
  orderly : (Pool.solo S t).Orderly
  tidy : (Pool.solo S t).Tidy

omit [DecidableEq κ] in
lemma Pool.threads_solo_of_ne (S : Shared κ σ V) (t : Thread κ V) {i : Nat} (hi : i ≠ 0) :
    (solo S t).threads i = .idle := by
  show Function.update (fun _ => Thread.idle) 0 t i = .idle
  rw [Function.update_of_ne hi]

omit [DecidableEq κ] in
lemma neat_start (w : World σ) : Neat (.start w : Shared κ σ V) .idle := by
  refine ⟨?_, ?_⟩
  · rw [Pool.solo_start]
    exact Pool.orderly_start w
  · rw [Pool.solo_start]
    exact Pool.tidy_start w

/-- A thread by itself is careful, since nobody else waits. -/
lemma Turn.careful_solo {a : Action κ σ V} (h : Turn S t a S' t') :
    (Pool.solo S t).Careful (Pool.solo S' t') := by
  intro i x hawaits hx
  by_cases hi : i = 0
  · subst hi
    exact h.effect.mem_table_of_awaits hawaits hx
  · rw [Pool.threads_solo_of_ne S t hi] at hawaits
    exact absurd hawaits nofun

lemma Turn.neat {a : Action κ σ V} (h : Turn S t a S' t') (hn : Neat S t) : Neat S' t' :=
  ⟨h.solo.orderly hn.orderly, hn.tidy.step hn.orderly.exclusive h.solo h.careful_solo⟩

lemma Course.neat {as : List (Action κ σ V)} (h : Course S t as S' t') (hn : Neat S t) :
    Neat S' t' := by
  induction h with
  | none => exact hn
  | snoc _ ha ih => exact ha.neat ih

namespace Neat

omit [DecidableEq κ] in
lemma exists_holds (hn : Neat S t) {l : Nat} (hl : l ∈ S.taken) : ∃ x ∈ t.holds, x.2 = l := by
  obtain ⟨i, x, hx, hl⟩ := hn.orderly.exclusive.held l hl
  by_cases hi : i = 0
  · subst hi
    exact ⟨x, hx, hl⟩
  · rw [Pool.threads_solo_of_ne S t hi] at hx
    exact absurd hx List.not_mem_nil

omit [DecidableEq κ] in
/-- The lock of a question is taken exactly if the thread holds the lock of the question. -/
lemma mem_taken_iff (hn : Neat S t) {q : Question κ} {l : Nat} (hl : (q, l) ∈ S.table) :
    l ∈ S.taken ↔ (q, l) ∈ t.holds := by
  constructor
  · intro ht
    obtain ⟨x, hx, hxl⟩ := hn.exists_holds ht
    have hlabel : S.made[x.2]? = some x.1 := hn.orderly.claims 0 x (Or.inr hx)
    have hlabel' : S.made[l]? = some q := hn.orderly.shared.table _ hl
    rw [hxl, hlabel', Option.some.injEq] at hlabel
    have hxq : x = (q, l) := Prod.ext hlabel.symm hxl
    exact hxq ▸ hx
  · exact fun hx => hn.orderly.exclusive.taken 0 _ hx

omit [DecidableEq κ] in
lemma mem_held_iff (hn : Neat S t) {q : Question κ} :
    q ∈ S.cache.held ↔ q ∈ t.holds.map Prod.fst := by
  constructor
  · intro hq
    obtain ⟨⟨q, l⟩, hx, rfl⟩ := List.mem_map.1 hq
    obtain ⟨hx, ht⟩ := List.mem_filter.1 hx
    exact List.mem_map.2 ⟨(q, l), (hn.mem_taken_iff hx).1 (of_decide_eq_true ht), rfl⟩
  · intro hq
    obtain ⟨x, hx, rfl⟩ := List.mem_map.1 hq
    have ht : x.2 ∈ S.taken := hn.orderly.exclusive.taken 0 x hx
    exact List.mem_map_of_mem
      (List.mem_filter.2 ⟨hn.tidy 0 x (Or.inr hx), decide_eq_true ht⟩)

end Neat

/-! ## What is asked -/

namespace Action

def asked? : Action κ σ V → Option (Question κ)
  | .request q => some q
  | _ => none

def refuses : Action κ σ V → Bool
  | .refuse => true
  | _ => false

/-- The questions that are asked, in order. -/
def asked (as : List (Action κ σ V)) : List (Question κ) := as.filterMap asked?

/-- How many questions are refused, since they would wait for themselves. -/
def refusals (as : List (Action κ σ V)) : Nat := as.countP refuses

/-- A turn in which nothing is asked or refused. -/
def Quiet (a : Action κ σ V) : Prop := a.asked? = none ∧ a.refuses = false

/-- **The questions that are asked in some turns,** each with whether it is refused. -/
structure Tells (as : List (Action κ σ V)) (qs : List (Question κ × Bool)) : Prop where
  asked : Action.asked as = qs.map Prod.fst
  refusals : Action.refusals as = qs.countP Prod.snd

omit [DecidableEq κ] in
lemma Tells.append {as bs : List (Action κ σ V)} {qs qs' : List (Question κ × Bool)}
    (h : Tells as qs) (h' : Tells bs qs') : Tells (as ++ bs) (qs ++ qs') := by
  constructor
  · rw [List.map_append, ← h.asked, ← h'.asked]
    exact List.filterMap_append
  · rw [List.countP_append, ← h.refusals, ← h'.refusals]
    exact List.countP_append

omit [DecidableEq κ] in
lemma tells_handed (q : Question κ) : Tells [.request q, (.lock : Action κ σ V)] [(q, false)] :=
  ⟨rfl, rfl⟩

omit [DecidableEq κ] in
lemma Quiet.tells {a : Action κ σ V} (h : a.Quiet) : Tells [a] [] := by
  obtain ⟨hasked, hrefuses⟩ := h
  constructor
  · simp [Action.asked, hasked]
  · simp [Action.refusals, hrefuses]

end Action

/-! ## Locks that are there already -/

lemma Cache.ensureLock_of_mem {c : Cache κ V} {q : Question κ} (h : q ∈ c.locks) :
    c.ensureLock q = c := if_pos h

lemma Cache.mem_locks_ensureLock (c : Cache κ V) (q : Question κ) : q ∈ (c.ensureLock q).locks := by
  by_cases h : q ∈ c.locks
  · rwa [ensureLock_of_mem h]
  · rw [ensureLock, if_neg h]
    exact List.mem_append_right _ (List.mem_singleton.2 rfl)

lemma Session.withCache_ensureLock_of_mem {s : Session κ σ V} {q : Question κ}
    (h : q ∈ s.cache.locks) : s.withCache (·.ensureLock q) = s := by
  rw [withCache, Cache.ensureLock_of_mem h]

/-! ## What a session shows -/

/-- **A session is what one thread has come to.** -/
structure Shows (S : Shared κ σ V) (t : Thread κ V) (s : Session κ σ V) : Prop where
  entries : s.cache.entries = S.entries
  generation : s.cache.generation = S.generation
  stats : s.cache.stats = S.stats
  locks : s.cache.locks = Assoc.keys S.table
  held : s.cache.held = t.holds.map Prod.fst
  frames : s.frames = t.jobs.map Job.frame
  world : s.world = S.world

namespace Shows

variable {s : Session κ σ V} {js : List (Job κ V)} {q : Question κ} {seen l : Nat}

omit [DecidableEq κ] in
lemma start (w : World σ) : Shows (.start w : Shared κ σ V) .idle (Session.start w) :=
  ⟨rfl, rfl, rfl, rfl, rfl, rfl, rfl⟩

lemma entry?_eq (h : Shows S t s) (q : Question κ) : s.cache.entry? q = S.cache.entry? q := by
  rw [Cache.entry?, h.entries]
  rfl

lemma storedGeneration_eq (h : Shows S t s) (q : Question κ) :
    s.cache.storedGeneration q = S.cache.storedGeneration q := by
  rw [Cache.storedGeneration, h.entry?_eq]
  rfl

omit [DecidableEq κ] in
lemma mem_locks (h : Shows S t s) (hl : (q, l) ∈ S.table) : q ∈ s.cache.locks := by
  rw [h.locks]
  exact List.mem_map_of_mem hl

omit [DecidableEq κ] in
lemma withNotices (h : Shows S t s) (ns : List Notice) : Shows S t (s.withNotices ns) :=
  ⟨h.entries, h.generation, h.stats, h.locks, h.held, h.frames, h.world⟩

omit [DecidableEq κ] in
lemma moved (h : Shows S t s) (t' : Thread κ V) (ht : t'.holds = t.holds)
    (hj : t'.jobs = t.jobs) : Shows S t' s :=
  ⟨h.entries, h.generation, h.stats, h.locks, ht ▸ h.held, hj ▸ h.frames, h.world⟩

lemma record (h : Shows S t s) (a : Answered) (t' : Thread κ V) (ht : t'.holds = t.holds)
    (hj : t'.jobs = t.jobs) : Shows (S.withCache (·.record a)) t' (s.withCache (·.record a)) := by
  refine ⟨h.entries, h.generation, congrArg (Stats.record · a) h.stats, ?_, ?_, ?_, h.world⟩
  · rw [Shared.table_withCache rfl]
    exact h.locks
  · rw [ht]
    exact h.held
  · rw [hj]
    exact h.frames

/-- A question is asked, and its lock is handed out. -/
lemma exists_handed (h : Shows S ⟨.running, js⟩ s) (q : Question κ) :
    ∃ S' l, Course S ⟨.running, js⟩ [.request q, .lock] S'
        ⟨.waiting q (s.cache.storedGeneration q) l, js⟩ ∧
      Shows S' ⟨.waiting q (s.cache.storedGeneration q) l, js⟩ (s.withCache (·.ensureLock q)) ∧
      (q, l) ∈ S'.table := by
  rw [h.storedGeneration_eq]
  have hlocks : q ∈ s.cache.locks ↔ Assoc.has S.table q = true := by
    rw [h.locks, Assoc.has_iff]
  rw [Assoc.has] at hlocks
  cases hl : Assoc.get? S.table q with
  | some l =>
      rw [hl] at hlocks
      refine ⟨S, l, (Course.none.snoc (.request js q)).snoc (.lock hl), ?_, Assoc.mem_of_get? hl⟩
      rw [Session.withCache_ensureLock_of_mem (hlocks.2 rfl)]
      exact h.moved _ rfl rfl
  | none =>
      rw [hl] at hlocks
      have hnew : s.cache.ensureLock q = { s.cache with locks := s.cache.locks ++ [q] } :=
        if_neg fun hq => Bool.false_ne_true (hlocks.1 hq)
      refine ⟨S.addLock q, S.made.length, (Course.none.snoc (.request js q)).snoc (.make hl), ?_,
        List.mem_append_right _ (List.mem_singleton.2 rfl)⟩
      rw [Session.withCache, hnew]
      refine ⟨h.entries, h.generation, h.stats, ?_, h.held, h.frames, h.world⟩
      show s.cache.locks ++ [q] = (S.table ++ [(q, S.made.length)]).map Prod.fst
      rw [List.map_append, h.locks]
      rfl

omit [DecidableEq κ] in
/-- A lock that the session does not hold is free. -/
lemma free (h : Shows S t s) (hn : Neat S t) (hl : (q, l) ∈ S.table) (hheld : q ∉ s.cache.held) :
    l ∉ S.taken := fun ht => hheld <| by
  rw [h.held]
  exact List.mem_map_of_mem ((hn.mem_taken_iff hl).1 ht)

lemma entered (h : Shows S ⟨.waiting q seen l, js⟩ s) (hl : (q, l) ∈ S.table) :
    Shows (S.take l) ⟨.inside q seen l, js⟩ (s.locked q) := by
  rw [Session.locked, Session.withCache_ensureLock_of_mem (h.mem_locks hl)]
  exact ⟨h.entries, h.generation, h.stats, h.locks, congrArg (q :: ·) h.held, h.frames, h.world⟩

/-- A question is asked whose lock the thread holds, and is refused. -/
lemma exists_refused (h : Shows S ⟨.running, js⟩ s) (hn : Neat S ⟨.running, js⟩) (q : Question κ)
    (hheld : q ∈ s.cache.held) :
    ∃ S', Course S ⟨.running, js⟩ [.request q, .lock, .refuse] S' ⟨.running, js⟩ ∧
      Shows S' ⟨.running, js⟩ (s.withCache (·.ensureLock q)) := by
  obtain ⟨S', l, hcourse, h', hl⟩ := h.exists_handed q
  have hn' := hcourse.neat hn
  rw [h.held] at hheld
  obtain ⟨x, hx, rfl⟩ := List.mem_map.1 hheld
  obtain ⟨j, hj, rfl⟩ := List.mem_map.1 hx
  have hlock := hn'.orderly.shared.unique (hn'.tidy 0 _ (Or.inr hx)) hl
  exact ⟨S', hcourse.snoc (.refuse ⟨j, hj, hlock⟩), h'.moved _ rfl rfl⟩

lemma begun [QueryKey κ] (h : Shows S ⟨.inside q seen l, js⟩ s) :
    Shows S.begin ⟨.running, ⟨q, l, S.begun, []⟩ :: js⟩ (s.opened q) := by
  refine ⟨h.entries, h.generation, congrArg (Stats.record · .miss) h.stats, ?_, h.held,
    congrArg (Frame.start q :: ·) h.frames, h.world⟩
  rw [Shared.table_begin]
  exact h.locks

omit [DecidableEq κ] in
lemma hear {j : Job κ V} (h : Shows S ⟨.running, j :: js⟩ s) (r : Observation V) :
    Shows S ⟨.running, j.hear r :: js⟩ (s.withFrame (·.hear r)) := by
  refine ⟨h.entries, h.generation, h.stats, h.locks, h.held, ?_, h.world⟩
  rw [Session.withFrame, h.frames]
  show j.frame.hear r :: _ = (j.hear r).frame :: _
  rw [Job.frame_hear]

/-- A computation ends, and its value is stored if it has a fingerprint. -/
lemma closed {j : Job κ V} {after : Session κ σ V} (h : Shows S ⟨.running, j :: js⟩ after)
    (hs : s.frames = js.map Job.frame) (r : Except (Failure ε) V) :
    ∃ a S', Turn S ⟨.running, j :: js⟩ a S'
        ⟨.leaving j.question j.lock (s.closed j.question (r, after)).1.toOption, js⟩ ∧
      Shows S' ⟨.leaving j.question j.lock (s.closed j.question (r, after)).1.toOption, js⟩
        (s.closed j.question (r, after)).2 ∧ a.Quiet := by
  cases r with
  | error f =>
      exact ⟨.abort, _, .abort,
        ⟨h.entries, h.generation, h.stats, h.locks, h.held, hs, h.world⟩, rfl, rfl⟩
  | ok v =>
      -- The frame that is looked up is the one of the innermost computation.
      have hframe : after.frame?.getD (Frame.start j.question) = j.frame := by
        rw [Session.frame?, h.frames]
        rfl
      have hgeneration : after.cache.generation + 1 = S.generation + 1 := by rw [h.generation]
      rw [Session.closed, hframe]
      cases hd : j.frame.digests.fingerprint with
      | error fault =>
          simp only [Session.settle, hd]
          refine ⟨.discard v, _, .discard v hd, ?_, rfl, rfl⟩
          refine ⟨h.entries, hgeneration, h.stats, ?_, h.held, hs, h.world⟩
          rw [Shared.table_withCache rfl]
          exact h.locks
      | ok digest =>
          have hresult : after.cache.advance.entryOf j.frame v digest = S.result j v digest := by
            rw [Shared.result, Cache.entryOf, Cache.entryOf, Cache.advance, h.generation]
            rfl
          simp only [Session.settle, hd, Session.withCache, hresult]
          refine ⟨.store v, _, .store v hd, ?_, rfl, rfl⟩
          refine ⟨congrArg (Assoc.put · j.question _) h.entries, hgeneration, h.stats, ?_,
            h.held, hs, h.world⟩
          rw [Shared.table_store]
          exact h.locks

/-- The lock is given back, and the computation that asked inherits the result. -/
lemma left {r : Except (Failure ε) (Entry V)} (h : Shows S ⟨.leaving q l r.toOption, js⟩ s) :
    Shows (S.giveBack l) ⟨.running, inherit r.toOption js⟩ (Session.unlocked q (r, s)).2 := by
  have hheld : s.cache.held.erase q = (js.map Job.ticket).map Prod.fst := by
    rw [h.held]
    exact List.erase_cons_head q _
  have hreleased : Shows (S.giveBack l) ⟨.running, js⟩ (s.withCache (·.release q)) :=
    ⟨h.entries, h.generation, h.stats, h.locks, hheld, h.frames, h.world⟩
  cases r with
  | error f => exact hreleased
  | ok e =>
      cases js with
      | nil =>
          refine ⟨h.entries, h.generation, h.stats, h.locks, hheld, ?_, h.world⟩
          show (Session.withFrame _ _).frames = []
          rw [Session.withFrame, hreleased.frames]
          rfl
      | cons j rest => exact hreleased.hear (.nested e)

/-- Results are dropped, and the locks that are of no use. -/
lemma prune (h : Shows S t s) (hn : Neat S t)
    (g : List (Question κ × Entry V) → List (Question κ × Entry V)) :
    Shows (S.withCache fun c => Cache.prune { c with entries := g c.entries }) t
      (s.withCache fun c => Cache.prune { c with entries := g c.entries }) := by
  refine ⟨congrArg g h.entries, h.generation, h.stats, ?_, h.held, h.frames, h.world⟩
  show s.cache.locks.filter _ = (S.table.filter _).map Prod.fst
  rw [h.locks, Assoc.keys, List.filter_map]
  -- A question in the table keeps its lock on both sides if it has a result or its lock is held.
  refine congrArg (List.map Prod.fst) (List.filter_congr fun x hx => ?_)
  rw [Bool.eq_iff_iff, Function.comp, List.contains_iff_mem, Cache.mem_locks_prune, Bool.or_eq_true,
    Cache.isHeld, decide_eq_true_iff]
  show Assoc.has (g s.cache.entries) x.1 = true ∨ x.1 ∈ s.cache.held ↔
    x.1 ∈ Assoc.keys S.table ∧ (Assoc.has (g S.entries) x.1 = true ∨ x.1 ∈ S.cache.held)
  rw [h.entries, h.held, hn.mem_held_iff]
  exact (and_iff_right (List.mem_map_of_mem hx)).symm

end Shows

end ScarbCrates
