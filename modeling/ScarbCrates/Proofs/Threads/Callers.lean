import ScarbCrates.Proofs.Threads.Sessions

/-!
# Callers who ask at the same time

Several callers ask a question before any of them is answered: each is handed the lock, and the lock
lets one in after the other.  Each of them is a thread of its own.  So whatever comes about in
sessions, by computations one after the other and by callers who ask at the same time, is what
threads come to.  They are careful all the while, since no results are dropped but by whoever has
the lock that the others wait for.

* `Pool.neat` — a thread is as good as by itself if no other holds a lock.
* `Pool.CarefulRun.course` — some steps of one thread while others wait.
* `Pool.atRest`, `Pool.queue` — threads that do nothing, and threads that wait for the same lock.
* `Session.Comes`, `Session.Comes.exists_careful` — whatever comes about is what careful threads
  come to.
-/

namespace ScarbCrates

variable {κ σ V ε : Type} [DecidableEq κ] {S S' : Shared κ σ V} {t t' : Thread κ V}

/-! ## One of several threads -/

namespace Pool

variable {P P' : Pool κ σ V} {i : Nat}

omit [DecidableEq κ] in
/-- **A thread is as good as by itself** if no other holds a lock. -/
lemma neat (ho : P.Orderly) (ht : P.Tidy) (hothers : ∀ k, k ≠ i → (P.threads k).holds = []) :
    Neat P.shared (P.threads i) := by
  have hclaims : ∀ m x, ((solo P.shared (P.threads i)).threads m).Claims x →
      (P.threads i).Claims x := by
    intro m x hx
    by_cases hm : m = 0
    · subst hm
      exact hx
    · rw [threads_solo_of_ne _ _ hm] at hx
      exact absurd hx (idle_claims x)
  have hholds : ∀ m x, x ∈ ((solo P.shared (P.threads i)).threads m).holds →
      m = 0 ∧ x ∈ (P.threads i).holds := by
    intro m x hx
    by_cases hm : m = 0
    · subst hm
      exact ⟨rfl, hx⟩
    · rw [threads_solo_of_ne _ _ hm] at hx
      exact absurd hx List.not_mem_nil
  refine ⟨⟨ho.shared, fun m x hx => ho.claims i x (hclaims m x hx), ?_⟩,
    fun m x hx => ht i x (hclaims m x hx)⟩
  refine ⟨fun m x hx => ho.exclusive.taken i x (hholds m x hx).2, fun l hl => ?_,
    ho.exclusive.nodup, fun m => ?_, fun m m' hne x hx y hy => ?_⟩
  · obtain ⟨k, x, hx, hxl⟩ := ho.exclusive.held l hl
    by_cases hk : k = i
    · subst hk
      exact ⟨0, x, hx, hxl⟩
    · rw [hothers k hk] at hx
      exact absurd hx List.not_mem_nil
  · by_cases hm : m = 0
    · subst hm
      exact ho.exclusive.once i
    · rw [threads_solo_of_ne _ _ hm]
      exact List.nodup_nil
  · exact absurd ((hholds m x hx).1.trans (hholds m' y hy).1.symm) hne

end Pool

lemma Course.made_length_le {as : List (Action κ σ V)} (h : Course S t as S' t') :
    S.made.length ≤ S'.made.length := by
  induction h with
  | none => exact Nat.le_refl _
  | snoc _ ha ih => exact Nat.le_trans ih ha.effect.made_prefix.length_le

namespace Pool

variable {P P' : Pool κ σ V} {i : Nat} {as : List (Nat × Action κ σ V)}

/-- **Some steps of one thread while others wait.**  They are careful if all that the others wait
for is in the table at the end, since a lock that has been dropped would not come back. -/
lemma CarefulRun.course {bs : List (Action κ σ V)} (h : P.CarefulRun as P')
    (hi : P'.threads i = t) (hc : Course P'.shared t bs S' t')
    (hkept : ∀ k, k ≠ i → ∀ x, (P'.threads k).awaits = some x →
      x.2 < P'.shared.made.length ∧ x ∈ S'.table) :
    P.CarefulRun (as ++ bs.map fun a => (i, a)) ⟨S', Function.update P'.threads i t'⟩ := by
  induction hc with
  | none =>
      rw [List.map_nil, List.append_nil, Function.update_eq_self_iff.2 hi.symm]
      exact h
  | @snoc S₁ S₂ t₁ t₂ _ a hcourse ha ih =>
      have hrun := ih fun k hk x hx => by
        obtain ⟨hmade, hmem⟩ := hkept k hk x hx
        have hmade₁ := Nat.lt_of_lt_of_le hmade hcourse.made_length_le
        exact ⟨hmade, ha.effect.mem_of_mem_table hmem hmade₁⟩
      have hstep := hrun.turn (Function.update_self i _ _) ha fun k hk x hx _ => by
        have hother : Function.update P'.threads i t₁ k = P'.threads k :=
          Function.update_of_ne hk _ _
        exact (hkept k hk x (hother ▸ hx)).2
      rw [Function.update_idem, List.append_assoc] at hstep
      rwa [List.map_append]

/-! ## Threads in a queue -/

/-- Threads that do nothing. -/
def atRest (S : Shared κ σ V) : Pool κ σ V := ⟨S, fun _ => .idle⟩

/-- **Threads that wait for the same lock:** from the first one up to the last one, which is not one
of them any more.  All others do nothing. -/
def queue (S : Shared κ σ V) (first last : Nat) (q : Question κ) (seen l : Nat) : Pool κ σ V :=
  ⟨S, fun i => if first ≤ i ∧ i < last then ⟨.waiting q seen l, []⟩ else .idle⟩

variable {q : Question κ} {seen l first last : Nat}

omit [DecidableEq κ] in
lemma update_atRest (i : Nat) :
    (⟨S', Function.update (atRest S).threads i .idle⟩ : Pool κ σ V) = atRest S' :=
  congrArg _ (Function.update_eq_self_iff.2 rfl)

omit [DecidableEq κ] in
lemma threads_queue_of_mem (h : first ≤ i ∧ i < last) :
    (queue S first last q seen l).threads i = ⟨.waiting q seen l, []⟩ := if_pos h

omit [DecidableEq κ] in
lemma threads_queue_of_not_mem (h : ¬(first ≤ i ∧ i < last)) :
    (queue S first last q seen l).threads i = .idle := if_neg h

omit [DecidableEq κ] in
lemma queue_self (S : Shared κ σ V) (n : Nat) (q : Question κ) (seen l : Nat) :
    queue S n n q seen l = atRest S := by
  rw [queue, atRest]
  congr 1
  funext i
  exact if_neg (by omega)

omit [DecidableEq κ] in
/-- One more thread at the end. -/
lemma queue_succ (h : first ≤ last) :
    (⟨S', Function.update (queue S first last q seen l).threads last ⟨.waiting q seen l, []⟩⟩ :
      Pool κ σ V) = queue S' first (last + 1) q seen l := by
  rw [queue, queue]
  congr 1
  funext i
  by_cases hi : i = last
  · subst hi
    rw [Function.update_self, if_pos (by omega)]
  · rw [Function.update_of_ne hi]
    exact if_congr (by omega) rfl rfl

omit [DecidableEq κ] in
/-- The first thread is done. -/
lemma queue_done (h : first < last) :
    (⟨S', Function.update (queue S first last q seen l).threads first .idle⟩ : Pool κ σ V) =
      queue S' (first + 1) last q seen l := by
  rw [queue, queue]
  congr 1
  funext i
  by_cases hi : i = first
  · subst hi
    rw [Function.update_self, if_neg (by omega)]
  · rw [Function.update_of_ne hi]
    exact if_congr (by omega) rfl rfl

omit [DecidableEq κ] in
lemma holds_queue (i : Nat) : ((queue S first last q seen l).threads i).holds = [] := by
  by_cases hi : first ≤ i ∧ i < last
  · rw [threads_queue_of_mem hi]
    rfl
  · rw [threads_queue_of_not_mem hi]
    rfl

omit [DecidableEq κ] in
lemma eq_of_awaits_queue {x : Question κ × Nat}
    (h : ((queue S first last q seen l).threads i).awaits = some x) : x = (q, l) := by
  by_cases hi : first ≤ i ∧ i < last
  · rw [threads_queue_of_mem hi] at h
    exact (Option.some.inj h).symm
  · rw [threads_queue_of_not_mem hi] at h
    cases h

/-- The lock that everybody in a queue waits for stays where it is while one of them does
something. -/
lemma CarefulRun.course_queue {w : World σ} {bs : List (Action κ σ V)}
    (h : (start w).CarefulRun as (queue S first last q seen l))
    (hi : (queue S first last q seen l).threads i = t) (hc : Course S t bs S' t')
    (hl : (q, l) ∈ S.table) (hl' : (q, l) ∈ S'.table) :
    (start w).CarefulRun (as ++ bs.map fun a => (i, a))
      ⟨S', Function.update (queue S first last q seen l).threads i t'⟩ := by
  obtain ⟨-, horderly⟩ := h.tidy (tidy_start w) (orderly_start w)
  refine h.course hi hc fun k hk x hx => ?_
  rw [eq_of_awaits_queue hx]
  exact ⟨(List.getElem?_eq_some_iff.1 (horderly.shared.table _ hl)).1, hl'⟩

/-- **Callers ask, one more than a number.**  All see the same generation, and are handed the same
lock. -/
lemma exists_queue {w : World σ} {s : Session κ σ V} (h : (start w).CarefulRun as (atRest S))
    (hs : Shows S .idle s) (q : Question κ) (n : Nat) :
    ∃ bs S' l, (start w).CarefulRun bs (queue S' 0 (n + 1) q (s.cache.storedGeneration q) l) ∧
      Shows S' .idle (s.withCache (·.ensureLock q)) ∧ (q, l) ∈ S'.table := by
  induction n with
  | zero =>
      obtain ⟨S', l, hcourse, hs', hl⟩ := Shows.exists_handed hs q
      have hrun := h.course (i := 0) rfl hcourse fun k _ x hx => by cases hx
      rw [← queue_self S 0 q _ l, queue_succ (Nat.le_refl 0)] at hrun
      exact ⟨_, S', l, hrun, hs'.moved _ rfl rfl, hl⟩
  | succ n ih =>
      obtain ⟨bs, S', l, hrun, hs', hl⟩ := ih
      obtain ⟨-, horderly⟩ := hrun.tidy (tidy_start w) (orderly_start w)
      -- The lock is there already, and nothing has been stored since the first one asked.
      have hseen : S'.cache.storedGeneration q = s.cache.storedGeneration q := by
        rw [← hs'.storedGeneration_eq]
        exact Session.storedGeneration_locked s q
      have hcourse : Course S' .idle [.request q, .lock] S' ⟨.waiting q _ l, []⟩ :=
        .snoc (.snoc .none (.request [] q)) (.lock (horderly.shared.get?_table hl))
      rw [hseen] at hcourse
      have hnext := hrun.course_queue (i := n + 1) (threads_queue_of_not_mem (by omega)) hcourse hl
        hl
      rw [queue_succ (Nat.zero_le _)] at hnext
      exact ⟨_, S', l, hnext, hs', hl⟩

end Pool

/-! ## Sessions from outside -/

namespace Session

variable [QueryKey κ] {w : World σ} {s : Session κ σ V} {as : List (Nat × Action κ σ V)}

/-- **Callers in a queue are served one after the other.** -/
lemma serveAll_careful {q : Question κ} {seen l : Nat} (body : Computation κ σ V ε V)
    (callers : Nat) : ∀ (first : Nat) {as : List (Nat × Action κ σ V)} {S : Shared κ σ V}
      {s : Session κ σ V},
      (Pool.start w).CarefulRun as (Pool.queue S first (first + callers) q seen l) →
      Shows S .idle s → (q, l) ∈ S.table →
      ∃ bs S', (Pool.start w).CarefulRun bs (Pool.atRest S') ∧
        Shows S' .idle (serveAll seen q (run body) callers s).2 := by
  induction callers with
  | zero =>
      intro first as S s hrun hs _
      rw [Nat.add_zero, Pool.queue_self] at hrun
      exact ⟨as, S, hrun, hs⟩
  | succ callers ih =>
      intro first as S s hrun hs hl
      obtain ⟨htidy, horderly⟩ := hrun.tidy (Pool.tidy_start w) (Pool.orderly_start w)
      have hfirst : (Pool.queue S first (first + (callers + 1)) q seen l).threads first =
          ⟨.waiting q seen l, []⟩ := Pool.threads_queue_of_mem (by omega)
      -- Nobody in the queue holds a lock, so the first one has the cache to itself.
      have hn := Pool.neat (i := first) horderly htidy fun k _ => Pool.holds_queue k
      rw [hfirst] at hn
      have hheld : q ∉ s.cache.held := by
        rw [hs.held]
        exact List.not_mem_nil
      obtain ⟨bs, S', js, hcourse, hs', rfl, hl', -⟩ :=
        serve_of_waiting (hs.moved _ rfl rfl) hn hl hheld body (run_leads body)
      have hnext := hrun.course_queue hfirst hcourse hl hl'
      rw [show (⟨.running, []⟩ : Thread κ V) = .idle from rfl, Pool.queue_done (by omega),
        show first + (callers + 1) = first + 1 + callers by omega] at hnext
      exact ih (first + 1) hnext hs' hl'

/-- **Callers who ask the same question at the same time** are careful threads. -/
lemma concurrent_careful (h : (Pool.start w).CarefulRun as (Pool.atRest S)) (hs : Shows S .idle s)
    (callers : Nat) (q : Question κ) (body : Computation κ σ V ε V) :
    ∃ bs S', (Pool.start w).CarefulRun bs (Pool.atRest S') ∧
      Shows S' .idle (concurrent callers q body s).2 := by
  have hframes : s.frames = [] := hs.frames
  have hsame : ({ s with frames := [] } : Session κ σ V) = s := by rw [← hframes]
  have hall : ∃ bs S', (Pool.start w).CarefulRun bs (Pool.atRest S') ∧
      Shows S' .idle (serveAll (s.cache.storedGeneration q) q (run body) callers s).2 := by
    cases callers with
    | zero => exact ⟨as, S, h, hs⟩
    | succ n =>
        obtain ⟨bs, S', l, hrun, hs', hl⟩ := Pool.exists_queue h hs q n
        rw [← Nat.zero_add (n + 1)] at hrun
        have hserved := serveAll_careful body (n + 1) 0 hrun hs' hl
        rwa [serveAll, serve_ensureLock] at hserved
  obtain ⟨bs, S', hrun, hs'⟩ := hall
  refine ⟨bs, S', hrun, ?_⟩
  rw [concurrent, hsame]
  exact ⟨hs'.entries, hs'.generation, hs'.stats, hs'.locks, hs'.held, hframes, hs'.world⟩

/-- **What comes about in sessions:** computations are run one after the other, questions are asked
by callers at the same time, and notices are taken away. -/
inductive Comes (w : World σ) : Session κ σ V → Prop
  | start : Comes w (Session.start w)
  | run {ε α : Type} {s : Session κ σ V} (h : Comes w s) (c : Computation κ σ V ε α) :
      Comes w (run c s).2
  | concurrent {ε : Type} {s : Session κ σ V} (h : Comes w s) (callers : Nat) (q : Question κ)
      (body : Computation κ σ V ε V) : Comes w (concurrent callers q body s).2
  | hush {s : Session κ σ V} (h : Comes w s) : Comes w { s with notices := [] }

/-- **Whatever comes about is what careful threads come to,** and in the end they are all at rest.
By `Pool.CarefulRun.singleFlight` no question is computed twice at a time on the way. -/
theorem Comes.exists_careful (h : Comes w s) :
    ∃ as S, (Pool.start w).CarefulRun as (Pool.atRest S) ∧ Shows S .idle s := by
  induction h with
  | start => exact ⟨[], .start w, .none, .start w⟩
  | @run ε α s _ c ih =>
      obtain ⟨as, S, hrun, hs⟩ := ih
      obtain ⟨htidy, horderly⟩ := hrun.tidy (Pool.tidy_start w) (Pool.orderly_start w)
      have hn : Neat S .idle := Pool.neat (i := 0) horderly htidy fun _ _ => rfl
      obtain ⟨bs, S', js, hcourse, hs', rfl, -⟩ := run_leads c s S [] hn hs
      have hnext := hrun.course (i := 0) rfl hcourse fun k _ x hx => by cases hx
      rw [show (⟨.running, []⟩ : Thread κ V) = .idle from rfl, Pool.update_atRest] at hnext
      exact ⟨_, S', hnext, hs'⟩
  | concurrent _ callers q body ih =>
      obtain ⟨as, S, hrun, hs⟩ := ih
      exact concurrent_careful hrun hs callers q body
  | hush _ ih =>
      obtain ⟨as, S, hrun, hs⟩ := ih
      exact ⟨as, S, hrun, hs.entries, hs.generation, hs.stats, hs.locks, hs.held, hs.frames,
        hs.world⟩

end Session

end ScarbCrates
