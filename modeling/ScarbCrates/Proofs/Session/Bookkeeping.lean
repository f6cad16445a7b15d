import ScarbCrates.Proofs.Session.Failing

/-!
# The books of a cache

A request makes a lock, takes it, computes, counts, stores, and gives the lock back; computations
are nested in one another, fail, and drop results while others are under way.  All of this is done
in few kinds of steps, and what each of them keeps is kept throughout a run.

* `Cache.Step`, `Cache.Booked` — the steps of a cache, and what is in order after each of them.
* `Cache.Follows` — a later state: entries are old, or newer than all that was counted before.
* `Session.moments` — the sessions that a computation goes through, with what is done to results.
* `Session.steps_moments` — each of them is one step of the cache after the one before.
* `Session.history_booked` — locks, entries and generations at every moment of a run.
-/

namespace ScarbCrates

variable {κ σ V ε : Type}

/-! ## Entries that are told apart -/

namespace Assoc

variable {κ α β : Type} [DecidableEq κ]

/-- A new entry that is unlike all others leaves them apart. -/
lemma nodup_map_put {entries : List (κ × α)} {g : κ × α → β} (h : (entries.map g).Nodup) {key : κ}
    {a : α} (hnew : ∀ x ∈ entries, g x ≠ g (key, a)) : ((put entries key a).map g).Nodup := by
  induction entries with
  | nil => exact List.nodup_singleton _
  | cons x rest ih =>
      rw [List.map_cons, List.nodup_cons] at h
      obtain ⟨hx, hrest⟩ := List.forall_mem_cons.1 hnew
      rw [put]
      split_ifs with hkey
      · rw [List.map_cons, List.nodup_cons, hkey]
        refine ⟨fun hmem => ?_, h.2⟩
        obtain ⟨y, hy, heq⟩ := List.mem_map.1 hmem
        exact hrest y hy heq
      · rw [List.map_cons, List.nodup_cons]
        refine ⟨fun hmem => ?_, ih h.2 hrest⟩
        obtain ⟨y, hy, heq⟩ := List.mem_map.1 hmem
        rcases mem_put hy with hy | rfl
        · exact h.1 (heq ▸ List.mem_map_of_mem hy)
        · exact hx heq.symm

end Assoc

/-! ## Steps of a cache -/

namespace Cache

variable [DecidableEq κ] {c c' c'' : Cache κ V} {q : Question κ} {e : Entry V}
  {entries : List (Question κ × Entry V)} {deed : Option (Deed κ V)}

/-- **One step of a cache,** with what it does to the stored results.  A lock is made before it is
taken, and a result is stored under the lock of its question, with the generation that is next. -/
inductive Step : Cache κ V → Option (Deed κ V) → Cache κ V → Prop
  | rest (c : Cache κ V) : Step c none c
  | lock (c : Cache κ V) (q : Question κ) : Step c none (c.ensureLock q)
  | acquire {c : Cache κ V} {q : Question κ} (hq : q ∈ c.locks) : Step c none (c.acquire q)
  | release (c : Cache κ V) (q : Question κ) : Step c none (c.release q)
  | record (c : Cache κ V) (a : Answered) : Step c none (c.record a)
  | discard (c : Cache κ V) : Step c none c.advance
  | store {c : Cache κ V} {q : Question κ} {e : Entry V} (hq : q ∈ c.held)
      (he : e.generation = c.generation + 1) :
      Step c (some (.stored q e)) (c.advance.store q e)
  | invalidate (c : Cache κ V) (level : Durability) :
      Step c (some (.invalidated level)) (c.invalidate level).1
  | clear (c : Cache κ V) : Step c (some .cleared) c.clear

/-- **The books of a cache are in order:** each question has one entry, every question with an entry
has a lock and so has every question whose lock is held, and generations are positive, at most what
is counted, and different. -/
structure Booked (c : Cache κ V) : Prop where
  once : (Assoc.keys c.entries).Nodup
  locked : ∀ q ∈ Assoc.keys c.entries, q ∈ c.locks
  held : ∀ q ∈ c.held, q ∈ c.locks
  positive : ∀ x ∈ c.entries, 0 < x.2.generation
  counted : ∀ x ∈ c.entries, x.2.generation ≤ c.generation
  distinct : (c.entries.map fun x => x.2.generation).Nodup

omit [DecidableEq κ] in
lemma booked_empty : (empty : Cache κ V).Booked :=
  ⟨List.nodup_nil, nofun, nofun, nofun, nofun, List.nodup_nil⟩

/-- After some results have been dropped the locks are those that are of use. -/
lemma Booked.mem_locks_prune (h : c.Booked) (hsub : entries.Sublist c.entries) :
    q ∈ (prune { c with entries := entries }).locks ↔ q ∈ Assoc.keys entries ∨ q ∈ c.held := by
  rw [Cache.mem_locks_prune, Assoc.has_iff, and_iff_right_iff_imp]
  rintro (hq | hq)
  · exact h.locked q ((hsub.map Prod.fst).subset hq)
  · exact h.held q hq

lemma Booked.prune (h : c.Booked) (hsub : entries.Sublist c.entries) :
    (prune { c with entries := entries }).Booked where
  once := h.once.sublist (hsub.map Prod.fst)
  locked _ hq := (h.mem_locks_prune hsub).2 (.inl hq)
  held _ hq := (h.mem_locks_prune hsub).2 (.inr hq)
  positive x hx := h.positive x (hsub.subset hx)
  counted x hx := h.counted x (hsub.subset hx)
  distinct := h.distinct.sublist (hsub.map _)

lemma Booked.store (h : c.Booked) (hq : q ∈ c.held) (he : e.generation = c.generation + 1) :
    (c.advance.store q e).Booked where
  once := by
    show (Assoc.keys (Assoc.put c.entries q e)).Nodup
    rw [Assoc.keys_put]
    exact nodup_mention h.once q
  locked q' hq' := by
    obtain ⟨x, hx, rfl⟩ := List.mem_map.1 hq'
    rcases Assoc.mem_put hx with hx | rfl
    · exact h.locked _ (List.mem_map_of_mem hx)
    · exact h.held q hq
  held := h.held
  positive x hx := by
    rcases Assoc.mem_put hx with hx | rfl
    · exact h.positive x hx
    · exact he ▸ Nat.succ_pos _
  counted x hx := by
    rcases Assoc.mem_put hx with hx | rfl
    · exact Nat.le_succ_of_le (h.counted x hx)
    · exact Nat.le_of_eq he
  distinct := by
    refine Assoc.nodup_map_put h.distinct fun x hx heq => ?_
    have hle := h.counted x hx
    rw [heq, he] at hle
    exact Nat.not_succ_le_self _ hle

lemma Booked.ensureLock (h : c.Booked) (q : Question κ) : (c.ensureLock q).Booked := by
  rw [Cache.ensureLock]
  split_ifs with hq
  · exact h
  · exact { h with
      locked := fun q' hq' => List.mem_append_left _ (h.locked q' hq')
      held := fun q' hq' => List.mem_append_left _ (h.held q' hq') }

lemma Step.of_eq (h : c' = c) : Step c none c' := h ▸ .rest c

/-- **Every step leaves the books in order.** -/
lemma Step.booked (hstep : Step c deed c') (h : c.Booked) : c'.Booked := by
  cases hstep with
  | rest => exact h
  | lock q => exact h.ensureLock q
  | acquire hq => exact { h with held := List.forall_mem_cons.2 ⟨hq, h.held⟩ }
  | release q => exact { h with held := fun q' hq' => h.held q' (List.mem_of_mem_erase hq') }
  | record a => exact { h with }
  | discard => exact { h with counted := fun x hx => Nat.le_succ_of_le (h.counted x hx) }
  | store hq he => exact h.store hq he
  | invalidate level => exact h.prune List.filter_sublist
  | clear => exact h.prune (List.nil_sublist _)

/-- What a step does to the stored results is what it says. -/
lemma Step.entries_eq (hstep : Step c deed c') :
    c'.entries = deed.toList.foldl Deed.act c.entries := by
  cases hstep with
  | lock q =>
      rw [ensureLock]
      split_ifs <;> rfl
  | _ => rfl

/-- When results have been dropped, every lock is of use. -/
lemma Step.mem_locks_of_dropped (hstep : Step c deed c') (h : c.Booked)
    (hdeed : deed = some .cleared ∨ ∃ level, deed = some (.invalidated level)) :
    q ∈ c'.locks ↔ q ∈ Assoc.keys c'.entries ∨ q ∈ c'.held := by
  rcases hdeed with rfl | ⟨level, rfl⟩ <;> cases hstep
  · exact h.mem_locks_prune (List.nil_sublist _)
  · exact h.mem_locks_prune List.filter_sublist

/-! ## Later states -/

/-- **A later state of a cache:** what is stored has been stored before, or is newer than all that
was counted then. -/
structure Follows (c c' : Cache κ V) : Prop where
  entries : ∀ x ∈ c'.entries, x ∈ c.entries ∨ c.generation < x.2.generation
  generation : c.generation ≤ c'.generation

omit [DecidableEq κ] in
lemma Follows.refl (c : Cache κ V) : Follows c c := ⟨fun _ => .inl, Nat.le_refl _⟩

omit [DecidableEq κ] in
lemma Follows.trans (h : Follows c c') (h' : Follows c' c'') : Follows c c'' := by
  refine ⟨fun x hx => ?_, Nat.le_trans h.generation h'.generation⟩
  rcases h'.entries x hx with hx | hx
  · exact h.entries x hx
  · exact .inr (Nat.lt_of_le_of_lt h.generation hx)

/-- **Every step leads to a later state.** -/
lemma Step.follows (hstep : Step c deed c') : Follows c c' := by
  cases hstep with
  | lock q =>
      rw [ensureLock]
      split_ifs <;> exact ⟨fun _ => .inl, Nat.le_refl _⟩
  | discard => exact ⟨fun _ => .inl, Nat.le_succ _⟩
  | @store q e _ he =>
      refine ⟨fun x hx => (Assoc.mem_put hx).imp_right ?_, Nat.le_succ _⟩
      rintro rfl
      exact he ▸ Nat.lt_succ_self _
  | invalidate => exact ⟨fun _ hx => .inl (List.mem_of_mem_filter hx), Nat.le_refl _⟩
  | clear => exact ⟨fun _ hx => absurd hx List.not_mem_nil, Nat.le_refl _⟩
  | _ => exact ⟨fun _ => .inl, Nat.le_refl _⟩

/-- What is stored has the next generation. -/
lemma Step.generation_stored (hstep : Step c (some (.stored q e)) c') :
    c.generation < e.generation ∧ e.generation ≤ c'.generation := by
  cases hstep with
  | store _ he => exact ⟨he ▸ Nat.lt_succ_self _, Nat.le_of_eq he⟩

lemma Booked.entry?_eq_some_iff (h : c.Booked) : c.entry? q = some e ↔ (q, e) ∈ c.entries :=
  ⟨Assoc.mem_of_get?, Assoc.get?_of_mem h.once⟩

lemma Booked.storedGeneration_eq_zero_iff (h : c.Booked) :
    c.storedGeneration q = 0 ↔ c.entry? q = none := by
  rw [storedGeneration]
  cases he : c.entry? q with
  | none => exact iff_of_true rfl rfl
  | some e =>
      have hpos := h.positive _ (h.entry?_eq_some_iff.1 he)
      exact iff_of_false (Nat.ne_of_gt hpos) (Option.some_ne_none e)

lemma Booked.storedGeneration_le (h : c.Booked) (q : Question κ) :
    c.storedGeneration q ≤ c.generation := by
  rw [storedGeneration]
  cases he : c.entry? q with
  | none => exact Nat.zero_le _
  | some e => exact h.counted _ (h.entry?_eq_some_iff.1 he)

/-- **The same generation is the same entry,** also if results have been dropped in between. -/
lemma Follows.entry?_eq (hfollows : Follows c c') (h : c.Booked) (h' : c'.Booked)
    (hgen : c.storedGeneration q = c'.storedGeneration q) : c.entry? q = c'.entry? q := by
  cases he' : c'.entry? q with
  | none =>
      rw [← h.storedGeneration_eq_zero_iff, hgen]
      exact h'.storedGeneration_eq_zero_iff.2 he'
  | some e' =>
      rcases hfollows.entries _ (h'.entry?_eq_some_iff.1 he') with hold | hnew
      · exact h.entry?_eq_some_iff.2 hold
      · -- A newer entry has a generation that was not counted then.
        have hle := h.storedGeneration_le q
        rw [hgen, storedGeneration, he'] at hle
        exact absurd hle (Nat.not_le_of_gt hnew)

end Cache

/-! ## Moments of a run -/

namespace Session

variable {s s' : Session κ σ V} {q : Question κ}

/-- The questions whose computations are under way, innermost first. -/
def underWay (s : Session κ σ V) : List (Question κ) := s.frames.map Frame.question

/-- **Between requests:** the computations under way hold their locks, and no other lock is held. -/
def Settled (s : Session κ σ V) : Prop := s.cache.held = s.underWay

/-- A moment of a run: the session, and what has just been done to the stored results. -/
structure Moment (κ σ V : Type) where
  deed : Option (Deed κ V)
  session : Session κ σ V

/-- Whether results have just been dropped. -/
def Moment.Drops (m : Moment κ σ V) : Prop :=
  m.deed = some .cleared ∨ ∃ level, m.deed = some (.invalidated level)

/-- **One moment before another.**  What has just been stored at the later one is newer than what
has just been stored at the earlier one, and a question that has the same generation at both has the
same entry. -/
def Moment.Before [DecidableEq κ] (m m' : Moment κ σ V) : Prop :=
  (∀ q e q' e', m.deed = some (.stored q e) → m'.deed = some (.stored q' e') →
      e.generation < e'.generation) ∧
    ∀ q, m.session.cache.storedGeneration q = m'.session.cache.storedGeneration q →
      m.session.cache.entry? q = m'.session.cache.entry? q

section

variable [DecidableEq κ] [QueryKey κ]

/-- **The moments of a request.**  If the lock is free it is taken, the result is looked for, and the
lock is given back; if there is a computation its moments are given, and its result is stored. -/
def requested (s : Session κ σ V) (q : Question κ) (computed : Option (List (Moment κ σ V)))
    (body : Body κ σ V ε) : List (Moment κ σ V) :=
  let seen := s.cache.storedGeneration q
  ⟨none, s.withCache (·.ensureLock q)⟩ ::
    if s.cache.isHeld q then []
    else
      let found := (s.locked q).obtain seen q body
      let stored := computed.bind fun _ => found.1.toOption.map (.stored q)
      ⟨none, s.locked q⟩ ::
        (computed.getD [] ++ [⟨stored, found.2⟩] ++ [⟨none, (s.serve seen q body).2⟩])

/-- **The moments of a run,** in order, with those of the computations that are begun on the way. -/
def moments : {α : Type} → Computation κ σ V ε α → Session κ σ V → List (Moment κ σ V)
  | _, .done _, _ => []
  | _, .fail _, _ => []
  | _, .declare p next, s =>
    let (r, s) := s.declare p
    ⟨none, s⟩ :: moments (next r) s
  | _, .lower level next, s =>
    let s := s.withFrame (·.lower level)
    ⟨none, s⟩ :: moments next s
  | _, .untracked next, s =>
    let s := s.withFrame Frame.markUntracked
    ⟨none, s⟩ :: moments next s
  | _, .request q body next, s =>
    let computed := (s.begins q).map fun s₀ => ⟨none, s₀⟩ :: moments body s₀
    let (r, s') := s.serve (s.cache.storedGeneration q) q (run body)
    requested s q computed (run body) ++ moments (next r) s'
  | _, .invalidate level next, s =>
    let (cache, n) := s.cache.invalidate level
    let s := { s with cache := cache }
    ⟨some (.invalidated level), s⟩ :: moments (next n) s
  | _, .clear next, s =>
    let s := s.withCache Cache.clear
    ⟨some .cleared, s⟩ :: moments next s
  | _, .inspect next, s => moments (next s) s
  | _, .perform act next, s =>
    let ((b, world), s) := s.noted (act s.world)
    let s := { s with world := world }
    ⟨none, s⟩ :: moments (next b) s

/-- **All moments of a run** that begins with nothing stored, from its beginning on. -/
def history {α : Type} (c : Computation κ σ V ε α) (w : World σ) : List (Moment κ σ V) :=
  ⟨none, start w⟩ :: moments c (start w)

end

/-! ## Steps of a run -/

variable [DecidableEq κ]

/-- **A step of a run** is one of its cache.  The computations under way hold their locks, and where
results are dropped these are all locks that are held. -/
structure Step (s : Session κ σ V) (m : Moment κ σ V) : Prop where
  cache : Cache.Step s.cache m.deed m.session.cache
  underWay : m.session.underWay ⊆ m.session.cache.held
  settled : m.Drops → m.session.Settled

/-- Steps that lead from one session to another. -/
inductive Steps : Session κ σ V → List (Moment κ σ V) → Session κ σ V → Prop
  | here (s : Session κ σ V) : Steps s [] s
  | step {s s' : Session κ σ V} {m : Moment κ σ V} {ms : List (Moment κ σ V)} (h : Step s m)
      (hrest : Steps m.session ms s') : Steps s (m :: ms) s'

variable {s'' : Session κ σ V} {m : Moment κ σ V} {ms ms' : List (Moment κ σ V)}
  {deed : Option (Deed κ V)}

lemma Steps.append (h : Steps s ms s') (h' : Steps s' ms' s'') : Steps s (ms ++ ms') s'' := by
  induction h with
  | here => exact h'
  | step hstep _ ih => exact .step hstep (ih h')

lemma Steps.single (h : Step s ⟨deed, s'⟩) : Steps s [⟨deed, s'⟩] s' := .step h (.here s')

/-- Steps lead to the last moment. -/
lemma Steps.getLast? (h : Steps s ms s') (deed : Option (Deed κ V)) :
    ((⟨deed, s⟩ :: ms).getLast?).map Moment.session = some s' := by
  induction h generalizing deed with
  | here => rfl
  | @step _ _ m _ _ _ ih =>
      rw [List.getLast?_cons_cons]
      exact ih m.deed

/-- **Every moment is one step** after a session in which the books are in order, and which is later
than the beginning. -/
lemma Steps.exists_step (h : Steps s ms s') (hs : s.cache.Booked) :
    ∀ m ∈ ms, ∃ s₀ : Session κ σ V, Step s₀ m ∧ s₀.cache.Booked ∧ s.cache.Follows s₀.cache := by
  induction h with
  | here => exact nofun
  | @step s _ m ms hstep _ ih =>
      refine List.forall_mem_cons.2 ⟨⟨s, hstep, hs, Cache.Follows.refl _⟩, fun m' hm' => ?_⟩
      obtain ⟨s₀, hstep', hs₀, hfollows⟩ := ih (hstep.cache.booked hs) m' hm'
      exact ⟨s₀, hstep', hs₀, hstep.cache.follows.trans hfollows⟩

lemma Steps.booked (h : Steps s ms s') (hs : s.cache.Booked) (hm : m ∈ ms) :
    m.session.cache.Booked := by
  obtain ⟨s₀, hstep, hs₀, -⟩ := h.exists_step hs m hm
  exact hstep.cache.booked hs₀

/-- The computations under way have their locks. -/
lemma Steps.mem_locks_of_underWay (h : Steps s ms s') (hs : s.cache.Booked) (hm : m ∈ ms)
    (hq : q ∈ m.session.underWay) : q ∈ m.session.cache.locks := by
  obtain ⟨s₀, hstep, -, -⟩ := h.exists_step hs m hm
  exact (h.booked hs hm).held q (hstep.underWay hq)

/-- When results have been dropped, the locks are those of stored results and of computations that
are under way. -/
lemma Steps.mem_locks_of_drops (h : Steps s ms s') (hs : s.cache.Booked) (hm : m ∈ ms)
    (hdrops : m.Drops) : q ∈ m.session.cache.locks ↔
      q ∈ Assoc.keys m.session.cache.entries ∨ q ∈ m.session.underWay := by
  obtain ⟨s₀, hstep, hs₀, -⟩ := h.exists_step hs m hm
  rw [hstep.cache.mem_locks_of_dropped hs₀ hdrops, hstep.settled hdrops]

lemma Steps.follows (h : Steps s ms s') (hs : s.cache.Booked) (hm : m ∈ ms) :
    s.cache.Follows m.session.cache := by
  obtain ⟨s₀, hstep, -, hfollows⟩ := h.exists_step hs m hm
  exact hfollows.trans hstep.cache.follows

/-- What is stored at any moment is newer than all that was counted at the beginning. -/
lemma Steps.generation_stored (h : Steps s ms s') (hs : s.cache.Booked) (hm : m ∈ ms) {e : Entry V}
    (hdeed : m.deed = some (.stored q e)) : s.cache.generation < e.generation := by
  obtain ⟨s₀, hstep, -, hfollows⟩ := h.exists_step hs m hm
  exact Nat.lt_of_le_of_lt hfollows.generation (hdeed ▸ hstep.cache).generation_stored.1

/-- **Moments in their order.** -/
lemma Steps.pairwise_before (h : Steps s ms s') (hs : s.cache.Booked)
    (hdeed : ∀ q e, deed = some (.stored q e) → e.generation ≤ s.cache.generation) :
    (⟨deed, s⟩ :: ms).Pairwise Moment.Before := by
  induction h generalizing deed with
  | here => exact List.pairwise_singleton _ _
  | @step s _ m ms hstep hrest ih =>
      have hsteps : Steps s (m :: ms) _ := .step hstep hrest
      refine List.pairwise_cons.2 ⟨fun m' hm' => ⟨fun q e q' e' he he' => ?_, fun q hq => ?_⟩, ?_⟩
      · exact Nat.lt_of_le_of_lt (hdeed q e he) (hsteps.generation_stored hs hm' he')
      · exact (hsteps.follows hs hm').entry?_eq hs (hsteps.booked hs hm') hq
      · exact ih (hstep.cache.booked hs) fun q e he => (he ▸ hstep.cache).generation_stored.2

/-- What is stored at a moment is what has been stored, and not dropped, by then. -/
lemma Steps.entries_eq (h : Steps s ms s') {before after : List (Moment κ σ V)}
    (hms : ms = before ++ m :: after) : m.session.cache.entries =
      ((before ++ [m]).filterMap Moment.deed).foldl Deed.act s.cache.entries := by
  induction h generalizing before with
  | here => simp at hms
  | @step s _ m₀ ms hstep _ ih =>
      have hdeeds : ∀ rest, (m₀ :: rest).filterMap Moment.deed =
          m₀.deed.toList ++ rest.filterMap Moment.deed := fun rest => by
        rw [List.filterMap_cons]
        cases m₀.deed <;> rfl
      cases before with
      | nil =>
          obtain ⟨rfl, rfl⟩ := List.cons.inj hms
          rw [List.nil_append, hdeeds, List.filterMap_nil, List.append_nil]
          exact hstep.cache.entries_eq
      | cons b before =>
          obtain ⟨rfl, hrest⟩ := List.cons.inj hms
          rw [ih hrest, List.cons_append, hdeeds, List.foldl_append, hstep.cache.entries_eq]

omit [DecidableEq κ] in
lemma not_drops : ¬(⟨none, s⟩ : Moment κ σ V).Drops := by
  rintro (h | ⟨_, h⟩) <;> cases h

lemma Step.quiet (hcache : Cache.Step s.cache none s'.cache)
    (hunder : s'.underWay ⊆ s'.cache.held) : Step s ⟨none, s'⟩ :=
  ⟨hcache, hunder, fun h => absurd h not_drops⟩

/-! ## What stays as it is -/

omit [DecidableEq κ] in
lemma Settled.subset (hs : s.Settled) : s.underWay ⊆ s.cache.held := by
  rw [hs]
  exact List.Subset.refl _

omit [DecidableEq κ] in
lemma Settled.congr (hs : s.Settled) (hheld : s'.cache.held = s.cache.held)
    (hunder : s'.underWay = s.underWay) : s'.Settled := by
  rw [Settled, hheld, hunder]
  exact hs

omit [DecidableEq κ] in
lemma underWay_withFrame {f : Frame κ → Frame κ} (hf : ∀ frame, (f frame).question = frame.question)
    (s : Session κ σ V) : (s.withFrame f).underWay = s.underWay := by
  rw [underWay, underWay, withFrame]
  cases s.frames with
  | nil => rfl
  | cons frame rest => rw [List.map_cons, List.map_cons, hf]

omit [DecidableEq κ] in
lemma underWay_declare (s : Session κ σ V) (p : Path) :
    (s.declare (ε := ε) p).2.underWay = s.underWay := by
  cases hf : s.frames with
  | nil => rw [declare, frame?, hf, List.head?_nil]
  | cons f rest =>
      obtain ⟨ns, ⟨_, -, h⟩ | ⟨_, -, h⟩⟩ := declare_cases (ε := ε) hf p
      · rw [h]
        rfl
      · rw [h, underWay, underWay, hf]
        rfl

omit [DecidableEq κ] in
lemma Settled.withFrame (hs : s.Settled) {f : Frame κ → Frame κ}
    (hf : ∀ frame, (f frame).question = frame.question) : (s.withFrame f).Settled :=
  hs.congr rfl (underWay_withFrame hf s)

/-- **The end of a computation:** its value is stored, or is not. -/
lemma step_closed {s₁ after : Session κ σ V} (hheld : after.cache.held = q :: s₁.underWay)
    (r : Except (Failure ε) V) :
    Step after ⟨(s₁.closed q (r, after)).1.toOption.map (.stored q),
      (s₁.closed q (r, after)).2⟩ := by
  have hunder : s₁.underWay ⊆ after.cache.held := hheld ▸ List.subset_cons_self _ _
  have hmem : q ∈ after.cache.held := hheld ▸ List.mem_cons_self
  cases r with
  | error f => exact .quiet (.rest _) hunder
  | ok v =>
      simp only [closed, settle]
      split
      · exact .quiet (.discard _) hunder
      · refine ⟨.store hmem rfl, hunder, ?_⟩
        rintro (h | ⟨_, h⟩) <;> cases h

variable [QueryKey κ] {s₀ : Session κ σ V} {body : Body κ σ V ε}
  {out : Except (Failure ε) V × Session κ σ V}

lemma Outcome.underWay_eq (h : Outcome s q body out) : out.2.underWay = s.underWay := by
  have habsorb := fun e : Entry V => underWay_withFrame (f := (·.absorb e)) (fun _ => rfl) s
  cases h with
  | refused _ _ _ hframes | failed _ _ _ _ hframes => exact congrArg (List.map _) hframes
  | found _ _ _ _ hframes | stored _ _ _ _ _ hframes =>
      exact (congrArg (List.map _) hframes).trans (habsorb _)

/-- The computations under way are the same after a computation as before it. -/
lemma underWay_run {α : Type} (c : Computation κ σ V ε α) :
    ∀ s : Session κ σ V, (run c s).2.underWay = s.underWay := by
  induction c with
  | done a => exact fun s => rfl
  | fail f => exact fun s => rfl
  | declare p next ih => exact fun s => (ih _ _).trans (underWay_declare s p)
  | lower level next ih =>
      exact fun s => (ih _).trans (underWay_withFrame (f := (·.lower level)) (fun _ => rfl) s)
  | untracked next ih =>
      exact fun s => (ih _).trans (underWay_withFrame (f := Frame.markUntracked) (fun _ => rfl) s)
  | request q body next _ ih => exact fun s => (ih _ _).trans (outcome s q (run body)).underWay_eq
  | invalidate level next ih => exact fun s => ih _ _
  | clear next ih => exact fun s => ih _
  | inspect next ih => exact fun s => ih s s
  | perform act next ih => exact fun s => ih _ _

lemma Settled.run {α : Type} (hs : s.Settled) (c : Computation κ σ V ε α) :
    (run c s).2.Settled := hs.congr (held_run c s) (underWay_run c s)

lemma Settled.begins (hs : s.Settled) (hbegins : s.begins q = some s₀) : s₀.Settled := by
  obtain ⟨-, hframes, -, hheld⟩ := begins_some hbegins
  rw [Settled, hheld, underWay, hframes, hs]
  rfl

lemma Settled.serve (hs : s.Settled) (q : Question κ) (body : Computation κ σ V ε V) :
    (s.serve (s.cache.storedGeneration q) q (Session.run body)).2.Settled := by
  rw [← run_ask]
  exact hs.run _

/-! ## Each moment is a step -/

/-- **Looking for a result** under the lock of its question. -/
lemma steps_obtained (hs : s.Settled) (hheld : q ∉ s.cache.held) (body : Computation κ σ V ε V)
    (hbody : ∀ s₀ : Session κ σ V, s₀.Settled → Steps s₀ (moments body s₀) (run body s₀).2)
    {computed : Option (List (Moment κ σ V))}
    (hcomputed : computed = (s.begins q).map fun s₀ => ⟨none, s₀⟩ :: moments body s₀)
    {found : Except (Failure ε) (Entry V) × Session κ σ V}
    (hfound : found = (s.locked q).obtain (s.cache.storedGeneration q) q (run body)) :
    Steps (s.locked q) (computed.getD [] ++
      [⟨computed.bind fun _ => found.1.toOption.map (.stored q), found.2⟩]) found.2 := by
  have hunder : (s.locked q).underWay ⊆ (s.locked q).cache.held := by
    rw [held_locked, hs]
    exact List.subset_cons_self _ _
  have hbegins := begins_eq hheld
  rw [opening] at hbegins
  cases (s.locked q).finding (s.cache.storedGeneration q) q with
  | shared _ _ h | fresh _ _ _ h =>
      rw [h] at hbegins hfound
      rw [hcomputed, hbegins, hfound]
      exact .single (.quiet (.record _ _) hunder)
  | unclear _ _ _ h =>
      rw [h] at hbegins hfound
      rw [hcomputed, hbegins, hfound]
      exact .single (.quiet (.rest _) hunder)
  | @stale ns _ h =>
      rw [h] at hbegins hfound
      have hbegins : s.begins q = some (((s.locked q).withNotices ns).opened q) := hbegins
      obtain ⟨-, -, -, hheld₀⟩ := begins_some hbegins
      have hs₀ := hs.begins hbegins
      -- The frame goes with the end of the computation; the lock is held until its result is stored.
      rw [hcomputed, hbegins, hfound]
      refine .step (.quiet (.record _ .miss) ?_) ((hbody _ hs₀).append (.single (step_closed ?_ _)))
      · exact hs₀.subset
      · rw [held_run, hheld₀, hs]
        rfl

/-- **A request,** if its computation is steps. -/
lemma steps_requested (hs : s.Settled) (q : Question κ) (body : Computation κ σ V ε V)
    (hbody : ∀ s₀ : Session κ σ V, s₀.Settled → Steps s₀ (moments body s₀) (run body s₀).2)
    {computed : Option (List (Moment κ σ V))}
    (hcomputed : computed = (s.begins q).map fun s₀ => ⟨none, s₀⟩ :: moments body s₀) :
    Steps s (requested s q computed (run body))
      (s.serve (s.cache.storedGeneration q) q (run body)).2 := by
  have hlock : Step s ⟨none, s.withCache (·.ensureLock q)⟩ := by
    have hs' : (s.withCache (·.ensureLock q)).Settled := hs.congr (held_ensureLock s.cache q) rfl
    exact .quiet (.lock _ q) hs'.subset
  by_cases hheld : q ∈ s.cache.held
  · have hlocked : s.cache.isHeld q = true := decide_eq_true hheld
    rw [serve_of_held hheld, requested, if_pos hlocked]
    exact .step hlock (.here _)
  · have hfree : ¬s.cache.isHeld q = true := fun h => hheld (of_decide_eq_true h)
    rw [requested, if_neg hfree]
    refine .step hlock (.step (.quiet (.acquire (s.cache.mem_locks_ensureLock q)) ?_)
      ((steps_obtained hs hheld body hbody hcomputed rfl).append (.single (.quiet ?_ ?_))))
    · rw [held_locked, hs]
      exact List.subset_cons_self _ _
    · rw [serve_eq hheld]
      generalize (s.locked q).obtain (s.cache.storedGeneration q) q (run body) = found
      rcases found with ⟨_ | _, _⟩ <;> exact .release _ q
    · exact (hs.serve q body).subset

/-- **Every moment of a run is a step** after the one before, and they lead to the end of the run. -/
theorem steps_moments {α : Type} (c : Computation κ σ V ε α) :
    ∀ s : Session κ σ V, s.Settled → Steps s (moments c s) (run c s).2 := by
  -- A nested computation begins with one lock and one frame more, so in a settled session again.
  induction c with
  | done a => exact fun s _ => .here s
  | fail f => exact fun s _ => .here s
  | declare p next ih =>
      intro s hs
      have hcache := cache_declare (ε := ε) s p
      have hs' := hs.congr (congrArg Cache.held hcache) (underWay_declare s p)
      exact .step (.quiet (.of_eq hcache) hs'.subset) (ih _ _ hs')
  | lower level next ih =>
      intro s hs
      have hs' := hs.withFrame (f := (·.lower level)) fun _ => rfl
      exact .step (.quiet (.rest _) hs'.subset) (ih _ hs')
  | untracked next ih =>
      intro s hs
      have hs' := hs.withFrame (f := Frame.markUntracked) fun _ => rfl
      exact .step (.quiet (.rest _) hs'.subset) (ih _ hs')
  | request q body next ihbody ih =>
      exact fun s hs => (steps_requested hs q body ihbody rfl).append (ih _ _ (hs.serve q body))
  | invalidate level next ih =>
      intro s hs
      have hs' : ({ s with cache := (s.cache.invalidate level).1 } : Session κ σ V).Settled := hs
      exact .step ⟨.invalidate _ level, hs'.subset, fun _ => hs'⟩ (ih _ _ hs')
  | clear next ih =>
      intro s hs
      have hs' : (s.withCache Cache.clear).Settled := hs
      exact .step ⟨.clear _, hs'.subset, fun _ => hs'⟩ (ih _ hs')
  | inspect next ih => exact fun s hs => ih s s hs
  | perform act next ih => exact fun s hs => .step (.quiet (.rest _) hs.subset) (ih _ _ hs)

/-! ## A run from its beginning -/

/-- **The bookkeeping of a cache.**  At every moment of a run, whatever is computed, fails or is
dropped on the way: the books are in order, and the computations under way have their locks.  Right
after results have been dropped, the locks are exactly those of the results that are left and of the
computations under way.  What is stored is what has been stored by then and not been dropped.  Each
result is newer than all that were stored before it, also those that are gone, and whoever finds the
same generation twice finds the same entry. -/
theorem history_booked {α : Type} (c : Computation κ σ V ε α) (w : World σ) :
    (∀ m ∈ history c w, m.session.cache.Booked ∧
      ∀ q ∈ m.session.underWay, q ∈ m.session.cache.locks) ∧
    (∀ m ∈ history c w, m.Drops → ∀ q, q ∈ m.session.cache.locks ↔
      q ∈ Assoc.keys m.session.cache.entries ∨ q ∈ m.session.underWay) ∧
    (∀ before m after, history c w = before ++ m :: after → m.session.cache.entries =
      ((before ++ [m]).filterMap Moment.deed).foldl Deed.act []) ∧
    (history c w).Pairwise Moment.Before ∧
    (history c w).getLast?.map Moment.session = some (run c (start w)).2 := by
  have hstart : (start w : Session κ σ V).Settled := rfl
  have hbooked : (start w : Session κ σ V).cache.Booked := Cache.booked_empty
  have hsteps := steps_moments c (start w) hstart
  have hall : Steps (start w) (history c w) (run c (start w)).2 :=
    .step (.quiet (.rest _) hstart.subset) hsteps
  exact ⟨fun m hm => ⟨hall.booked hbooked hm, fun q => hall.mem_locks_of_underWay hbooked hm⟩,
    fun m hm hdrops q => hall.mem_locks_of_drops hbooked hm hdrops,
    fun before m after h => hall.entries_eq h, hsteps.pairwise_before hbooked nofun,
    hsteps.getLast? none⟩

/-- A question without an answer leaves a lock behind until results are dropped; the lock of a
computation under way stays. -/
example :
    let outer : Question Path := ⟨"outer", .top⟩
    let inner : Question Path := ⟨"inner", .top⟩
    let c : Computation Path Unit Nat Unit Nat :=
      .ask outer (.request inner (.fail (.raised ())) fun _ => .clear (.fail (.raised ())))
    (history c ⟨default, ()⟩).map (·.session.cache.locks) =
      [[], [outer], [outer], [outer], [outer, inner], [outer, inner], [outer, inner],
        [outer, inner], [outer, inner], [outer], [outer], [outer]] := by
  rfl

end Session

end ScarbCrates
