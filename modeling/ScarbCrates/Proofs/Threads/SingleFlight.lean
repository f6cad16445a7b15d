import ScarbCrates.Proofs.Threads.Locks

/-!
# One computation at a time

Whoever asks is handed the lock of the question first and takes it later, and in between nobody
holds the lock.  If results are dropped just then, the lock goes from the table, and whoever asks
next is given another one: two threads compute the same answer at the same time.  It takes such a
call, and no other step of any thread can bring it about.

* `Pool.SingleFlight` — no question is computed twice at a time.
* `Pool.Careful`, `Pool.CarefulRun` — no lock is dropped that somebody has been handed.
* `Pool.CarefulRun.singleFlight` — as long as everybody is careful, each computation is alone.
* `Pool.careful_iff_singleFlight` — and a step that is not careful can always be followed up to two
  computations of the same answer.
-/

namespace ScarbCrates

namespace Pool

variable {κ σ V : Type} {P P' P'' : Pool κ σ V} {i k : Nat}

/-- A thread computes the answer to a question, at some depth of its computations. -/
def ComputedAt (P : Pool κ σ V) (q : Question κ) (i depth : Nat) : Prop :=
  ∃ j, (P.threads i).jobs[depth]? = some j ∧ j.question = q

/-- **No question is computed twice at a time,** by two threads or by one. -/
def SingleFlight (P : Pool κ σ V) : Prop :=
  ∀ q i a k b, P.ComputedAt q i a → P.ComputedAt q k b → i = k ∧ a = b

/-- A lock that somebody has been handed is not dropped from the table. -/
def Careful (P P' : Pool κ σ V) : Prop :=
  ∀ i x, (P.threads i).awaits = some x → x ∈ P.shared.table → x ∈ P'.shared.table

/-! ## Locks that are all in the table -/

/-- **All locks on which somebody has a claim are in the table.** -/
def Tidy (P : Pool κ σ V) : Prop := ∀ i x, (P.threads i).Claims x → x ∈ P.shared.table

lemma tidy_start (w : World σ) : (start w : Pool κ σ V).Tidy := fun _ x hx =>
  absurd hx (idle_claims x)

lemma claims_of_mem_jobs {t : Thread κ V} {j : Job κ V} (hj : j ∈ t.jobs) : j.ticket ∈ t.holds :=
  List.mem_append_right _ (List.mem_map_of_mem hj)

/-- Computations of the same answer would run under the same lock, which is held once. -/
lemma Tidy.singleFlight (h : P.Tidy) (hP : P.Orderly) : P.SingleFlight := by
  rintro q i a k b ⟨j, hj, rfl⟩ ⟨j', hj', hq⟩
  have hticket := claims_of_mem_jobs (List.mem_of_getElem? hj)
  have hticket' := claims_of_mem_jobs (List.mem_of_getElem? hj')
  have hlock : j.lock = j'.lock := by
    refine hP.shared.unique (h i _ (Or.inr hticket)) ?_
    rw [← hq]
    exact h k _ (Or.inr hticket')
  have hik : i = k := by
    by_contra hne
    exact hP.exclusive.apart i k hne _ hticket _ hticket' hlock
  subst hik
  have honce : ((P.threads i).jobs.map Job.lock).Nodup := by
    have hall := hP.exclusive.once i
    rw [Thread.holds, List.map_append, List.map_map] at hall
    exact hall.of_append_right
  refine ⟨rfl, ?_⟩
  have ha : ((P.threads i).jobs.map Job.lock)[a]? = some j.lock := by
    rw [List.getElem?_map, hj]
    rfl
  have hb : ((P.threads i).jobs.map Job.lock)[b]? = some j.lock := by
    rw [List.getElem?_map, hj', hlock]
    rfl
  exact (List.getElem?_inj (List.getElem?_eq_some_iff.1 ha).1 honce).1 (ha.trans hb.symm)

variable [DecidableEq κ] {a : Action κ σ V}

lemma Tidy.step (h : P.Tidy) (hP : P.Exclusive) (hs : P.Step i a P') (hc : P.Careful P') :
    P'.Tidy := by
  have hkept : ∀ k x, (P.threads k).Claims x → x ∈ P'.shared.table := by
    intro k x hx
    rcases hx with hawaits | hholds
    · exact hc k x hawaits (h k x (Or.inl hawaits))
    · exact hs.toTurn.effect.mem_table (h k x (Or.inr hholds)) (hP.taken k x hholds)
  intro k x hx
  by_cases hk : k = i
  · subst hk
    exact (hs.toTurn.effect.claims hx).elim (hkept k x) id
  · exact hkept k x (hs.other hk ▸ hx)

/-! ## Careful runs -/

/-- **Threads take turns, and each step is careful.** -/
inductive CarefulRun (P : Pool κ σ V) : List (Nat × Action κ σ V) → Pool κ σ V → Prop
  | none : CarefulRun P [] P
  | snoc {P' P'' : Pool κ σ V} {as : List (Nat × Action κ σ V)} {i : Nat} {a : Action κ σ V}
      (h : CarefulRun P as P') (ha : Step P' i a P'') (hc : P'.Careful P'') :
      CarefulRun P (as ++ [(i, a)]) P''

variable {as bs : List (Nat × Action κ σ V)}

lemma CarefulRun.run (h : P.CarefulRun as P') : P.Run as P' := by
  induction h with
  | none => exact .none
  | snoc _ ha _ ih => exact .snoc ih ha

lemma CarefulRun.trans (h : P.CarefulRun as P') (h' : P'.CarefulRun bs P'') :
    P.CarefulRun (as ++ bs) P'' := by
  induction h' with
  | none => rwa [List.append_nil]
  | snoc _ ha hc ih =>
      rw [← List.append_assoc]
      exact .snoc ih ha hc

lemma CarefulRun.tidy (h : P.CarefulRun as P') (hP : P.Tidy) (ho : P.Orderly) :
    P'.Tidy ∧ P'.Orderly := by
  induction h with
  | none => exact ⟨hP, ho⟩
  | snoc _ ha hc ih =>
      obtain ⟨htidy, horderly⟩ := ih
      exact ⟨htidy.step horderly.exclusive ha hc, ha.orderly horderly⟩

/-- **As long as everybody is careful** no question is computed twice at a time. -/
theorem CarefulRun.singleFlight {w : World σ} (h : (start w).CarefulRun as P) :
    P.SingleFlight := by
  obtain ⟨htidy, horderly⟩ := h.tidy (tidy_start w) (orderly_start w)
  exact htidy.singleFlight horderly

/-- One more turn, in which nothing goes from the table that another thread waits for. -/
lemma CarefulRun.turn {S : Shared κ σ V} {t t' : Thread κ V} (h : P.CarefulRun as P')
    (hi : P'.threads i = t) (ha : Turn P'.shared t a S t')
    (hkept : ∀ k, k ≠ i → ∀ x, (P'.threads k).awaits = some x → x ∈ P'.shared.table →
      x ∈ S.table) : P.CarefulRun (as ++ [(i, a)]) ⟨S, Function.update P'.threads i t'⟩ := by
  subst hi
  refine .snoc h (.turn ha) fun k x hx hmem => ?_
  by_cases hk : k = i
  · subst hk
    exact ha.effect.mem_table_of_awaits hx hmem
  · exact hkept k hk x hx hmem

/-- Threads that have never done anything are left. -/
lemma Reachable.exists_idle (h : P.Reachable) : ∃ n, ∀ i, n ≤ i → P.threads i = .idle := by
  obtain ⟨w, as, hr⟩ := h
  induction hr with
  | none => exact ⟨0, fun _ _ => rfl⟩
  | @snoc _ _ _ i _ _ hs ih =>
      obtain ⟨n, hn⟩ := ih
      refine ⟨max n (i + 1), fun k hk => ?_⟩
      rw [hs.other (by omega), hn k (by omega)]

/-! ## Two computations of the same answer -/

omit [DecidableEq κ] in
lemma computedAt_update (S : Shared κ σ V) (threads : Nat → Thread κ V) (i : Nat) (p : Phase κ V)
    (j : Job κ V) (js : List (Job κ V)) :
    ComputedAt ⟨S, Function.update threads i ⟨p, j :: js⟩⟩ j.question i 0 := by
  refine ⟨j, ?_, rfl⟩
  show (Function.update threads i ⟨p, j :: js⟩ i).jobs[0]? = some j
  rw [Function.update_self]
  rfl

/-- An idle thread that asks a question without a lock is handed a new one. -/
lemma exists_handed {q : Question κ} (hidle : P.threads i = .idle)
    (hlock : Assoc.get? P.shared.table q = none) :
    ∃ P', P.CarefulRun [(i, .request q), (i, .lock)] P' ∧ P'.shared = P.shared.addLock q ∧
      (∃ seen, P'.threads i = ⟨.waiting q seen P.shared.made.length, []⟩) ∧
      ∀ k, k ≠ i → P'.threads k = P.threads k := by
  have hrequest := (CarefulRun.none (P := P)).turn hidle (.request [] q) fun _ _ _ _ => id
  have hmake := hrequest.turn (Function.update_self i _ _) (.make hlock) fun _ _ _ _ hx =>
    List.mem_append_left _ hx
  refine ⟨_, hmake, rfl, ⟨_, Function.update_self i _ _⟩, fun k hk => ?_⟩
  simp only [Function.update_of_ne hk]

/-- A thread that waits for a free lock gets as far as computing the answer, if there is no
result. -/
lemma exists_computing {q : Question κ} {seen l : Nat} {js : List (Job κ V)}
    (hwait : P.threads i = ⟨.waiting q seen l, js⟩) (hentry : P.shared.cache.entry? q = none)
    (hfree : l ∉ P.shared.taken) :
    ∃ as P', P.CarefulRun as P' ∧ P'.ComputedAt q i 0 ∧ P'.shared.taken = l :: P.shared.taken ∧
      P'.shared.cache.entry? q = none ∧ ∀ k, k ≠ i → P'.threads k = P.threads k := by
  have henter := (CarefulRun.none (P := P)).turn hwait (.enter hfree) fun _ _ _ _ => id
  have hbegin := henter.turn (Function.update_self i _ _)
    (.begin fun e he => absurd (hentry.symm.trans he) nofun) fun _ _ _ _ hx => by
      rwa [Shared.table_begin]
  refine ⟨_, _, hbegin, computedAt_update _ _ _ _ _ _, rfl, hentry, fun k hk => ?_⟩
  simp only [Function.update_of_ne hk]

/-- A lock that is dropped although somebody has been handed it leads to two computations of the
same answer, and nobody needs to be careless again. -/
lemma exists_not_singleFlight (h : P.Reachable) (hs : P.Step k a P') (hc : ¬P.Careful P') :
    ∃ bs P'', P'.CarefulRun bs P'' ∧ ¬P''.SingleFlight := by
  have ho := h.orderly
  have ho' := hs.orderly ho
  simp only [Careful, not_forall] at hc
  obtain ⟨i, ⟨q, l⟩, hawaits, hx, hgone⟩ := hc
  -- The step has dropped the lock, which is free, and there is no result.
  obtain ⟨hthread, -, htaken, htable, hfree, hentry⟩ := hs.toTurn.effect.of_dropped hx hgone
  obtain ⟨seen, js, hwait⟩ := Thread.eq_waiting_of_awaits hawaits
  have hwait' : P'.threads i = ⟨.waiting q seen l, js⟩ := by
    by_cases hik : i = k
    · rw [hik, hthread, ← hik, hwait]
    · rw [hs.other hik, hwait]
  have hlock : Assoc.get? P'.shared.table q = none := by
    by_contra hsome
    obtain ⟨l', hl'⟩ := Option.ne_none_iff_exists'.1 hsome
    have hmem := Assoc.mem_of_get? hl'
    exact hgone (ho.shared.unique (htable.subset hmem) hx ▸ hmem)
  -- An idle thread computes the answer under a new lock, and the one that waits under the old one.
  obtain ⟨n, hn⟩ := (h.run hs.run).exists_idle
  have hni : i ≠ max n (i + 1) := by omega
  obtain ⟨P₁, hrun₁, hshared₁, ⟨seen₁, hwait₁⟩, hother₁⟩ :=
    exists_handed (hn _ (Nat.le_max_left n (i + 1))) hlock
  obtain ⟨as₂, P₂, hrun₂, hcomputed₂, htaken₂, hentry₂, hother₂⟩ :=
    exists_computing hwait₁ (by rw [hshared₁]; exact hentry)
      (by rw [hshared₁]; exact ho'.length_notMem_taken)
  have hfree₂ : l ∉ P₂.shared.taken := by
    have hlabel := ho'.claims i (q, l) (Or.inl (by rw [hwait']; rfl))
    rw [htaken₂, hshared₁, List.mem_cons, not_or]
    exact ⟨Nat.ne_of_lt (List.getElem?_eq_some_iff.1 hlabel).1, htaken ▸ hfree⟩
  obtain ⟨as₃, P₃, hrun₃, hcomputed₃, -, -, hother₃⟩ :=
    exists_computing (by rw [hother₂ i hni, hother₁ i hni, hwait']) hentry₂ hfree₂
  refine ⟨_, P₃, (hrun₁.trans hrun₂).trans hrun₃, fun hsingle => hni ?_⟩
  obtain ⟨j, hj, hq⟩ := hcomputed₂
  exact (hsingle q i 0 _ 0 hcomputed₃ ⟨j, by rw [hother₃ _ hni.symm]; exact hj, hq⟩).1

/-- **Dropping results is safe exactly if it is careful.**  After a careful run a step may be
followed by any careful run without a question being computed twice at a time, unless the step drops
a lock that somebody has been handed. -/
theorem careful_iff_singleFlight {w : World σ} (h : (start w).CarefulRun as P)
    (hs : P.Step k a P') :
    P.Careful P' ↔ ∀ bs P'', P'.CarefulRun bs P'' → P''.SingleFlight := by
  constructor
  · intro hc bs P'' hbs
    exact ((CarefulRun.snoc h hs hc).trans hbs).singleFlight
  · intro hall
    by_contra hc
    obtain ⟨bs, P'', hbs, hnot⟩ := exists_not_singleFlight ⟨w, as, h.run⟩ hs hc
    exact hnot (hall bs P'' hbs)

/-- A thread has been handed the lock of its question when another one drops all results: the answer
comes to be computed twice at a time. -/
theorem not_singleFlight_after_clear :
    ∃ (P P' : Pool String Unit Nat) (bs : List (Nat × Action String Unit Nat))
      (P'' : Pool String Unit Nat),
      (start ⟨default, ()⟩).CarefulRun [(0, .request ⟨"q", "k"⟩), (0, .lock)] P ∧
        P.Step 1 .clear P' ∧ P'.CarefulRun bs P'' ∧ ¬P''.SingleFlight := by
  obtain ⟨P, hrun, hshared, ⟨seen, hwait⟩, hother⟩ :=
    exists_handed (P := (start ⟨default, ()⟩ : Pool String Unit Nat)) (i := 0) (q := ⟨"q", "k"⟩)
      rfl rfl
  have hclear : P.Step 1 .clear _ := .turn (by rw [hother 1 (by decide)]; exact Turn.clear)
  have hnot := mt (careful_iff_singleFlight hrun hclear).2 fun hc => by
    have hdropped := hc 0 (⟨"q", "k"⟩, 0) (by rw [hwait]; rfl) (hshared ▸ List.mem_cons_self)
    rw [hshared] at hdropped
    exact absurd hdropped List.not_mem_nil
  simp only [not_forall] at hnot
  obtain ⟨bs, P'', hbs, hsingle⟩ := hnot
  exact ⟨P, _, bs, P'', hrun, hclear, hbs, hsingle⟩

end Pool

end ScarbCrates
