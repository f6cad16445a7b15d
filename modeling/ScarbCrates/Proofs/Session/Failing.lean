import ScarbCrates.Proofs.Query.History
import ScarbCrates.Proofs.Session.Requests

/-!
# Computations that fail

A computation may have asked and dropped a lot before it fails.  Results of other questions that are
complete by then are stored, and what it has dropped is gone; but nothing is stored for the question
itself, or for a question around it, and no frame or lock of it stays behind.

* `Deed`, `Session.deeds` — what a computation does to the stored results.
* `Session.entries_run`, `Session.held_run` — that is all it does to them, and locks are given back.
* `Deed.Spared` — the result of a question that nothing is stored for.
* `Session.failing_spares` — what is there after a computation has failed.
-/

namespace ScarbCrates

variable {κ σ V ε : Type}

/-! ## The results of one question -/

namespace Assoc

variable {κ α : Type} [DecidableEq κ]

/-- The part of a table that is about one key. -/
def part (entries : List (κ × α)) (key : κ) : List (κ × α) := entries.filter fun x => x.1 = key

lemma get?_eq_head? (entries : List (κ × α)) (key : κ) :
    get? entries key = (part entries key).head?.map Prod.snd := by
  induction entries with
  | nil => rfl
  | cons x rest ih =>
      rw [part, get?, List.filter_cons]
      split_ifs with hx hx' hx'
      · rfl
      · simp [hx] at hx'
      · simp [hx] at hx'
      · exact ih

lemma part_put_of_ne (entries : List (κ × α)) {key other : κ} (a : α) (h : other ≠ key) :
    part (put entries key a) other = part entries other := by
  induction entries with
  | nil => simp [part, put, h.symm]
  | cons x rest ih =>
      rw [put]
      split_ifs with hx
      · simp [part, hx, h.symm]
      · simp only [part] at ih ⊢
        simp only [List.filter_cons, ih]

end Assoc

/-! ## Deeds -/

/-- What is done to the stored results: one is stored, those of at most a durability are dropped, or
all are dropped. -/
inductive Deed (κ V : Type)
  | stored (q : Question κ) (e : Entry V)
  | invalidated (level : Durability)
  | cleared

namespace Deed

/-- Whether a result is dropped. -/
def drops : Deed κ V → Entry V → Bool
  | .stored _ _, _ => false
  | .invalidated level, e => e.durability.atMost level
  | .cleared, _ => true

variable [DecidableEq κ]

/-- The stored results afterwards. -/
def act (entries : List (Question κ × Entry V)) : Deed κ V → List (Question κ × Entry V)
  | .stored q e => Assoc.put entries q e
  | .invalidated level => entries.filter fun x => !x.2.durability.atMost level
  | .cleared => []

variable {q : Question κ} {ds : List (Deed κ V)}

/-- **One deed and one question:** if nothing is stored for it, its result stays or is dropped. -/
lemma part_act (entries : List (Question κ × Entry V)) {d : Deed κ V}
    (h : ∀ e, d ≠ .stored q e) :
    Assoc.part (act entries d) q = (Assoc.part entries q).filter fun x => !d.drops x.2 := by
  cases d with
  | stored q' e =>
      have hne : q ≠ q' := by
        rintro rfl
        exact h e rfl
      rw [act, Assoc.part_put_of_ne entries e hne]
      exact (List.filter_eq_self.2 fun _ _ => rfl).symm
  | invalidated level =>
      rw [act, Assoc.part, Assoc.part, List.filter_comm]
      rfl
  | cleared => simp [act, Assoc.part, drops]

lemma part_foldl_act (entries : List (Question κ × Entry V)) (h : ∀ e, .stored q e ∉ ds) :
    Assoc.part (ds.foldl act entries) q =
      (Assoc.part entries q).filter fun x => ds.all fun d => !d.drops x.2 := by
  induction ds generalizing entries with
  | nil => simp
  | cons d rest ih =>
      have hd : ∀ e, d ≠ .stored q e := fun e he => h e (he ▸ List.mem_cons_self)
      rw [List.foldl_cons, ih _ fun e he => h e (List.mem_cons_of_mem _ he), part_act _ hd,
        List.filter_filter]
      simp [Bool.and_comm]

/-- **The result of a question is spared:** it is gone if it was dropped, and if it was not it is
what it was, if there was one. -/
structure Spared (ds : List (Deed κ V)) (q : Question κ) (c c' : Cache κ V) : Prop where
  kept : (∀ e, c.entry? q = some e → ∀ d ∈ ds, d.drops e = false) → c'.entry? q = c.entry? q
  mem_iff : ∀ e, (q, e) ∈ c'.entries ↔ (q, e) ∈ c.entries ∧ ∀ d ∈ ds, d.drops e = false

lemma spared_of_not_stored {c c' : Cache κ V} (hentries : c'.entries = ds.foldl act c.entries)
    (h : ∀ e, .stored q e ∉ ds) : Spared ds q c c' := by
  have hpart := part_foldl_act c.entries h
  rw [← hentries] at hpart
  refine ⟨fun hkept => ?_, fun e => ?_⟩
  · simp only [Cache.entry?, Assoc.get?_eq_head?] at hkept ⊢
    rw [hpart]
    cases hold : Assoc.part c.entries q with
    | nil => rfl
    | cons x rest =>
        have hx : (ds.all fun d => !d.drops x.2) = true := by
          simpa [hold] using hkept x.2
        rw [List.filter_cons, if_pos hx]
        rfl
  · have hmem : ∀ c : Cache κ V, (q, e) ∈ c.entries ↔ (q, e) ∈ Assoc.part c.entries q := by
      simp [Assoc.part]
    rw [hmem, hpart, List.mem_filter, ← hmem]
    simp

end Deed

namespace Session

variable [DecidableEq κ] [QueryKey κ] {s s' s₀ : Session κ σ V} {q q' : Question κ}

/-! ## What a computation does -/

/-- What a request does to the stored results, if its computation does what is given: the result
is stored when the computation has been brought to its end. -/
def brings (q : Question κ) :
    Option (List (Deed κ V)) → Except (Failure ε) V × Session κ σ V → List (Deed κ V)
  | none, _ => []
  | some ds, (.error _, _) => ds
  | some ds, (.ok _, s) => ds ++ (s.cache.entry? q).toList.map (.stored q)

/-- **What a computation does to the stored results,** in order, with what is done when an answer is
computed. -/
def deeds : {α : Type} → Computation κ σ V ε α → Session κ σ V → List (Deed κ V)
  | _, .done _, _ => []
  | _, .fail _, _ => []
  | _, .declare p next, s =>
    let (r, s) := s.declare p
    deeds (next r) s
  | _, .lower level next, s => deeds next (s.withFrame (·.lower level))
  | _, .untracked next, s => deeds next (s.withFrame Frame.markUntracked)
  | _, .request q body next, s =>
    let inner := (s.begins q).map fun s₀ => deeds body s₀
    let (r, s') := s.serve (s.cache.storedGeneration q) q (run body)
    brings q inner (r, s') ++ deeds (next r) s'
  | _, .invalidate level next, s =>
    let (cache, n) := s.cache.invalidate level
    .invalidated level :: deeds (next n) { s with cache := cache }
  | _, .clear next, s => .cleared :: deeds next (s.withCache Cache.clear)
  | _, .inspect next, s => deeds (next s) s
  | _, .perform act next, s =>
    let ((b, world), s) := s.noted (act s.world)
    deeds (next b) { s with world := world }

omit [DecidableEq κ] [QueryKey κ] in
lemma cache_declare (s : Session κ σ V) (p : Path) : (s.declare (ε := ε) p).2.cache = s.cache := by
  cases hf : s.frames with
  | nil => rw [declare, frame?, hf, List.head?_nil]
  | cons f rest =>
      obtain ⟨ns, ⟨_, -, h⟩ | ⟨_, -, h⟩⟩ := declare_cases (ε := ε) hf p <;> rw [h] <;> rfl

variable {body : Body κ σ V ε} {out : Except (Failure ε) V × Session κ σ V}

/-- A request does to the stored results what its computation does, and stores its result. -/
lemma Outcome.entries_eq (h : Outcome s q body out) (ds : Session κ σ V → List (Deed κ V))
    (hbody : ∀ s₀, s.begins q = some s₀ →
      (body s₀).2.cache.entries = (ds s₀).foldl Deed.act s.cache.entries) :
    out.2.cache.entries = (brings q ((s.begins q).map ds) out).foldl Deed.act s.cache.entries := by
  cases h with
  | refused hbegins hentries | found hbegins _ hentries => rw [hbegins, hentries]; rfl
  | failed hbegins _ hentries => rw [hbegins, hentries, hbody _ hbegins]; rfl
  | stored hbegins _ _ hentries =>
      rw [hbegins, Option.map_some, brings, entry?_of_put hentries, List.foldl_append,
        ← hbody _ hbegins, hentries]
      rfl

lemma Outcome.held_eq (h : Outcome s q body out)
    (hbody : ∀ s₀, s.begins q = some s₀ → (body s₀).2.cache.held = q :: s.cache.held) :
    out.2.cache.held = s.cache.held := by
  cases h with
  | refused _ _ hheld | found _ _ _ hheld => exact hheld
  | failed hbegins _ _ hheld | stored hbegins _ _ _ hheld =>
      rw [hheld, hbody _ hbegins, List.erase_cons_head]

/-- **That is all that a computation does to the stored results.** -/
theorem entries_run {α : Type} (c : Computation κ σ V ε α) : ∀ s : Session κ σ V,
    (run c s).2.cache.entries = (deeds c s).foldl Deed.act s.cache.entries := by
  -- The deeds follow the run: those of a nested computation come before the storing of its result.
  induction c with
  | done a => exact fun s => rfl
  | fail f => exact fun s => rfl
  | declare p next ih =>
      intro s
      rw [run, deeds, ih, cache_declare]
  | lower level next ih => exact fun s => ih _
  | untracked next ih => exact fun s => ih _
  | request q body next ihbody ih =>
      intro s
      have hserve := (outcome s q (run body)).entries_eq (deeds body) fun s₀ hbegins => by
        rw [ihbody, (begins_some hbegins).2.2.1]
      rw [run, deeds, List.foldl_append, ih, hserve]
  | invalidate level next ih => exact fun s => ih _ _
  | clear next ih => exact fun s => ih _
  | inspect next ih => exact fun s => ih s s
  | perform act next ih => exact fun s => ih _ _

/-- **A computation gives all locks back** that it takes. -/
theorem held_run {α : Type} (c : Computation κ σ V ε α) : ∀ s : Session κ σ V,
    (run c s).2.cache.held = s.cache.held := by
  induction c with
  | done a => exact fun s => rfl
  | fail f => exact fun s => rfl
  | declare p next ih =>
      intro s
      rw [run, ih, cache_declare]
  | lower level next ih => exact fun s => ih _
  | untracked next ih => exact fun s => ih _
  | request q body next ihbody ih =>
      intro s
      have hserve := (outcome s q (run body)).held_eq fun s₀ hbegins => by
        rw [ihbody, (begins_some hbegins).2.2.2]
      rw [run, ih, hserve]
  | invalidate level next ih => exact fun s => ih _ _
  | clear next ih => exact fun s => ih _
  | inspect next ih => exact fun s => ih s s
  | perform act next ih => exact fun s => ih _ _

omit [QueryKey κ] in
lemma mem_brings {ds : Option (List (Deed κ V))} {d : Deed κ V} (h : d ∈ brings q ds out) :
    (∃ ds', ds = some ds' ∧ d ∈ ds') ∨ (∃ e, d = .stored q e) ∧ ds.isSome := by
  obtain ⟨r, s'⟩ := out
  cases ds with
  | none => cases h
  | some ds =>
      cases r with
      | error f => exact .inl ⟨ds, rfl, h⟩
      | ok v =>
          rcases List.mem_append.1 h with h | h
          · exact .inl ⟨ds, rfl, h⟩
          · obtain ⟨e, -, rfl⟩ := List.mem_map.1 h
            exact .inr ⟨⟨e, rfl⟩, rfl⟩

/-- **Nothing is stored for a question whose own computation is under way.** -/
theorem not_mem_held_of_stored {α : Type} (c : Computation κ σ V ε α) : ∀ s : Session κ σ V,
    ∀ q ∈ s.cache.held, ∀ e, .stored q e ∉ deeds c s := by
  induction c with
  | done a => exact fun s q _ e => List.not_mem_nil
  | fail f => exact fun s q _ e => List.not_mem_nil
  | declare p next ih =>
      intro s q hq
      rw [deeds]
      exact ih _ _ q ((cache_declare (ε := ε) s p).symm ▸ hq)
  | lower level next ih => exact fun s => ih (s.withFrame (·.lower level))
  | untracked next ih => exact fun s => ih (s.withFrame Frame.markUntracked)
  | request q body next ihbody ih =>
      intro s q' hq' e h
      have hserve := (outcome s q (run body)).held_eq fun s₀ hbegins => by
        rw [held_run, (begins_some hbegins).2.2.2]
      rw [deeds] at h
      rcases List.mem_append.1 h with h | h
      · rcases mem_brings h with ⟨ds, hds, h⟩ | ⟨⟨e, he⟩, hds⟩
        · -- Below, the same locks are held and one more.
          obtain ⟨s₀, hbegins, rfl⟩ := Option.map_eq_some_iff.1 hds
          refine ihbody s₀ q' ?_ e h
          rw [(begins_some hbegins).2.2.2]
          exact List.mem_cons_of_mem _ hq'
        · -- A result is stored only for a question whose lock was free.
          obtain ⟨s₀, hbegins⟩ := Option.isSome_iff_exists.1 (Option.isSome_map ▸ hds)
          obtain rfl : q' = q := (Deed.stored.inj he).1
          exact (begins_some hbegins).1 hq'
      · exact ih _ _ q' (hserve.symm ▸ hq') e h
  | invalidate level next ih =>
      intro s q hq e h
      rcases List.mem_cons.1 h with h | h
      · cases h
      · exact ih _ { s with cache := (s.cache.invalidate level).1 } q hq e h
  | clear next ih =>
      intro s q hq e h
      rcases List.mem_cons.1 h with h | h
      · cases h
      · exact ih (s.withCache Cache.clear) q hq e h
  | inspect next ih => exact fun s => ih s s
  | perform act next ih =>
      intro s
      exact ih _ { s.withNotices (act s.world).notices with world := (act s.world).value.2 }

/-! ## What is there after a failure -/

/-- **A computation that fails.**  The failure is the answer.  The frames are what they were, so
that the frame that asked has heard of nothing; the lock of the question is free again, and no other
lock is held than before.  What has become of the stored results is what the computation has done to
them by then, and it has stored nothing for its own question or for a question around it.  The
result of any question that nothing was stored for is what it was, unless it was dropped. -/
theorem failing_spares {c : Computation κ σ V ε V} {f : Failure ε} (hbegins : s.begins q = some s₀)
    (hfails : Fails q f (run c s₀)) :
    ∃ s', run (.ask q c) s = (.error f, s') ∧ s'.frames = s.frames ∧
      q ∉ s'.cache.held ∧ s'.cache.held = s.cache.held ∧
      s'.cache.entries = (deeds c s₀).foldl Deed.act s.cache.entries ∧
      (∀ q' ∈ q :: s.cache.held, ∀ e, .stored q' e ∉ deeds c s₀) ∧
      ∀ q', (∀ e, .stored q' e ∉ deeds c s₀) → Deed.Spared (deeds c s₀) q' s.cache s'.cache := by
  obtain ⟨hfree, -, hentries₀, hheld₀⟩ := begins_some hbegins
  have h := outcome s q (run c)
  rw [run_ask]
  rcases hserve : s.serve (s.cache.storedGeneration q) q (run c) with ⟨r, s'⟩
  rw [hserve] at h
  obtain rfl := h.eq_error_of_fails hbegins hfails
  obtain ⟨-, hentries, hheld, hframes⟩ := h.of_error hbegins
  rw [entries_run, hentries₀] at hentries
  rw [held_run, hheld₀, List.erase_cons_head] at hheld
  have hstored := not_mem_held_of_stored c s₀
  rw [hheld₀] at hstored
  exact ⟨s', rfl, hframes, hheld ▸ hfree, hheld, hentries, hstored,
    fun q' => Deed.spared_of_not_stored hentries⟩

/-- A stale result is still there after its computation has asked another question, has dropped what
is of low durability, and has failed. -/
theorem failing_spares_stale :
    let outer : Question Path := ⟨"outer", .top⟩
    let stale : Entry Nat := ⟨0, [], "", .high, true, 1⟩
    let c : Computation Path Unit Nat Unit Nat := .request ⟨"inner", .top⟩ (.done 1) fun _ =>
      .invalidate .low fun _ => .fail (.raised ())
    let s : Session Path Unit Nat :=
      ⟨⟨[(outer, stale)], [], [], 1, ⟨0, 1, 0⟩⟩, [], ⟨default, ()⟩, []⟩
    ∃ s', run (.ask outer c) s = (.error (.raised ()), s') ∧ s'.cache.entry? outer = some stale ∧
      s'.frames = [] ∧ s'.cache.held = [] := by
  intro outer stale c s
  obtain ⟨s₀, hbegins⟩ : ∃ s₀, s.begins outer = some s₀ := ⟨_, rfl⟩
  have hfails : Fails outer (.raised ()) (run c s₀) := .inl rfl
  obtain ⟨s', hask, hframes, -, hheld, -, hstored, hspared⟩ := failing_spares hbegins hfails
  -- Of what has been done only the invalidation drops anything, and only what is of low durability.
  have hkept : ∀ d ∈ deeds c s₀, d.drops stale = false := by
    intro d hd
    rcases List.mem_append.1 hd with hd | hd
    · rcases mem_brings hd with ⟨ds, hds, hd⟩ | ⟨⟨e, rfl⟩, -⟩
      · obtain ⟨_, -, rfl⟩ := Option.map_eq_some_iff.1 hds
        exact absurd hd List.not_mem_nil
      · rfl
    · obtain rfl := List.mem_singleton.1 hd
      rfl
  have houter := hspared outer fun e => hstored outer List.mem_cons_self e
  refine ⟨s', hask, houter.kept fun e he d hd => ?_, hframes, hheld⟩
  obtain rfl : stale = e := Option.some.inj he
  exact hkept d hd

end Session

end ScarbCrates
