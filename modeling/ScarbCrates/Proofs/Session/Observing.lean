import ScarbCrates.Proofs.Query.History
import ScarbCrates.Proofs.Session.Requests

/-!
# What a computation has observed

A computation depends on what it declares and on what the results depend on that it is given, in the
order in which it meets them.  The sum of all that is stored with its own result, so that a result
is at most as durable as any result below it, however deep.

* `Session.observed` — what a computation declares and is given.
* `Session.frames_run` — the frame of a computation under way is the sum of that.
* `Entry.Sums` — files of first observations, the least durability, untracked reads.
* `Session.stored_sums` — a computation that is brought to its end is stored with the sum.
-/

namespace ScarbCrates

variable {κ σ V ε : Type}

/-! ## The least of some levels -/

namespace Durability

lemma foldl_min_mem (a : Durability) (levels : List Durability) :
    levels.foldl min a ∈ a :: levels := by
  induction levels generalizing a with
  | nil => exact List.mem_singleton.2 rfl
  | cons b rest ih =>
      rw [List.foldl_cons]
      rcases List.mem_cons.1 (ih (a.min b)) with h | h
      · rw [h, min]
        split_ifs <;> simp
      · exact List.mem_cons_of_mem _ (List.mem_cons_of_mem _ h)

lemma level_foldl_min_le (a : Durability) (levels : List Durability) :
    ∀ b ∈ a :: levels, (levels.foldl min a).level ≤ b.level := by
  induction levels generalizing a with
  | nil => simp
  | cons b rest ih =>
      have hmin := ih (a.min b)
      rw [List.forall_mem_cons, level_min, Nat.le_min] at hmin
      obtain ⟨⟨ha, hb⟩, hrest⟩ := hmin
      rw [List.foldl_cons, List.forall_mem_cons, List.forall_mem_cons]
      exact ⟨ha, hb, hrest⟩

end Durability

/-! ## Sums of reports -/

namespace Observation

/-- The files that a report brings, each with its digest. -/
def digests : Observation V → Digests
  | .file p digest => [(p, digest)]
  | .nested e => e.digests
  | _ => []

/-- The durability that a report brings. -/
def level? : Observation V → Option Durability
  | .level a => some a
  | .nested e => some e.durability
  | _ => none

/-- All files that some reports bring, in order and each as often as it is reported. -/
def table (seen : List (Observation V)) : Digests := seen.flatMap digests

/-- All durabilities that some reports bring. -/
def levels (seen : List (Observation V)) : List Durability := seen.filterMap level?

end Observation

/-- **A result that depends on what was reported:** on each file once, in the order of the first
observations and with their digests; as durable as the least durable report; and untracked if some
report is. -/
structure Entry.Sums (e : Entry V) (seen : List (Observation V)) : Prop where
  files : e.digests.files = (Observation.table seen).files.eraseDups
  digest : ∀ p, Assoc.get? e.digests p = Assoc.get? (Observation.table seen) p
  durability : e.durability ∈ Durability.high :: Observation.levels seen
  level_le : ∀ b ∈ Durability.high :: Observation.levels seen, e.durability.level ≤ b.level
  untracked : e.untracked = true ↔ ∃ r ∈ seen, r.taints = true

namespace Frame

variable (f : Frame κ)

lemma digests_foldl_hear (seen : List (Observation V)) :
    (seen.foldl hear f).digests = f.digests.merge (Observation.table seen) := by
  induction seen generalizing f with
  | nil => rfl
  | cons r rest ih =>
      have hhear : (f.hear r).digests = f.digests.merge r.digests := by cases r <;> rfl
      have htable : Observation.table (r :: rest) = r.digests ++ Observation.table rest := rfl
      rw [List.foldl_cons, ih, hhear, htable, Digests.merge_append]

lemma durability_foldl_hear (seen : List (Observation V)) : (seen.foldl hear f).durability =
    (Observation.levels seen).foldl Durability.min f.durability := by
  induction seen generalizing f with
  | nil => rfl
  | cons r rest ih =>
      rw [List.foldl_cons, ih]
      simp only [Observation.levels, List.filterMap_cons]
      cases r <;> rfl

lemma sums_of_foldl_hear {q : Question κ} {e : Entry V} {seen : List (Observation V)}
    (hdigests : e.digests = (seen.foldl hear (start q)).digests)
    (hdurability : e.durability = (seen.foldl hear (start q)).durability)
    (huntracked : e.untracked = (seen.foldl hear (start q)).untracked) : e.Sums seen := by
  rw [digests_foldl_hear] at hdigests
  rw [durability_foldl_hear] at hdurability
  rw [untracked_foldl_hear] at huntracked
  refine ⟨?_, fun p => ?_, ?_, ?_, ?_⟩
  · rw [hdigests]
    exact Digests.files_merge_nil _
  · rw [hdigests]
    exact Digests.get?_merge_nil _ p
  · exact hdurability ▸ Durability.foldl_min_mem _ _
  · exact hdurability ▸ Durability.level_foldl_min_le _ _
  · simp [huntracked, start]

end Frame

namespace Session

variable [DecidableEq κ] [QueryKey κ] {s s' s₀ : Session κ σ V} {f : Frame κ}
  {rest : List (Frame κ)} {q : Question κ}

/-! ## What a computation observes -/

/-- The report of a file, if it can be looked at. -/
def mentioned (d : Disk) (p : Path) : List (Observation V) :=
  match (Digests.ofFile d p).run.value with
  | .ok digest => [.file p digest]
  | .error _ => []

/-- The result that a request has given, if it has given one. -/
def answered (q : Question κ) : Except (Failure ε) V × Session κ σ V → List (Observation V)
  | (.ok _, s) => (s.cache.entry? q).toList.map .nested
  | (.error _, _) => []

/-- **What a computation observes,** in order: the files and the levels that it declares, its
untracked reads, and the results that it is given. -/
def observed : {α : Type} → Computation κ σ V ε α → Session κ σ V → List (Observation V)
  | _, .done _, _ => []
  | _, .fail _, _ => []
  | _, .declare p next, s =>
    let (r, s') := s.declare p
    mentioned s.world.disk p ++ observed (next r) s'
  | _, .lower level next, s => .level level :: observed next (s.withFrame (·.lower level))
  | _, .untracked next, s => .untracked :: observed next (s.withFrame Frame.markUntracked)
  | _, .request q body next, s =>
    let (r, s') := s.serve (s.cache.storedGeneration q) q (run body)
    answered q (r, s') ++ observed (next r) s'
  | _, .invalidate level next, s =>
    let (cache, n) := s.cache.invalidate level
    observed (next n) { s with cache := cache }
  | _, .clear next, s => observed next (s.withCache Cache.clear)
  | _, .inspect next, s => observed (next s) s
  | _, .perform act next, s =>
    let ((b, world), s) := s.noted (act s.world)
    observed (next b) { s with world := world }

omit [DecidableEq κ] [QueryKey κ] in
lemma frames_declare (hf : s.frames = f :: rest) (p : Path) : (s.declare (ε := ε) p).2.frames =
    (mentioned (V := V) s.world.disk p).foldl Frame.hear f :: rest := by
  obtain ⟨ns, ⟨fault, hv, h⟩ | ⟨ds, hv, h⟩⟩ := declare_cases (ε := ε) hf p
  · rw [Digests.declare_value] at hv
    split_ifs at hv
    rw [h, mentioned]
    cases hp : (Digests.ofFile s.world.disk p).run.value with
    | error fault => exact hf
    | ok digest => simp [hp, Except.map] at hv
  · rw [h, mentioned]
    rcases Digests.declare_cases hv with ⟨hmem, rfl⟩ | ⟨digest, hmem, hp, rfl⟩
    · -- The report of a file that is there already changes nothing, whatever is found now.
      cases (Digests.ofFile s.world.disk p).run.value with
      | error fault => rfl
      | ok digest =>
          have hkeep := Assoc.keep_of_mem digest hmem
          show _ = { f with digests := Assoc.keep f.digests p digest } :: rest
          rw [hkeep]
    · rw [hp, ← Assoc.keep_of_not_mem digest hmem]
      rfl

/-- A request that is answered leaves the result that the answer is from. -/
lemma Outcome.exists_entry? {body : Body κ σ V ε} {v : V} (h : Outcome s q body (.ok v, s')) :
    ∃ e, s'.cache.entry? q = some e ∧ e.value = v ∧
      s'.frames = (s.withFrame (·.absorb e)).frames := by
  cases h with
  | found _ he hentries _ hframes =>
      refine ⟨_, ?_, rfl, hframes⟩
      rwa [Cache.entry?, hentries]
  | stored _ _ _ hentries _ hframes =>
      exact ⟨_, entry?_of_put hentries, rfl, hframes⟩

lemma Outcome.frames_of_error {body : Body κ σ V ε} {fault : Failure ε}
    (h : Outcome s q body (.error fault, s')) : s'.frames = s.frames := by
  cases h with
  | refused _ _ _ hframes => exact hframes
  | failed _ _ _ _ hframes => exact hframes

lemma frames_serve (hf : s.frames = f :: rest) (q : Question κ) (body : Body κ σ V ε) :
    (s.serve (s.cache.storedGeneration q) q body).2.frames =
      (answered q (s.serve (s.cache.storedGeneration q) q body)).foldl Frame.hear f :: rest := by
  have h := outcome s q body
  rcases hout : s.serve (s.cache.storedGeneration q) q body with ⟨r, s'⟩
  rw [hout] at h
  cases r with
  | error fault => rw [h.frames_of_error, hf, answered, List.foldl_nil]
  | ok v =>
      obtain ⟨e, he, -, hframes⟩ := h.exists_entry?
      rw [hframes, answered, he, withFrame, hf]
      rfl

/-- **The frame of a computation under way** is the sum of what the computation has observed; the
frames around it are left alone. -/
theorem frames_run {α : Type} (c : Computation κ σ V ε α) : ∀ (s : Session κ σ V) (f : Frame κ),
    s.frames = f :: rest → (run c s).2.frames = (observed c s).foldl Frame.hear f :: rest := by
  -- The steps change the frame, so that the induction is over all of them at once.
  induction c with
  | done a => exact fun s f hf => hf
  | fail fault => exact fun s f hf => hf
  | declare p next ih =>
      intro s f hf
      rw [run, observed, List.foldl_append]
      exact ih _ _ _ (frames_declare hf p)
  | lower level next ih =>
      intro s f hf
      exact ih _ (f.lower level) (by rw [withFrame, hf])
  | untracked next ih =>
      intro s f hf
      exact ih _ f.markUntracked (by rw [withFrame, hf])
  | request q body next _ ih =>
      -- What the nested computation observes stays in its own frame; only its result comes up.
      intro s f hf
      rw [run, observed, List.foldl_append]
      exact ih _ _ _ (frames_serve hf q (run body))
  | invalidate level next ih => exact fun s f hf => ih _ _ f hf
  | clear next ih => exact fun s f hf => ih _ f hf
  | inspect next ih => exact fun s f hf => ih s s f hf
  | perform act next ih => exact fun s f hf => ih _ _ f hf

lemma ending_run (hbegins : s.begins q = some s₀) (c : Computation κ σ V ε V) :
    ending q (run c s₀).2 = (observed c s₀).foldl Frame.hear (Frame.start q) := by
  obtain ⟨-, hframes, -⟩ := begins_some hbegins
  rw [ending, frame?, frames_run c s₀ _ hframes]
  rfl

/-! ## What is stored in the end -/

lemma sums_resultOf (hbegins : s.begins q = some s₀) (c : Computation κ σ V ε V) (v : V)
    (digest : String) : (resultOf q v digest (run c s₀).2).Sums (observed c s₀) := by
  have hending := ending_run hbegins c
  exact Frame.sums_of_foldl_hear (congrArg Frame.digests hending)
    (congrArg Frame.durability hending) (congrArg Frame.untracked hending)

/-- What a computation depends on has a fingerprint if all files that it has observed have paths
in words. -/
lemma exists_fingerprint_ending_iff (hbegins : s.begins q = some s₀) (c : Computation κ σ V ε V) :
    (∃ digest, (ending q (run c s₀).2).digests.fingerprint = .ok digest) ↔
      ∀ p ∈ (Observation.table (observed c s₀)).files, p.Encodable := by
  have hdigests : (ending q (run c s₀).2).digests =
      Digests.merge [] (Observation.table (observed c s₀)) := by
    rw [ending_run hbegins, Frame.digests_foldl_hear]
    rfl
  have hmem : ∀ p, p ∈ (Digests.merge [] (Observation.table (observed c s₀))).files ↔
      p ∈ (Observation.table (observed c s₀)).files := fun p =>
    Digests.mem_files_merge.trans (or_iff_right List.not_mem_nil)
  have hnil : (Digests.files []).Nodup := List.nodup_nil
  have hnodup := Digests.nodup_merge hnil (Observation.table (observed c s₀))
  rw [hdigests, Digests.exists_fingerprint_iff hnodup]
  exact forall_congr' fun p => imp_congr_left (hmem p)

omit [QueryKey κ] in
lemma invalidate_snd (c : Cache κ V) (level : Durability) :
    (c.invalidate level).2 = c.entries.countP fun x => x.2.durability.atMost level := by
  have hsum := c.entries.length_eq_countP_add_countP fun x => x.2.durability.atMost level
  have hkept : c.entries.countP (fun x => ¬x.2.durability.atMost level) =
      (c.entries.filter fun x => !x.2.durability.atMost level).length := by
    simp only [decide_not, Bool.decide_eq_true, List.countP_eq_length_filter]
  rw [hkept] at hsum
  exact Nat.sub_eq_of_eq_add hsum

/-- **What a computation is stored with.**  A computation that has begun is answered exactly if it
comes to an end with a value and the files that it has observed have paths in words.  What is stored
then is the sum of what it has observed, and the frame that asked inherits it.  So when results of
at most a durability are dropped, which are dropped all and are counted, no result is kept that
inherits from one of that durability. -/
theorem stored_sums (hbegins : s.begins q = some s₀) (c : Computation κ σ V ε V) :
    ((∃ v s', run (.ask q c) s = (.ok v, s')) ↔ (∃ v, (run c s₀).1 = .ok v) ∧
        ∀ p ∈ (Observation.table (observed c s₀)).files, p.Encodable) ∧
      ∀ v s', run (.ask q c) s = (.ok v, s') → ∃ e, s'.cache.entry? q = some e ∧
        (run c s₀).1 = .ok v ∧ e.value = v ∧ e.Sums (observed c s₀) ∧
        s'.frames = (s.withFrame (·.absorb e)).frames ∧
        ∀ (cache : Cache κ V) (level : Durability),
          (cache.invalidate level).1.entries =
              cache.entries.filter (fun x => !x.2.durability.atMost level) ∧
            (cache.invalidate level).2 =
              cache.entries.countP (fun x => x.2.durability.atMost level) ∧
            ∀ n, .nested n ∈ observed c s₀ → n.durability.atMost level →
              ∀ q', (q', e) ∉ (cache.invalidate level).1.entries := by
  simp only [run_ask]
  have h := outcome s q (run c)
  rw [← exists_fingerprint_ending_iff hbegins]
  refine ⟨⟨?_, ?_⟩, ?_⟩
  · rintro ⟨v, s', hserve⟩
    obtain ⟨digest, hv, hd, -⟩ := (hserve ▸ h).of_ok hbegins
    exact ⟨⟨v, hv⟩, digest, hd⟩
  · rintro ⟨⟨v, hv⟩, digest, hd⟩
    rcases hserve : s.serve (s.cache.storedGeneration q) q (run c) with ⟨_ | v', s'⟩
    · obtain ⟨hfails, -⟩ := (hserve ▸ h).of_error hbegins
      simp [Fails, hv, hd] at hfails
    · exact ⟨v', s', rfl⟩
  · intro v s' hserve
    obtain ⟨digest, hv, -, he, hframes⟩ := (hserve ▸ h).of_ok hbegins
    have hsums := sums_resultOf hbegins c v digest
    refine ⟨_, he, hv, rfl, hsums, hframes, fun cache level => ?_⟩
    refine ⟨rfl, invalidate_snd cache level, ?_⟩
    intro n hn hlevel q' hkept
    have hle := hsums.level_le n.durability
      (List.mem_cons_of_mem _ (List.mem_filterMap.2 ⟨_, hn, rfl⟩))
    have hlow : ¬(resultOf q v digest (run c s₀).2).durability.atMost level = true := by
      rw [Bool.not_eq_true, ← Bool.not_eq_true']
      exact (List.mem_filter.1 hkept).2
    rw [Durability.atMost_iff] at hlow hlevel
    exact hlow (Nat.le_trans hle hlevel)

lemma observed_ask {c : Computation κ σ V ε V} {v : V} {e : Entry V}
    (h : run (.ask q c) s = (.ok v, s')) (he : s'.cache.entry? q = some e) :
    observed (.ask q c) s = [.nested e] := by
  rw [run_ask] at h
  simp only [Computation.ask, observed, h, answered, he]
  rfl

/-- A result that inherits from one of low durability is dropped with it. -/
theorem stored_sums_of_low :
    let outer : Question Path := ⟨"outer", .top⟩
    let c : Computation Path Unit Nat Empty Nat := .ask ⟨"inner", .top⟩ (.lower .low (.done 1))
    ∃ s' e, run (.ask outer c) (start ⟨default, ()⟩) = (.ok 1, s') ∧
      s'.cache.entry? outer = some e ∧ ∀ q', (q', e) ∉ (s'.cache.invalidate .low).1.entries := by
  intro outer c
  let inner : Question Path := ⟨"inner", .top⟩
  obtain ⟨s₀, s₁, hbegins, hbegins'⟩ : ∃ s₀ s₁ : Session Path Unit Nat,
      (start ⟨default, ()⟩).begins outer = some s₀ ∧ s₀.begins inner = some s₁ :=
    ⟨_, _, rfl, rfl⟩
  have hnone : ∀ p ∈ Digests.files [], p.Encodable := fun p hp => absurd hp List.not_mem_nil
  -- The inner result has the durability that its computation reports.
  obtain ⟨n, sₙ, hinner, hn, hlow, hfiles⟩ : ∃ n sₙ, run c s₀ = (.ok 1, sₙ) ∧
      sₙ.cache.entry? inner = some n ∧ n.durability.atMost .low = true ∧ n.digests.files = [] := by
    obtain ⟨hanswered, hstored⟩ := stored_sums (ε := Empty) hbegins' (.lower .low (.done 1))
    obtain ⟨v, sₙ, h⟩ := hanswered.2 ⟨⟨1, rfl⟩, hnone⟩
    obtain ⟨n, hn, hv, -, hsums, -⟩ := hstored v sₙ h
    obtain rfl : 1 = v := Except.ok.inj hv
    refine ⟨n, sₙ, h, hn, ?_, hsums.files⟩
    rw [Durability.atMost_iff]
    exact hsums.level_le .low (List.mem_cons_of_mem _ List.mem_cons_self)
  have hobserved := observed_ask hinner hn
  have htable : (Observation.table (observed c s₀)).files = [] := by
    simp only [c, hobserved, Observation.table, List.flatMap_singleton, Observation.digests, hfiles]
  obtain ⟨hanswered, hstored⟩ := stored_sums hbegins c
  obtain ⟨v, s', hask⟩ := hanswered.2 ⟨⟨1, by rw [hinner]⟩, htable ▸ hnone⟩
  obtain ⟨e, he, hv, -, -, -, hdrop⟩ := hstored v s' hask
  rw [hinner] at hv
  obtain rfl : 1 = v := Except.ok.inj hv
  obtain ⟨-, -, hkept⟩ := hdrop s'.cache .low
  exact ⟨s', e, hask, he, hkept n (hobserved ▸ List.mem_singleton.2 rfl) hlow⟩

end Session

end ScarbCrates
