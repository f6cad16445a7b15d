import ScarbCrates.Proofs.Query.Soundness
import ScarbCrates.Proofs.Threads.Turns

/-!
# What is on record

A stored result is what its computation had reported when it ended, and the record of the past says
which computation that was.  So whatever is true of a result can be traced to what was reported.

* `Frame.hear` — what one report does to the tables of a frame.
* `Shared.Grows`, `Turn.grows` — what is on record stays on record, and numbers only go up.
* `Pool.Recorded`, `Pool.Reachable.recorded` — every stored result has its record.
* `Tainted`, `Shared.Recorded.untracked_iff` — a result is untracked exactly if its computation has
  reported an untracked read, or has inherited a result of which that is true.
-/

namespace ScarbCrates

variable {κ σ V : Type}

/-! ## Frames and reports -/

namespace Digests

/-- After a file has been mentioned it is in the table, and nothing else is new. -/
lemma exists_declare_eq_keep {d : Disk} {ds ds' : Digests} {p : Path}
    (h : (declare d ds p).run.value = .ok ds') :
    ∃ digest, Assoc.get? ds' p = some digest ∧ ds' = Assoc.keep ds p digest := by
  rcases declare_cases h with ⟨hp, rfl⟩ | ⟨digest, hp, -, rfl⟩
  · obtain ⟨digest, hd⟩ := Option.isSome_iff_exists.1 (Assoc.has_iff.2 hp)
    exact ⟨digest, hd, (Assoc.keep_of_mem digest hp).symm⟩
  · have hkeep := Assoc.keep_of_not_mem digest hp
    have hnone : Assoc.get? ds p = none :=
      Option.not_isSome_iff_eq_none.1 fun h => hp (Assoc.has_iff.1 h)
    refine ⟨digest, ?_, hkeep.symm⟩
    rw [← hkeep, Assoc.get?_keep, hnone, if_pos rfl, Option.none_or]

lemma exists_fingerprint_nil : ∃ digest, fingerprint [] = .ok digest := by
  have hd : (files []).Nodup := List.nodup_nil
  exact (exists_fingerprint_iff hd).2 fun _ hp => absurd hp List.not_mem_nil

end Digests

/-- Whether a report makes a result untracked. -/
def Observation.taints : Observation V → Bool
  | .untracked => true
  | .nested e => e.untracked
  | _ => false

namespace Frame

variable {f : Frame κ} {r : Observation V} {p : Path}

lemma hear_file {d : Disk} {ds : Digests} {digest : Option String}
    (hd : (f.digests.declare d p).run.value = .ok ds) (hp : Assoc.get? ds p = some digest) :
    f.hear (.file p digest : Observation V) = { f with digests := ds } := by
  obtain ⟨digest', hp', rfl⟩ := Digests.exists_declare_eq_keep hd
  rw [hp, Option.some.injEq] at hp'
  rw [hear, hp']

lemma untracked_hear (f : Frame κ) (r : Observation V) :
    (f.hear r).untracked = (f.untracked || r.taints) := by
  cases r with
  | file p digest => exact (Bool.or_false _).symm
  | level level => exact (Bool.or_false _).symm
  | untracked => exact (Bool.or_true _).symm
  | nested e => rfl

lemma mem_files_hear (h : p ∈ f.digests.files) (r : Observation V) :
    p ∈ (f.hear r).digests.files := by
  cases r with
  | file q digest =>
      show p ∈ (f.digests.merge [(q, digest)]).files
      exact Digests.mem_files_merge.2 (Or.inl h)
  | level level => exact h
  | untracked => exact h
  | nested e => exact Digests.mem_files_merge.2 (Or.inl h)

lemma mem_files_hear_nested (f : Frame κ) {e : Entry V} (h : p ∈ e.digests.files) :
    p ∈ (f.hear (.nested e)).digests.files := Digests.mem_files_merge.2 (Or.inr h)

lemma untracked_foldl_hear (f : Frame κ) (rs : List (Observation V)) :
    (rs.foldl hear f).untracked = (f.untracked || rs.any Observation.taints) := by
  induction rs generalizing f with
  | nil => exact (Bool.or_false _).symm
  | cons r rest ih => rw [List.foldl_cons, ih, untracked_hear, List.any_cons, Bool.or_assoc]

lemma mem_files_foldl_hear (h : p ∈ f.digests.files) (rs : List (Observation V)) :
    p ∈ (rs.foldl hear f).digests.files := by
  induction rs generalizing f with
  | nil => exact h
  | cons r rest ih => exact ih (mem_files_hear h r)

end Frame

namespace Job

variable {j : Job κ V} {e : Entry V}

lemma untracked_frame_iff : j.frame.untracked = true ↔ ∃ r ∈ j.reports, r.taints = true := by
  rw [frame, Frame.untracked_foldl_hear]
  simp [Frame.start]

/-- Every file of a nested result is a file of the computation that has inherited it. -/
lemma mem_files_of_nested {p : Path} (h : .nested e ∈ j.reports) (hp : p ∈ e.digests.files) :
    p ∈ j.frame.digests.files := by
  obtain ⟨before, after, hreports⟩ := List.append_of_mem h
  rw [frame, hreports, List.foldl_append, List.foldl_cons]
  exact Frame.mem_files_foldl_hear (Frame.mem_files_hear_nested _ hp) after

end Job

/-! ## Records grow -/

namespace Shared

/-- What is on record stays on record, and whatever is new has a new generation. -/
structure Grows (S S' : Shared κ σ V) : Prop where
  log : ∀ x ∈ S.log, x ∈ S'.log
  logged : ∀ x ∈ S'.log, x ∈ S.log ∨ S.generation < x.2.generation
  entries : ∀ x ∈ S'.entries, x ∈ S.entries ∨ S.generation < x.2.generation
  generation : S.generation ≤ S'.generation
  begun : S.begun ≤ S'.begun

variable {S S' S'' : Shared κ σ V}

lemma Grows.refl (S : Shared κ σ V) : S.Grows S :=
  ⟨fun _ h => h, fun _ h => Or.inl h, fun _ h => Or.inl h, Nat.le_refl _, Nat.le_refl _⟩

lemma Grows.trans (h : S.Grows S') (h' : S'.Grows S'') : S.Grows S'' := by
  refine ⟨fun x hx => h'.log x (h.log x hx), fun x hx => ?_, fun x hx => ?_,
    Nat.le_trans h.generation h'.generation, Nat.le_trans h.begun h'.begun⟩
  · rcases h'.logged x hx with hx | hx
    · exact h.logged x hx
    · exact Or.inr (Nat.lt_of_le_of_lt h.generation hx)
  · rcases h'.entries x hx with hx | hx
    · exact h.entries x hx
    · exact Or.inr (Nat.lt_of_le_of_lt h.generation hx)

/-- A step that stores nothing. -/
lemma Grows.of_log_eq (hl : S'.log = S.log) (he : ∀ x ∈ S'.entries, x ∈ S.entries)
    (hg : S.generation ≤ S'.generation) (hb : S.begun ≤ S'.begun) : S.Grows S' :=
  ⟨fun _ hx => hl ▸ hx, fun _ hx => Or.inl (hl ▸ hx), fun x hx => Or.inl (he x hx), hg, hb⟩

end Shared

variable {S S' : Shared κ σ V} {t t' : Thread κ V}

/-! ## Every result has its record -/

/-- The result is what a computation has come to. -/
structure Entry.From (e : Entry V) (j : Job κ V) : Prop where
  digests : e.digests = j.frame.digests
  durability : e.durability = j.frame.durability
  untracked : e.untracked = j.frame.untracked
  fingerprint : e.digests.fingerprint = .ok e.inputsDigest

/-- A computation has its number, its table is sound, and all results that it has inherited are on
record. -/
structure Job.Recorded (S : Shared κ σ V) (j : Job κ V) : Prop where
  number : j.number < S.begun
  sound : j.frame.digests.Sound
  nested : ∀ e, .nested e ∈ j.reports → ∃ j', (j', e) ∈ S.log

/-- The computations of a thread are on record, and so is a result that it takes along. -/
structure Thread.Recorded (S : Shared κ σ V) (t : Thread κ V) : Prop where
  jobs : ∀ j ∈ t.jobs, j.Recorded S
  leaving : ∀ q l e, t.phase = .leaving q l (some e) → ∃ j, (j, e) ∈ S.log

/-- Every stored result is on record, with its computation; a result that the computation has
inherited is older. -/
structure Shared.Recorded (S : Shared κ σ V) : Prop where
  entries : ∀ x ∈ S.entries, ∃ j, (j, x.2) ∈ S.log ∧ j.question = x.1
  log : ∀ x ∈ S.log, x.1.Recorded S ∧ x.2.From x.1 ∧ x.2.generation ≤ S.generation
  older : ∀ x ∈ S.log, ∀ e, .nested e ∈ x.1.reports → e.generation < x.2.generation

lemma Job.Recorded.mono {j : Job κ V} (h : j.Recorded S) (hS : S.Grows S') : j.Recorded S' :=
  ⟨Nat.lt_of_lt_of_le h.number hS.begun, h.sound, fun e he =>
    (h.nested e he).imp fun _ hx => hS.log _ hx⟩

lemma Thread.Recorded.mono (h : t.Recorded S) (hS : S.Grows S') : t.Recorded S' :=
  ⟨fun j hj => (h.jobs j hj).mono hS, fun q l e he =>
    (h.leaving q l e he).imp fun _ hx => hS.log _ hx⟩

/-- A thread that is not about to leave takes no result along. -/
lemma Thread.Recorded.of_jobs {p : Phase κ V} {js : List (Job κ V)} (h : ∀ j ∈ js, j.Recorded S)
    (hp : ∀ q l e, p ≠ .leaving q l (some e)) : Thread.Recorded S ⟨p, js⟩ :=
  ⟨h, fun q l e he => absurd he (hp q l e)⟩

lemma Shared.Recorded.of_log_eq (h : S.Recorded) (hS : S.Grows S') (hl : S'.log = S.log)
    (he : ∀ x ∈ S'.entries, x ∈ S.entries) : S'.Recorded := by
  refine ⟨fun x hx => ?_, fun x hx => ?_, fun x hx => h.older x (hl ▸ hx)⟩
  · exact hl.symm ▸ h.entries x (he x hx)
  · obtain ⟨hj, hfrom, hgen⟩ := h.log x (hl ▸ hx)
    exact ⟨hj.mono hS, hfrom, Nat.le_trans hgen hS.generation⟩

namespace Job

variable {j : Job κ V} {e : Entry V}

/-- A computation on record hears something that leaves a sound table. -/
lemma Recorded.hear (h : j.Recorded S) {r : Observation V} (hs : (j.frame.hear r).digests.Sound)
    (hn : ∀ e, r = .nested e → ∃ j', (j', e) ∈ S.log) : (j.hear r).Recorded S := by
  refine ⟨h.number, by rwa [frame_hear], fun e he => ?_⟩
  rcases List.mem_append.1 he with he | he
  · exact h.nested e he
  · exact hn e (List.mem_singleton.1 he).symm

/-- A file that is mentioned can be looked at. -/
lemma Recorded.hear_file (h : j.Recorded S) {d : Disk} {p : Path} {ds : Digests}
    {digest : Option String} (hd : (j.frame.digests.declare d p).run.value = .ok ds)
    (hp : Assoc.get? ds p = some digest) : (j.hear (.file p digest)).Recorded S := by
  refine h.hear ?_ nofun
  rw [Frame.hear_file hd hp]
  exact h.sound.declare hd

lemma recorded_start {q : Question κ} {l : Nat} (hb : S.begun < S'.begun) :
    (⟨q, l, S.begun, []⟩ : Job κ V).Recorded S' :=
  ⟨hb, Digests.sound_nil, fun _ he => absurd he List.not_mem_nil⟩

end Job

lemma Entry.From.sealed {j : Job κ V} {e : Entry V} (h : e.From j) (hs : j.frame.digests.Sound) :
    e.Sealed := by
  rw [← h.digests] at hs
  exact ⟨hs.nodup, hs.nulFree, h.fingerprint⟩

namespace Shared

/-- Every stored result has been sealed. -/
lemma Recorded.sealed (h : S.Recorded) {x : Question κ × Entry V} (hx : x ∈ S.entries) :
    x.2.Sealed := by
  obtain ⟨j, hj, -⟩ := h.entries x hx
  obtain ⟨hrec, hfrom, -⟩ := h.log _ hj
  exact hfrom.sealed hrec.sound

end Shared

/-- The computation that asked inherits a result that is on record. -/
lemma Job.recorded_inherit (h : S.Recorded) {result : Option (Entry V)} {js : List (Job κ V)}
    (hr : ∀ e, result = some e → ∃ j, (j, e) ∈ S.log) (hjs : ∀ j ∈ js, j.Recorded S) :
    ∀ j ∈ inherit result js, j.Recorded S := by
  cases result with
  | none => exact hjs
  | some e =>
      cases js with
      | nil => exact hjs
      | cons j rest =>
          obtain ⟨j', hj'⟩ := hr e rfl
          obtain ⟨hrec', hfrom', -⟩ := h.log _ hj'
          obtain ⟨hj, hrest⟩ := List.forall_mem_cons.1 hjs
          refine List.forall_mem_cons.2 ⟨hj.hear ?_ fun e' he' => ?_, hrest⟩
          · exact hj.sound.merge (hfrom'.sealed hrec'.sound).sound
          · cases he'
            exact ⟨j', hj'⟩

/-! ## Untracked results -/

/-- **The computation, or one whose result it has inherited, has reported an untracked read,** at
any depth. -/
inductive Tainted (log : List (Job κ V × Entry V)) : Job κ V → Prop
  | direct {j : Job κ V} (h : .untracked ∈ j.reports) : Tainted log j
  | nested {j j' : Job κ V} {e : Entry V} (h : .nested e ∈ j.reports) (hlog : (j', e) ∈ log)
      (ht : Tainted log j') : Tainted log j

namespace Shared

/-- **A result is untracked exactly if an untracked read was reported** by its computation, or by
one whose result it has inherited. -/
theorem Recorded.untracked_iff (h : S.Recorded) {j : Job κ V} {e : Entry V}
    (hj : (j, e) ∈ S.log) : e.untracked = true ↔ Tainted S.log j := by
  constructor
  · -- An inherited result is older, so the induction is on the generation.
    induction hn : e.generation using Nat.strongRecOn generalizing j e with
    | ind n ih =>
        intro hu
        obtain ⟨hrec, hfrom, -⟩ := h.log _ hj
        rw [hfrom.untracked] at hu
        obtain ⟨r, hr, ht⟩ := Job.untracked_frame_iff.1 hu
        cases r with
        | file p digest => cases ht
        | level level => cases ht
        | untracked => exact .direct hr
        | nested e' =>
            obtain ⟨j', hj'⟩ := hrec.nested e' hr
            exact .nested hr hj' (ih _ (hn ▸ h.older _ hj e' hr) hj' rfl ht)
  · intro ht
    induction ht generalizing e with
    | direct hr =>
        rw [(h.log _ hj).2.1.untracked]
        exact Job.untracked_frame_iff.2 ⟨_, hr, rfl⟩
    | nested hr hlog _ ih =>
        rw [(h.log _ hj).2.1.untracked]
        exact Job.untracked_frame_iff.2 ⟨_, hr, ih hlog⟩

end Shared

/-! ## Turns -/

variable [DecidableEq κ] {a : Action κ σ V}

namespace Shared

lemma grows_store (S : Shared κ σ V) (j : Job κ V) (v : V) (digest : String) :
    S.Grows (S.store j (S.result j v digest)) := by
  have hnew : S.generation < (S.result j v digest).generation := Nat.lt_succ_self _
  refine ⟨fun x hx => List.mem_cons_of_mem _ hx, fun x hx => ?_, fun x hx => ?_,
    Nat.le_succ _, Nat.le_refl _⟩
  · rcases List.mem_cons.1 hx with rfl | hx
    · exact Or.inr hnew
    · exact Or.inl hx
  · rcases Assoc.mem_put hx with hx | rfl
    · exact Or.inl hx
    · exact Or.inr hnew

lemma Recorded.store (h : S.Recorded) {j : Job κ V} (hj : j.Recorded S) (v : V) {digest : String}
    (hd : j.frame.digests.fingerprint = .ok digest) :
    (S.store j (S.result j v digest)).Recorded := by
  have hgrows := S.grows_store j v digest
  have hfrom : (S.result j v digest).From j := ⟨rfl, rfl, rfl, hd⟩
  have hgen : ∀ x ∈ S.log, x.2.generation < (S.result j v digest).generation := fun x hx =>
    Nat.lt_succ_of_le (h.log x hx).2.2
  refine ⟨fun x hx => ?_, fun x hx => ?_, fun x hx => ?_⟩
  · rcases Assoc.mem_put hx with hx | rfl
    · obtain ⟨j', hj', hq⟩ := h.entries x hx
      exact ⟨j', List.mem_cons_of_mem _ hj', hq⟩
    · exact ⟨j, List.mem_cons_self, rfl⟩
  · rcases List.mem_cons.1 hx with rfl | hx
    · exact ⟨hj.mono hgrows, hfrom, Nat.le_refl _⟩
    · obtain ⟨hj', hfrom', hle⟩ := h.log x hx
      exact ⟨hj'.mono hgrows, hfrom', Nat.le_trans hle hgrows.generation⟩
  · rcases List.mem_cons.1 hx with rfl | hx
    · intro e he
      obtain ⟨j', hj'⟩ := hj.nested e he
      exact hgen _ hj'
    · exact h.older x hx

lemma Recorded.storedGeneration_le (h : S.Recorded) (q : Question κ) :
    S.cache.storedGeneration q ≤ S.generation := by
  cases he : S.cache.entry? q with
  | none =>
      rw [Cache.storedGeneration, he]
      exact Nat.zero_le _
  | some e =>
      obtain ⟨j, hj, -⟩ := h.entries _ (Assoc.mem_of_get? he)
      rw [Cache.storedGeneration_of_entry? he]
      exact (h.log _ hj).2.2

end Shared

lemma Turn.grows (h : Turn S t a S' t') : S.Grows S' := by
  cases h with
  | store v hd => exact S.grows_store _ v _
  | begin h => exact .of_log_eq rfl (fun _ hx => hx) (Nat.le_refl _) (Nat.le_succ _)
  | discard v hd => exact .of_log_eq rfl (fun _ hx => hx) (Nat.le_succ _) (Nat.le_refl _)
  | invalidate level =>
      exact .of_log_eq rfl (fun _ hx => List.mem_of_mem_filter hx) (Nat.le_refl _) (Nat.le_refl _)
  | clear =>
      exact .of_log_eq rfl (fun _ hx => absurd hx List.not_mem_nil) (Nat.le_refl _) (Nat.le_refl _)
  | _ => exact .of_log_eq rfl (fun _ hx => hx) (Nat.le_refl _) (Nat.le_refl _)

/-- **One turn** keeps everything on record. -/
lemma Turn.recorded (h : Turn S t a S' t') (hS : S.Recorded) (ht : t.Recorded S) :
    S'.Recorded ∧ t'.Recorded S' := by
  have hgrows := h.grows
  have hjobs := (ht.mono hgrows).jobs
  -- Most turns store nothing, and leave the computations of the thread as they are.
  have hquiet : S'.log = S.log → (∀ x ∈ S'.entries, x ∈ S.entries) → S'.Recorded :=
    hS.of_log_eq hgrows
  cases h with
  | request js q => exact ⟨hS, .of_jobs hjobs fun _ _ _ => nofun⟩
  | lock h => exact ⟨hS, .of_jobs hjobs fun _ _ _ => nofun⟩
  | make h => exact ⟨hquiet rfl fun _ hx => hx, .of_jobs hjobs fun _ _ _ => nofun⟩
  | enter h => exact ⟨hquiet rfl fun _ hx => hx, .of_jobs hjobs fun _ _ _ => nofun⟩
  | refuse h => exact ⟨hS, .of_jobs hjobs fun _ _ _ => nofun⟩
  | share he hgen =>
      obtain ⟨j, hj, -⟩ := hS.entries _ (Assoc.mem_of_get? he)
      refine ⟨hquiet rfl fun _ hx => hx, hjobs, fun q l e' h' => ?_⟩
      cases h'
      exact ⟨j, hj⟩
  | hit he hgen hfresh =>
      obtain ⟨j, hj, -⟩ := hS.entries _ (Assoc.mem_of_get? he)
      refine ⟨hquiet rfl fun _ hx => hx, hjobs, fun q l e' h' => ?_⟩
      cases h'
      exact ⟨j, hj⟩
  | begin h =>
      have hnew : ∀ {q l}, (⟨q, l, S.begun, []⟩ : Job κ V).Recorded S.begin :=
        Job.recorded_start (Nat.lt_succ_self _)
      exact ⟨hquiet rfl fun _ hx => hx,
        .of_jobs (List.forall_mem_cons.2 ⟨hnew, hjobs⟩) fun _ _ _ => nofun⟩
  | falter he hgen hfault => exact ⟨hS, .of_jobs hjobs fun _ _ _ => nofun⟩
  | file hd hp =>
      obtain ⟨hj, hrest⟩ := List.forall_mem_cons.1 hjobs
      have hj' := hj.hear_file hd hp
      exact ⟨hS, .of_jobs (List.forall_mem_cons.2 ⟨hj', hrest⟩) fun _ _ _ => nofun⟩
  | level level =>
      obtain ⟨hj, hrest⟩ := List.forall_mem_cons.1 hjobs
      have hj' : (Job.hear _ (.level level)).Recorded S := hj.hear hj.sound nofun
      exact ⟨hS, .of_jobs (List.forall_mem_cons.2 ⟨hj', hrest⟩) fun _ _ _ => nofun⟩
  | untracked =>
      obtain ⟨hj, hrest⟩ := List.forall_mem_cons.1 hjobs
      have hj' : (Job.hear _ .untracked).Recorded S := hj.hear hj.sound nofun
      exact ⟨hS, .of_jobs (List.forall_mem_cons.2 ⟨hj', hrest⟩) fun _ _ _ => nofun⟩
  | store v hd =>
      obtain ⟨hj, hrest⟩ := List.forall_mem_cons.1 ht.jobs
      refine ⟨hS.store hj v hd, fun j hj => (hrest j hj).mono hgrows, fun q l e he => ?_⟩
      cases he
      exact ⟨_, List.mem_cons_self⟩
  | discard v hd =>
      obtain ⟨-, hrest⟩ := List.forall_mem_cons.1 hjobs
      exact ⟨hquiet rfl fun _ hx => hx, .of_jobs hrest fun _ _ _ => nofun⟩
  | abort =>
      obtain ⟨-, hrest⟩ := List.forall_mem_cons.1 hjobs
      exact ⟨hS, .of_jobs hrest fun _ _ _ => nofun⟩
  | leave =>
      have hS' := hquiet rfl fun _ hx => hx
      refine ⟨hS', .of_jobs (Job.recorded_inherit hS' (fun e he => ?_) hjobs) fun _ _ _ => nofun⟩
      subst he
      exact ht.leaving _ _ _ rfl
  | invalidate level =>
      exact ⟨hquiet rfl fun _ hx => List.mem_of_mem_filter hx, .of_jobs hjobs fun _ _ _ => nofun⟩
  | clear =>
      exact ⟨hquiet rfl fun _ hx => absurd hx List.not_mem_nil,
        .of_jobs hjobs fun _ _ _ => nofun⟩
  | change t w => exact ⟨hquiet rfl fun _ hx => hx, ht.mono hgrows⟩

namespace Pool

/-- **Everything is on record:** what is stored, and what is under way. -/
structure Recorded (P : Pool κ σ V) : Prop where
  shared : P.shared.Recorded
  threads : ∀ i, (P.threads i).Recorded P.shared

omit [DecidableEq κ] in
lemma recorded_start (w : World σ) : (start w : Pool κ σ V).Recorded :=
  ⟨⟨fun _ hx => absurd hx List.not_mem_nil, fun _ hx => absurd hx List.not_mem_nil,
      fun _ hx => absurd hx List.not_mem_nil⟩,
    fun _ => .of_jobs (fun _ hj => absurd hj List.not_mem_nil) fun _ _ _ => nofun⟩

variable {P P' : Pool κ σ V} {i : Nat}

lemma Step.grows (h : P.Step i a P') : P.shared.Grows P'.shared := h.toTurn.grows

lemma Run.grows {as : List (Nat × Action κ σ V)} (h : P.Run as P') :
    P.shared.Grows P'.shared := by
  induction h with
  | none => exact .refl _
  | snoc _ ha ih => exact ih.trans ha.grows

lemma Step.recorded (h : P.Step i a P') (hP : P.Recorded) : P'.Recorded := by
  obtain ⟨hshared, hthread⟩ := h.toTurn.recorded hP.shared (hP.threads i)
  refine ⟨hshared, fun k => ?_⟩
  by_cases hk : k = i
  · exact hk ▸ hthread
  · exact h.other hk ▸ (hP.threads k).mono h.grows

/-- **In every pool that threads come to** everything is on record. -/
theorem Reachable.recorded (h : P.Reachable) : P.Recorded :=
  h.induct recorded_start fun _ _ _ _ hs hP => hs.recorded hP

end Pool

/-- One thread by itself uses a result again that is as it was. -/
lemma Course.hit {w : World σ} {as : List (Action κ σ V)} {q : Question κ} {seen l : Nat}
    {js : List (Job κ V)} {e : Entry V} (h : Course (.start w) .idle as S ⟨.inside q seen l, js⟩)
    (he : S.cache.entry? q = some e) (hgen : e.generation = seen) (hu : e.untracked = false)
    (hholds : e.digests.Holds S.world.disk) :
    (Pool.solo S ⟨.inside q seen l, js⟩).Step 0 .hit
      (Pool.solo (S.withCache (·.record .hit)) ⟨.leaving q l (some e), js⟩) := by
  have hsealed := h.reachable.recorded.shared.sealed (Assoc.mem_of_get? he)
  exact (Turn.hit he hgen (Entry.isFresh_of_holds hsealed hu hholds)).solo

end ScarbCrates
