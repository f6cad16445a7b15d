import ScarbCrates.Proofs.Database.Rerunning
import ScarbCrates.Proofs.Session.Observing
import ScarbCrates.Proofs.Threads.Accounting

/-!
# What a database holds

Every answer that a database holds shows what it is an answer to.  One about a Scarb project is not
durable, and depends on the manifest and the lock file before all else; whether it may be used again
shows in whether there was a document.  One about any other project is empty and lasts.  This is so
after any history: requests with toolchains that succeed or fail, other queries, changes of files and
of programs, and answers that are dropped.

* `Database.Comes` — what comes about in a database.
* `Database.Fits` — what an answer is like that is stored for a question.
* `Database.Comes.fitting` — all stored answers fit.
* `Database.holds_fitting` — the same with what follows for the next request.
-/

namespace ScarbCrates

namespace Digests

/-- Files that are reported one after the other come after those that are there, each once. -/
lemma files_declareAll {d : Disk} {ds ds' : Digests} {ps : List Path}
    (h : declareAll d ds ps = .ok ds') :
    ds'.files = ds.files ++ (ps.filter fun p => p ∉ ds.files).eraseDups := by
  rw [← foldl_mention]
  induction ps generalizing ds with
  | nil =>
      cases h
      rfl
  | cons p rest ih =>
      obtain ⟨ds₁, hp, hrest⟩ := declareAll_cons h
      rw [ih hrest, files_declare hp]
      rfl

lemma files_declareAll_nil {d : Disk} {ds : Digests} {ps : List Path}
    (h : declareAll d [] ps = .ok ds) : ds.files = ps.eraseDups := by
  rw [files_declareAll h, ← foldl_mention]
  exact foldl_mention_nil ps

end Digests

/-! ## Requests in sessions -/

namespace Session

variable {κ σ V ε : Type} [DecidableEq κ] [QueryKey κ] {s s₀ : Session κ σ V} {q : Question κ}

/-- A request that begins a computation is a miss. -/
lemma missesAt_of_begins (hs : s.Sound) (hbegins : s.begins q = some s₀) : s.MissesAt q s₀ := by
  obtain ⟨hheld, -⟩ := begins_some hbegins
  rcases hits_or_misses hheld fun e he =>
      Entry.exists_isFresh (hs.entries _ (Assoc.mem_of_get? he)) s.world.disk with
    ⟨⟨e, s', -, hall, -⟩, -⟩ | ⟨-, ⟨s₁, h⟩, -⟩
  · rw [begins, hall] at hbegins
    cases hbegins
  · obtain rfl := Option.some.inj (h.begins.symm.trans hbegins)
    exact h

/-- **A request with a computation that asks nothing** leaves the stored results alone, or adds the
result of the computation, with what the computation has reported in its own frame. -/
lemma entries_serve_solo {c : Computation κ σ V ε V} (hc : c.Solitary) (hs : s.Sound)
    (q : Question κ) :
    (s.serve (s.cache.storedGeneration q) q (run c)).2.cache.entries = s.cache.entries ∨
      ∃ e, (s.serve (s.cache.storedGeneration q) q (run c)).2.cache.entries =
          Assoc.put s.cache.entries q e ∧
        (c.solo (Frame.start q) s.world).1 = .ok e.value ∧
        e.digests = (c.solo (Frame.start q) s.world).2.1.digests ∧
        e.durability = (c.solo (Frame.start q) s.world).2.1.durability ∧
        e.untracked = (c.solo (Frame.start q) s.world).2.1.untracked := by
  have hrun : ∀ s₀, s.begins q = some s₀ → (run c s₀).1 = (c.solo (Frame.start q) s.world).1 ∧
      (run c s₀).2.cache = s₀.cache ∧ ending q (run c s₀).2 = (c.solo (Frame.start q) s.world).2.1 := by
    intro s₀ hbegins
    have hmiss := missesAt_of_begins hs hbegins
    obtain ⟨ns, h⟩ := run_solo hc hmiss.frames
    rw [h, hmiss.world]
    exact ⟨rfl, rfl, rfl⟩
  have houtcome := outcome s q (run c)
  generalize s.serve (s.cache.storedGeneration q) q (run c) = out at houtcome ⊢
  cases houtcome with
  | refused _ hentries => exact Or.inl hentries
  | found _ _ hentries => exact Or.inl hentries
  | @failed _ s₀ _ hbegins _ hentries =>
      rw [(hrun s₀ hbegins).2.1] at hentries
      exact Or.inl (hentries.trans (missesAt_of_begins hs hbegins).entries)
  | @stored v digest s₀ _ hbegins hv _ hentries =>
      obtain ⟨hvalue, hcache, hframe⟩ := hrun s₀ hbegins
      rw [hcache, (missesAt_of_begins hs hbegins).entries] at hentries
      exact Or.inr ⟨resultOf q v digest (run c s₀).2, hentries, hvalue.symm.trans hv,
        congrArg Frame.digests hframe, congrArg Frame.durability hframe,
        congrArg Frame.untracked hframe⟩

end Session

namespace Database

open ScarbCrates.Computation

variable {t : Toolchain} {m : Manifest} {s s₀ s' : State} {past : List Disk}

/-! ## Histories -/

/-- **What comes about in a database:** requests and other queries are answered, the world changes,
and answers are dropped.  `past` has the disks that the requests left and that changes led to, the
latest first. -/
inductive Comes : List Disk → State → Prop
  | start (w : World Machine) : Comes [w.disk] (start w)
  | request {past : List Disk} {s : State} (h : Comes past s) (t : Toolchain) (r : Request) :
      Comes ((Session.run (r.ask t) s).2.world.disk :: past) (Session.run (r.ask t) s).2
  | report {past : List Disk} {s : State} (h : Comes past s) (query key : String) (r : Reports) :
      Comes past (Session.run (reporting query key r) s).2
  | change {past : List Disk} {s : State} (h : Comes past s) (w : World Machine) :
      Comes (w.disk :: past) { s with world := w }
  | invalidate {past : List Disk} {s : State} (h : Comes past s) (level : Durability) :
      Comes past (s.withCache fun c => (c.invalidate level).1)
  | clear {past : List Disk} {s : State} (h : Comes past s) : Comes past (s.withCache Cache.clear)

lemma Comes.reachable (h : Comes past s) : s.Reachable ProjectFault := by
  induction h with
  | start w => exact .start w
  | request _ t r ih => exact ih.run (r.ask t)
  | report _ query key r ih => exact ih.run (reporting query key r)
  | change _ w ih => exact ih.change w
  | invalidate _ level ih => exact ih.run (Computation.invalidate level fun n => .done n)
  | clear _ ih => exact ih.run (Computation.clear (.done ()))

/-! ## What answers are like -/

/-- The manifests of the members, if there is a document. -/
def manifestsOf (fetched : Option Metadata) : List Path := (fetched.map memberManifests).getD []

/-- **An answer about a Scarb project,** with or without a document.  It depends on the manifest, on
the lock file and on the manifests of the members, each once and in this order. -/
structure FitsScarb (p : Path) (fetched : Option Metadata) (e : Entry Answer) : Prop where
  durability : e.durability = .low
  untracked : e.untracked = fetched.isNone
  files : ∃ lock, Manifest.lockPath? p = some lock ∧
    e.digests.files =
      [p, lock].eraseDups ++ ((manifestsOf fetched).filter fun f => f ∉ [p, lock]).eraseDups

/-- **An answer about any other project** depends on nothing. -/
structure FitsOther (e : Entry Answer) : Prop where
  durability : e.durability = .high
  untracked : e.untracked = false
  digests : e.digests = []

/-- **What an answer is like that is stored for a question.**  Crates are those of a document on one
of the disks so far; without a document there are none. -/
inductive Fits (past : List Disk) : Question Subject → Entry Answer → Prop
  | metadata {p : Path} {fetched : Option Metadata} {e : Entry Answer} (h : FitsScarb p fetched e)
      (hvalue : e.value = .metadata fetched) : Fits past ⟨metadataQuery, .project (.scarb p)⟩ e
  | crates {p : Path} {fetched : Option Metadata} {d : Disk} {e : Entry Answer}
      (h : FitsScarb p fetched e) (hd : d ∈ past) (hview : Viewable fetched)
      (hvalue : e.value = .crates (cratesIn d fetched)) :
      Fits past ⟨cratesQuery, .project (.scarb p)⟩ e
  | noMetadata {p : Path} {e : Entry Answer} (h : FitsOther e) (hvalue : e.value = .metadata none) :
      Fits past ⟨metadataQuery, .project (.cairoProject p)⟩ e
  | noCrates {p : Path} {e : Entry Answer} (h : FitsOther e) (hvalue : e.value = .crates []) :
      Fits past ⟨cratesQuery, .project (.cairoProject p)⟩ e
  | reported {query key : String} {e : Entry Answer} : Fits past ⟨query, .named key⟩ e

lemma Fits.mono {past' : List Disk} {q : Question Subject} {e : Entry Answer} (h : Fits past q e)
    (hsub : past ⊆ past') : Fits past' q e := by
  cases h with
  | metadata h hvalue => exact .metadata h hvalue
  | crates h hd hview hvalue => exact .crates h (hsub hd) hview hvalue
  | noMetadata h hvalue => exact .noMetadata h hvalue
  | noCrates h hvalue => exact .noCrates h hvalue
  | reported => exact .reported

/-! ## Answers to the metadata query -/

/-- **New metadata fits.** -/
lemma fits_metadata {e : Entry Answer} {w : World Machine}
    (hvalue : (metadataCourse t m w).1 = .ok e.value)
    (hdigests : e.digests = (metadataCourse t m w).2.1.digests)
    (hdurability : e.durability = (metadataCourse t m w).2.1.durability)
    (huntracked : e.untracked = (metadataCourse t m w).2.1.untracked) :
    Fits past ⟨metadataQuery, .project m⟩ e := by
  rw [metadataCourse, solo_computeMetadata] at hvalue hdigests hdurability huntracked
  cases m with
  | cairoProject p => exact .noMetadata ⟨hdurability, huntracked, hdigests⟩ (Except.ok.inj hvalue).symm
  | scarb p =>
      rcases fetch_cases t w p ⟨metadataQuery, .project (.scarb p)⟩ with
        ⟨fault, f', w', hf, -⟩ | ⟨lock, fault, ds, hun, hf⟩ | ⟨lock, doc, before, after, hfetched, hf⟩
      all_goals rw [hf] at hvalue hdigests hdurability huntracked
      · cases hvalue
      · refine @Fits.metadata _ _ none _ ⟨hdurability, huntracked, lock, hun.beside, ?_⟩
          (Except.ok.inj hvalue).symm
        have hfiles : e.digests.files = [p, lock].eraseDups :=
          (congrArg Digests.files hdigests).trans (Digests.files_declareAll_nil hun.first)
        exact hfiles.trans (List.append_nil _).symm
      · refine @Fits.metadata _ _ (some doc) _
          ⟨hdurability, huntracked, lock, hfetched.beside, ?_⟩
          (Except.ok.inj hvalue).symm
        have hfiles : e.digests.files = after.files := congrArg Digests.files hdigests
        rw [hfiles, Digests.files_declareAll hfetched.members,
          Digests.files_declareAll_nil hfetched.first]
        simp only [List.mem_eraseDups]
        rfl

/-- The answers that a database holds, all of which fit. -/
def Fitting (past : List Disk) (s : State) : Prop := ∀ x ∈ s.cache.entries, Fits past x.1 x.2

lemma Fitting.mono {past' : List Disk} (h : Fitting past s) (hsub : past ⊆ past') :
    Fitting past' s := fun x hx => (h x hx).mono hsub

lemma Fitting.of_put {q : Question Subject} {e : Entry Answer} (h : Fitting past s)
    (hentries : s'.cache.entries = Assoc.put s.cache.entries q e) (he : Fits past q e) :
    Fitting past s' := by
  intro x hx
  rw [hentries] at hx
  rcases Assoc.mem_put hx with hx | rfl
  · exact h x hx
  · exact he

lemma run_ask_snd {α : Type} (q : Question Subject) (c : Query Answer) (g : Answer → α)
    (s : State) :
    (Session.run (do let answer ← ask q c; return g answer : Query α) s).2 =
      (s.serve (s.cache.storedGeneration q) q (Session.run c)).2 := by
  rw [Session.run_bind, Session.run_ask]
  generalize s.serve (s.cache.storedGeneration q) q (Session.run c) = out
  rcases out with ⟨_ | _, _⟩ <;> rfl

lemma Fitting.metadata (h : Fitting past s) (hs : s.Sound) (t : Toolchain) (m : Manifest) :
    Fitting past (Session.run (Database.metadata t m) s).2 := by
  rw [Database.metadata, run_ask_snd]
  rcases Session.entries_serve_solo (solitary_computeMetadata t m) hs
      ⟨metadataQuery, .project m⟩ with
    hentries | ⟨e, hentries, hvalue, hdigests, hdurability, huntracked⟩
  · exact fun x hx => h x (hentries ▸ hx)
  · exact h.of_put hentries (fits_metadata hvalue hdigests hdurability huntracked)

/-! ## Answers to other queries -/

lemma solitary_computeReports (r : Reports) : (computeReports r).Solitary := by
  refine Solitary.bind ?_ fun _ => trivial
  refine Solitary.bind (solitary_reportFiles r.files) fun _ => ?_
  cases r.durability <;> cases r.untracked <;> exact trivial

lemma Fitting.reporting (h : Fitting past s) (hs : s.Sound) (query key : String) (r : Reports) :
    Fitting past (Session.run (Database.reporting query key r) s).2 := by
  rw [Database.reporting, run_ask_snd]
  rcases Session.entries_serve_solo (solitary_computeReports r) hs ⟨query, .named key⟩ with
    hentries | ⟨e, hentries, -⟩
  · exact fun x hx => h x (hentries ▸ hx)
  · exact h.of_put hentries .reported

/-! ## Answers to the crates query -/

/-- **The computation of the crates** asks for metadata and then looks at the disk. -/
lemma run_computeCrates_eq (t : Toolchain) (m : Manifest) (s : State) :
    (∃ ns, (Session.run (computeCrates t m) s).2 =
        (Session.run (metadata t m) s).2.withNotices ns) ∧
      ∀ a, (Session.run (computeCrates t m) s).1 = .ok a → ∃ fetched,
        (Session.run (metadata t m) s).1 = .ok fetched ∧ Viewable fetched ∧
          a = .crates (cratesIn (Session.run (metadata t m) s).2.world.disk fetched) := by
  rw [computeCrates, Session.run_bind]
  generalize Session.run (metadata t m) s = out
  obtain ⟨r, s₁⟩ := out
  cases r with
  | error f =>
      exact ⟨⟨[], by rw [Session.withNotices, List.append_nil]⟩, fun a ha => by cases ha⟩
  | ok fetched =>
      cases fetched with
      | none =>
          refine ⟨⟨[], by rw [Session.withNotices, List.append_nil]; rfl⟩, fun a ha => ?_⟩
          exact ⟨none, rfl, viewable_of_cratesOf (d := s₁.world.disk) rfl, (Except.ok.inj ha).symm⟩
      | some doc =>
          obtain ⟨ns, hderive⟩ := run_derive doc s₁
          simp only [Session.run_bind, hderive]
          cases hc : cratesOf s₁.world.disk (some doc) with
          | error fault => exact ⟨⟨ns, rfl⟩, fun a ha => by cases ha⟩
          | ok cs =>
              have hview := viewable_of_cratesOf hc
              have hcs := Except.ok.inj (hc.symm.trans (cratesOf_of_viewable _ hview))
              refine ⟨⟨ns, rfl⟩, fun a ha => ⟨some doc, rfl, hview, ?_⟩⟩
              rw [← hcs]
              exact (Except.ok.inj ha).symm

/-- **What the crates inherit.**  New crates depend on what the metadata depends on. -/
lemma fits_crates {e e' : Entry Answer} {fetched : Option Metadata} {d : Disk}
    (h : Fits past ⟨metadataQuery, .project m⟩ e) (hfetched : e.value.metadata? = fetched)
    (hd : d ∈ past) (hview : Viewable fetched) (hvalue : e'.value = .crates (cratesIn d fetched))
    (hdigests : e'.digests = e.digests) (hdurability : e'.durability = e.durability)
    (huntracked : e'.untracked = e.untracked) :
    Fits past ⟨cratesQuery, .project m⟩ e' := by
  generalize hq : (⟨metadataQuery, .project m⟩ : Question Subject) = q at h
  have hne : metadataQuery ≠ cratesQuery := by decide
  cases h with
  | @metadata p _ _ h hv =>
      obtain rfl : m = .scarb p := Subject.project.inj (congrArg Question.key hq)
      rw [hv] at hfetched
      cases hfetched
      obtain ⟨hlow, hnone, hfiles⟩ := h
      exact .crates ⟨hdurability.trans hlow, huntracked.trans hnone, hdigests ▸ hfiles⟩ hd hview
        hvalue
  | @noMetadata p _ h hv =>
      obtain rfl : m = .cairoProject p := Subject.project.inj (congrArg Question.key hq)
      rw [hv] at hfetched
      cases hfetched
      exact .noCrates ⟨hdurability.trans h.durability, huntracked.trans h.untracked,
        hdigests.trans h.digests⟩ hvalue
  | crates => exact absurd (congrArg Question.query hq) hne
  | noCrates => exact absurd (congrArg Question.query hq) hne
  | reported => cases congrArg Question.key hq

/-- **What the computation of the crates leaves,** if it begins. -/
lemma fitting_computeCrates {past : List Disk} (h : Fitting past s) (hs : s.Idle) (t : Toolchain)
    (hbegins : s.begins ⟨cratesQuery, .project m⟩ = some s₀) :
    Fitting past (Session.run (computeCrates t m) s₀).2 ∧
      ∀ a digest, (Session.run (computeCrates t m) s₀).1 = .ok a →
        Fits ((Session.run (computeCrates t m) s₀).2.world.disk :: past)
          ⟨cratesQuery, .project m⟩ (Session.resultOf ⟨cratesQuery, .project m⟩ a digest
            (Session.run (computeCrates t m) s₀).2) := by
  set q : Question Subject := ⟨cratesQuery, .project m⟩
  have hmiss := Session.missesAt_of_begins hs.sound hbegins
  have hs₀ : s₀.Sound := by
    refine ⟨fun f hf => ?_, hmiss.entries ▸ hs.entries⟩
    rw [hmiss.frames, hs.frames, List.mem_singleton] at hf
    exact hf ▸ Digests.sound_nil
  have hfree : (⟨metadataQuery, .project m⟩ : Question Subject) ∉ s₀.cache.held := by
    rw [(Session.begins_some hbegins).2.2.2, hs.held, List.mem_singleton]
    exact (crates_ne_metadata m).symm
  obtain ⟨out, s₁, hmetadata, hsound, -, hframes, hasked⟩ := run_metadata t m hs₀ hfree
  have hfitting : Fitting past (Session.run (metadata t m) s₀).2 :=
    Fitting.metadata (fun x hx => h x (hmiss.entries ▸ hx)) hs₀ t m
  obtain ⟨⟨ns, hafter⟩, hvalue⟩ := run_computeCrates_eq t m s₀
  rw [hmetadata] at hafter hvalue hfitting
  rw [hafter]
  refine ⟨hfitting, fun a digest ha => ?_⟩
  obtain ⟨fetched, hfetched, hview, rfl⟩ := hvalue a ha
  cases out with
  | error f => cases hfetched
  | ok e =>
      have hmem := Assoc.mem_of_get? hasked.entry?
      have hframe : Session.ending q (s₁.withNotices ns) = (Frame.start q).absorb e := by
        show s₁.frames.head?.getD _ = _
        rw [hframes, Session.framesAfter, Session.withFrame, hmiss.frames]
        rfl
      refine fits_crates ((hfitting _ hmem).mono (List.subset_cons_self _ _))
        (Except.ok.inj hfetched) List.mem_cons_self hview rfl ?_ ?_ ?_
      · exact (congrArg Frame.digests hframe).trans (digests_absorb q (hasked.sealed hsound))
      · refine (congrArg Frame.durability hframe).trans ?_
        show Durability.high.min e.durability = e.durability
        cases e.durability <;> rfl
      · exact (congrArg Frame.untracked hframe).trans (Bool.false_or e.untracked)

lemma Fitting.crates (h : Fitting past s) (hs : s.Idle) (t : Toolchain) (m : Manifest) :
    Fitting ((Session.run (Database.crates t m) s).2.world.disk :: past)
      (Session.run (Database.crates t m) s).2 := by
  set q : Question Subject := ⟨cratesQuery, .project m⟩
  rw [Database.crates, run_ask_snd]
  have hworld : ∀ s₀, s.begins q = some s₀ →
      (s.serve (s.cache.storedGeneration q) q (Session.run (computeCrates t m))).2.world =
        (Session.run (computeCrates t m) s₀).2.world := fun s₀ hbegins => by
    rw [(Session.missesAt_of_begins hs.sound hbegins).once, (Session.unlocked_closed _ _ _).2]
  have houtcome := Session.outcome s q (Session.run (computeCrates t m))
  generalize s.serve (s.cache.storedGeneration q) q (Session.run (computeCrates t m)) = out
    at houtcome hworld ⊢
  have hsub : past ⊆ out.2.world.disk :: past := List.subset_cons_self _ _
  cases houtcome with
  | refused _ hentries => exact fun x hx => (h x (hentries ▸ hx)).mono hsub
  | found _ _ hentries => exact fun x hx => (h x (hentries ▸ hx)).mono hsub
  | failed hbegins _ hentries =>
      obtain ⟨hfitting, -⟩ := fitting_computeCrates h hs t hbegins
      exact fun x hx => (hfitting x (hentries ▸ hx)).mono hsub
  | @stored a digest s₀ s' hbegins hv _ hentries =>
      obtain ⟨hfitting, hfits⟩ := fitting_computeCrates h hs t hbegins
      have hdisk : s'.world = _ := hworld s₀ hbegins
      refine (hfitting.mono hsub).of_put hentries ?_
      rw [hdisk]
      exact hfits a digest hv

/-! ## All histories -/

/-- **All stored answers fit,** whatever has happened. -/
theorem Comes.fitting (h : Comes past s) : Fitting past s := by
  induction h with
  | start w => exact fun x hx => absurd hx List.not_mem_nil
  | request h t r ih =>
      cases r with
      | metadata m =>
          rw [run_ask_metadata]
          exact (ih.metadata h.reachable.idle.sound t m).mono (List.subset_cons_self _ _)
      | crates m =>
          rw [run_ask_crates]
          exact ih.crates h.reachable.idle t m
  | report h query key r ih => exact ih.reporting h.reachable.idle.sound query key r
  | change _ w ih => exact ih.mono (List.subset_cons_self _ _)
  | invalidate _ level ih => exact fun x hx => ih x (List.mem_filter.1 hx).1
  | clear _ ih => exact fun x hx => absurd hx List.not_mem_nil

/-- An answer about a Scarb project is an answer to one of the two queries. -/
lemma Fits.of_scarb {p : Path} {q : Question Subject} {e : Entry Answer} (h : Fits past q e)
    (hkey : q.key = .project (.scarb p)) : ∃ fetched, FitsScarb p fetched e ∧
      (q.query = metadataQuery → e.value = .metadata fetched) ∧
      (q.query = cratesQuery → Viewable fetched ∧
        ∃ d ∈ past, e.value = .crates (cratesIn d fetched)) := by
  have hne : metadataQuery ≠ cratesQuery := by decide
  cases h with
  | metadata h hvalue =>
      cases hkey
      exact ⟨_, h, fun _ => hvalue, fun hquery => absurd hquery hne⟩
  | crates h hd hview hvalue =>
      cases hkey
      exact ⟨_, h, fun hquery => absurd hquery.symm hne, fun _ => ⟨hview, _, hd, hvalue⟩⟩
  | noMetadata => cases hkey
  | noCrates => cases hkey
  | reported => cases hkey

/-! ## The next request -/

/-- The result of a failed run is not used again, whoever asks. -/
lemma misses_of_untracked {q : Question Subject} {e : Entry Answer}
    (he : s.cache.entry? q = some e) (hu : e.untracked = true) (hheld : q ∉ s.cache.held) :
    ¬s.Hits q ∧ ∃ s₀, s.MissesAt q s₀ := by
  have hstale : (e.isFresh s.world.disk).run.value = .ok false := Entry.isFresh_of_untracked hu
  have hclear : ∀ e', s.cache.entry? q = some e' →
      ∃ b, (e'.isFresh s.world.disk).run.value = .ok b := fun e' he' => by
    obtain rfl := Option.some.inj (he.symm.trans he')
    exact ⟨false, hstale⟩
  rcases Session.hits_or_misses hheld hclear with ⟨-, e', he', hfresh⟩ | ⟨hmiss, h, -⟩
  · obtain rfl := Option.some.inj (he.symm.trans he')
    cases hstale.symm.trans hfresh
  · exact ⟨hmiss, h⟩

/-- The processes that a run of Scarb starts. -/
lemma started_metadata (t : Toolchain) (p : Path) (w : World Machine) :
    ∃ cs, (t.metadata p w).value.2.outside.started = w.outside.started ++ cs ∧ cs.length ≤ 1 := by
  rw [Toolchain.metadata]
  cases t.executable with
  | error fault => exact ⟨[], (List.append_nil _).symm, Nat.zero_le 1⟩
  | ok executable =>
      simp only [Noted.value_bind]
      cases Toolchain.startDirectory w.disk p with
      | error fault => exact ⟨[], (List.append_nil _).symm, Nat.zero_le 1⟩
      | ok directory => exact ⟨[_], rfl, Nat.le_refl 1⟩

/-- **How the metadata query leaves the world:** as it was, or as a run of Scarb leaves it. -/
lemma world_metadataCourse_cases (t : Toolchain) (m : Manifest) (w : World Machine) :
    (metadataCourse t m w).2.2 = w ∨
      ∃ p, m = .scarb p ∧ (metadataCourse t m w).2.2 = (t.metadata p w).value.2 := by
  rw [metadataCourse, solo_computeMetadata]
  cases m with
  | cairoProject p => exact Or.inl rfl
  | scarb p =>
      by_cases hfirst : ∃ lock ds, Manifest.lockPath? p = some lock ∧
          Digests.declareAll w.disk [] [p, lock] = .ok ds
      · obtain ⟨lock, ds, hlock, hds⟩ := hfirst
        refine Or.inr ⟨p, rfl, ?_⟩
        rw [solo_fetch hlock hds]
        exact world_settleFetch _ _ _ _
      · obtain ⟨e, f', hrefused⟩ := solo_fetch_refused (t := t) (w := w) (p := p)
          (f := Frame.start ⟨metadataQuery, .project (.scarb p)⟩) fun lock hlock => by
            cases hds : Digests.declareAll w.disk [] [p, lock] with
            | error fault => exact ⟨fault, hds⟩
            | ok ds => exact absurd ⟨lock, ds, hlock, hds⟩ hfirst
        rw [hrefused]
        exact Or.inl rfl

/-- **A request starts at most one process,** and none if the project is not Scarb's. -/
lemma started_request (hs : s.Idle) (t : Toolchain) (r : Request) :
    ∃ cs, (Session.run (r.ask t) s).2.world.outside.started = s.world.outside.started ++ cs ∧
      cs.length ≤ 1 ∧ ((∀ p, r.project ≠ .scarb p) → cs = []) := by
  have hsame : ∀ w : World Machine, w = s.world →
      ∃ cs, w.outside.started = s.world.outside.started ++ cs ∧ cs.length ≤ 1 ∧
        ((∀ p, r.project ≠ .scarb p) → cs = []) := fun w hw =>
    ⟨[], by rw [hw, List.append_nil], Nat.zero_le 1, fun _ => rfl⟩
  obtain ⟨hwarm, hcold⟩ := world_request hs t r
  by_cases hanswerable : Answerable r s
  · exact hsame _ (hwarm hanswerable)
  · rcases world_metadataCourse_cases t r.project s.world with hworld | ⟨p, hp, hworld⟩
    · exact hsame _ ((hcold hanswerable).trans hworld)
    · obtain ⟨cs, hcs, hlength⟩ := started_metadata t p s.world
      rw [hcold hanswerable, hworld]
      exact ⟨cs, hcs, hlength, fun hother => absurd hp (hother p)⟩

/-- **What a database holds,** after any history.  All answers fit; those about a Scarb project are
not durable and depend on the manifest and the lock file first, and crates without a document are
none.  So the result of a failed run is not used again, wherever it is asked for; a request starts
Scarb once at most, and for its own projects only; and no answer about one of them outlives a loss
of answers, whatever its level is. -/
theorem holds_fitting (h : Comes past s) :
    Fitting past s ∧
    (∀ x ∈ s.cache.entries, ∀ p, x.1.key = .project (.scarb p) →
      x.2.durability = .low ∧
      (∃ lock, Manifest.lockPath? p = some lock ∧ [p, lock].eraseDups <+: x.2.digests.files) ∧
      (x.1.query = cratesQuery → x.2.untracked = true → x.2.value = .crates [])) ∧
    (∀ q e, s.cache.entry? q = some e → e.untracked = true → ∀ s₁ : State,
      s₁.cache.entries = s.cache.entries → q ∉ s₁.cache.held →
        ¬s₁.Hits q ∧ ∃ s₀, s₁.MissesAt q s₀) ∧
    (∀ (t : Toolchain) (r : Request), ∃ cs,
      (Session.run (r.ask t) s).2.world.outside.started = s.world.outside.started ++ cs ∧
        cs.length ≤ 1 ∧ ((∀ p, r.project ≠ .scarb p) → cs = [])) ∧
    ∀ level, ∀ x ∈ (s.cache.invalidate level).1.entries, ∀ p, x.1.key ≠ .project (.scarb p) := by
  have hfitting := h.fitting
  refine ⟨hfitting, ?_, ?_, started_request h.reachable.idle, ?_⟩
  · intro x hx p hkey
    obtain ⟨fetched, ⟨hlow, hnone, lock, hlock, hfiles⟩, -, hcrates⟩ :=
      (hfitting x hx).of_scarb hkey
    refine ⟨hlow, ⟨lock, hlock, _, hfiles.symm⟩, fun hquery hu => ?_⟩
    obtain ⟨-, d, -, hvalue⟩ := hcrates hquery
    rw [hvalue, Option.isNone_iff_eq_none.1 (hnone.symm.trans hu)]
    rfl
  · intro q e he hu s₁ hentries hheld
    refine misses_of_untracked (e := e) ?_ hu hheld
    rwa [Cache.entry?, hentries]
  · intro level x hx p hkey
    obtain ⟨hx, hkept⟩ := List.mem_filter.1 hx
    obtain ⟨-, ⟨hlow, -⟩, -⟩ := (hfitting x hx).of_scarb hkey
    rw [hlow] at hkept
    cases level <;> cases hkept

/-- Without an executable there is no document, and the next request tries again. -/
theorem holds_fitting_sample :
    let q : Question Subject := ⟨metadataQuery, .project sampleProject⟩
    let s := (Session.run ((Request.metadata sampleProject).ask ⟨none, [], none⟩)
      (start sampleWorld)).2
    Comes [s.world.disk, sampleWorld.disk] s ∧
      ∃ e, s.cache.entry? q = some e ∧ e.value = .metadata none ∧ e.untracked = true ∧
        [topFile sampleName, topFile Manifest.scarbLock] <+: e.digests.files ∧ ¬s.Hits q := by
  intro q s
  have hstart := Comes.start sampleWorld
  have hcomes := hstart.request ⟨none, [], none⟩ (.metadata sampleProject)
  have hidle := hstart.reachable.idle
  have hcold : ¬(start sampleWorld).Warm q := Session.not_warm_start sampleWorld q
  obtain ⟨out, s', hrun, -, -, -, hasked⟩ :=
    run_metadata ⟨none, [], none⟩ sampleProject hidle.sound (hidle.free _)
  have hs' : s = s' := (run_ask_metadata _ _ _).trans (congrArg Prod.snd hrun)
  have hfetchable : Fetchable ⟨none, [], none⟩ sampleWorld sampleProject := by
    have hwhole : ¬Breaks ⟨none, [], none⟩ sampleWorld (topFile sampleName) := by
      rintro ⟨_, hbroken⟩
      cases hbroken
    refine ⟨hwhole, topFile Manifest.scarbLock, rfl, ?_⟩
    show ∀ f ∈ [topFile sampleName, topFile Manifest.scarbLock], f.Recordable
    simp only [List.forall_mem_cons]
    exact ⟨⟨by decide, _, rfl⟩, ⟨by decide, _, rfl⟩, by simp⟩
  obtain ⟨e, rfl⟩ := hasked.answered_iff.2 (Or.inr hfetchable)
  have he : s.cache.entry? q = some e := hs' ▸ hasked.entry?
  have hmem := Assoc.mem_of_get? he
  obtain ⟨hfitting, hscarb, hagain, -, -⟩ := holds_fitting hcomes
  obtain ⟨-, ⟨lock, hlock, hfiles⟩, -⟩ := hscarb _ hmem _ rfl
  have hvalue : e.value = .metadata none := by
    cases hasked with
    | hit he' hfresh => exact absurd ⟨e, he', hfresh⟩ hcold
    | stored _ he' => exact value_of_storedBy he'
  obtain ⟨fetched, hfits, hmetadata, -⟩ := (hfitting _ hmem).of_scarb rfl
  obtain rfl : fetched = none := Answer.metadata.inj ((hmetadata rfl).symm.trans hvalue)
  have hu : e.untracked = true := hfits.untracked
  refine ⟨hcomes, e, he, hvalue, hu, ?_, ?_⟩
  · cases hlock
    exact hfiles
  · have hheld : q ∉ s.cache.held := hcomes.reachable.idle.free q
    exact (hagain q e he hu s rfl hheld).1

end Database

end ScarbCrates
