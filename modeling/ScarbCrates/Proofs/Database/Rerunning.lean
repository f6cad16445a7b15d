import ScarbCrates.Proofs.Database.Returning

/-!
# When Scarb runs again

A request comes to a run of Scarb if none of the stored answers that it consults may be used again.
Files may change in the course of a run.  The digests of the manifest and the lock file are taken
before it, so that a change of these makes the next request come to another run.  The manifests of
the members are known only from the document, and their digests are taken after the run: how they
were before it does not matter to the next request.

* `Database.Answerable` — a stored answer makes do.
* `Database.Refetched` — what a request leaves behind that has come to a run.
* `Database.reruns_iff` — the request after that.
-/

namespace ScarbCrates

namespace Database

open ScarbCrates.Computation

variable {t : Toolchain} {w : World Machine} {p lock : Path} {m : Manifest} {s s' : State}

/-! ## The world after a request -/

/-- One of the stored answers that a request consults may be used again. -/
def Answerable (r : Request) (s : State) : Prop := ∃ q ∈ r.consulted, s.Warm q

lemma answerable_metadata_iff :
    Answerable (.metadata m) s ↔ s.Warm ⟨metadataQuery, .project m⟩ := by
  simp [Answerable, Request.consulted]

lemma answerable_crates_iff :
    Answerable (.crates m) s ↔
      s.Warm ⟨cratesQuery, .project m⟩ ∨ s.Warm ⟨metadataQuery, .project m⟩ := by
  simp [Answerable, Request.consulted]

lemma world_settleFetch (p : Path) (outcome : Except ToolchainFault Metadata) (f : Frame Subject)
    (w : World Machine) : ((settleFetch p outcome).solo f w).2.2 = w := by
  cases outcome with
  | error fault =>
      rw [settleFetch]
      cases fault.process? <;> rfl
  | ok doc =>
      rw [settleFetch]
      cases hds : Digests.declareAll w.disk f.digests (doc.memberPackages.map (·.manifestPath)) with
      | error fault =>
          obtain ⟨f', hfiles⟩ := solo_reportFiles_error hds
          rw [solo_bind_error (solitary_reportFiles _) hfiles]
      | ok ds =>
          rw [solo_bind_ok (solitary_reportFiles _) (solo_reportFiles_ok hds)]
          rfl

/-- **The metadata query runs Scarb once** if the manifest and the lock file can be looked at. -/
lemma world_metadataCourse (hlock : Manifest.lockPath? p = some lock)
    (hn : ∀ f ∈ [p, lock], Disk.holdsNul f = false) :
    (metadataCourse t (.scarb p) w).2.2 = (t.metadata p w).value.2 := by
  have hall : ∃ ds, Digests.declareAll w.disk [] [p, lock] = .ok ds :=
    Digests.exists_declareAll_iff.2 fun f hf => Or.inr (hn f hf)
  obtain ⟨ds, hds⟩ := hall
  rw [metadataCourse, solo_computeMetadata, solo_fetch hlock hds]
  exact world_settleFetch _ _ _ _

lemma AskedCrates.world_of_warm {r : Except (Failure ProjectFault) Answer}
    (h : AskedCrates t m s r s') (hwarm : Answerable (.crates m) s) : s'.world = s.world := by
  rw [answerable_crates_iff] at hwarm
  cases h with
  | hit _ _ hworld _ => exact hworld
  | refused hcold hasked hworld _ =>
      exact hworld.trans (hasked.world_of_warm (hwarm.resolve_left hcold))
  | underivable hcold hasked _ hworld _ =>
      exact hworld.trans (hasked.world_of_warm (hwarm.resolve_left hcold))
  | derived hcold hasked _ _ _ _ hworld _ =>
      exact hworld.trans (hasked.world_of_warm (hwarm.resolve_left hcold))

lemma AskedCrates.world_of_cold {r : Except (Failure ProjectFault) Answer}
    (h : AskedCrates t m s r s') (hcold : ¬Answerable (.crates m) s) :
    s'.world = (metadataCourse t m s.world).2.2 := by
  rw [answerable_crates_iff, not_or] at hcold
  cases h with
  | hit he hfresh => exact absurd ⟨_, he, hfresh⟩ hcold.1
  | refused _ hasked hworld _ => exact hworld.trans (hasked.world_of_cold hcold.2)
  | underivable _ hasked _ hworld _ => exact hworld.trans (hasked.world_of_cold hcold.2)
  | derived _ hasked _ _ _ _ hworld _ => exact hworld.trans (hasked.world_of_cold hcold.2)

lemma run_ask_metadata (t : Toolchain) (m : Manifest) (s : State) :
    (Session.run ((Request.metadata m).ask t) s).2 = (Session.run (metadata t m) s).2 := by
  rw [Request.ask, Session.run_bind]
  rcases Session.run (metadata t m) s with ⟨_ | a, s'⟩ <;> rfl

lemma run_ask_crates (t : Toolchain) (m : Manifest) (s : State) :
    (Session.run ((Request.crates m).ask t) s).2 = (Session.run (crates t m) s).2 := by
  rw [Request.ask, Session.run_bind]
  rcases Session.run (crates t m) s with ⟨_ | a, s'⟩ <;> rfl

/-- **The world after a request:** as before if a stored answer makes do, and otherwise as after the
course of the metadata query. -/
lemma world_request (hs : s.Idle) (t : Toolchain) (r : Request) :
    (Answerable r s → (Session.run (r.ask t) s).2.world = s.world) ∧
      (¬Answerable r s →
        (Session.run (r.ask t) s).2.world = (metadataCourse t r.project s.world).2.2) := by
  cases r with
  | metadata m =>
      obtain ⟨out, s', h, -, -, -, hasked⟩ := run_metadata t m hs.sound (hs.free _)
      rw [run_ask_metadata, h, answerable_metadata_iff]
      exact ⟨hasked.world_of_warm, hasked.world_of_cold⟩
  | crates m =>
      obtain ⟨r, s', h, hasked⟩ := run_crates t m hs
      rw [run_ask_crates, h]
      exact ⟨hasked.world_of_warm, hasked.world_of_cold⟩

/-! ## After a run -/

/-- The digests that were taken before a run, and those that were taken after it, are right after it
exactly if the manifest and the lock file have the digests that they had before it. -/
lemma Fetched.holds_iff {doc : Metadata} {before after : Digests}
    (h : Fetched t w p lock doc before after) :
    after.Holds (t.metadata p w).value.2.disk ↔
      SameDigests w.disk (t.metadata p w).value.2.disk [p, lock] := by
  obtain ⟨first, rfl, hfirst, hall, hfiles⟩ := Digests.declareAll_spec h.first
  obtain ⟨more, rfl, hmore, -⟩ := Digests.declareAll_spec h.members
  -- What was taken after the run is right anyway, so all depends on what was taken before it.
  constructor
  · intro hholds g hg
    obtain ⟨e, he, rfl⟩ := List.mem_map.1 (hall g hg)
    rw [hfirst e he, hholds e (List.mem_append_left _ he)]
  · intro hsame e he
    rcases List.mem_append.1 he with he | he
    · rw [hsame e.1 (hfiles _ (List.mem_map_of_mem he)), hfirst e he]
    · exact hmore e he

/-- What a request leaves behind that has come to a run of Scarb: the document, with the digests
from before and after the run; and perhaps crates with the same digests. -/
structure Refetched (t : Toolchain) (p lock : Path) (doc : Metadata) (s s₁ : State)
    (e : Entry Answer) : Prop where
  fetched : ∃ before, Fetched t s.world p lock doc before e.digests
  world : s₁.world = (t.metadata p s.world).value.2
  entry : s₁.cache.entry? ⟨metadataQuery, .project (.scarb p)⟩ = some e
  value : e.value = .metadata (some doc)
  tracked : e.untracked = false
  crates : s₁.cache.entry? ⟨cratesQuery, .project (.scarb p)⟩ =
      s.cache.entry? ⟨cratesQuery, .project (.scarb p)⟩ ∨
    ∃ e', s₁.cache.entry? ⟨cratesQuery, .project (.scarb p)⟩ = some e' ∧
      e'.digests = e.digests ∧ e'.inputsDigest = e.inputsDigest ∧ e'.untracked = e.untracked

lemma crates_ne_metadata (m : Manifest) :
    (⟨cratesQuery, .project m⟩ : Question Subject) ≠ ⟨metadataQuery, .project m⟩ := fun h =>
  absurd (congrArg Question.query h) (show cratesQuery ≠ metadataQuery by decide)

section Refetched

variable {doc : Metadata} {e : Entry Answer} {s₁ s₂ : State}

/-- A new answer with a document has the digests from before and after the run. -/
lemma refetched_of_metadata (hlock : Manifest.lockPath? p = some lock)
    (hdoc : (t.metadata p s.world).value.1 = .ok doc)
    (hcold : ¬s.Warm ⟨metadataQuery, .project (.scarb p)⟩)
    (h : AskedMetadata t (.scarb p) s (.ok e) s₁) : Refetched t p lock doc s s₁ e := by
  have hentry := h.entry?
  cases h with
  | hit he hfresh => exact absurd ⟨_, he, hfresh⟩ hcold
  | stored _ he hworld hentries =>
      have hset := (settled_eq_ok he.settled).1
      rw [metadataCourse, solo_computeMetadata] at hset hworld
      rcases fetch_cases t s.world p ⟨metadataQuery, .project (.scarb p)⟩ with
        ⟨e', f', w', hf, -⟩ | ⟨lock', fault, ds, hun, -⟩ | ⟨lock', doc', before, after, hfetched, hf⟩
      · rw [hf] at hset
        cases hset
      · cases hdoc.symm.trans hun.outcome
      · obtain rfl := Option.some.inj (hlock.symm.trans hfetched.beside)
        obtain rfl := Except.ok.inj (hdoc.symm.trans hfetched.outcome)
        rw [hf, Prod.mk.injEq] at hset
        rw [hf] at hworld
        have htally : (⟨after, false⟩ : Tally) = e.tally := hset.2
        have hdigests : after = e.digests := congrArg Tally.digests htally
        refine ⟨⟨before, hdigests ▸ hfetched⟩, hworld, hentry, (Except.ok.inj hset.1).symm,
          (congrArg Tally.untracked htally).symm, Or.inl ?_⟩
        rw [Cache.entry?, hentries]
        exact Assoc.get?_put_of_ne _ _ (crates_ne_metadata _)

lemma Refetched.of_entries_eq (h : Refetched t p lock doc s s₁ e) (hw : s₂.world = s₁.world)
    (he : s₂.cache.entries = s₁.cache.entries) : Refetched t p lock doc s s₂ e := by
  obtain ⟨hfetched, hworld, hentry, hvalue, htracked, hcrates⟩ := h
  refine ⟨hfetched, hw.trans hworld, ?_, hvalue, htracked, ?_⟩
  · rwa [Cache.entry?, he]
  · rwa [Cache.entry?, he]

/-- **A request that comes to a run of Scarb** leaves the document behind. -/
lemma exists_refetched (hs : s.Idle) {r : Request} (hr : r.project = .scarb p)
    (hcold : ¬Answerable r s) (hlock : Manifest.lockPath? p = some lock)
    (hdoc : (t.metadata p s.world).value.1 = .ok doc) (hfetch : Fetchable t s.world (.scarb p)) :
    ∃ e, Refetched t p lock doc s (Session.run (r.ask t) s).2 e := by
  cases r with
  | metadata m =>
      obtain rfl : m = .scarb p := hr
      rw [answerable_metadata_iff] at hcold
      obtain ⟨out, s', h, -, -, -, hasked⟩ := run_metadata t (.scarb p) hs.sound (hs.free _)
      obtain ⟨e, rfl⟩ := hasked.answered_iff.2 (Or.inr hfetch)
      rw [run_ask_metadata, h]
      exact ⟨e, refetched_of_metadata hlock hdoc hcold hasked⟩
  | crates m =>
      obtain rfl : m = .scarb p := hr
      rw [answerable_crates_iff, not_or] at hcold
      obtain ⟨r, s', h, hasked⟩ := run_crates t (.scarb p) hs
      rw [run_ask_crates, h]
      cases hasked with
      | hit he hfresh => exact absurd ⟨_, he, hfresh⟩ hcold.1
      | refused _ hmetadata =>
          obtain ⟨e, he⟩ := hmetadata.answered_iff.2 (Or.inr hfetch)
          cases he
      | underivable _ hmetadata _ hworld hentries =>
          exact ⟨_, (refetched_of_metadata hlock hdoc hcold.2 hmetadata).of_entries_eq
            hworld hentries⟩
      | derived _ hmetadata _ hdigests hfingerprint huntracked hworld hentries =>
          have hre := refetched_of_metadata hlock hdoc hcold.2 hmetadata
          refine ⟨_, hre.fetched, hworld.trans hre.world, ?_, hre.value, hre.tracked, Or.inr
            ⟨_, ?_, hdigests, hfingerprint, huntracked⟩⟩
          · rw [Cache.entry?, hentries]
            exact (Assoc.get?_put_of_ne _ _ (crates_ne_metadata _).symm).trans hre.entry
          · rw [Cache.entry?, hentries]
            exact Assoc.get?_put_self _ _ _

/-- Crates that are stored in a state fit the files of a disk. -/
def Revives (s : State) (m : Manifest) (d : Disk) : Prop :=
  ∃ e, s.cache.entry? ⟨cratesQuery, .project m⟩ = some e ∧ (e.isFresh d).run.value = .ok true

/-- After a run the stored document may be used again exactly if the manifest and the lock file have
the digests that they had before it. -/
lemma Refetched.warm_iff (h : Refetched t p lock doc s s₁ e) (hs : e.Sealed)
    (hc : e.NoCollision s₁.world.disk) :
    s₁.Warm ⟨metadataQuery, .project (.scarb p)⟩ ↔
      SameDigests s.world.disk s₁.world.disk [p, lock] := by
  obtain ⟨before, hfetched⟩ := h.fetched
  have hholds := hfetched.holds_iff
  rw [← h.world] at hholds
  rw [← hholds]
  constructor
  · rintro ⟨e', he', hfresh⟩
    obtain rfl := Option.some.inj (h.entry.symm.trans he')
    exact (Entry.holds_of_isFresh hs hc hfresh).2
  · intro hh
    exact ⟨e, h.entry, Entry.isFresh_of_holds hs h.tracked hh⟩

/-- Crates that may be used after a run have been stored with its document, or earlier. -/
lemma Refetched.of_warm_crates (h : Refetched t p lock doc s s₁ e)
    (hwarm : s₁.Warm ⟨cratesQuery, .project (.scarb p)⟩) :
    s₁.Warm ⟨metadataQuery, .project (.scarb p)⟩ ∨ Revives s (.scarb p) s₁.world.disk := by
  obtain ⟨c, hc, hfresh⟩ := hwarm
  rcases h.crates with hold | ⟨e', he', hdigests, hfingerprint, huntracked⟩
  · exact Or.inr ⟨c, hold.symm.trans hc, hfresh⟩
  · obtain rfl := Option.some.inj (he'.symm.trans hc)
    refine Or.inl ⟨e, h.entry, ?_⟩
    rw [Entry.isFresh, hdigests, hfingerprint, huntracked] at hfresh
    exact hfresh

lemma Refetched.metadata_of_warm (h : Refetched t p lock doc s s₁ e) (hs : s₁.Idle)
    (hwarm : s₁.Warm ⟨metadataQuery, .project (.scarb p)⟩) :
    (Session.run (metadata t (.scarb p)) s₁).1 = .ok (some doc) := by
  obtain ⟨out, s₂, hrun, -, -, -, hasked⟩ := run_metadata t (.scarb p) hs.sound (hs.free _)
  rw [hrun]
  cases hasked with
  | hit he =>
      obtain rfl := Option.some.inj (h.entry.symm.trans he)
      rw [Except.map, h.value, Answer.metadata?]
  | refused hcold => exact absurd hwarm hcold
  | stored hcold => exact absurd hwarm hcold

/-- **When Scarb runs again.**  A request has come to a run of Scarb that has given a document, and
the run may have changed any files.  If the manifest and the lock file have the digests that they
had before the run, the next request does without another run, whatever has become of the manifests
of the members.  If not, it comes to another run; only crates from before the first request may
make do, if all of their files are as they were when those were stored. -/
theorem reruns_iff (hs : s.Reachable ProjectFault) {r : Request} (hr : r.project = .scarb p)
    (hcold : ¬Answerable r s) (hlock : Manifest.lockPath? p = some lock)
    (hdoc : (t.metadata p s.world).value.1 = .ok doc) (hfetch : Fetchable t s.world (.scarb p))
    (hc : ∀ e, (Session.run (r.ask t) s).2.cache.entry?
        ⟨metadataQuery, .project (.scarb p)⟩ = some e →
      e.NoCollision (Session.run (r.ask t) s).2.world.disk) :
    let s₁ := (Session.run (r.ask t) s).2
    s₁.world = (t.metadata p s.world).value.2 ∧
    (SameDigests s.world.disk s₁.world.disk [p, lock] →
      (Session.run (metadata t (.scarb p)) s₁).1 = .ok (some doc) ∧
        ∀ r', Request.project r' = .scarb p →
          (Session.run (r'.ask t) s₁).2.world = s₁.world) ∧
    (¬SameDigests s.world.disk s₁.world.disk [p, lock] →
      ∀ r', Request.project r' = .scarb p →
        (r' = .crates (.scarb p) → ¬Revives s (.scarb p) s₁.world.disk) →
          (Session.run (r'.ask t) s₁).2.world = (t.metadata p s₁.world).value.2) := by
  obtain ⟨e, hre⟩ := exists_refetched hs.idle hr hcold hlock hdoc hfetch
  have hidle : (Session.run (r.ask t) s).2.Idle := (Session.Reachable.run (r.ask t) hs).idle
  have hnul : ∀ f ∈ [p, lock], Disk.holdsNul f = false := by
    rw [fetchable_iff hlock] at hfetch
    exact fun f hf => (hfetch.2 f (mem_reported hf _)).noNul
  have hwarm := hre.warm_iff (hidle.entries _ (Assoc.mem_of_get? hre.entry)) (hc e hre.entry)
  generalize (Session.run (r.ask t) s).2 = s₁ at hre hidle hwarm
  refine ⟨hre.world, fun hsame => ⟨hre.metadata_of_warm hidle (hwarm.2 hsame), ?_⟩, ?_⟩
  · intro r' hr'
    refine (world_request hidle t r').1 ?_
    cases r' with
    | metadata m =>
        obtain rfl : m = .scarb p := hr'
        exact answerable_metadata_iff.2 (hwarm.2 hsame)
    | crates m =>
        obtain rfl : m = .scarb p := hr'
        exact answerable_crates_iff.2 (Or.inr (hwarm.2 hsame))
  · intro hchanged r' hr' holder
    have hnew : ¬Answerable r' s₁ := by
      cases r' with
      | metadata m =>
          obtain rfl : m = .scarb p := hr'
          rw [answerable_metadata_iff, hwarm]
          exact hchanged
      | crates m =>
          obtain rfl : m = .scarb p := hr'
          rw [answerable_crates_iff]
          rintro (hcrates | hmetadata)
          · rcases hre.of_warm_crates hcrates with hmetadata | hrevives
            · exact hchanged (hwarm.1 hmetadata)
            · exact holder rfl hrevives
          · exact hchanged (hwarm.1 hmetadata)
    rw [(world_request hidle t r').2 hnew, hr', world_metadataCourse hlock hnul]

end Refetched

/-! ## A program that writes -/

/-- The sample program, if it writes the manifest of the member while it runs. -/
def writingBehaviour : Behaviour := fun c files =>
  (files.write [otherName] (.file [0x63] true), (sampleBehaviour c files).2)

/-- The sample files with this program. -/
def writingWorld : World Machine := ⟨⟨sampleFiles, .top⟩, ⟨writingBehaviour, []⟩⟩

/-- A run of it gives the document, and the manifest of the member is there. -/
lemma metadata_writingWorld :
    (sampleToolchain.metadata (topFile sampleName) writingWorld).value.1 =
        Toolchain.judge sampleEnding ∧
      (sampleToolchain.metadata (topFile sampleName) writingWorld).value.2.disk =
        ⟨sampleFiles.write [otherName] (.file [0x63] true), .top⟩ := by
  have hdirectory : Toolchain.startDirectory writingWorld.disk (topFile sampleName) =
      .ok (some .top) := (of_sampleWorlds (w := sampleWorld) ⟨rfl, rfl, Or.inl rfl⟩).1
  have hexe : sampleToolchain.executable = .ok "scarb" := rfl
  have hending : (writingBehaviour sampleCommand sampleFiles).2 = sampleEnding := by
    simp [writingBehaviour, sampleBehaviour]
  have hoccurs : Toolchain.start writingWorld ⟨Toolchain.words "scarb" (topFile sampleName), some .top⟩ =
      (sampleEnding, ⟨⟨sampleFiles.write [otherName] (.file [0x63] true), .top⟩,
        ⟨writingBehaviour, [sampleCommand]⟩⟩) := by
    rw [← hending]
    rfl
  rw [Toolchain.metadata, hexe]
  simp only [Noted.value_bind, Noted.value_pure, hdirectory, hoccurs, and_self]

/-- It writes neither the manifest nor the lock file. -/
lemma sameDigests_writingWorld :
    SameDigests writingWorld.disk
      (sampleToolchain.metadata (topFile sampleName) writingWorld).value.2.disk
      [topFile sampleName, topFile Manifest.scarbLock] := by
  rw [metadata_writingWorld.2]
  have hall : ∀ g ∈ [topFile sampleName, topFile Manifest.scarbLock],
      (Digests.ofFile ⟨sampleFiles.write [otherName] (.file [0x63] true), .top⟩ g).run.value =
        (Digests.ofFile ⟨sampleFiles, .top⟩ g).run.value := by decide +kernel
  exact hall

/-- The manifest of the member changes in the course of the first run, and there is no second one. -/
theorem reruns_sample :
    let s := start writingWorld
    let s₁ := (Session.run ((Request.metadata sampleProject).ask sampleToolchain) s).2
    (Digests.ofFile s₁.world.disk (topFile otherName)).run.value ≠
        (Digests.ofFile s.world.disk (topFile otherName)).run.value ∧
      ∀ r, Request.project r = sampleProject →
        (Session.run (r.ask sampleToolchain) s₁).2.world = s₁.world := by
  intro s s₁
  have hs₁ : (Session.run ((Request.metadata sampleProject).ask sampleToolchain) s).2 = s₁ := rfl
  clear_value s₁
  have hs : s.Reachable ProjectFault := .start writingWorld
  obtain ⟨doc, hdoc, -, hmembers⟩ := judge_sampleEnding
  obtain ⟨houtcome, hdisk⟩ := metadata_writingWorld
  have hcold : ¬Answerable (.metadata sampleProject) s := by
    rw [answerable_metadata_iff]
    exact Session.not_warm_start writingWorld _
  have hfetch : Fetchable sampleToolchain s.world sampleProject :=
    fetchable_sample (houtcome.trans hdoc) hmembers
  have hlock : Manifest.lockPath? (topFile sampleName) = some (topFile Manifest.scarbLock) := rfl
  obtain ⟨e, hre⟩ := exists_refetched hs.idle (r := .metadata sampleProject) rfl hcold hlock
    (houtcome.trans hdoc) hfetch
  obtain ⟨before, hfetched⟩ := hre.fetched
  have hholds := hfetched.holds_iff.2 sameDigests_writingWorld
  have hworld := hre.world
  have hentry := hre.entry
  have hmain := reruns_iff hs rfl hcold hlock (houtcome.trans hdoc) hfetch
  rw [hs₁] at hmain hworld hentry
  obtain ⟨-, hreuse, -⟩ := hmain fun e' he' => by
    obtain rfl := Option.some.inj (hentry.symm.trans he')
    rw [hworld]
    exact Entry.NoCollision.of_holds hfetched.sound.nodup hholds
  have hworld' : s₁.world =
      (sampleToolchain.metadata (topFile sampleName) writingWorld).value.2 := hworld
  refine ⟨?_, (hreuse (hworld' ▸ sameDigests_writingWorld)).2⟩
  rw [hworld', hdisk]
  have hne : (Digests.ofFile ⟨sampleFiles.write [otherName] (.file [0x63] true), .top⟩
      (topFile otherName)).run.value ≠
        (Digests.ofFile ⟨sampleFiles, .top⟩ (topFile otherName)).run.value := by decide +kernel
  exact hne

end Database

end ScarbCrates
