import ScarbCrates.Proofs.Database.Entries

/-!
# Crates and their source files

Whether a component has a crate depends on its source file, but no answer says so: crates depend on
the files that the metadata depends on, and source files are only looked at.  So stored crates
outlive a source file.  They are derived again when one of the tracked files changes, or when they
have been dropped.

* `Database.Derives` — a request that derives the crates on the disk as it is.
* `Database.crates_of_stored` — what becomes of stored crates when files change.
* `Database.outlives_source` — a source file is removed, and its crate stays.
-/

namespace ScarbCrates

namespace Database

variable {t : Toolchain} {w : World Machine} {p : Path} {m : Manifest} {s s' : State}
  {past : List Disk}

lemma sealed_of_stored (hs : s.Idle) {q : Question Subject} {e : Entry Answer}
    (he : s.cache.entry? q = some e) : e.Sealed := hs.entries _ (Assoc.mem_of_get? he)

/-! ## Requests that derive -/

/-- **The request for crates derives them:** it returns what the derivation makes of the metadata
on the disk as the request for metadata leaves it. -/
def Derives (t : Toolchain) (m : Manifest) (s : State) : Prop :=
  ∀ cs, (Session.run (crates t m) s).1 = .ok cs ↔
    ∃ fetched s₁, Session.run (metadata t m) s = (.ok fetched, s₁) ∧
      cratesOf s₁.world.disk fetched = .ok cs ∧ (Session.run (crates t m) s).2.world = s₁.world

/-- What a request for metadata returns, and the world that it leaves. -/
lemma run_metadata_of_asked (hs : s.Idle) {out : Except (Failure ProjectFault) (Entry Answer)}
    (h : AskedMetadata t m s out s') :
    ∃ s₁, Session.run (metadata t m) s = (out.map fun e => e.value.metadata?, s₁) ∧
      s₁.world = s'.world := by
  obtain ⟨out', s₁, hrun, -, -, -, hasked⟩ := run_metadata t m hs.sound (hs.free _)
  obtain ⟨hvalue, hworld⟩ := hasked.unique h
  have hmap : ∀ r : Except (Failure ProjectFault) (Entry Answer),
      (r.map fun e => e.value.metadata?) = (r.map Entry.value).map Answer.metadata? := by
    rintro (_ | _) <;> rfl
  exact ⟨s₁, by rw [hrun, hmap, hvalue, ← hmap], hworld⟩

/-- Crates are derived unless stored ones may be used again. -/
lemma derives_of_cold (hs : s.Idle) (hcold : ¬s.Warm ⟨cratesQuery, .project m⟩) :
    Derives t m s := by
  obtain ⟨r, s', hcrates, hasked⟩ := run_crates t m hs
  intro cs
  rw [hcrates]
  cases hasked with
  | hit he hfresh => exact absurd ⟨_, he, hfresh⟩ hcold
  | refused _ hmetadata =>
      obtain ⟨s₁, hrun, -⟩ := run_metadata_of_asked hs hmetadata
      refine iff_of_false nofun ?_
      rintro ⟨fetched, s₂, h, -⟩
      cases hrun.symm.trans h
  | underivable _ hmetadata hc =>
      obtain ⟨s₁, hrun, hworld⟩ := run_metadata_of_asked hs hmetadata
      refine iff_of_false nofun ?_
      rintro ⟨fetched, s₂, h, hcs, -⟩
      cases hrun.symm.trans h
      rw [hworld, hc] at hcs
      cases hcs
  | derived _ hmetadata hc _ _ _ hworld' =>
      obtain ⟨s₁, hrun, hworld⟩ := run_metadata_of_asked hs hmetadata
      constructor
      · intro h
        obtain rfl := Except.ok.inj h
        exact ⟨_, s₁, hrun, hworld ▸ hc, hworld'.trans hworld.symm⟩
      · rintro ⟨fetched, s₂, h, hcs, -⟩
        cases hrun.symm.trans h
        rw [hworld, hc] at hcs
        cases hcs
        rfl

/-! ## Stored crates -/

/-- Stored crates that may be used again are returned. -/
lemma run_crates_of_fresh (hs : s.Idle) {e : Entry Answer}
    (he : s.cache.entry? ⟨cratesQuery, .project m⟩ = some e)
    (hfresh : (e.isFresh s.world.disk).run.value = .ok true) (t : Toolchain) :
    (Session.run (crates t m) s).1 = .ok e.value.crateList ∧
      (Session.run (crates t m) s).2.world = s.world := by
  obtain ⟨r, s', hrun, hasked⟩ := run_crates t m hs
  rw [hrun]
  cases hasked with
  | hit he' _ hworld _ =>
      obtain rfl := Option.some.inj (he.symm.trans he')
      exact ⟨rfl, hworld⟩
  | refused hcold => exact absurd ⟨e, he, hfresh⟩ hcold
  | underivable hcold => exact absurd ⟨e, he, hfresh⟩ hcold
  | derived hcold => exact absurd ⟨e, he, hfresh⟩ hcold

/-- A stored document that may be used again is returned. -/
lemma run_metadata_of_fresh (hs : s.Idle) {e : Entry Answer}
    (he : s.cache.entry? ⟨metadataQuery, .project m⟩ = some e)
    (hfresh : (e.isFresh s.world.disk).run.value = .ok true) (t : Toolchain) :
    (Session.run (metadata t m) s).1 = .ok e.value.metadata? := by
  obtain ⟨out, s', hrun, -, -, -, hasked⟩ := run_metadata t m hs.sound (hs.free _)
  rw [hrun]
  cases hasked with
  | hit he' =>
      obtain rfl := Option.some.inj (he.symm.trans he')
      rfl
  | refused hcold => exact absurd ⟨e, he, hfresh⟩ hcold
  | stored hcold => exact absurd ⟨e, he, hfresh⟩ hcold

/-- Crates that have been returned are stored. -/
lemma entry_of_run_crates {cs : List Crate} (h : Session.run (crates t m) s = (.ok cs, s')) :
    ∃ e, s'.cache.entry? ⟨cratesQuery, .project m⟩ = some e ∧ e.value.crateList = cs := by
  have houtcome := Session.outcome s ⟨cratesQuery, .project m⟩ (Session.run (computeCrates t m))
  rw [crates, Session.run_bind, Session.run_ask] at h
  generalize s.serve _ ⟨cratesQuery, .project m⟩ (Session.run (computeCrates t m)) = out
    at h houtcome
  obtain ⟨r, s₁⟩ := out
  cases r with
  | error f => cases h
  | ok a =>
      obtain ⟨e, he, hvalue, -⟩ := houtcome.exists_entry?
      cases h
      exact ⟨e, he, congrArg Answer.crateList hvalue⟩

/-- Derivations on two disks agree if all source files fare alike. -/
lemma cratesOf_congr {d d' : Disk} {fetched : Option Metadata}
    (h : ∀ doc, fetched = some doc → Derivation.SameChecks d d' doc) :
    cratesOf d' fetched = cratesOf d fetched := by
  cases fetched with
  | none => rfl
  | some doc => rw [cratesOf, cratesOf, Derivation.crates_congr (h doc rfl)]

/-- **What becomes of stored crates when files change.**  They are what the derivation has made of
some metadata on one of the disks so far, and their tracked files are those of the metadata.  As long
as these have the same digests, the crates are as good as they were.  If they may be used again, they
are returned, whatever has become of the source files; that is what the derivation gives now if all
source files fare as they did.  Otherwise, and when answers have been dropped, the crates are derived
on the disk as it is. -/
theorem crates_of_stored (h : Comes past s) {e : Entry Answer}
    (he : s.cache.entry? ⟨cratesQuery, .project (.scarb p)⟩ = some e) (w : World Machine)
    (t : Toolchain) :
    let s' : State := { s with world := w }
    ∃ fetched cs, FitsScarb p fetched e ∧ e.value = .crates cs ∧
      (∃ d ∈ past, cratesOf d fetched = .ok cs ∧
        ((∀ doc, fetched = some doc → Derivation.SameChecks d w.disk doc) →
          cratesOf w.disk fetched = .ok cs)) ∧
      (SameDigests s.world.disk w.disk e.digests.files →
        (s'.Warm ⟨cratesQuery, .project (.scarb p)⟩ ↔
          s.Warm ⟨cratesQuery, .project (.scarb p)⟩)) ∧
      (s'.Warm ⟨cratesQuery, .project (.scarb p)⟩ →
        (Session.run (crates t (.scarb p)) s').1 = .ok cs ∧
          (Session.run (crates t (.scarb p)) s').2.world = w) ∧
      (¬s'.Warm ⟨cratesQuery, .project (.scarb p)⟩ → Derives t (.scarb p) s') ∧
      ∀ level, Derives t (.scarb p) (s'.withCache fun c => (c.invalidate level).1) := by
  intro s'
  set q : Question Subject := ⟨cratesQuery, .project (.scarb p)⟩
  have hchanged : Comes (w.disk :: past) s' := h.change w
  have hmem := Assoc.mem_of_get? he
  obtain ⟨fetched, hfits, -, hcrates⟩ := (h.fitting _ hmem).of_scarb rfl
  obtain ⟨hview, d, hd, hvalue⟩ := hcrates rfl
  have hderived := cratesOf_of_viewable d hview
  refine ⟨fetched, cratesIn d fetched, hfits, hvalue, ⟨d, hd, hderived, fun hsame => ?_⟩, ?_, ?_,
    derives_of_cold hchanged.reachable.idle, fun level => ?_⟩
  · rw [cratesOf_congr hsame, hderived]
  · intro hsame
    have hfresh := Entry.isFresh_congr (h.reachable.idle.entries _ hmem) hsame
    constructor
    · rintro ⟨e', he', hfresh'⟩
      obtain rfl := Option.some.inj (he.symm.trans he')
      exact ⟨e, he, hfresh.symm.trans hfresh'⟩
    · rintro ⟨e', he', hfresh'⟩
      obtain rfl := Option.some.inj (he.symm.trans he')
      exact ⟨e, he, hfresh.trans hfresh'⟩
  · rintro ⟨e', he', hfresh⟩
    obtain rfl := Option.some.inj (he.symm.trans he')
    have hreturned := run_crates_of_fresh hchanged.reachable.idle he hfresh t
    rwa [hvalue] at hreturned
  · -- A loss of answers takes the crates of all Scarb projects.
    have hlost : Comes (w.disk :: past) (s'.withCache fun c => (c.invalidate level).1) :=
      hchanged.invalidate level
    refine derives_of_cold hlost.reachable.idle ?_
    rintro ⟨e', he', -⟩
    obtain ⟨hx, hkept⟩ := List.mem_filter.1 (Assoc.mem_of_get? he')
    obtain ⟨_, hfits', -⟩ := (hchanged.fitting _ hx).of_scarb rfl
    rw [hfits'.durability] at hkept
    cases level <;> cases hkept

/-! ## The small workspace without its source file -/

/-- The files without the source file. -/
def emptiedFiles : FileTree := sampleFiles.remove [sourceName]

/-- What the derivation makes of the document with and without the source file. -/
def derivations (doc : Metadata) : List Path × Option (List String) × Option (List String) :=
  (Derivation.sources doc,
    ((cratesOf ⟨sampleFiles, .top⟩ (some doc)).toOption.map fun cs => cs.map (·.name)),
    ((cratesOf ⟨emptiedFiles, .top⟩ (some doc)).toOption.map fun cs => cs.map (·.name)))

lemma derivations_sampleEnding : (Toolchain.judge sampleEnding).toOption.map derivations =
    some ([topFile sourceName], some ["m"], some []) := by
  rw [sampleEnding, Toolchain.judge, Scan.ofText, String.toList_ofList]
  decide +kernel

lemma derivations_eq {doc : Metadata} (h : Toolchain.judge sampleEnding = .ok doc) :
    Derivation.sources doc = [topFile sourceName] ∧
      (∃ c, cratesOf ⟨sampleFiles, .top⟩ (some doc) = .ok [c] ∧ c.name = "m") ∧
      cratesOf ⟨emptiedFiles, .top⟩ (some doc) = .ok [] := by
  have hderivations := derivations_sampleEnding
  rw [h] at hderivations
  obtain ⟨hsources, hrest⟩ := Prod.mk.inj (Option.some.inj hderivations)
  obtain ⟨hhas, hnone⟩ := Prod.mk.inj hrest
  obtain ⟨cs, hcs, hnames⟩ := Option.map_eq_some_iff.1 hhas
  obtain ⟨none, hnone, hempty⟩ := Option.map_eq_some_iff.1 hnone
  obtain ⟨c, rfl, hname⟩ := List.map_eq_singleton_iff.1 hnames
  obtain rfl := List.map_eq_nil_iff.1 hempty
  exact ⟨hsources, ⟨c, eq_ok_of_toOption hcs, hname⟩, eq_ok_of_toOption hnone⟩

section Sample

variable (hs : (Session.run (crates sampleToolchain sampleProject) (start sampleWorld)).2 = s)

include hs

lemma comes_sample : Comes [s.world.disk, sampleWorld.disk] s := by
  rw [← hs, ← run_ask_crates]
  exact (Comes.start sampleWorld).request sampleToolchain (.crates sampleProject)

/-- The first request stores a document and its only crate.  Both depend on three files, none of
which is the source file. -/
lemma entries_sample : ∃ doc e₀ e, Derivation.sources doc = [topFile sourceName] ∧
    s.world.disk = ⟨sampleFiles, .top⟩ ∧
    s.cache.entry? ⟨metadataQuery, .project sampleProject⟩ = some e₀ ∧
    e₀.value = .metadata (some doc) ∧ e₀.untracked = false ∧ e₀.digests = e.digests ∧
    s.cache.entry? ⟨cratesQuery, .project sampleProject⟩ = some e ∧
    e.untracked = false ∧ e.digests.Holds ⟨sampleFiles, .top⟩ ∧
    (∀ f ∈ e.digests.files,
      f ∈ [topFile sampleName, topFile Manifest.scarbLock, topFile otherName]) ∧
    (∃ c, e.value.crateList = [c] ∧ c.name = "m") ∧
    cratesOf ⟨emptiedFiles, .top⟩ (some doc) = .ok [] := by
  obtain ⟨doc, hdoc, -, hmembers⟩ := judge_sampleEnding
  have hhere : SampleWorlds sampleWorld := ⟨rfl, rfl, Or.inl rfl⟩
  have hbegin : (start sampleWorld).world = sampleWorld := rfl
  have houtcome : (sampleToolchain.metadata (topFile sampleName)
      (start sampleWorld).world).value.1 = .ok doc := by
    rw [hbegin]
    exact (outcome_sampleManifest hhere).trans hdoc
  have hquiet : (sampleToolchain.metadata (topFile sampleName)
      (start sampleWorld).world).value.2.disk = ⟨sampleFiles, .top⟩ := by
    rw [hbegin]
    exact calm_sample.quiet sampleWorld _ ⟨rfl, rfl, fun _ => Or.inl rfl⟩
  obtain ⟨hsources, ⟨c, hhas, hname⟩, hnone⟩ := derivations_eq hdoc
  have hstart : (start sampleWorld).Reachable ProjectFault := .start sampleWorld
  obtain ⟨r, s', hrun, hasked⟩ := run_crates sampleToolchain sampleProject hstart.idle
  obtain rfl : s = s' := hs.symm.trans (congrArg Prod.snd hrun)
  have hcold : ∀ q, ¬(start sampleWorld).Warm q := Session.not_warm_start sampleWorld
  have hfetch := fetchable_sample houtcome hmembers
  have hlock : Manifest.lockPath? (topFile sampleName) = some (topFile Manifest.scarbLock) := rfl
  set metadataQuestion : Question Subject := ⟨metadataQuery, .project sampleProject⟩
  cases hasked with
  | hit he => cases he
  | refused _ hmetadata =>
      obtain ⟨e, he⟩ := hmetadata.answered_iff.2 (Or.inr hfetch)
      cases he
  | @underivable e _ s₁ _ _ hmetadata hc =>
      have hre := refetched_of_metadata hlock houtcome (hcold metadataQuestion) hmetadata
      rw [hre.value, hre.world, hquiet] at hc
      cases hhas.symm.trans hc
  | @derived e e' cs s₁ _ _ hmetadata hc hdigests _ huntracked hworld hentries =>
      have hre := refetched_of_metadata hlock houtcome (hcold metadataQuestion) hmetadata
      obtain ⟨before, hfetched⟩ := hre.fetched
      have hdisk : s₁.world.disk = ⟨sampleFiles, .top⟩ := by rw [hre.world]; exact hquiet
      obtain ⟨e'', he'', hvalue⟩ := entry_of_run_crates hrun
      have he' : s.cache.entry? ⟨cratesQuery, .project sampleProject⟩ = some e' :=
        Session.entry?_of_put hentries
      obtain rfl := Option.some.inj (he'.symm.trans he'')
      have hmetadata' : s.cache.entry? metadataQuestion = some e := by
        rw [Cache.entry?, hentries]
        exact (Assoc.get?_put_of_ne _ _ (crates_ne_metadata _).symm).trans hre.entry
      refine ⟨doc, e, e', hsources, (congrArg World.disk hworld).trans hdisk, hmetadata', hre.value,
        hre.tracked, hdigests.symm, he', huntracked.trans hre.tracked, ?_, ?_, ?_, hnone⟩
      · have hsame : SameDigests (start sampleWorld).world.disk
            (sampleToolchain.metadata (topFile sampleName) (start sampleWorld).world).value.2.disk
            [topFile sampleName, topFile Manifest.scarbLock] := by
          rw [hquiet, show (start sampleWorld).world.disk = ⟨sampleFiles, .top⟩ from rfl]
          exact fun _ _ => rfl
        rw [hdigests, ← hquiet]
        exact hfetched.holds_iff.2 hsame
      · intro f hf
        rw [hdigests, hfetched.mem_files, tracked, memberManifests, hmembers] at hf
        exact hf
      · rw [hre.value, hdisk] at hc
        obtain rfl : [c] = cs := Except.ok.inj (hhas.symm.trans hc)
        exact ⟨c, hvalue, hname⟩

end Sample

/-- The removal of the source file leaves the tracked files alone. -/
lemma sameDigests_emptied {ps : List Path}
    (h : ∀ f ∈ ps, f ∈ [topFile sampleName, topFile Manifest.scarbLock, topFile otherName]) :
    SameDigests ⟨sampleFiles, .top⟩ ⟨emptiedFiles, .top⟩ ps := by
  have hall : ∀ f ∈ [topFile sampleName, topFile Manifest.scarbLock, topFile otherName],
      (Digests.ofFile ⟨emptiedFiles, .top⟩ f).run.value =
        (Digests.ofFile ⟨sampleFiles, .top⟩ f).run.value := by decide +kernel
  exact fun f hf => hall f (h f hf)

lemma holds_emptied {ds : Digests} (h : ds.Holds ⟨sampleFiles, .top⟩)
    (hfiles : ∀ f ∈ ds.files,
      f ∈ [topFile sampleName, topFile Manifest.scarbLock, topFile otherName]) :
    ds.Holds ⟨emptiedFiles, .top⟩ := fun x hx =>
  (sameDigests_emptied hfiles x.1 (List.mem_map_of_mem hx)).trans (h x hx)

/-- A database in the world without the source file. -/
def withoutSource (s : State) : State := { s with world := s.world.remove [sourceName] }

lemma Comes.withoutSource (h : Comes past s) :
    Comes ((Database.withoutSource s).world.disk :: past) (Database.withoutSource s) := h.change _

lemma entry?_withoutSource (s : State) (q : Question Subject) :
    (withoutSource s).cache.entry? q = s.cache.entry? q := rfl

lemma disk_withoutSource (h : s.world.disk = ⟨sampleFiles, .top⟩) :
    (withoutSource s).world.disk = ⟨emptiedFiles, .top⟩ := by
  have hremove : (withoutSource s).world.disk = s.world.disk.change (·.remove [sourceName]) := rfl
  rw [hremove, h, Disk.change, emptiedFiles]

/-- **A source file is removed, and its crate stays.**  The tracked files are as they were, and the
next request returns the crate, while the derivation from the same metadata gives none. -/
theorem outlives_source :
    let s := (Session.run (crates sampleToolchain sampleProject) (start sampleWorld)).2
    ∃ doc e c, Comes [s.world.disk, sampleWorld.disk] s ∧
      s.cache.entry? ⟨cratesQuery, .project sampleProject⟩ = some e ∧
      SameDigests s.world.disk (withoutSource s).world.disk e.digests.files ∧
      (Session.run (metadata sampleToolchain sampleProject) (withoutSource s)).1 = .ok (some doc) ∧
      topFile sourceName ∈ Derivation.sources doc ∧
      SourceRoot.check (withoutSource s).world.disk (topFile sourceName) "m" ≠
        SourceRoot.check s.world.disk (topFile sourceName) "m" ∧
      (Session.run (crates sampleToolchain sampleProject) (withoutSource s)).1 = .ok [c] ∧
      cratesOf (withoutSource s).world.disk (some doc) = .ok [] := by
  intro s
  have hs : (Session.run (crates sampleToolchain sampleProject) (start sampleWorld)).2 = s := rfl
  clear_value s
  have hcomes := comes_sample hs
  obtain ⟨doc, e₀, e, hsources, hdisk, he₀, hvalue₀, hu₀, hdigests, he, hu, hholds, hfiles, ⟨c, hc, -⟩,
    hnone⟩ := entries_sample hs
  have houtlived := disk_withoutSource hdisk
  have hidle := hcomes.withoutSource.reachable.idle
  have hlater := (entry?_withoutSource s _).trans he
  have hlater₀ := (entry?_withoutSource s _).trans he₀
  have hfresh : (e.isFresh (withoutSource s).world.disk).run.value = .ok true := by
    rw [houtlived]
    exact Entry.isFresh_of_holds (sealed_of_stored hidle hlater) hu (holds_emptied hholds hfiles)
  have hfresh₀ : (e₀.isFresh (withoutSource s).world.disk).run.value = .ok true := by
    rw [houtlived]
    refine Entry.isFresh_of_holds (sealed_of_stored hidle hlater₀) hu₀ ?_
    rw [hdigests]
    exact holds_emptied hholds hfiles
  have hmetadata := run_metadata_of_fresh hidle hlater₀ hfresh₀ sampleToolchain
  have hcrates := (run_crates_of_fresh hidle hlater hfresh sampleToolchain).1
  rw [hvalue₀] at hmetadata
  rw [hc] at hcrates
  have hchecks : SourceRoot.check ⟨emptiedFiles, .top⟩ (topFile sourceName) "m" ≠
      SourceRoot.check ⟨sampleFiles, .top⟩ (topFile sourceName) "m" := by decide +kernel
  refine ⟨doc, e, c, hcomes, he, ?_, hmetadata, ?_, ?_, hcrates, ?_⟩
  · rw [houtlived, hdisk]
    exact sameDigests_emptied hfiles
  · rw [hsources]
    exact List.mem_singleton_self _
  · rw [houtlived, hdisk]
    exact hchecks
  · rw [houtlived]
    exact hnone

/-- The crate that stays is the one that was stored; without it, crates are derived. -/
theorem crates_of_stored_sample :
    let s := (Session.run (crates sampleToolchain sampleProject) (start sampleWorld)).2
    ∃ e cs, s.cache.entry? ⟨cratesQuery, .project sampleProject⟩ = some e ∧
      e.value = .crates cs ∧
      (Session.run (crates sampleToolchain sampleProject) (withoutSource s)).1 = .ok cs ∧
      Derives sampleToolchain sampleProject
        ((withoutSource s).withCache fun c => (c.invalidate .low).1) := by
  intro s
  have hs : (Session.run (crates sampleToolchain sampleProject) (start sampleWorld)).2 = s := rfl
  clear_value s
  have hcomes := comes_sample hs
  obtain ⟨doc, e₀, e, -, hdisk, -, -, -, -, he, hu, hholds, hfiles, -⟩ := entries_sample hs
  have hsealed := sealed_of_stored hcomes.reachable.idle he
  obtain ⟨fetched, cs, -, hvalue, -, hsame, hwarm, -, hlost⟩ :=
    crates_of_stored hcomes he (s.world.remove [sourceName]) sampleToolchain
  have hunchanged : SameDigests s.world.disk (withoutSource s).world.disk
      e.digests.files := by
    rw [disk_withoutSource hdisk, hdisk]
    exact sameDigests_emptied hfiles
  have hwarm₀ : s.Warm ⟨cratesQuery, .project sampleProject⟩ := by
    refine ⟨e, he, ?_⟩
    rw [hdisk]
    exact Entry.isFresh_of_holds hsealed hu hholds
  exact ⟨e, cs, he, hvalue, (hwarm ((hsame hunchanged).2 hwarm₀)).1, hlost .low⟩

end Database

end ScarbCrates
