import ScarbCrates.Proofs.Database.Asking
import ScarbCrates.Proofs.Database.Warm

/-!
# When the database returns

A request returns unless a file that it has to report cannot be recorded, or running Scarb breaks
off, or a source file cannot even be looked at.  Files that are missing, unreadable or refused are no
obstacle, and neither is a Scarb that fails.

* `Database.Fetchable`, `Database.Viewable` — what the paths have to be like.
* `Database.returns_iff` — when the two requests return, and with which crates.
-/

namespace ScarbCrates

/-- A path whose digest can be taken and recorded: without a byte zero, and a string. -/
structure Path.Recordable (p : Path) : Prop where
  noNul : Disk.holdsNul p = false
  encodable : p.Encodable

namespace Computation

variable {ε V : Type}

/-- A result can be stored exactly if all files in its table can be recorded. -/
lemma exists_settled_iff (v : V) {u : Tally} (hu : u.digests.Sound) :
    (∃ a, settled ((.ok v : Except (Failure ε) V), u) = .ok a) ↔
      ∀ f ∈ u.digests.files, f.Recordable := by
  have hfingerprint := Digests.exists_fingerprint_iff hu.nodup
  constructor
  · rintro ⟨⟨v', u'⟩, h⟩ f hf
    obtain ⟨heq, hd⟩ := settled_eq_ok h
    cases heq
    exact ⟨hu.nulFree f hf, hfingerprint.1 hd f hf⟩
  · intro h
    obtain ⟨digest, hd⟩ := hfingerprint.2 fun f hf => (h f hf).encodable
    exact ⟨(v, u), by simp only [settled, hd]⟩

end Computation

namespace Database

open ScarbCrates.Computation

variable {t : Toolchain} {w : World Machine} {p lock : Path} {m : Manifest} {s s' : State}

/-! ## Metadata -/

/-- All files that fetching the metadata of a project reports can be recorded, and running Scarb does
not break off. -/
def Fetchable (t : Toolchain) (w : World Machine) : Manifest → Prop
  | .cairoProject _ => True
  | .scarb p => ¬Breaks t w p ∧ ∃ lock, Manifest.lockPath? p = some lock ∧
      ∀ f ∈ reported p lock (t.metadata p w).value.1, f.Recordable

lemma fetchable_iff (hlock : Manifest.lockPath? p = some lock) : Fetchable t w (.scarb p) ↔
    ¬Breaks t w p ∧ ∀ f ∈ reported p lock (t.metadata p w).value.1, f.Recordable := by
  refine and_congr_right fun _ => ⟨?_, fun h => ⟨lock, hlock, h⟩⟩
  rintro ⟨lock', hlock', h⟩
  obtain rfl := Option.some.inj (hlock.symm.trans hlock')
  exact h

lemma Fetchable.unhindered (h : Fetchable t w (.scarb p)) : Unhindered t w p := by
  obtain ⟨hwhole, lock, hlock, h⟩ := h
  exact ⟨hwhole, lock, hlock, fun f hf => (h f hf).noNul⟩

lemma Unfetched.not_breaks {fault : ToolchainFault} {before : Digests}
    (h : Unfetched t w p lock fault before) : ¬Breaks t w p := by
  rintro ⟨broken, hbroken⟩
  have hwhole := h.whole
  rw [Except.error.inj (h.outcome.symm.trans hbroken)] at hwhole
  cases hwhole

lemma not_breaks_of_ok {doc : Metadata} (h : (t.metadata p w).value.1 = .ok doc) :
    ¬Breaks t w p := fun ⟨_, hbroken⟩ => nomatch h.symm.trans hbroken

/-- **The answer to the metadata query can be stored** exactly if all reported files can be
recorded. -/
lemma exists_settled_metadata_iff (t : Toolchain) (w : World Machine) (m : Manifest) :
    (∃ a, settled ((metadataCourse t m w).1, (metadataCourse t m w).2.1.tally) = .ok a) ↔
      Fetchable t w m := by
  rw [metadataCourse, solo_computeMetadata]
  cases m with
  | cairoProject p =>
      refine iff_of_true ((exists_settled_iff _ Digests.sound_nil).2 ?_) trivial
      exact fun f hf => absurd hf List.not_mem_nil
  | scarb p =>
      rcases fetch_cases t w p ⟨metadataQuery, .project (.scarb p)⟩ with
        ⟨e, f', w', hf, hn⟩ | ⟨lock, fault, ds, hun, hf⟩ | ⟨lock, doc, before, after, hfetched, hf⟩
      · rw [hf]
        exact iff_of_false (fun ⟨_, h⟩ => nomatch h) fun h => hn h.unhindered
      · have hsettled := exists_settled_iff (ε := ProjectFault) (Answer.metadata none)
          (u := ⟨ds, true⟩) hun.sound
        rw [hf, fetchable_iff hun.beside, and_iff_right hun.not_breaks, hun.outcome]
        refine hsettled.trans (forall_congr' fun g => ?_)
        rw [hun.mem_files, reported]
      · have hsettled := exists_settled_iff (ε := ProjectFault) (Answer.metadata (some doc))
          (u := ⟨after, false⟩) hfetched.sound
        rw [hf, fetchable_iff hfetched.beside, and_iff_right (not_breaks_of_ok hfetched.outcome),
          hfetched.outcome]
        refine hsettled.trans (forall_congr' fun g => ?_)
        rw [hfetched.mem_files, reported]

/-- The document of a project, if it is a Scarb project and Scarb gives one. -/
def document? (t : Toolchain) (w : World Machine) : Manifest → Option Metadata
  | .cairoProject _ => none
  | .scarb p => (t.metadata p w).value.1.toOption

lemma value_of_storedBy {e : Entry Answer} (h : Session.StoredBy (metadataCourse t m w) e) :
    e.value = .metadata (document? t w m) := by
  have hvalue := congrArg Prod.fst (settled_eq_ok h.settled).1
  rw [metadataCourse, solo_computeMetadata] at hvalue
  cases m with
  | cairoProject p => exact (Except.ok.inj hvalue).symm
  | scarb p =>
      rcases fetch_cases t w p ⟨metadataQuery, .project (.scarb p)⟩ with
        ⟨e, f', w', hf, -⟩ | ⟨lock, fault, ds, hun, hf⟩ | ⟨lock, doc, before, after, hfetched, hf⟩
      · rw [hf] at hvalue
        cases hvalue
      · rw [hf] at hvalue
        rw [document?, hun.outcome]
        exact (Except.ok.inj hvalue).symm
      · rw [hf] at hvalue
        rw [document?, hfetched.outcome]
        exact (Except.ok.inj hvalue).symm

/-- Metadata is returned if it is stored, and otherwise if it can be fetched. -/
lemma AskedMetadata.answered_iff {out : Except (Failure ProjectFault) (Entry Answer)}
    (h : AskedMetadata t m s out s') :
    (∃ e, out = .ok e) ↔ s.Warm ⟨metadataQuery, .project m⟩ ∨ Fetchable t s.world m := by
  rw [← exists_settled_metadata_iff]
  cases h with
  | hit he hfresh => exact iff_of_true ⟨_, rfl⟩ (Or.inl ⟨_, he, hfresh⟩)
  | refused hcold hf =>
      refine iff_of_false (fun ⟨_, h⟩ => nomatch h) (not_or_intro hcold ?_)
      rintro ⟨a, ha⟩
      exact nomatch hf.symm.trans ha
  | stored hcold he => exact iff_of_true ⟨_, rfl⟩ (Or.inr ⟨_, he.settled⟩)

lemma AskedMetadata.eq_document {out : Except (Failure ProjectFault) (Entry Answer)}
    (h : AskedMetadata t m s out s') (hcold : ¬s.Warm ⟨metadataQuery, .project m⟩)
    (hfetch : Fetchable t s.world m) :
    out.map (fun e => e.value.metadata?) = .ok (document? t s.world m) := by
  obtain ⟨e, rfl⟩ := h.answered_iff.2 (Or.inr hfetch)
  cases h with
  | hit he hfresh => exact absurd ⟨_, he, hfresh⟩ hcold
  | stored _ he => rw [Except.map, value_of_storedBy he, Answer.metadata?]

/-! ## Crates -/

/-- All source files that the crates of a document depend on can be looked at. -/
def Viewable (fetched : Option Metadata) : Prop :=
  ∀ doc, fetched = some doc → ∀ f ∈ Derivation.sources doc, Disk.holdsNul f = false

/-- The crates of a document: one for each component whose source file is accepted. -/
def cratesIn (d : Disk) : Option Metadata → List Crate
  | none => []
  | some doc => doc.compilationUnits.flatMap (Derivation.cratesOfUnit d doc)

lemma cratesOf_of_viewable {fetched : Option Metadata} (d : Disk) (h : Viewable fetched) :
    cratesOf d fetched = .ok (cratesIn d fetched) := by
  cases fetched with
  | none => rfl
  | some doc =>
      have hany : ¬(Derivation.sources doc).any Disk.holdsNul = true := by
        rw [List.any_eq_true]
        rintro ⟨f, hf, hn⟩
        rw [h doc rfl f hf] at hn
        cases hn
      rw [cratesOf, Derivation.crates_value, if_neg hany, cratesIn]

lemma viewable_of_cratesOf {fetched : Option Metadata} {d : Disk} {cs : List Crate}
    (h : cratesOf d fetched = .ok cs) : Viewable fetched := by
  rintro doc rfl f hf
  rw [cratesOf, Derivation.crates_value] at h
  by_contra hn
  have hany : (Derivation.sources doc).any Disk.holdsNul = true :=
    List.any_eq_true.2 ⟨f, hf, Bool.not_eq_false _ ▸ hn⟩
  rw [if_pos hany] at h
  cases h

/-- Crates are returned if they are stored, and otherwise if there is metadata whose source files
can be looked at. -/
lemma AskedCrates.answered_iff {r : Except (Failure ProjectFault) Answer}
    {out : Except (Failure ProjectFault) (Entry Answer)} {s₂ : State} (h : AskedCrates t m s r s')
    (hmetadata : AskedMetadata t m s out s₂) :
    (∃ a, r = .ok a) ↔ s.Warm ⟨cratesQuery, .project m⟩ ∨
      ∃ e, out = .ok e ∧ Viewable e.value.metadata? := by
  cases h with
  | hit he hfresh => exact iff_of_true ⟨_, rfl⟩ (Or.inl ⟨_, he, hfresh⟩)
  | refused hcold hasked =>
      refine iff_of_false (fun ⟨_, h⟩ => nomatch h) (not_or_intro hcold ?_)
      rintro ⟨e, rfl, -⟩
      exact nomatch (hasked.unique hmetadata).1
  | underivable hcold hasked hc =>
      refine iff_of_false (fun ⟨_, h⟩ => nomatch h) (not_or_intro hcold ?_)
      rintro ⟨e', rfl, hv⟩
      rw [Except.ok.inj (hasked.unique hmetadata).1, cratesOf_of_viewable _ hv] at hc
      cases hc
  | derived hcold hasked hc =>
      have hvalue := (hasked.unique hmetadata).1
      cases out with
      | error f => exact nomatch hvalue
      | ok e' =>
          rw [Except.ok.inj hvalue] at hc
          exact iff_of_true ⟨_, rfl⟩ (Or.inr ⟨e', rfl, viewable_of_cratesOf hc⟩)

/-- New crates are those of the components whose source files are accepted when the metadata has
been fetched. -/
lemma AskedCrates.eq_cratesIn {r : Except (Failure ProjectFault) Answer} {e : Entry Answer}
    {s₂ : State} (h : AskedCrates t m s r s') (hcold : ¬s.Warm ⟨cratesQuery, .project m⟩)
    (hmetadata : AskedMetadata t m s (.ok e) s₂) (hv : Viewable e.value.metadata?) :
    r = .ok (.crates (cratesIn s₂.world.disk e.value.metadata?)) := by
  cases h with
  | hit he hfresh => exact absurd ⟨_, he, hfresh⟩ hcold
  | refused _ hasked => exact nomatch (hasked.unique hmetadata).1
  | underivable _ hasked hc =>
      rw [Except.ok.inj (hasked.unique hmetadata).1, cratesOf_of_viewable _ hv] at hc
      cases hc
  | derived _ hasked hc =>
      obtain ⟨hvalue, hworld⟩ := hasked.unique hmetadata
      rw [Except.ok.inj hvalue, hworld, cratesOf_of_viewable _ hv] at hc
      rw [Except.ok.inj hc]

/-! ## Both requests -/

/-- **When the database returns.**  In any state, and whatever the outcome of a run of Scarb:
metadata is returned exactly if it is stored, or all files that are reported can be recorded and the
run does not break off; and crates are returned exactly if they are stored or there is metadata all
of whose source files can be looked at.  New metadata is what Scarb gives, and of its components
those have crates whose source files are accepted. -/
theorem returns_iff (hs : s.Reachable ProjectFault) (t : Toolchain) (m : Manifest) :
    ((∃ fetched, (Session.run (metadata t m) s).1 = .ok fetched) ↔
      s.Warm ⟨metadataQuery, .project m⟩ ∨ Fetchable t s.world m) ∧
    ((∃ cs, (Session.run (crates t m) s).1 = .ok cs) ↔
      s.Warm ⟨cratesQuery, .project m⟩ ∨
        ∃ fetched, (Session.run (metadata t m) s).1 = .ok fetched ∧ Viewable fetched) ∧
    (¬s.Warm ⟨metadataQuery, .project m⟩ → Fetchable t s.world m →
      (Session.run (metadata t m) s).1 = .ok (document? t s.world m)) ∧
    ∀ fetched s', ¬s.Warm ⟨cratesQuery, .project m⟩ →
      Session.run (metadata t m) s = (.ok fetched, s') → Viewable fetched →
      (Session.run (crates t m) s).1 = .ok (cratesIn s'.world.disk fetched) := by
  have hidle := hs.idle
  obtain ⟨out, s₁, hmeta, -, -, -, hasked⟩ := run_metadata t m hidle.sound (hidle.free _)
  obtain ⟨r, s₂, hcrates, hasked'⟩ := run_crates t m hidle
  rw [hmeta, hcrates]
  refine ⟨?_, ?_, hasked.eq_document, ?_⟩
  · rw [← hasked.answered_iff]
    cases out with
    | error f => exact iff_of_false (fun ⟨_, h⟩ => nomatch h) fun ⟨_, h⟩ => nomatch h
    | ok e => exact iff_of_true ⟨_, rfl⟩ ⟨e, rfl⟩
  · have hr : (∃ cs, r.map Answer.crateList = .ok cs) ↔ ∃ a, r = .ok a := by
      cases r with
      | error f => exact iff_of_false (fun ⟨_, h⟩ => nomatch h) fun ⟨_, h⟩ => nomatch h
      | ok a => exact iff_of_true ⟨_, rfl⟩ ⟨a, rfl⟩
    refine hr.trans ((hasked'.answered_iff hasked).trans (or_congr_right ?_))
    constructor
    · rintro ⟨e, rfl, hv⟩
      exact ⟨_, rfl, hv⟩
    · rintro ⟨fetched, h, hv⟩
      cases out with
      | error f => cases h
      | ok e =>
          cases h
          exact ⟨e, rfl, hv⟩
  · intro fetched s' hcold h hv
    cases out with
    | error f => cases h
    | ok e =>
        cases h
        rw [hasked'.eq_cratesIn hcold hasked hv]
        rfl

lemma fetchable_sample {doc : Metadata}
    (hdoc : (t.metadata (topFile sampleName) w).value.1 = .ok doc)
    (hmembers : memberManifests doc = [topFile otherName]) : Fetchable t w sampleProject := by
  refine ⟨not_breaks_of_ok hdoc, topFile Manifest.scarbLock, rfl, ?_⟩
  rw [hdoc, reported, tracked, hmembers]
  simp only [List.cons_append, List.nil_append, List.forall_mem_cons]
  exact ⟨⟨by decide, _, rfl⟩, ⟨by decide, _, rfl⟩, ⟨by decide, _, rfl⟩, by simp⟩

/-- The sample project has crates from the start; the directory `/`, which has no final name, has not
even a failure of Scarb to report. -/
theorem returns_sample :
    (start sampleWorld).Reachable ProjectFault ∧
    (∃ cs, (Session.run (crates sampleToolchain sampleProject) (start sampleWorld)).1 = .ok cs) ∧
    ¬∃ cs, (Session.run (crates sampleToolchain (.scarb .top)) (start sampleWorld)).1 = .ok cs := by
  have hs : (start sampleWorld).Reachable ProjectFault := .start sampleWorld
  have hcold : ∀ q, ¬(start sampleWorld).Warm q := Session.not_warm_start sampleWorld
  obtain ⟨doc, hdoc, hsources, hmembers⟩ := judge_sampleEnding
  have houtcome : (sampleToolchain.metadata (topFile sampleName) sampleWorld).value.1 = .ok doc :=
    (outcome_sampleManifest ⟨rfl, rfl, Or.inl rfl⟩).trans hdoc
  refine ⟨hs, ?_, ?_⟩
  · obtain ⟨-, hcrates, hmetadata, -⟩ := returns_iff hs sampleToolchain sampleProject
    refine hcrates.2 (Or.inr ⟨_, hmetadata (hcold _) (fetchable_sample houtcome hmembers), ?_⟩)
    rw [sampleProject, document?, show (start sampleWorld).world = sampleWorld from rfl, houtcome]
    rintro doc' hdoc' f hf
    obtain rfl : doc = doc' := Option.some.inj hdoc'
    obtain ⟨unit, hunit, hf⟩ := List.mem_flatMap.1 hf
    rw [Derivation.sourcesOf] at hf
    split at hf
    · exact absurd hf List.not_mem_nil
    · obtain ⟨c, hc, rfl⟩ := List.mem_map.1 hf
      have hmem : (c.sourcePath, c.name) ∈ [(topFile sourceName, "m")] :=
        hsources ▸ List.mem_flatMap.2 ⟨unit, hunit, List.mem_map.2 ⟨c, hc, rfl⟩⟩
      rw [(Prod.mk.inj (List.mem_singleton.1 hmem)).1]
      decide
  · obtain ⟨hmetadata, hcrates, -⟩ := returns_iff hs sampleToolchain (.scarb .top)
    rintro h
    obtain ⟨fetched, hfetched, -⟩ := (hcrates.1 h).resolve_left (hcold _)
    obtain ⟨-, lock, hlock, -⟩ := (hmetadata.1 ⟨fetched, hfetched⟩).resolve_left (hcold _)
    exact Option.some_ne_none lock hlock.symm

end Database

end ScarbCrates
