import ScarbCrates.Proofs.Database.Entries

/-!
# The first request

A database that has answered nothing comes to a run of Scarb, whichever of the two questions it is
asked first.  Both answers are made from the document of that run, and both leave the world as the
run does.  If the run breaks off, so does the request.

* `Database.run_metadata_start`, `Database.run_crates_start` — the first request.
* `Database.run_metadata_start_of_broken`, `Database.run_crates_start_of_broken` — one that breaks
  off.
* `Database.Underived` — crates for which there was no metadata.
-/

namespace ScarbCrates

namespace Database

variable {t : Toolchain} {w : World Machine} {p : Path}

lemma idle_start (w : World Machine) : (start w).Idle := by
  have hs : (start w).Reachable ProjectFault := .start w
  exact hs.idle

/-- The manifest and the lock file can be looked at, so Scarb is run. -/
lemma world_metadataCourse_of_fetchable (h : Fetchable t w (.scarb p)) :
    (metadataCourse t (.scarb p) w).2.2 = (t.metadata p w).value.2 := by
  obtain ⟨-, lock, hlock, hreported⟩ := h
  exact world_metadataCourse hlock fun f hf => (hreported f (mem_reported hf _)).noNul

/-- What is stored for the metadata is the document of a run. -/
lemma value_of_asked {m : Manifest} {s s' : State} {e : Entry Answer}
    (h : AskedMetadata t m s (.ok e) s') (hcold : ¬s.Warm ⟨metadataQuery, .project m⟩) :
    e.value = .metadata (document? t s.world m) := by
  cases h with
  | hit he hfresh => exact absurd ⟨_, he, hfresh⟩ hcold
  | stored _ he => exact value_of_storedBy he

/-- **The first request for metadata** is answered with the document of a run. -/
lemma run_metadata_start (h : Fetchable t w (.scarb p)) :
    ∃ s, Session.run (metadata t (.scarb p)) (start w) = (.ok (document? t w (.scarb p)), s) ∧
      s.world = (t.metadata p w).value.2 := by
  have hidle := idle_start w
  have hcold : ¬(start w).Warm ⟨metadataQuery, .project (.scarb p)⟩ :=
    Session.not_warm_start w _
  obtain ⟨out, s, hrun, -, -, -, hasked⟩ := run_metadata t (.scarb p) hidle.sound (hidle.free _)
  refine ⟨s, ?_, ?_⟩
  · rw [hrun, hasked.eq_document hcold h]
    rfl
  · exact (hasked.world_of_cold hcold).trans (world_metadataCourse_of_fetchable h)

/-- **The first request for crates** is answered from the document of a run, and leaves an answer to
the metadata query. -/
lemma run_crates_start (h : Fetchable t w (.scarb p))
    (hview : Viewable (document? t w (.scarb p))) :
    ∃ s e, Session.run (crates t (.scarb p)) (start w) =
        (.ok (cratesIn (t.metadata p w).value.2.disk (document? t w (.scarb p))), s) ∧
      s.world = (t.metadata p w).value.2 ∧ peek s metadataQuery (.project (.scarb p)) = some e ∧
      e.value = .metadata (document? t w (.scarb p)) := by
  have hcold : ¬(start w).Warm ⟨metadataQuery, .project (.scarb p)⟩ :=
    Session.not_warm_start w _
  obtain ⟨r, s, hrun, hasked⟩ := run_crates t (.scarb p) (idle_start w)
  rw [hrun]
  cases hasked with
  | hit he hfresh => exact absurd ⟨_, he, hfresh⟩ (Session.not_warm_start w _)
  | refused _ hmetadata =>
      obtain ⟨e, he⟩ := hmetadata.answered_iff.2 (.inr h)
      cases he
  | underivable _ hmetadata hc =>
      rw [value_of_asked hmetadata hcold, Answer.metadata?] at hc
      cases hc.symm.trans (cratesOf_of_viewable _ hview)
  | derived _ hmetadata hc _ _ _ hworld hentries =>
      have hvalue := value_of_asked hmetadata hcold
      have hworld' := (hmetadata.world_of_cold hcold).trans (world_metadataCourse_of_fetchable h)
      rw [hvalue, Answer.metadata?, hworld'] at hc
      obtain rfl := Except.ok.inj (hc.symm.trans (cratesOf_of_viewable _ hview))
      refine ⟨s, _, rfl, hworld.trans hworld', ?_, hvalue⟩
      rw [peek, Cache.entry?, hentries]
      exact (Assoc.get?_put_of_ne _ _ (crates_ne_metadata _).symm).trans hmetadata.entry?

/-! ## Runs that break off -/

section Broken

variable {lock : Path} {fault : ProcessFault} (hlock : Manifest.lockPath? p = some lock)
  (hn : ∀ f ∈ [p, lock], Disk.holdsNul f = false)
  (hbroken : (t.metadata p w).value.1 = .error (.process fault))

include hlock hn hbroken

lemma metadataCourse_of_broken :
    (metadataCourse t (.scarb p) w).1 = .error (.raised (.process fault)) := by
  obtain ⟨ds, hds⟩ := Digests.exists_declareAll_iff.2 fun f hf => Or.inr (hn f hf)
  rw [metadataCourse, solo_computeMetadata, solo_fetch_broken hlock hbroken hds]
  rfl

/-- A request that comes to such a run has no answer. -/
lemma eq_error_of_broken {out : Except (Failure ProjectFault) (Entry Answer)} {s : State}
    (h : AskedMetadata t (.scarb p) (start w) out s) : out = .error (.raised (.process fault)) := by
  have hcourse := metadataCourse_of_broken hlock hn hbroken
  cases h with
  | hit he hfresh => exact absurd ⟨_, he, hfresh⟩ (Session.not_warm_start w _)
  | refused _ hf =>
      rw [show (start w).world = w from rfl, hcourse] at hf
      exact congrArg Except.error (Except.error.inj hf).symm
  | stored _ he =>
      have hsettled := he.settled
      rw [show (start w).world = w from rfl, hcourse] at hsettled
      cases hsettled

/-- **The first request for metadata** breaks off with the run. -/
lemma run_metadata_start_of_broken :
    ∃ s, Session.run (metadata t (.scarb p)) (start w) =
        (.error (.raised (.process fault)), s) ∧ s.world = (t.metadata p w).value.2 := by
  have hidle := idle_start w
  have hcold : ¬(start w).Warm ⟨metadataQuery, .project (.scarb p)⟩ := Session.not_warm_start w _
  obtain ⟨out, s, hrun, -, -, -, hasked⟩ := run_metadata t (.scarb p) hidle.sound (hidle.free _)
  refine ⟨s, ?_, (hasked.world_of_cold hcold).trans (world_metadataCourse hlock hn)⟩
  rw [hrun, eq_error_of_broken hlock hn hbroken hasked]
  rfl

/-- **The first request for crates** breaks off with the run. -/
lemma run_crates_start_of_broken :
    ∃ s, Session.run (crates t (.scarb p)) (start w) =
        (.error (.raised (.process fault)), s) ∧ s.world = (t.metadata p w).value.2 := by
  have hcold : ¬(start w).Warm ⟨metadataQuery, .project (.scarb p)⟩ := Session.not_warm_start w _
  obtain ⟨r, s, hrun, hasked⟩ := run_crates t (.scarb p) (idle_start w)
  cases hasked with
  | hit he hfresh => exact absurd ⟨_, he, hfresh⟩ (Session.not_warm_start w _)
  | refused _ hmetadata hworld _ =>
      obtain rfl := Except.error.inj (eq_error_of_broken hlock hn hbroken hmetadata)
      exact ⟨s, hrun, hworld.trans
        ((hmetadata.world_of_cold hcold).trans (world_metadataCourse hlock hn))⟩
  | underivable _ hmetadata => cases eq_error_of_broken hlock hn hbroken hmetadata
  | derived _ hmetadata => cases eq_error_of_broken hlock hn hbroken hmetadata

end Broken

/-! ## Crates for want of metadata -/

/-- **Crates for want of metadata:** a new database has none for the project, and what it has stored
for the metadata is that there is none. -/
def Underived (t : Toolchain) (w : World Machine) (p : Path) : Prop :=
  ∃ s e, Session.run (crates t (.scarb p)) (start w) = (.ok [], s) ∧
    peek s metadataQuery (.project (.scarb p)) = some e ∧ e.value = .metadata none

lemma underived_iff (h : Fetchable t w (.scarb p))
    (hview : Viewable (document? t w (.scarb p))) :
    Underived t w p ↔ document? t w (.scarb p) = none := by
  obtain ⟨s, e, hrun, -, hpeek, hvalue⟩ := run_crates_start h hview
  constructor
  · rintro ⟨s', e', hrun', hpeek', hvalue'⟩
    obtain rfl : s = s' := congrArg Prod.snd (hrun.symm.trans hrun')
    obtain rfl := Option.some.inj (hpeek.symm.trans hpeek')
    exact Answer.metadata.inj (hvalue.symm.trans hvalue')
  · intro hnone
    rw [hnone] at hrun hvalue
    exact ⟨s, e, hrun, hpeek, hvalue⟩

end Database

end ScarbCrates
