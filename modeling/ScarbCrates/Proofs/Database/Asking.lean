import ScarbCrates.Proofs.Database.Deriving

/-!
# What a request does to a database

All that can come of the two requests, whatever Scarb does to the files in the course of a run.

* `Database.AskedMetadata`, `Database.run_metadata` — a request for metadata.
* `Database.AskedCrates`, `Database.run_crates` — a request for crates.
-/

namespace ScarbCrates

namespace Database

open ScarbCrates.Computation

variable {t : Toolchain} {m : Manifest} {s s' : State}

/-! ## Metadata -/

/-- The course of the metadata query in a world. -/
def metadataCourse (t : Toolchain) (m : Manifest) (w : World Machine) :
    Except (Failure ProjectFault) Answer × Frame Subject × World Machine :=
  (computeMetadata t m).solo (Frame.start ⟨metadataQuery, .project m⟩) w

/-- What comes of a request for metadata. -/
abbrev AskedMetadata (t : Toolchain) (m : Manifest) (s : State) :
    Except (Failure ProjectFault) (Entry Answer) → State → Prop :=
  Session.Asked ⟨metadataQuery, .project m⟩ (metadataCourse t m s.world) s

/-- **A request for metadata,** at the top or in the course of another computation. -/
theorem run_metadata (t : Toolchain) (m : Manifest) (hs : s.Sound)
    (hheld : ⟨metadataQuery, .project m⟩ ∉ s.cache.held) :
    ∃ out s', Session.run (metadata t m) s = (out.map fun e => e.value.metadata?, s') ∧
      s'.Sound ∧ s'.cache.held = s.cache.held ∧ s'.frames = s.framesAfter out ∧
      AskedMetadata t m s out s' := by
  obtain ⟨out, s', h, hheld', hframes, hasked⟩ :=
    Session.serve_solo (solitary_computeMetadata t m) hs hheld
  have hrun : Session.run (metadata t m) s = (out.map fun e => e.value.metadata?, s') := by
    rw [metadata, Session.run_bind, Session.run_ask, h]
    cases out <;> rfl
  have hsound := (Session.run_keeps (metadata t m) hs).sound
  rw [hrun] at hsound
  exact ⟨out, s', hrun, hsound, hheld', hframes, hasked⟩

/-! ## Crates -/

/-- What the crates query makes of an answer to the metadata query. -/
def derived (d : Disk) (a : Answer) : Except (Failure ProjectFault) Answer :=
  ((cratesOf d a.metadata?).map Answer.crates).mapError fun fault => .input (.access fault)

/-- A derivation leaves notices, and nothing else. -/
lemma run_derive (doc : Metadata) (s : State) :
    ∃ ns, Session.run (derive doc) s =
      ((cratesOf s.world.disk (some doc)).mapError fun fault => .input (.access fault),
        s.withNotices ns) := by
  refine ⟨(Derivation.crates s.world.disk doc).run.notices ++ [], ?_⟩
  rw [derive, Session.run_bind, act]
  show Session.run (ofExcept ((cratesOf s.world.disk (some doc)).mapError _)) _ = _
  cases cratesOf s.world.disk (some doc) <;> rfl

/-- The computation of the crates, in a frame of its own. -/
lemma run_computeCrates (t : Toolchain) (m : Manifest) (hs : s.Sound)
    (hheld : ⟨metadataQuery, .project m⟩ ∉ s.cache.held) :
    ∃ out s₁ ns, Session.run (computeCrates t m) s =
        (out.bind fun e => derived s₁.world.disk e.value, s₁.withNotices ns) ∧
      s₁.Sound ∧ s₁.cache.held = s.cache.held ∧ s₁.frames = s.framesAfter out ∧
      AskedMetadata t m s out s₁ := by
  obtain ⟨out, s₁, hrun, hsound, hheld', hframes, hasked⟩ := run_metadata t m hs hheld
  rw [computeCrates, Session.run_bind, hrun]
  cases out with
  | error f =>
      refine ⟨.error f, s₁, [], ?_, hsound, hheld', hframes, hasked⟩
      rw [Session.withNotices, List.append_nil]
      rfl
  | ok e =>
      cases hdoc : e.value.metadata? with
      | none =>
          refine ⟨.ok e, s₁, [], ?_, hsound, hheld', hframes, hasked⟩
          rw [Session.withNotices, List.append_nil]
          simp only [Except.map, Except.bind, hdoc, derived]
          rfl
      | some doc =>
          obtain ⟨ns, hderive⟩ := run_derive doc s₁
          refine ⟨.ok e, s₁, ns, ?_, hsound, hheld', hframes, hasked⟩
          simp only [Except.map, Except.bind, hdoc, derived, Session.run_bind, hderive]
          cases cratesOf s₁.world.disk (some doc) <;> rfl

/-- **What comes of a request for crates:** the stored answer if it may be used again.  Otherwise
metadata is asked for, and the new answer depends on what the metadata depends on. -/
inductive AskedCrates (t : Toolchain) (m : Manifest) (s : State) :
    Except (Failure ProjectFault) Answer → State → Prop
  | hit {e : Entry Answer} {s' : State}
      (he : s.cache.entry? ⟨cratesQuery, .project m⟩ = some e)
      (hfresh : (e.isFresh s.world.disk).run.value = .ok true) (hworld : s'.world = s.world)
      (hentries : s'.cache.entries = s.cache.entries) : AskedCrates t m s (.ok e.value) s'
  | refused {f : Failure ProjectFault} {s₁ s' : State}
      (hcold : ¬s.Warm ⟨cratesQuery, .project m⟩) (hasked : AskedMetadata t m s (.error f) s₁)
      (hworld : s'.world = s₁.world) (hentries : s'.cache.entries = s₁.cache.entries) :
      AskedCrates t m s (.error f) s'
  | underivable {e : Entry Answer} {fault : AccessFault} {s₁ s' : State}
      (hcold : ¬s.Warm ⟨cratesQuery, .project m⟩) (hasked : AskedMetadata t m s (.ok e) s₁)
      (hc : cratesOf s₁.world.disk e.value.metadata? = .error fault)
      (hworld : s'.world = s₁.world) (hentries : s'.cache.entries = s₁.cache.entries) :
      AskedCrates t m s (.error (.input (.access fault))) s'
  | derived {e e' : Entry Answer} {cs : List Crate} {s₁ s' : State}
      (hcold : ¬s.Warm ⟨cratesQuery, .project m⟩) (hasked : AskedMetadata t m s (.ok e) s₁)
      (hc : cratesOf s₁.world.disk e.value.metadata? = .ok cs) (hdigests : e'.digests = e.digests)
      (hfingerprint : e'.inputsDigest = e.inputsDigest) (huntracked : e'.untracked = e.untracked)
      (hworld : s'.world = s₁.world)
      (hentries : s'.cache.entries =
        Assoc.put s₁.cache.entries ⟨cratesQuery, .project m⟩ e') :
      AskedCrates t m s (.ok (.crates cs)) s'

/-- The frame of the crates query has inherited everything from the metadata. -/
lemma digests_absorb (q : Question Subject) {e : Entry Answer} (he : e.Sealed) :
    ((Frame.start q).absorb e).digests = e.digests := by
  have hnodup : Digests.files ([] ++ e.digests) |>.Nodup := he.nodup
  exact Digests.merge_eq_append hnodup

lemma closed_computeCrates {s₀ s₁ : State} {out : Except (Failure ProjectFault) (Entry Answer)}
    {ns : List Notice} (hcold : ¬s.Warm ⟨cratesQuery, .project m⟩) (hs : s₁.Sound)
    (hframes : s₁.frames = (s₀.opened ⟨cratesQuery, .project m⟩).framesAfter out)
    (hasked : AskedMetadata t m s out s₁) :
    ∃ r s', Session.unlocked ⟨cratesQuery, .project m⟩
        (s₀.closed ⟨cratesQuery, .project m⟩
          (out.bind fun e => derived s₁.world.disk e.value, s₁.withNotices ns)) = (r, s') ∧
      AskedCrates t m s r s' := by
  cases out with
  | error f => exact ⟨_, _, rfl, .refused hcold hasked rfl rfl⟩
  | ok e =>
      simp only [Except.bind]
      cases hc : cratesOf s₁.world.disk e.value.metadata? with
      | error fault =>
          have hd : derived s₁.world.disk e.value = .error (.input (.access fault)) := by
            rw [derived, hc]
            rfl
          rw [hd]
          exact ⟨_, _, rfl, .underivable hcold hasked hc rfl rfl⟩
      | ok cs =>
          have hd : derived s₁.world.disk e.value = .ok (.crates cs) := by
            rw [derived, hc]
            rfl
          have hsealed : e.Sealed := hasked.sealed hs
          set q : Question Subject := ⟨cratesQuery, .project m⟩ with hq
          have hframe : (s₁.withNotices ns).frame?.getD (Frame.start q) =
              (Frame.start q).absorb e := by
            show s₁.frames.head?.getD _ = _
            rw [hframes]
            rfl
          have hdigests := digests_absorb q hsealed
          have hfingerprint : ((Frame.start q).absorb e).digests.fingerprint =
              .ok e.inputsDigest := by
            rw [hdigests, hsealed.fingerprint]
          rw [hd, Session.closed, hframe, Session.settle, hfingerprint]
          refine ⟨_, _, rfl, .derived hcold hasked hc ?_ ?_ ?_ rfl rfl⟩
          · exact hdigests
          · rfl
          · rfl

/-- **A request for crates** while nothing is under way. -/
theorem run_crates (t : Toolchain) (m : Manifest) (hs : s.Idle) :
    ∃ r s', Session.run (crates t m) s = (r.map Answer.crateList, s') ∧ AskedCrates t m s r s' := by
  have hserve : ∃ r s', s.serve (s.cache.storedGeneration ⟨cratesQuery, .project m⟩)
      ⟨cratesQuery, .project m⟩ (Session.run (computeCrates t m)) = (r, s') ∧
        AskedCrates t m s r s' := by
    by_cases hwarm : s.Warm ⟨cratesQuery, .project m⟩
    · obtain ⟨e, he, hfresh⟩ := hwarm
      obtain ⟨s', h, -, hworld, hentries, -⟩ := Session.serve_of_fresh (hs.free _) he hfresh
        (Session.run (computeCrates t m))
      exact ⟨_, s', h, .hit he hfresh hworld hentries⟩
    · have hstale := Session.stale_of_not_warm hs.entries hwarm
      obtain ⟨s₀, hframes, hworld, hentries, hheld₀, h⟩ := Session.serve_of_stale (hs.free _) hstale
        (Session.run (computeCrates t m))
      have hsound : (s₀.opened ⟨cratesQuery, .project m⟩).Sound :=
        Session.Sound.opened ⟨hframes ▸ hs.sound.frames, hentries ▸ hs.entries⟩ _
      have hfree : (⟨metadataQuery, .project m⟩ : Question Subject) ∉
          (s₀.opened ⟨cratesQuery, .project m⟩).cache.held := by
        show _ ∉ s₀.cache.held
        rw [hheld₀, hs.held, List.mem_singleton]
        have hne : metadataQuery ≠ cratesQuery := by decide
        exact fun hq => hne (congrArg Question.query hq)
      obtain ⟨out, s₁, ns, hrun, hs₁, -, hframes₁, hasked⟩ := run_computeCrates t m hsound hfree
      have hopened : (s₀.opened ⟨cratesQuery, .project m⟩).world = s.world := hworld
      rw [AskedMetadata, hopened] at hasked
      rw [h, Session.compute_eq, hrun]
      exact closed_computeCrates hwarm hs₁ hframes₁ (hasked.congr hworld hentries)
  obtain ⟨r, s', h, hasked⟩ := hserve
  refine ⟨r, s', ?_, hasked⟩
  rw [crates, Session.run_bind, Session.run_ask, h]
  cases r <;> rfl

end Database

end ScarbCrates
