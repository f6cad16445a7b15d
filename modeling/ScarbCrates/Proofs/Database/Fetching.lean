import ScarbCrates.Database
import ScarbCrates.Proofs.Query.Solo

/-!
# What metadata depends on

A run of Scarb that gives a document makes an answer that depends on the manifest, the lock file
and the manifests of all members; a run that fails makes an answer that holds for once only, and one
that breaks off makes none.  The manifest and the lock file are looked at before the run, and the
manifests of the members after it.

* `Database.tracked` — the files that an answer depends on.
* `Database.Fetched` — a document with the digests of these files.
* `Database.fetch_cases` — all that can come of fetching metadata.
-/

namespace ScarbCrates

lemma ToolchainFault.process?_eq_some_iff {fault : ToolchainFault} {broken : ProcessFault} :
    fault.process? = some broken ↔ fault = .process broken := by
  cases fault <;> simp [process?]

namespace Database

open ScarbCrates.Computation

variable {t : Toolchain} {w : World Machine} {p : Path} {f : Frame Subject}

/-! ## Nothing is asked -/

lemma solitary_reportFile (p : Path) : (reportFile p).Solitary := solitary_ofExcept

lemma solitary_reportFiles (ps : List Path) : (reportFiles ps).Solitary := by
  induction ps with
  | nil => trivial
  | cons p rest ih => exact (solitary_reportFile p).bind fun _ => ih

lemma solitary_note (level : Level) (origin message : String) :
    (note level origin message : Query Unit).Solitary := fun _ => trivial

lemma solitary_settleFetch (p : Path) (outcome : Except ToolchainFault Metadata) :
    (settleFetch p outcome).Solitary := by
  cases outcome with
  | error fault =>
      rw [settleFetch]
      cases fault.process? with
      | some fault => trivial
      | none =>
          exact Solitary.bind (c := reportUntracked) trivial fun _ =>
            (solitary_note _ _ _).bind fun _ => trivial
  | ok m => exact (solitary_reportFiles _).bind fun _ => trivial

lemma solitary_fetch (t : Toolchain) (m : Manifest) : (fetch t m).Solitary := by
  cases m with
  | cairoProject p => exact (solitary_note _ _ _).bind fun _ => trivial
  | scarb p =>
      rw [fetch]
      refine (solitary_reportFile p).bind fun _ => ?_
      split
      · trivial
      · refine (solitary_reportFile _).bind fun _ => ?_
        refine Solitary.bind (c := reportSynthetic .low) trivial fun _ => ?_
        exact Solitary.bind (c := act (t.metadata p)) (fun _ => trivial) fun _ =>
          solitary_settleFetch p _

lemma solitary_computeMetadata (t : Toolchain) (m : Manifest) : (computeMetadata t m).Solitary :=
  (solitary_fetch t m).bind fun _ => trivial

/-! ## Reports of files -/

lemma solo_reportFile (p : Path) (f : Frame Subject) (w : World Machine) :
    (reportFile p).solo f w =
      match (Digests.declare w.disk f.digests p).run.value with
      | .error fault => (.error (.input (.access fault)), f, w)
      | .ok ds => (.ok (), { f with digests := ds }, w) := by
  rw [reportFile, declareFile, solo]
  cases (Digests.declare w.disk f.digests p).run.value <;> rfl

lemma solo_reportFiles_ok {ps : List Path} {ds : Digests}
    (h : Digests.declareAll w.disk f.digests ps = .ok ds) :
    (reportFiles ps).solo f w = (.ok (), { f with digests := ds }, w) := by
  induction ps generalizing f with
  | nil =>
      cases h
      rfl
  | cons p rest ih =>
      obtain ⟨ds₁, hp, h⟩ := Digests.declareAll_cons h
      have hfirst : (reportFile p).solo f w = (.ok (), { f with digests := ds₁ }, w) := by
        rw [solo_reportFile, hp]
      rw [reportFiles, solo_bind_ok (solitary_reportFile p) hfirst]
      exact ih h

lemma solo_reportFiles_error {ps : List Path} {fault : AccessFault}
    (h : Digests.declareAll w.disk f.digests ps = .error fault) :
    ∃ f', (reportFiles ps).solo f w = (.error (.input (.access fault)), f', w) := by
  induction ps generalizing f with
  | nil => simp [Digests.declareAll] at h
  | cons p rest ih =>
      rw [Digests.declareAll] at h
      rw [reportFiles]
      cases hp : (Digests.declare w.disk f.digests p).run.value with
      | error fault' =>
          rw [hp, Except.bind, Except.error.injEq] at h
          have hfirst : (reportFile p).solo f w = (.error (.input (.access fault)), f, w) := by
            rw [solo_reportFile, hp, h]
          exact ⟨f, solo_bind_error (solitary_reportFile p) hfirst _⟩
      | ok ds₁ =>
          rw [hp] at h
          have hfirst : (reportFile p).solo f w = (.ok (), { f with digests := ds₁ }, w) := by
            rw [solo_reportFile, hp]
          rw [solo_bind_ok (solitary_reportFile p) hfirst]
          exact ih h

/-! ## All that can come of a fetch -/

/-- The manifests of the members that have a package. -/
def memberManifests (m : Metadata) : List Path := m.memberPackages.map (·.manifestPath)

/-- The files that a document depends on. -/
def tracked (p lock : Path) (m : Metadata) : List Path := [p, lock] ++ memberManifests m

/-- The files that are reported with the outcome of a run. -/
def reported (p lock : Path) : Except ToolchainFault Metadata → List Path
  | .ok m => tracked p lock m
  | .error _ => [p, lock]

/-- Scarb gives a document for a project with a lock file.  The manifest and the lock file have some
digests before the run, and the manifests of the members after it. -/
structure Fetched (t : Toolchain) (w : World Machine) (p lock : Path) (m : Metadata)
    (before after : Digests) : Prop where
  beside : Manifest.lockPath? p = some lock
  outcome : (t.metadata p w).value.1 = .ok m
  first : Digests.declareAll w.disk [] [p, lock] = .ok before
  members : Digests.declareAll (t.metadata p w).value.2.disk before (memberManifests m) = .ok after

/-- Scarb gives no document for a project with a lock file, though running it does not break off. -/
structure Unfetched (t : Toolchain) (w : World Machine) (p lock : Path) (fault : ToolchainFault)
    (before : Digests) : Prop where
  beside : Manifest.lockPath? p = some lock
  outcome : (t.metadata p w).value.1 = .error fault
  whole : fault.process? = none
  first : Digests.declareAll w.disk [] [p, lock] = .ok before

/-- Running Scarb for a manifest breaks off. -/
def Breaks (t : Toolchain) (w : World Machine) (p : Path) : Prop :=
  ∃ fault, (t.metadata p w).value.1 = .error (.process fault)

/-- Nothing is in the way of a fetch: all files that are reported can be looked at, and running Scarb
does not break off. -/
def Unhindered (t : Toolchain) (w : World Machine) (p : Path) : Prop :=
  ¬Breaks t w p ∧ ∃ lock, Manifest.lockPath? p = some lock ∧
    ∀ f ∈ reported p lock (t.metadata p w).value.1, Disk.holdsNul f = false

/-- What is fetched, once the manifest and the lock file have been reported. -/
lemma solo_fetch {lock : Path} {ds : Digests} (hlock : Manifest.lockPath? p = some lock)
    (hds : Digests.declareAll w.disk f.digests [p, lock] = .ok ds) :
    (fetch t (.scarb p)).solo f w =
      (settleFetch p (t.metadata p w).value.1).solo (Frame.lower { f with digests := ds } .low)
        (t.metadata p w).value.2 := by
  obtain ⟨ds₁, hp, hds⟩ := Digests.declareAll_cons hds
  obtain ⟨ds₂, hl, hds⟩ := Digests.declareAll_cons hds
  cases hds
  have hfirst : (reportFile p).solo f w = (.ok (), { f with digests := ds₁ }, w) := by
    rw [solo_reportFile, hp]
  have hsecond : (reportFile lock).solo { f with digests := ds₁ } w =
      (.ok (), { f with digests := ds }, w) := by
    rw [solo_reportFile, hl]
  rw [fetch, solo_bind_ok (solitary_reportFile p) hfirst, hlock,
    solo_bind_ok (solitary_reportFile lock) hsecond]
  rfl

/-- Nothing is fetched without a lock file, or if it or the manifest cannot be looked at. -/
lemma solo_fetch_refused
    (h : ∀ lock, Manifest.lockPath? p = some lock →
      ∃ fault, Digests.declareAll w.disk f.digests [p, lock] = .error fault) :
    ∃ e f', (fetch t (.scarb p)).solo f w = (.error e, f', w) := by
  rw [fetch]
  cases hp : (Digests.declare w.disk f.digests p).run.value with
  | error fault =>
      have hfirst : (reportFile p).solo f w = (.error (.input (.access fault)), f, w) := by
        rw [solo_reportFile, hp]
      exact ⟨_, f, solo_bind_error (solitary_reportFile p) hfirst _⟩
  | ok ds₁ =>
      have hfirst : (reportFile p).solo f w = (.ok (), { f with digests := ds₁ }, w) := by
        rw [solo_reportFile, hp]
      rw [solo_bind_ok (solitary_reportFile p) hfirst]
      cases hlock : Manifest.lockPath? p with
      | none => exact ⟨_, _, rfl⟩
      | some lock =>
          obtain ⟨fault, hl⟩ := h lock hlock
          rw [Digests.declareAll, hp] at hl
          have hl : Digests.declareAll w.disk ds₁ [lock] = .error fault := hl
          rw [Digests.declareAll] at hl
          cases hsecond : (Digests.declare w.disk ds₁ lock).run.value with
          | ok ds₂ => simp [hsecond, Except.bind, Digests.declareAll] at hl
          | error fault' =>
              have hreport : (reportFile lock).solo { f with digests := ds₁ } w =
                  (.error (.input (.access fault')), { f with digests := ds₁ }, w) := by
                rw [solo_reportFile, hsecond]
              exact ⟨_, _, solo_bind_error (solitary_reportFile lock) hreport _⟩

/-- A document is what is fetched, with the digests of all files that it depends on. -/
lemma Fetched.solo_fetch {lock : Path} {m : Metadata} {before after : Digests}
    (h : Fetched t w p lock m before after) (q : Question Subject) :
    (fetch t (.scarb p)).solo (Frame.start q) w =
      (.ok (some m), ⟨q, after, .low, false⟩, (t.metadata p w).value.2) := by
  have hrest := solo_reportFiles_ok (f := ⟨q, before, .low, false⟩) h.members
  rw [Database.solo_fetch (f := Frame.start q) h.beside h.first, h.outcome, settleFetch]
  exact solo_bind_ok (solitary_reportFiles _) hrest _

/-- Without a document nothing is fetched, and that holds for once only. -/
lemma Unfetched.solo_fetch {lock : Path} {fault : ToolchainFault} {before : Digests}
    (h : Unfetched t w p lock fault before) (q : Question Subject) :
    (fetch t (.scarb p)).solo (Frame.start q) w =
      (.ok none, ⟨q, before, .low, true⟩, (t.metadata p w).value.2) := by
  rw [Database.solo_fetch (f := Frame.start q) h.beside h.first, h.outcome, settleFetch, h.whole]
  rfl

/-- A run that breaks off is the end of a fetch. -/
lemma solo_fetch_broken {lock : Path} {ds : Digests} {fault : ProcessFault}
    (hlock : Manifest.lockPath? p = some lock)
    (hbroken : (t.metadata p w).value.1 = .error (.process fault))
    (hds : Digests.declareAll w.disk [] [p, lock] = .ok ds) (q : Question Subject) :
    (fetch t (.scarb p)).solo (Frame.start q) w =
      (.error (.raised (.process fault)), ⟨q, ds, .low, false⟩, (t.metadata p w).value.2) := by
  rw [solo_fetch (f := Frame.start q) hlock hds, hbroken]
  rfl

lemma solo_fetch_unmentionable {lock : Path} {m : Metadata} {ds : Digests} {fault : AccessFault}
    (hlock : Manifest.lockPath? p = some lock) (hm : (t.metadata p w).value.1 = .ok m)
    (hds : Digests.declareAll w.disk [] [p, lock] = .ok ds)
    (hafter : Digests.declareAll (t.metadata p w).value.2.disk ds (memberManifests m) =
      .error fault) (q : Question Subject) :
    ∃ f' w', (fetch t (.scarb p)).solo (Frame.start q) w =
      (.error (.input (.access fault)), f', w') := by
  obtain ⟨f', hrest⟩ := solo_reportFiles_error (f := ⟨q, ds, .low, false⟩) hafter
  rw [solo_fetch (f := Frame.start q) hlock hds, hm, settleFetch]
  exact ⟨f', _, solo_bind_error (solitary_reportFiles _) hrest _⟩

lemma not_unhindered {lock g : Path} (hlock : Manifest.lockPath? p = some lock)
    (hg : g ∈ reported p lock (t.metadata p w).value.1) (hn : Disk.holdsNul g = true) :
    ¬Unhindered t w p := by
  rintro ⟨-, lock', hlock', hall⟩
  obtain rfl := Option.some.inj (hlock.symm.trans hlock')
  rw [hall g hg] at hn
  cases hn

lemma mem_reported {lock g : Path} (hg : g ∈ [p, lock])
    (outcome : Except ToolchainFault Metadata) : g ∈ reported p lock outcome := by
  cases outcome with
  | error fault => exact hg
  | ok m => exact List.mem_append_left _ hg

/-- **All that can come of fetching metadata:** a failure, if a file that is reported cannot be
looked at or the run breaks off; nothing for now, if Scarb fails; and else a document. -/
theorem fetch_cases (t : Toolchain) (w : World Machine) (p : Path) (q : Question Subject) :
    (∃ e f' w', (fetch t (.scarb p)).solo (Frame.start q) w = (.error e, f', w') ∧
      ¬Unhindered t w p) ∨
    (∃ lock fault ds, Unfetched t w p lock fault ds ∧
      (fetch t (.scarb p)).solo (Frame.start q) w =
        (.ok none, ⟨q, ds, .low, true⟩, (t.metadata p w).value.2)) ∨
    ∃ lock m before after, Fetched t w p lock m before after ∧
      (fetch t (.scarb p)).solo (Frame.start q) w =
        (.ok (some m), ⟨q, after, .low, false⟩, (t.metadata p w).value.2) := by
  -- Scarb runs only if the manifest and the lock file have been reported.
  by_cases hds : ∃ lock ds, Manifest.lockPath? p = some lock ∧
      Digests.declareAll w.disk [] [p, lock] = .ok ds
  · obtain ⟨lock, ds, hlock, hds⟩ := hds
    cases hm : (t.metadata p w).value.1 with
    | error fault =>
        cases hwhole : fault.process? with
        | none =>
            have h : Unfetched t w p lock fault ds := ⟨hlock, hm, hwhole, hds⟩
            exact Or.inr (Or.inl ⟨lock, fault, ds, h, h.solo_fetch q⟩)
        | some broken =>
            obtain rfl := ToolchainFault.process?_eq_some_iff.1 hwhole
            exact Or.inl ⟨_, _, _, solo_fetch_broken hlock hm hds q, fun h => h.1 ⟨broken, hm⟩⟩
    | ok m =>
        cases hafter : Digests.declareAll (t.metadata p w).value.2.disk ds (memberManifests m) with
        | error fault =>
            obtain ⟨f', w', hfetch⟩ := solo_fetch_unmentionable hlock hm hds hafter q
            obtain ⟨g, hg, hnul⟩ := Digests.declareAll_error hafter
            refine Or.inl ⟨_, f', w', hfetch, not_unhindered hlock ?_ hnul⟩
            rw [hm]
            exact List.mem_append_right _ hg
        | ok after =>
            have h : Fetched t w p lock m ds after := ⟨hlock, hm, hds, hafter⟩
            exact Or.inr (Or.inr ⟨lock, m, ds, after, h, h.solo_fetch q⟩)
  · have hfault : ∀ lock, Manifest.lockPath? p = some lock →
        ∃ fault, Digests.declareAll w.disk (Frame.start q).digests [p, lock] = .error fault := by
      intro lock hlock
      cases hd : Digests.declareAll w.disk (Frame.start q).digests [p, lock] with
      | error fault => exact ⟨fault, rfl⟩
      | ok ds => exact absurd ⟨lock, ds, hlock, hd⟩ hds
    obtain ⟨e, f', hfetch⟩ := solo_fetch_refused hfault
    refine Or.inl ⟨e, f', w, hfetch, ?_⟩
    rintro ⟨hwhole, lock, hlock, hall⟩
    obtain ⟨fault, hd⟩ := hfault lock hlock
    obtain ⟨g, hg, hnul⟩ := Digests.declareAll_error hd
    exact not_unhindered hlock (mem_reported hg _) hnul ⟨hwhole, lock, hlock, hall⟩

/-! ## The answer -/

lemma solo_computeMetadata (t : Toolchain) (m : Manifest) (f : Frame Subject)
    (w : World Machine) :
    (computeMetadata t m).solo f w =
      (((fetch t m).solo f w).1.map Answer.metadata, ((fetch t m).solo f w).2) := by
  rw [computeMetadata, solo_bind (solitary_fetch t m)]
  rcases (fetch t m).solo f w with ⟨_ | r, f', w'⟩ <;> rfl

lemma Unfetched.mem_files {lock : Path} {fault : ToolchainFault} {before : Digests}
    (h : Unfetched t w p lock fault before) (g : Path) : g ∈ before.files ↔ g ∈ [p, lock] := by
  rw [Digests.mem_files_declareAll h.first]
  exact or_iff_right List.not_mem_nil

lemma Fetched.mem_files {lock : Path} {m : Metadata} {before after : Digests}
    (h : Fetched t w p lock m before after) (g : Path) :
    g ∈ after.files ↔ g ∈ tracked p lock m := by
  rw [Digests.mem_files_declareAll h.members, Digests.mem_files_declareAll h.first, tracked,
    List.mem_append]
  exact or_congr_left (or_iff_right List.not_mem_nil)

lemma Unfetched.sound {lock : Path} {fault : ToolchainFault} {before : Digests}
    (h : Unfetched t w p lock fault before) : before.Sound := Digests.sound_nil.declareAll h.first

lemma Fetched.sound {lock : Path} {m : Metadata} {before after : Digests}
    (h : Fetched t w p lock m before after) : after.Sound :=
  (Digests.sound_nil.declareAll h.first).declareAll h.members

end Database

end ScarbCrates
