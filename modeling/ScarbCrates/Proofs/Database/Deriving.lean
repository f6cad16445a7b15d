import ScarbCrates.Proofs.Database.Fetching

/-!
# What crates depend on

Crates depend on whatever the metadata depends on, and on nothing else that is reported.  Besides,
they depend on the source files of the components, which are looked at without a report.

* `Derivation.SameChecks` — two disks on which the source files of a document fare alike.
* `Derivation.crates_congr` — they have the same crates for the document.
* `Derivation.crates_value` — the crates, component by component.
* `Database.eval_computeCrates` — the answer to the crates query from that to the metadata query.
-/

namespace ScarbCrates

namespace SourceRoot

lemma check_of_nul {d : Disk} {p : Path} {name : String} (h : Disk.holdsNul p = true) :
    check d p name = .error .nul := by
  rw [check, (d.stat_eq_nul_iff p).2 h]

/-- Every other path is accepted or rejected. -/
lemma exists_check (d : Disk) {p : Path} (name : String) (h : Disk.holdsNul p = false) :
    ∃ outcome, check d p name = .ok outcome := by
  rw [check]
  cases hs : d.stat p with
  | ok node => exact ⟨_, rfl⟩
  | error fault =>
      cases fault with
      | os errno path => exact ⟨_, rfl⟩
      | nul =>
          rw [d.stat_eq_nul_iff, h] at hs
          simp at hs

end SourceRoot

namespace Derivation

open Metadata

/-- The source file of every component of a document has the same outcome on two disks. -/
def SameChecks (d d' : Disk) (m : Metadata) : Prop :=
  ∀ unit ∈ m.compilationUnits, ∀ c ∈ unit.components,
    SourceRoot.check d' c.sourcePath c.name = SourceRoot.check d c.sourcePath c.name

variable {d d' : Disk} {m : Metadata}

lemma componentCrate_congr {unit : CompilationUnit} {c : Component}
    (h : SourceRoot.check d' c.sourcePath c.name = SourceRoot.check d c.sourcePath c.name) :
    componentCrate d' m unit c = componentCrate d m unit c := by
  rw [componentCrate, componentCrate, h]

lemma componentCrates_congr {unit : CompilationUnit} {cs : List Component}
    (h : ∀ c ∈ cs,
      SourceRoot.check d' c.sourcePath c.name = SourceRoot.check d c.sourcePath c.name) :
    componentCrates d' m unit cs = componentCrates d m unit cs := by
  induction cs with
  | nil => rfl
  | cons c rest ih =>
      rw [componentCrates, componentCrates, componentCrate_congr (h c List.mem_cons_self),
        ih fun c hc => h c (List.mem_cons_of_mem _ hc)]

lemma unitsCrates_congr {units : List CompilationUnit}
    (h : ∀ unit ∈ units, ∀ c ∈ unit.components,
      SourceRoot.check d' c.sourcePath c.name = SourceRoot.check d c.sourcePath c.name) :
    unitsCrates d' m units = unitsCrates d m units := by
  induction units with
  | nil => rfl
  | cons unit rest ih =>
      have hunit : unitCrates d' m unit = unitCrates d m unit := by
        rw [unitCrates, unitCrates, componentCrates_congr (h unit List.mem_cons_self)]
      rw [unitsCrates, unitsCrates, hunit, ih fun u hu => h u (List.mem_cons_of_mem _ hu)]

/-- **The crates of a document** are the same wherever its source files fare alike. -/
lemma crates_congr (h : SameChecks d d' m) : crates d' m = crates d m := by
  rw [crates, crates, unitsCrates_congr h]

/-! ## The crates as values -/

/-- The crate of a component whose source file is accepted. -/
def crateOf (d : Disk) (m : Metadata) (unit : CompilationUnit) (c : Component) : Option Crate :=
  match SourceRoot.check d c.sourcePath c.name with
  | .ok (.ok source) =>
    some ⟨c.name, source.root, customStem source.stem,
      (CrateSettings.ofMetadata (m.package? c.package) unit c).value⟩
  | _ => none

/-- The crates of a unit: one for each component whose source file is accepted. -/
def cratesOfUnit (d : Disk) (m : Metadata) (unit : CompilationUnit) : List Crate :=
  if unit.target.kind = pluginKind then [] else unit.components.filterMap (crateOf d m unit)

/-- The source files of a unit; a compiler plugin has none that are looked at. -/
def sourcesOf (unit : CompilationUnit) : List Path :=
  if unit.target.kind = pluginKind then [] else unit.components.map (·.sourcePath)

/-- The source files that a derivation looks at. -/
def sources (m : Metadata) : List Path := m.compilationUnits.flatMap sourcesOf

lemma componentCrate_value (d : Disk) (m : Metadata) (unit : CompilationUnit) (c : Component) :
    (componentCrate d m unit c).run.value =
      if Disk.holdsNul c.sourcePath then .error .nul else .ok (crateOf d m unit c) := by
  have hvalue : (componentCrate d m unit c).run.value =
      (SourceRoot.check d c.sourcePath c.name).map fun outcome =>
        outcome.toOption.map fun source => ⟨c.name, source.root, customStem source.stem,
          (CrateSettings.ofMetadata (m.package? c.package) unit c).value⟩ := by
    rw [componentCrate]
    cases m.package? c.package <;>
      rcases SourceRoot.check d c.sourcePath c.name with fault | rejection | source <;> rfl
  rw [hvalue, crateOf]
  cases hn : Disk.holdsNul c.sourcePath with
  | true =>
      rw [SourceRoot.check_of_nul hn]
      rfl
  | false =>
      obtain ⟨outcome, h⟩ := SourceRoot.exists_check d c.name hn
      rw [h]
      cases outcome <;> rfl

lemma componentCrates_value (d : Disk) (m : Metadata) (unit : CompilationUnit)
    (cs : List Component) :
    (componentCrates d m unit cs).run.value =
      if cs.any fun c => Disk.holdsNul c.sourcePath then .error .nul
      else .ok (cs.filterMap (crateOf d m unit)) := by
  induction cs with
  | nil => rfl
  | cons c rest ih =>
      rw [componentCrates, Noted.value_run_bind, componentCrate_value, List.any_cons]
      cases Disk.holdsNul c.sourcePath with
      | true => rfl
      | false =>
          show ((componentCrates d m unit rest >>= _ : ExceptT AccessFault Noted _)).run.value = _
          rw [Noted.value_run_bind, ih, Bool.false_or]
          split
          · rfl
          · rw [List.filterMap_cons]
            cases crateOf d m unit c <;> rfl

lemma unitCrates_value (d : Disk) (m : Metadata) (unit : CompilationUnit) :
    (unitCrates d m unit).run.value =
      if (sourcesOf unit).any Disk.holdsNul then .error .nul else .ok (cratesOfUnit d m unit) := by
  rw [unitCrates, cratesOfUnit, sourcesOf]
  split
  · rfl
  · rw [componentCrates_value, List.any_map]
    rfl

lemma unitsCrates_value (d : Disk) (m : Metadata) (units : List CompilationUnit) :
    (unitsCrates d m units).run.value =
      if (units.flatMap sourcesOf).any Disk.holdsNul then .error .nul
      else .ok (units.flatMap (cratesOfUnit d m)) := by
  induction units with
  | nil => rfl
  | cons unit rest ih =>
      rw [unitsCrates, Noted.value_run_bind, unitCrates_value, List.flatMap_cons, List.any_append]
      cases (sourcesOf unit).any Disk.holdsNul with
      | true => rfl
      | false =>
          show ((unitsCrates d m rest >>= _ : ExceptT AccessFault Noted _)).run.value = _
          rw [Noted.value_run_bind, ih, Bool.false_or]
          split <;> rfl

/-- **The crates of a document:** none at all if a source file cannot even be looked at; otherwise
those of the accepted source files, in order. -/
theorem crates_value (d : Disk) (m : Metadata) :
    (crates d m).run.value =
      if (sources m).any Disk.holdsNul then .error .nul
      else .ok (m.compilationUnits.flatMap (cratesOfUnit d m)) := by
  rw [crates, Noted.value_run_bind, unitsCrates_value, sources]
  split
  · rfl
  · simp only [Except.bind]
    split <;> rfl

end Derivation

namespace Database

open ScarbCrates.Computation

variable {t : Toolchain} {w : World Machine} {m : Manifest}

/-- The crates that are derived from metadata, if there is any. -/
def cratesOf (d : Disk) : Option Metadata → Except AccessFault (List Crate)
  | none => .ok []
  | some doc => (Derivation.crates d doc).run.value

lemma eval_metadata (t : Toolchain) (w : World Machine) (m : Manifest) :
    (metadata t m).eval w .start =
      match (computeMetadata t m).answer w with
      | .error f => (.error f, .start)
      | .ok (a, u) => (.ok a.metadata?, u) := by
  rw [metadata, eval_bind, eval_ask]
  cases (computeMetadata t m).answer w <;> rfl

lemma eval_derive (doc : Metadata) (w : World Machine) (u : Tally) :
    (derive doc).eval w u =
      ((cratesOf w.disk (some doc)).mapError fun fault => .input (.access fault), u) := by
  rw [derive, eval_bind_ok (show (act _).eval w u = (.ok (cratesOf w.disk (some doc)), u) from rfl)]
  cases cratesOf w.disk (some doc) <;> rfl

/-- **The crates query adds nothing to what the metadata query reports.** -/
lemma eval_computeCrates (t : Toolchain) (w : World Machine) (m : Manifest) :
    (computeCrates t m).eval w .start =
      match (computeMetadata t m).answer w with
      | .error f => (.error f, .start)
      | .ok (a, u) =>
        (((cratesOf w.disk a.metadata?).map Answer.crates).mapError fun fault =>
          .input (.access fault), u) := by
  rw [computeCrates, eval_bind, eval_metadata]
  cases (computeMetadata t m).answer w with
  | error f => rfl
  | ok out =>
      obtain ⟨a, u⟩ := out
      cases hdoc : a.metadata? with
      | none => simp only [hdoc]; rfl
      | some doc =>
          simp only [hdoc, eval_bind, eval_derive]
          cases cratesOf w.disk (some doc) <;> rfl

end Database

end ScarbCrates
