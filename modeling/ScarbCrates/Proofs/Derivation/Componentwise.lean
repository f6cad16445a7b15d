import ScarbCrates.Proofs.Database.Deriving
import ScarbCrates.Proofs.Query.History

/-!
# Crates component by component

The crates of a document are those of its components, one after the other.  What becomes of one
component depends on nothing but itself, the flags of its unit, its package, and what is found at
its source file; so that whatever is wrong with it is its own affair.

* `Derivation.placed` — the components that crates are made of, in the order of the document.
* `Derivation.crateFrom` — the crate of one component.
* `Derivation.Rejects` — the notices that a source file was rejected.
* `Derivation.crates_componentwise` — the crates, the warnings, and what a change to some components
  leaves alone.
-/

namespace ScarbCrates

/-- A step that succeeds goes on with the next one, and the notices of both come in order. -/
lemma Noted.notices_run_bind {ε α β : Type} {x : ExceptT ε Noted α} {a : α}
    (h : x.run.value = .ok a) (f : α → ExceptT ε Noted β) :
    (x >>= f).run.notices = x.run.notices ++ (f a).run.notices := by
  show x.run.notices ++ (ExceptT.bindCont f x.run.value).notices = _
  rw [h]
  rfl

/-- The text of every rejection begins with one of four letters. -/
lemma Rejection.head_reason (r : Rejection) :
    r.reason.toList.head? ∈ [some 'i', some 's', some 'u', some 'f'] := by
  obtain ⟨name, path, cause⟩ := r
  cases cause <;> simp [reason, String.toList_append]

namespace CrateSettings

/-- Notices about settings say that they are. -/
lemma origin_of_mem_notices {package : Option Metadata.Package} {unit : Metadata.CompilationUnit}
    {c : Metadata.Component} {n : Notice} (h : n ∈ (ofMetadata package unit c).notices) :
    n.origin = origin := by
  have hcases : n ∈ (editionOf package c.name).notices ∨
      n ∈ (cfgSetOf (c.cfg.getD unit.cfg) c.name).notices := by
    simpa [ofMetadata] using h
  rcases hcases with h | h
  · rw [editionOf] at h
    split at h
    · cases h
    · split at h
      · cases h
      · obtain rfl := List.mem_singleton.1 h
        rfl
  · rw [cfgSetOf] at h
    split at h
    · cases h
    · obtain rfl := List.mem_singleton.1 h
      rfl

end CrateSettings

namespace Derivation

open Metadata

/-! ## Components in their places -/

/-- The components of a unit, each with the flags of the unit; a compiler plugin has none. -/
def placedIn (unit : CompilationUnit) : List (List Datum × Component) :=
  if unit.target.kind = pluginKind then [] else unit.components.map fun c => (unit.cfg, c)

/-- **The components that crates are made of,** in the order of the units and their components. -/
def placed (m : Metadata) : List (List Datum × Component) := m.compilationUnits.flatMap placedIn

/-- **The crate of a component,** from its package, the flags of its unit, what is found at its
source file, and the component itself. -/
def crateFrom (package : Option Package) (flags : List Datum) (found : Except AccessFault Node)
    (c : Component) : Option Crate :=
  match found.toOption.map (SourceRoot.ofNode c.sourcePath) with
  | some (.ok source) =>
    some ⟨c.name, source.root, customStem source.stem,
      ⟨(CrateSettings.editionOf package c.name).value,
        (CrateSettings.cfgSetOf (c.cfg.getD flags) c.name).value,
        CrateSettings.featuresOf package⟩⟩
  | _ => none

/-- The crate of a component of a document on a disk. -/
def crateAt (d : Disk) (m : Metadata) (x : List Datum × Component) : Option Crate :=
  crateFrom (m.package? x.2.package) x.1 (d.stat x.2.sourcePath) x.2

variable {d : Disk} {m : Metadata}

lemma crateOf_eq_crateAt (d : Disk) (m : Metadata) (unit : CompilationUnit) (c : Component) :
    crateOf d m unit c = crateAt d m (unit.cfg, c) := by
  rw [crateOf, crateAt, crateFrom, SourceRoot.check]
  rcases d.stat c.sourcePath with (_ | _) | node
  · rfl
  · rfl
  · cases h : SourceRoot.ofNode c.sourcePath node <;> simp [Except.toOption, Except.mapError, h]
    rfl

lemma filterMap_placedIn (d : Disk) (m : Metadata) (unit : CompilationUnit) :
    (placedIn unit).filterMap (crateAt d m) = cratesOfUnit d m unit := by
  rw [placedIn, cratesOfUnit]
  split
  · rfl
  · rw [List.filterMap_map]
    exact List.filterMap_congr fun c _ => (crateOf_eq_crateAt d m unit c).symm

lemma filterMap_placed (d : Disk) (m : Metadata) :
    (placed m).filterMap (crateAt d m) = m.compilationUnits.flatMap (cratesOfUnit d m) := by
  rw [placed, List.filterMap_flatMap]
  simp only [filterMap_placedIn]

lemma map_placed (m : Metadata) : (placed m).map (fun x => x.2.sourcePath) = sources m := by
  rw [placed, sources, List.map_flatMap]
  congr 1
  funext unit
  rw [placedIn, sourcesOf]
  split
  · rfl
  · rw [List.map_map]
    rfl

lemma crates_value_of_nulFree (h : ∀ x ∈ placed m, Disk.holdsNul x.2.sourcePath = false) :
    (crates d m).run.value = .ok ((placed m).filterMap (crateAt d m)) := by
  have hnone : (sources m).any Disk.holdsNul = false := by
    rw [← map_placed]
    simpa using h
  rw [crates_value, hnone, filterMap_placed]
  rfl

/-! ## Notices -/

/-- What is said about a component whose package is unknown. -/
def missingPackage (name : String) : Notice :=
  ⟨.warning, origin, "package for component is missing in scarb metadata: " ++ name⟩

/-- What is said about a component whose source file is rejected. -/
def rejectionAt (d : Disk) (c : Component) : Option Notice :=
  match SourceRoot.check d c.sourcePath c.name with
  | .ok (.error r) => some ⟨.warning, origin, r.reason⟩
  | _ => none

/-- A warning that a source file was rejected. -/
def Rejects (n : Notice) : Prop :=
  n.level = .warning ∧ n.origin = origin ∧ ∃ r : Rejection, n.message = r.reason

noncomputable instance : DecidablePred Rejects := fun _ => Classical.propDecidable _

/-- All that is said about a component. -/
lemma notices_componentCrate (d : Disk) (m : Metadata) (unit : CompilationUnit) (c : Component) :
    ∃ said : List Notice, (∀ n ∈ said, n.origin = CrateSettings.origin) ∧
      (componentCrate d m unit c).run.notices =
        (if (m.package? c.package).isNone then [missingPackage c.name] else []) ++
          (rejectionAt d c).toList ++ said := by
  have hnone : ∀ n ∈ ([] : List Notice), n.origin = CrateSettings.origin := fun _ hn =>
    absurd hn List.not_mem_nil
  rw [componentCrate, rejectionAt]
  rcases SourceRoot.check d c.sourcePath c.name with fault | rejection | source
  · refine ⟨[], hnone, ?_⟩
    cases m.package? c.package <;> rfl
  · refine ⟨[], hnone, ?_⟩
    cases m.package? c.package <;> rfl
  · let settings := CrateSettings.ofMetadata (m.package? c.package) unit c
    refine ⟨settings.notices, fun n => CrateSettings.origin_of_mem_notices, ?_⟩
    have hpure : ∀ ns : List Notice, ns ++ [] ++ [] = ns := by simp
    cases hp : m.package? c.package with
    | none =>
        simp only [settings, hp]
        exact congrArg (missingPackage c.name :: ·) (hpure _)
    | some package =>
        simp only [settings, hp]
        exact hpure _

lemma notices_componentCrates {unit : CompilationUnit} {cs : List Component}
    (h : ∀ c ∈ cs, Disk.holdsNul c.sourcePath = false) :
    (componentCrates d m unit cs).run.notices =
      cs.flatMap fun c => (componentCrate d m unit c).run.notices := by
  induction cs with
  | nil => rfl
  | cons c rest ih =>
      rw [List.forall_mem_cons] at h
      have hc : (componentCrate d m unit c).run.value = .ok (crateOf d m unit c) := by
        rw [componentCrate_value, h.1]
        rfl
      have hrest : (componentCrates d m unit rest).run.value =
          .ok (rest.filterMap (crateOf d m unit)) := by
        rw [componentCrates_value, List.any_eq_false.2 (by simpa using h.2)]
        rfl
      rw [componentCrates, Noted.notices_run_bind hc, Noted.notices_run_bind hrest, ih h.2]
      exact congrArg _ (List.append_nil _)

lemma notices_unitsCrates {units : List CompilationUnit}
    (h : ∀ unit ∈ units, ∀ p ∈ sourcesOf unit, Disk.holdsNul p = false) :
    (unitsCrates d m units).run.notices =
      units.flatMap fun unit => (unitCrates d m unit).run.notices := by
  induction units with
  | nil => rfl
  | cons unit rest ih =>
      rw [List.forall_mem_cons] at h
      have hunit : (unitCrates d m unit).run.value = .ok (cratesOfUnit d m unit) := by
        rw [unitCrates_value, List.any_eq_false.2 (by simpa using h.1)]
        rfl
      have hrest : (unitsCrates d m rest).run.value = .ok (rest.flatMap (cratesOfUnit d m)) := by
        rw [unitsCrates_value, List.any_eq_false.2 (by simpa using fun p u hu hp => h.2 u hu p hp)]
        rfl
      rw [unitsCrates, Noted.notices_run_bind hunit, Noted.notices_run_bind hrest, ih h.2]
      exact congrArg _ (List.append_nil _)

/-- What is said about a compiler plugin. -/
def skipping (unit : CompilationUnit) : Notice :=
  ⟨.debug, origin, "skipping cairo plugin compilation unit: " ++ unit.id⟩

lemma notices_unitCrates {unit : CompilationUnit}
    (h : ∀ p ∈ sourcesOf unit, Disk.holdsNul p = false) :
    (unitCrates d m unit).run.notices =
      if unit.target.kind = pluginKind then [skipping unit]
      else unit.components.flatMap fun c => (componentCrate d m unit c).run.notices := by
  rw [unitCrates]
  rw [sourcesOf] at h
  split_ifs at h ⊢
  · rfl
  · exact notices_componentCrates (by simpa using h)

/-! ## Which notices are about a rejection -/

lemma not_rejects_of_head {n : Notice} {a : Char} (h : n.message.toList.head? = some a)
    (ha : a ∉ ['i', 's', 'u', 'f']) : ¬Rejects n := by
  rintro ⟨-, -, r, hr⟩
  have hhead := r.head_reason
  rw [← hr, h] at hhead
  simp_all

lemma not_rejects_missingPackage (name : String) : ¬Rejects (missingPackage name) :=
  not_rejects_of_head (a := 'p') (by simp [missingPackage, String.toList_append]) (by decide)

/-- The warning about the standard library. -/
def unmanaged : Notice := ⟨.warning, origin, missingCore⟩

lemma not_rejects_unmanaged : ¬Rejects unmanaged :=
  not_rejects_of_head (a := 't') (by simp [unmanaged, missingCore]) (by decide)

lemma rejects_rejectionAt {n : Notice} {c : Component} (h : n ∈ rejectionAt d c) : Rejects n := by
  rw [rejectionAt] at h
  split at h
  · obtain rfl := Option.some.inj h
    exact ⟨rfl, rfl, _, rfl⟩
  · cases h

lemma not_rejects_of_settings {n : Notice} (h : n.origin = CrateSettings.origin) : ¬Rejects n := by
  rintro ⟨-, horigin, -⟩
  rw [h] at horigin
  exact absurd horigin (by decide)

lemma unmanaged_not_mem (d : Disk) (m : Metadata) (unit : CompilationUnit) (c : Component) :
    unmanaged ∉ (componentCrate d m unit c).run.notices := by
  obtain ⟨said, hsaid, hnotices⟩ := notices_componentCrate d m unit c
  rw [hnotices, List.mem_append, List.mem_append]
  rintro ((h | h) | h)
  · split at h
    · have hhead := congrArg (fun n : Notice => n.message.toList.head?) (List.mem_singleton.1 h)
      simp [unmanaged, missingCore, missingPackage, String.toList_append] at hhead
    · cases h
  · exact not_rejects_unmanaged (rejects_rejectionAt (Option.mem_toList.1 h))
  · exact absurd (hsaid _ h) (by decide)

lemma rejections_componentCrate (d : Disk) (m : Metadata) (unit : CompilationUnit) (c : Component) :
    (componentCrate d m unit c).run.notices.filter Rejects = (rejectionAt d c).toList := by
  obtain ⟨said, hsaid, hnotices⟩ := notices_componentCrate d m unit c
  -- An unknown package comes first, then the rejection, and what is about settings last.
  have hpackage : (if (m.package? c.package).isNone then [missingPackage c.name] else []).filter
      Rejects = [] := by
    split <;> simp [not_rejects_missingPackage]
  have hrejection : (rejectionAt d c).toList.filter Rejects = (rejectionAt d c).toList := by
    refine List.filter_eq_self.2 fun n hn => ?_
    simpa using rejects_rejectionAt (Option.mem_toList.1 hn)
  have hrest : said.filter Rejects = [] := by
    refine List.filter_eq_nil_iff.2 fun n hn => ?_
    simpa using not_rejects_of_settings (hsaid n hn)
  rw [hnotices, List.filter_append, List.filter_append, hpackage, hrejection, hrest,
    List.nil_append, List.append_nil]

/-! ## All that is said about a document -/

/-- A document whose source files can be looked at. -/
def NulFree (m : Metadata) : Prop := ∀ x ∈ placed m, Disk.holdsNul x.2.sourcePath = false

lemma NulFree.sourcesOf (h : NulFree m) :
    ∀ unit ∈ m.compilationUnits, ∀ p ∈ sourcesOf unit, Disk.holdsNul p = false := by
  intro unit hunit p hp
  have hmem : p ∈ sources m := List.mem_flatMap.2 ⟨unit, hunit, hp⟩
  rw [← map_placed] at hmem
  obtain ⟨x, hx, rfl⟩ := List.mem_map.1 hmem
  exact h x hx

/-- The units one after the other, and at the end whether there is a standard library. -/
lemma notices_crates (h : NulFree m) : (crates d m).run.notices =
    (m.compilationUnits.flatMap fun unit => (unitCrates d m unit).run.notices) ++
      if ((placed m).filterMap (crateAt d m)).any Crate.isCore then [] else [unmanaged] := by
  have hvalue : (unitsCrates d m m.compilationUnits).run.value =
      .ok ((placed m).filterMap (crateAt d m)) := by
    rw [unitsCrates_value, filterMap_placed, List.any_eq_false.2]
    · rfl
    · simpa using fun p unit hunit hp => h.sourcesOf unit hunit p hp
  rw [crates, Noted.notices_run_bind hvalue, notices_unitsCrates h.sourcesOf]
  cases ((placed m).filterMap (crateAt d m)).any Crate.isCore <;> rfl

/-- There is one warning for each source file that is rejected, in the order of the document. -/
lemma rejections_crates (h : NulFree m) : (crates d m).run.notices.filter Rejects =
    (placed m).filterMap fun x => rejectionAt d x.2 := by
  have hunit : ∀ unit ∈ m.compilationUnits, (unitCrates d m unit).run.notices.filter Rejects =
      (placedIn unit).filterMap fun x => rejectionAt d x.2 := by
    intro unit hunit
    rw [notices_unitCrates (h.sourcesOf unit hunit), placedIn]
    split
    · have hskipping : ¬Rejects (skipping unit) := by
        rintro ⟨hlevel, -⟩
        cases hlevel
      rw [List.filter_cons_of_neg (by simpa using hskipping)]
      rfl
    · simp only [List.filter_flatMap, rejections_componentCrate, List.filterMap_eq_flatMap_toList,
        List.flatMap_map]
  have hend : (if ((placed m).filterMap (crateAt d m)).any Crate.isCore then [] else
      [unmanaged]).filter Rejects = [] := by
    split <;> simp [not_rejects_unmanaged]
  rw [notices_crates h, List.filter_append, hend, List.append_nil, List.filter_flatMap, placed,
    List.filterMap_flatMap]
  exact List.flatMap_congr hunit

/-- **The warning about the standard library** comes once, and only if no crate is it. -/
lemma count_unmanaged (h : NulFree m) : (crates d m).run.notices.count unmanaged =
    if ∃ c ∈ (placed m).filterMap (crateAt d m), c.name = Crate.coreName then 0 else 1 := by
  have hunits : unmanaged ∉
      m.compilationUnits.flatMap fun unit => (unitCrates d m unit).run.notices := by
    rw [List.mem_flatMap]
    rintro ⟨unit, hunit, hmem⟩
    rw [notices_unitCrates (h.sourcesOf unit hunit)] at hmem
    split at hmem
    · cases congrArg Notice.level (List.mem_singleton.1 hmem)
    · obtain ⟨c, -, hmem⟩ := List.mem_flatMap.1 hmem
      exact unmanaged_not_mem d m unit c hmem
  have hcore : ((placed m).filterMap (crateAt d m)).any Crate.isCore = true ↔
      ∃ c ∈ (placed m).filterMap (crateAt d m), c.name = Crate.coreName := by
    simp only [List.any_eq_true, Crate.isCore, beq_iff_eq]
  rw [notices_crates h, List.count_append, List.count_eq_zero_of_not_mem hunits, Nat.zero_add]
  simp only [← hcore]
  split <;> simp

lemma isSome_crateAt_iff {x : List Datum × Component} : (crateAt d m x).isSome ↔
    ∃ source, SourceRoot.check d x.2.sourcePath x.2.name = .ok (.ok source) := by
  rw [crateAt, crateFrom, SourceRoot.check]
  rcases d.stat x.2.sourcePath with (_ | _) | node
  · simp [Except.toOption]
  · simp [Except.toOption]
  · cases h : SourceRoot.ofNode x.2.sourcePath node <;> simp [Except.toOption, Except.mapError, h]

lemma isSome_rejectionAt_iff {x : List Datum × Component}
    (h : Disk.holdsNul x.2.sourcePath = false) :
    (rejectionAt d x.2).isSome ↔ ¬(crateAt d m x).isSome := by
  obtain ⟨outcome, hcheck⟩ := SourceRoot.exists_check d x.2.name h
  rw [isSome_crateAt_iff, rejectionAt, hcheck]
  cases outcome <;> simp

lemma length_crates_add_rejections {xs : List (List Datum × Component)}
    (h : ∀ x ∈ xs, Disk.holdsNul x.2.sourcePath = false) :
    (xs.filterMap (crateAt d m)).length + (xs.filterMap fun x => rejectionAt d x.2).length =
      xs.length := by
  induction xs with
  | nil => rfl
  | cons x rest ih =>
      rw [List.forall_mem_cons] at h
      have hx := isSome_rejectionAt_iff (d := d) (m := m) h.1
      have hrest := ih h.2
      simp only [List.filterMap_cons]
      cases hcrate : crateAt d m x <;> cases hrejection : rejectionAt d x.2 <;>
        simp [hcrate, hrejection] at hx ⊢ <;> omega

lemma placed_plugins {pre plugins post : List CompilationUnit}
    (h : ∀ unit ∈ plugins, unit.target.kind = pluginKind)
    (hm : m.compilationUnits = pre ++ plugins ++ post) :
    placed m = pre.flatMap placedIn ++ post.flatMap placedIn := by
  have hplugins : plugins.flatMap placedIn = [] :=
    List.flatMap_eq_nil_iff.2 fun unit hunit => if_pos (h unit hunit)
  rw [placed, hm, List.flatMap_append, List.flatMap_append, hplugins, List.append_nil]

/-- The components of a unit have their places between those of the units around it. -/
lemma placed_components {pre post : List CompilationUnit} {unit : CompilationUnit}
    {front mid back : List Component} (hm : m.compilationUnits =
      pre ++ { unit with components := front ++ mid ++ back } :: post) :
    placed m = (pre.flatMap placedIn ++ placedIn { unit with components := front }) ++
      placedIn { unit with components := mid } ++
        (placedIn { unit with components := back } ++ post.flatMap placedIn) := by
  rw [placed, hm, List.flatMap_append, List.flatMap_cons]
  simp only [placedIn]
  split <;> simp

end Derivation

/-! ## The crates of a project -/

namespace Database

lemma run_computeCrates_of_metadata {t : Toolchain} {p : Manifest} {s s₁ : State} {m : Metadata}
    {cs : List Crate} {ns : List Notice}
    (hmetadata : Session.run (metadata t p) s = (.ok (some m), s₁))
    (hcrates : (Derivation.crates s₁.world.disk m).run = ⟨.ok cs, ns⟩) :
    Session.run (computeCrates t p) s = (.ok (.crates cs), s₁.withNotices ns) := by
  have hact : Session.run (Computation.act fun w => do
      let r ← (Derivation.crates w.disk m).run
      return (r, w) : Query _) s₁ = (.ok (.ok cs), s₁.withNotices ns) := by
    simp [Computation.act, Session.run, Session.noted, hcrates, Session.withNotices]
  rw [computeCrates, Session.run_bind, hmetadata]
  simp only [derive, Session.run_bind, hact]
  rfl

end Database

namespace Derivation

open Metadata

variable {d : Disk} {m : Metadata}

/-- **Crates and notices, component by component.**  Each component that has a place has one crate,
in its order, if its source file is accepted, and is warned of if it is not; and there is a warning
if no crate is the standard library. -/
structure Componentwise (d : Disk) (m : Metadata) (cs : List Crate) (ns : List Notice) : Prop where
  crates : cs = (placed m).filterMap (crateAt d m)
  accepted : ∀ x ∈ placed m, (crateAt d m x).isSome ↔
    ∃ source, SourceRoot.check d x.2.sourcePath x.2.name = .ok (.ok source)
  rejected : cs.length + ns.countP Rejects = (placed m).length
  unmanaged : ns.count unmanaged = if ∃ c ∈ cs, c.name = Crate.coreName then 0 else 1

lemma componentwise (h : NulFree m) : Componentwise d m ((placed m).filterMap (crateAt d m))
    (crates d m).run.notices := by
  refine ⟨rfl, fun _ _ => isSome_crateAt_iff, ?_, count_unmanaged h⟩
  rw [List.countP_eq_length_filter, rejections_crates h, length_crates_add_rejections h]

/-- **The crates of a document** whose source files can be looked at, which are what the crates
query answers.  They are there component by component.  Without a package the edition is the default
and no features are on.  And if some components are changed, in the document or on the disk, or
compiler plugins come or go, then the crates of all others are what they were, in the same order: a
document that has other components in the place of some has their crates in the place of those. -/
theorem crates_componentwise (h : NulFree m) :
    ∃ cs ns, (crates d m).run = ⟨.ok cs, ns⟩ ∧ Componentwise d m cs ns ∧
      (∀ (t : Toolchain) (p : Manifest) (s s₁ : Database.State),
        Session.run (Database.metadata t p) s = (.ok (some m), s₁) → s₁.world.disk = d →
          Session.run (Database.computeCrates t p) s = (.ok (.crates cs), s₁.withNotices ns)) ∧
      (∀ flags found c crate, crateFrom none flags found c = some crate →
        crate.settings.edition = .default ∧ crate.settings.features = .off) ∧
      (∀ (d' : Disk) (m' : Metadata) (before mid mid' after : List (List Datum × Component)),
        placed m = before ++ mid ++ after → placed m' = before ++ mid' ++ after → NulFree m' →
        (∀ x ∈ before ++ after, m'.package? x.2.package = m.package? x.2.package ∧
          d'.stat x.2.sourcePath = d.stat x.2.sourcePath) →
        (crates d' m').run.value = .ok (before.filterMap (crateAt d m) ++
          mid'.filterMap (crateAt d' m') ++ after.filterMap (crateAt d m))) ∧
      (∀ (pre post : List CompilationUnit) (unit : CompilationUnit)
        (front mid back : List Component), placed { m with compilationUnits :=
            pre ++ { unit with components := front ++ mid ++ back } :: post } =
          (pre.flatMap placedIn ++ placedIn { unit with components := front }) ++
            placedIn { unit with components := mid } ++
              (placedIn { unit with components := back } ++ post.flatMap placedIn)) ∧
      ∀ pre plugins post : List CompilationUnit,
        (∀ unit ∈ plugins, unit.target.kind = pluginKind) →
          placed { m with compilationUnits := pre ++ plugins ++ post } =
            placed { m with compilationUnits := pre ++ post } := by
  have hvalue := crates_value_of_nulFree (d := d) h
  have hrun : (crates d m).run =
      ⟨.ok ((placed m).filterMap (crateAt d m)), (crates d m).run.notices⟩ := by rw [← hvalue]
  refine ⟨_, _, hrun, componentwise h, ?_, ?_, ?_, ?_, ?_⟩
  · rintro t p s s₁ hmetadata rfl
    exact Database.run_computeCrates_of_metadata hmetadata hrun
  · intro flags found c crate hcrate
    rw [crateFrom] at hcrate
    split at hcrate
    · obtain rfl := Option.some.inj hcrate
      exact ⟨rfl, rfl⟩
    · cases hcrate
  · intro d' m' before mid mid' after hm hm' h' hsame
    have hcrate : ∀ x ∈ before ++ after, crateAt d' m' x = crateAt d m x := by
      intro x hx
      rw [crateAt, crateAt, (hsame x hx).1, (hsame x hx).2]
    rw [List.forall_mem_append] at hcrate
    rw [crates_value_of_nulFree h', hm', List.filterMap_append, List.filterMap_append,
      List.filterMap_congr hcrate.1, List.filterMap_congr hcrate.2]
  · intro pre post unit front mid back
    exact placed_components rfl
  · intro pre plugins post hplugins
    rw [placed_plugins hplugins rfl, placed, List.flatMap_append]

/-- A standard library is yielded although the component after it has no source file. -/
theorem crates_componentwise_of_rejected :
    let d : Disk := ⟨FileTree.empty.write [sampleName] (.file [] true), .top⟩
    let component (name : String) (n : Name) : Component := ⟨"p", name, ⟨.single, [n]⟩, none⟩
    let m : Metadata := { (default : Metadata) with compilationUnits :=
      [{ (default : CompilationUnit) with
        components := [component "core" sampleName, component "x" otherName] }] }
    ∃ ns, (crates d m).run =
        ⟨.ok [⟨"core", .top, some "a", ⟨.default, some ⟨[]⟩, .off⟩⟩], ns⟩ ∧
      ns.countP Rejects = 1 ∧ ns.count unmanaged = 0 := by
  intro d component m
  have hnul : ∀ x ∈ placed m, Disk.holdsNul x.2.sourcePath = false := by decide
  obtain ⟨cs, ns, hrun, hcs, -⟩ := crates_componentwise (d := d) hnul
  obtain rfl : cs = [⟨"core", .top, some "a", ⟨.default, some ⟨[]⟩, .off⟩⟩] := hcs.crates
  refine ⟨ns, hrun, Nat.add_left_cancel hcs.rejected, ?_⟩
  rw [hcs.unmanaged, if_pos ⟨_, List.mem_singleton.2 rfl, rfl⟩]

end Derivation

end ScarbCrates
