import ScarbCrates.Proofs.Derivation.Componentwise
import ScarbCrates.Proofs.Text.Encoding

/-!
# What a warning says of its component

A component whose source file is rejected has no crate, and a warning tells why.  Whoever looks for
the crate has to find the component by that warning.  The words for most causes say its name.  Those
for two causes say only the path, so that they are the same words for every component.

* `Says` — a text in which a name occurs.
* `RejectionCause.IsNameless` — the two causes, with `Rejection.says_reason_iff`.
* `SourceRoot.Nameless` — the files that are rejected for one of them, with
  `SourceRoot.isNameless_iff`.
* `Derivation.told_iff` — which components can be found by what is said of them alone.
* `Derivation.dropped_components` — the same for all components of a document.
-/

namespace ScarbCrates

/-- A name occurs in a text. -/
def Says (text name : String) : Prop := name.toList <:+: text.toList

lemma says_append (before name after rest : String) :
    Says (before ++ name ++ after ++ rest) name :=
  ⟨before.toList, after.toList ++ rest.toList, by simp [String.toList_append]⟩

/-- No text says everything. -/
lemma exists_not_says (text : String) : ∃ name, ¬Says text name := by
  refine ⟨text ++ "a", fun h => ?_⟩
  have hlength := h.length_le
  rw [String.toList_append, List.length_append] at hlength
  exact Nat.not_succ_le_self _ hlength

/-! ## The words for a cause -/

/-- A cause whose words leave out the name of the component. -/
def RejectionCause.IsNameless (cause : RejectionCause) : Prop :=
  cause = .relativeRoot ∨ cause = .nonUtf8Stem

namespace Rejection

/-- The warning about a rejection. -/
def notice (r : Rejection) : Notice := ⟨.warning, Derivation.origin, r.reason⟩

lemma says_reason {r : Rejection} (h : ¬r.cause.IsNameless) : Says r.reason r.crateName := by
  obtain ⟨name, path, cause⟩ := r
  cases cause with
  | io errno => exact says_append _ name ": " _
  | isDirectory => exact says_append _ name "` must not be a directory: " _
  | noParent | noFileStem => exact says_append _ name "`: " _
  | relativeRoot => exact absurd (.inl rfl) h
  | nonUtf8Stem => exact absurd (.inr rfl) h

/-- The words for a nameless cause are the same for every component. -/
lemma reason_eq_of_isNameless {path : Path} {cause : RejectionCause} (h : cause.IsNameless)
    (a b : String) : reason ⟨a, path, cause⟩ = reason ⟨b, path, cause⟩ := by
  obtain rfl | rfl := h <;> rfl

/-- **The words for a cause** say whatever name the component has, unless the cause is nameless. -/
lemma says_reason_iff (path : Path) (cause : RejectionCause) :
    (∀ name, Says (reason ⟨name, path, cause⟩) name) ↔ ¬cause.IsNameless := by
  constructor
  · intro h hnameless
    obtain ⟨name, hname⟩ := exists_not_says (reason ⟨"", path, cause⟩)
    rw [reason_eq_of_isNameless hnameless "" name] at hname
    exact hname (h name)
  · intro h name
    exact says_reason h

end Rejection

/-! ## Files that are rejected without a name -/

namespace SourceRoot

variable {d : Disk} {p : Path} {name : String}

/-- Bytes that are the UTF-8 of a string. -/
def IsUtf8 (bytes : List UInt8) : Prop := ∃ s : String, Text.encode (Text.ofString s) = bytes

/-- There is a file with a name, but its path is relative, or the stem of its name is not UTF-8. -/
def Nameless (d : Disk) (p : Path) : Prop :=
  ∃ node, d.stat p = .ok node ∧ node.isDirectory = false ∧ ∃ n, p.name? = some n ∧
    (p.isAbsolute = false ∨ ¬IsUtf8 n.stemBytes)

/-- Bytes are not UTF-8 exactly if a stray one is found among them. -/
lemma not_isUtf8_iff (bytes : List UInt8) :
    ¬IsUtf8 bytes ↔ ∃ stray, Text.toString? (Text.decode bytes) = .error stray := by
  constructor
  · intro h
    cases hs : Text.toString? (Text.decode bytes) with
    | error stray => exact ⟨stray, rfl⟩
    | ok s => exact absurd ⟨s, by rw [← Text.eq_ofString hs, Text.encode_decode]⟩ h
  · rintro ⟨stray, hstray⟩ ⟨s, rfl⟩
    have hdecode : Text.decode (Text.encode (Text.ofString s)) = Text.ofString s :=
      Text.decode_encode_ofChars s.toList
    rw [hdecode, Text.toString?_ofString] at hstray
    cases hstray

lemma ofName_isNameless_iff (p : Path) (n : Name) :
    (∃ cause, ofName p n = .error cause ∧ cause.IsNameless) ↔
      p.isAbsolute = false ∨ ¬IsUtf8 n.stemBytes := by
  rw [ofName, not_isUtf8_iff]
  cases p.isAbsolute with
  | false => exact ⟨fun _ => .inl rfl, fun _ => ⟨.relativeRoot, rfl, .inl rfl⟩⟩
  | true =>
      cases n.stemBytes with
      | nil => simp [RejectionCause.IsNameless, Text.decode, Text.decodeFrom, Text.toString?,
          Text.strayRunFrom]
      | cons b rest =>
          cases Text.toString? (Text.decode (b :: rest)) <;> simp [RejectionCause.IsNameless]

/-- A rejection has the name and the path that were asked about, and the cause is there for every
name. -/
lemma exists_cause {r : Rejection} (h : check d p name = .ok (.error r)) : ∃ cause,
    r = ⟨name, p, cause⟩ ∧ ∀ other, check d p other = .ok (.error ⟨other, p, cause⟩) := by
  simp only [check] at h ⊢
  split at h
  · cases h
  · cases h
    exact ⟨_, rfl, fun _ => rfl⟩
  · rename_i node _
    cases hnode : ofNode p node with
    | error cause =>
        rw [hnode] at h
        cases h
        exact ⟨cause, rfl, fun _ => rfl⟩
    | ok source =>
        rw [hnode] at h
        cases h

lemma ofNode_isNameless_iff (p : Path) (node : Node) :
    (∃ cause, ofNode p node = .error cause ∧ cause.IsNameless) ↔
      node.isDirectory = false ∧ ∃ n, p.name? = some n ∧
        (p.isAbsolute = false ∨ ¬IsUtf8 n.stemBytes) := by
  rw [ofNode]
  cases node.isDirectory with
  | true => simp [RejectionCause.IsNameless]
  | false =>
      cases p.name? with
      | none => simp [RejectionCause.IsNameless]
      | some n => simpa using ofName_isNameless_iff p n

/-- **The files that are rejected for a nameless cause,** whatever the component is called. -/
lemma isNameless_iff : (∃ cause : RejectionCause, cause.IsNameless ∧
    ∀ name, check d p name = .ok (.error ⟨name, p, cause⟩)) ↔ Nameless d p := by
  simp only [check]
  rw [Nameless]
  cases hstat : d.stat p with
  | error fault =>
      cases fault with
      | nul => simp
      | os errno path => simp [RejectionCause.IsNameless]
  | ok node =>
      have hnode := ofNode_isNameless_iff p node
      simp only [Except.ok.injEq, exists_eq_left'] at hnode ⊢
      rw [← hnode]
      refine exists_congr fun cause => ?_
      cases ofNode p node <;> simp [Except.mapError, and_comm]

lemma isNameless_iff_of_check {cause : RejectionCause}
    (h : check d p name = .ok (.error ⟨name, p, cause⟩)) : cause.IsNameless ↔ Nameless d p := by
  rw [← isNameless_iff]
  constructor
  · intro hcause
    obtain ⟨cause', hsame, hcheck⟩ := exists_cause h
    cases hsame
    exact ⟨cause, hcause, hcheck⟩
  · rintro ⟨cause', hcause, hcheck⟩
    have hsame := (hcheck name).symm.trans h
    cases hsame
    exact hcause

end SourceRoot

namespace Derivation

open Metadata

variable {d : Disk} {m : Metadata} {unit : CompilationUnit} {c : Component}

/-! ## One component -/

lemma name_of_crateAt {x : List Datum × Component} {crate : Crate}
    (h : crateAt d m x = some crate) : crate.name = x.2.name := by
  rw [crateAt, crateFrom] at h
  split at h
  · obtain rfl := Option.some.inj h
    rfl
  · cases h

/-- There is a crate of a component, or its source file is rejected. -/
lemma crate_or_rejected (m : Metadata) (flags : List Datum)
    (h : Disk.holdsNul c.sourcePath = false) : (∃ crate, crateAt d m (flags, c) = some crate) ∨
      crateAt d m (flags, c) = none ∧ ∃ cause,
        SourceRoot.check d c.sourcePath c.name = .ok (.error ⟨c.name, c.sourcePath, cause⟩) := by
  cases hcrate : crateAt d m (flags, c) with
  | some crate => exact .inl ⟨crate, rfl⟩
  | none =>
      obtain ⟨rejection | source, hcheck⟩ := SourceRoot.exists_check d c.name h
      · obtain ⟨cause, rfl, hname⟩ := SourceRoot.exists_cause hcheck
        exact .inr ⟨rfl, cause, hname c.name⟩
      · have hsome := isSome_crateAt_iff (m := m) (x := (flags, c)).2 ⟨source, hcheck⟩
        rw [hcrate] at hsome
        cases hsome

lemma value_componentCrate (h : Disk.holdsNul c.sourcePath = false) :
    (componentCrate d m unit c).run.value = .ok (crateAt d m (unit.cfg, c)) := by
  rw [componentCrate_value, crateOf_eq_crateAt, h]
  rfl

/-- A component without a crate is warned of once or, if its package is unknown, twice. -/
lemma run_componentCrate_of_rejected (m : Metadata) (unit : CompilationUnit) {r : Rejection}
    (h : SourceRoot.check d c.sourcePath c.name = .ok (.error r)) :
    (componentCrate d m unit c).run = ⟨.ok none,
      (if (m.package? c.package).isNone then [missingPackage c.name] else []) ++ [r.notice]⟩ := by
  rw [componentCrate, h]
  cases m.package? c.package <;> rfl

lemma says_missingPackage (name : String) : Says (missingPackage name).message name := by
  refine ⟨"package for component is missing in scarb metadata: ".toList, [], ?_⟩
  rw [missingPackage, String.toList_append, List.append_nil]

lemma missingPackage_mem (h : m.package? c.package = none) :
    missingPackage c.name ∈ (componentCrate d m unit c).run.notices := by
  obtain ⟨said, -, hnotices⟩ := notices_componentCrate d m unit c
  rw [hnotices, h]
  exact List.mem_append_left _ (List.mem_append_left _ (List.mem_singleton.2 rfl))

/-- **A component is told of** by what is made and said of it alone: there is a crate of its name,
or a warning that says its name. -/
def Told (d : Disk) (m : Metadata) (unit : CompilationUnit) (c : Component) : Prop :=
  (∃ crate, (componentCrate d m unit c).run.value = .ok (some crate) ∧ crate.name = c.name) ∨
    ∃ n ∈ (componentCrate d m unit c).run.notices, n.level = .warning ∧ Says n.message c.name

lemma told_of_not_nameless (hnul : Disk.holdsNul c.sourcePath = false)
    (h : ¬SourceRoot.Nameless d c.sourcePath) : Told d m unit c := by
  rcases crate_or_rejected m unit.cfg hnul with ⟨crate, hcrate⟩ | ⟨-, cause, hcheck⟩
  · exact .inl ⟨crate, by rw [value_componentCrate hnul, hcrate], name_of_crateAt hcrate⟩
  · refine .inr ⟨Rejection.notice ⟨c.name, c.sourcePath, cause⟩, ?_, rfl, ?_⟩
    · rw [run_componentCrate_of_rejected m unit hcheck]
      exact List.mem_append_right _ (List.mem_singleton.2 rfl)
    · exact Rejection.says_reason (mt (SourceRoot.isNameless_iff_of_check hcheck).1 h)

/-- A file that is rejected without a name hides a component of some name. -/
lemma exists_not_told (unit : CompilationUnit) (h : SourceRoot.Nameless d c.sourcePath)
    (hpackage : (m.package? c.package).isSome) :
    ∃ name, ¬Told d m unit { c with name := name } := by
  obtain ⟨cause, hcause, hcheck⟩ := SourceRoot.isNameless_iff.2 h
  obtain ⟨name, hname⟩ := exists_not_says (Rejection.reason ⟨"", c.sourcePath, cause⟩)
  rw [Rejection.reason_eq_of_isNameless hcause "" name] at hname
  refine ⟨name, ?_⟩
  have hrun := run_componentCrate_of_rejected (c := { c with name := name }) m unit (hcheck name)
  rw [Told, hrun, Option.isNone_eq_false_iff.2 hpackage]
  rintro (⟨crate, hvalue, -⟩ | ⟨n, hn, -, hsays⟩)
  · cases hvalue
  · obtain rfl := List.mem_singleton.1 hn
    exact hname hsays

/-- **Which components are told of whatever they are called:** those of an unknown package, and
those whose source file is not rejected without a name. -/
theorem told_iff (hnul : Disk.holdsNul c.sourcePath = false) :
    (∀ name, Told d m unit { c with name := name }) ↔
      m.package? c.package = none ∨ ¬SourceRoot.Nameless d c.sourcePath := by
  constructor
  · intro h
    by_contra! hnot
    obtain ⟨name, hname⟩ := exists_not_told unit hnot.2
      (Option.isSome_iff_ne_none.2 hnot.1)
    exact hname (h name)
  · rintro (hpackage | hnameless) name
    · exact .inr ⟨missingPackage name, missingPackage_mem (c := { c with name := name }) hpackage,
        rfl, says_missingPackage name⟩
    · exact told_of_not_nameless (c := { c with name := name }) hnul hnameless

/-! ## All components -/

/-- What is said of a component that has a place is said of the document. -/
lemma notices_componentCrate_subset (h : NulFree m) (hunit : unit ∈ m.compilationUnits)
    (hkind : unit.target.kind ≠ pluginKind) (hc : c ∈ unit.components) :
    (componentCrate d m unit c).run.notices ⊆ (crates d m).run.notices := by
  intro n hn
  rw [notices_crates h]
  refine List.mem_append_left _ (List.mem_flatMap.2 ⟨unit, hunit, ?_⟩)
  rw [notices_unitCrates (h.sourcesOf unit hunit), if_neg hkind]
  exact List.mem_flatMap.2 ⟨c, hc, hn⟩

lemma mem_placed (hunit : unit ∈ m.compilationUnits) (hkind : unit.target.kind ≠ pluginKind)
    (hc : c ∈ unit.components) : (unit.cfg, c) ∈ placed m := by
  refine List.mem_flatMap.2 ⟨unit, hunit, ?_⟩
  rw [placedIn, if_neg hkind]
  exact List.mem_map_of_mem hc

/-- **A dropped component,** and the warning about it: the words say its name, unless its source
file is one that is rejected without a name.  Then they are those for a component of any name. -/
structure Dropped (d : Disk) (m : Metadata) (ns : List Notice) (c : Component) (r : Rejection) :
    Prop where
  rejected : SourceRoot.check d c.sourcePath c.name = .ok (.error r)
  warned : r.notice ∈ ns
  named : ¬SourceRoot.Nameless d c.sourcePath → Says r.reason c.name
  unnamed : SourceRoot.Nameless d c.sourcePath →
    ∀ name, r.reason = Rejection.reason { r with crateName := name }
  unknown : m.package? c.package = none →
    ∃ n ∈ ns, n.level = .warning ∧ Says n.message c.name

/-- **What becomes of the components of a document** whose source files can be looked at.  Each
component of a unit that is no compiler plugin has a crate of its name, or there is a warning about
it; there are no other warnings about source files, and those there are come in the order of the
document.  The words of the warning say the name, whatever it is, except for two causes; and a
component is told of under every name exactly if its package is unknown or its source file is not
rejected for one of the two: a file, not a directory, that is found by a relative path, or whose
stem is not UTF-8. -/
theorem dropped_components (h : NulFree m) :
    ∃ cs ns, (crates d m).run = ⟨.ok cs, ns⟩ ∧
      (∀ unit ∈ m.compilationUnits, unit.target.kind ≠ pluginKind → ∀ c ∈ unit.components,
        (∃ crate ∈ cs, crateAt d m (unit.cfg, c) = some crate ∧ crate.name = c.name) ∨
          ∃ r, Dropped d m ns c r) ∧
      (ns.filter Rejects = (placed m).filterMap fun x => rejectionAt d x.2) ∧
      (∀ path cause, (∀ name, Says (Rejection.reason ⟨name, path, cause⟩) name) ↔
        ¬cause.IsNameless) ∧
      ∀ (unit : CompilationUnit) (c : Component), Disk.holdsNul c.sourcePath = false →
        ((∀ name, Told d m unit { c with name := name }) ↔
          m.package? c.package = none ∨ ¬SourceRoot.Nameless d c.sourcePath) := by
  have hvalue := crates_value_of_nulFree (d := d) h
  refine ⟨_, (crates d m).run.notices, by rw [← hvalue], ?_, rejections_crates h,
    Rejection.says_reason_iff, fun _ _ => told_iff⟩
  intro unit hunit hkind c hc
  have hplaced := mem_placed hunit hkind hc
  have hsubset := notices_componentCrate_subset (d := d) h hunit hkind hc
  rcases crate_or_rejected m unit.cfg (h _ hplaced) with ⟨crate, hcrate⟩ | ⟨-, cause, hcheck⟩
  · exact .inl ⟨crate, List.mem_filterMap.2 ⟨_, hplaced, hcrate⟩, hcrate, name_of_crateAt hcrate⟩
  · have hnameless := SourceRoot.isNameless_iff_of_check hcheck
    refine .inr ⟨⟨c.name, c.sourcePath, cause⟩, hcheck, hsubset ?_, ?_, ?_, ?_⟩
    · rw [run_componentCrate_of_rejected m unit hcheck]
      exact List.mem_append_right _ (List.mem_singleton.2 rfl)
    · exact fun hnot => Rejection.says_reason (mt hnameless.1 hnot)
    · exact fun hfile name => Rejection.reason_eq_of_isNameless (hnameless.2 hfile) c.name name
    · exact fun hpackage => ⟨missingPackage c.name, hsubset (missingPackage_mem hpackage), rfl,
        says_missingPackage c.name⟩

/-- A file is found by its relative path: there is no crate, and the warning does not say `x`. -/
theorem dropped_components_relative :
    let d : Disk := ⟨FileTree.empty.write [sampleName] (.file [] true), .top⟩
    let c : Component := ⟨"p", "x", ⟨.none, [sampleName]⟩, none⟩
    let m : Metadata := { (default : Metadata) with
      packages := [{ (default : Package) with id := "p" }]
      compilationUnits := [{ (default : CompilationUnit) with components := [c] }] }
    ∃ cs ns r, (crates d m).run = ⟨.ok cs, ns⟩ ∧ Dropped d m ns c r ∧ ¬Says r.reason c.name := by
  intro d c m
  have hnul : ∀ x ∈ placed m, Disk.holdsNul x.2.sourcePath = false := by decide
  obtain ⟨cs, ns, hrun, hcomponents, -⟩ := dropped_components (d := d) hnul
  have hcheck : SourceRoot.check d c.sourcePath c.name =
      .ok (.error ⟨"x", c.sourcePath, .relativeRoot⟩) := by rfl
  rcases hcomponents _ (List.mem_singleton.2 rfl) (by decide) c (List.mem_singleton.2 rfl) with
    ⟨crate, -, hcrate, -⟩ | ⟨r, hr⟩
  · cases hcrate
  · refine ⟨cs, ns, r, hrun, hr, ?_⟩
    have hsame := hr.rejected.symm.trans hcheck
    cases hsame
    intro hsays
    have hmem : 'x' ∈ ("source path must be absolute: " ++ c.sourcePath.shown).toList :=
      hsays.subset (by simp [c])
    rw [String.toList_append, Path.shown, Text.shown, String.toList_ofList] at hmem
    exact absurd hmem (by decide)

end Derivation

end ScarbCrates
