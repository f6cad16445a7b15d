import ScarbCrates.Crate
import ScarbCrates.Manifest
import ScarbCrates.Proofs.Datum.Equality
import ScarbCrates.Proofs.Schema.Returning

/-!
# The formats lose nothing

Crates, manifests and metadata are written and read again.  What is not written because it is a
default comes back as this default, and what is not a default is told from it: a set without flags
from none, and a manifest of one kind from one of the other.

* `Crate.returns`, `Manifest.returns`, `Metadata.returns` — each format by itself.
* `Metadata.Same` — metadata up to the order of members in what is kept as it is.
-/

namespace ScarbCrates

open Json (Value Draft)

/-! ## Crates -/

theorem Cfg.returns (c : Cfg) : Cfg.decoder.Returns c.toDatum (· = c) := by
  obtain ⟨key, value⟩ := c
  have hfields : Cfg.toDatum ⟨key, value⟩ =
      .record "Cfg" ([("key", .ofString key)] ++ Metadata.unlessNone "value" value) := by
    cases value <;> rfl
  have h := (Fields.Returns.required "key" (Decoder.returns_text key)).both
    (.unlessNone "value" value) (Fields.apart_required (by simp))
  rw [hfields]
  refine (h.map ?_).record _ _
  rintro ⟨key', value'⟩ ⟨rfl, rfl⟩
  rfl

/-- The flags of a set, which are written only when there are any. -/
lemma CfgSet.returns_fields (s : CfgSet) :
    CfgSet.fields.Returns (Metadata.unlessEmpty "items" (s.items.map Cfg.toDatum)) (· = s) := by
  refine (Fields.Returns.unlessEmpty (r := Eq) "items" fun c _ => c.returns).map ?_
  intro items hitems
  rw [List.forall₂_eq_eq_eq] at hitems
  rw [hitems]

/-- A set of flags comes back as a set, also when it is empty. -/
theorem CfgSet.returns? (lax : Bool) (s : CfgSet) :
    (Decoder.record? lax "CfgSet" .refused CfgSet.fields).Returns s.toDatum (· = some s) := by
  have hfields : s.toDatum =
      .record "CfgSet" (Metadata.unlessEmpty "items" (s.items.map Cfg.toDatum)) := by
    simp only [CfgSet.toDatum, Metadata.unlessEmpty, List.isEmpty_map]
  rw [hfields]
  refine (s.returns_fields.record? lax _ _).mono ?_
  rintro _ ⟨_, rfl, rfl⟩
  rfl

/-- A flag that is written only when it is on. -/
lemma Features.returns_flag (name : String) (lax b : Bool) :
    (Fields.optional name (Decoder.asBool lax) false).Returns (Features.flag name b) (· = b) := by
  cases b with
  | false => exact .absent name _ rfl
  | true => exact .present name false (Decoder.returns_bool lax true)

theorem Features.returns (lax : Bool) (f : Features) :
    (Features.decoder lax).Returns f.toDatum (· = f) := by
  obtain ⟨negativeImpls, coupons⟩ := f
  have h := (returns_flag "negative_impls" lax negativeImpls).both
    (returns_flag "coupons" lax coupons) (Fields.apart_optional (by simp))
  refine (h.map ?_).record _ _
  rintro ⟨_, _⟩ ⟨rfl, rfl⟩
  rfl

namespace CrateSettings

/-- An edition that is written only when it is not the default. -/
lemma returns_edition (e : Edition) :
    (Fields.optional "edition" editionDecoder .default).Returns
      (if e = .default then [] else [("edition", .edition e)]) (· = e) := by
  split_ifs with he
  · exact .absent "edition" _ he.symm
  · exact .present "edition" _
      ⟨.text e.name, rfl, trivial, Decoder.reads_choice (Edition.ofName?_name e)⟩

/-- A set of flags that is written only when the flags are known. -/
lemma returns_cfgSet (lax : Bool) (s : Option CfgSet) :
    (Fields.optional "cfg_set" (Decoder.record? lax "CfgSet" .refused CfgSet.fields)
      none).Returns (match s with | none => [] | some c => [("cfg_set", c.toDatum)]) (· = s) := by
  cases s with
  | none => exact .absent "cfg_set" _ rfl
  | some s => exact .present "cfg_set" none (s.returns? lax)

theorem returns (lax : Bool) (s : CrateSettings) :
    (CrateSettings.decoder lax).Returns s.toDatum (· = s) := by
  obtain ⟨edition, cfgSet, features⟩ := s
  have h := (returns_edition edition).both ((returns_cfgSet lax cfgSet).both
      (.present "experimental_features" .off (features.returns lax))
      (Fields.apart_optional (by simp))) (Fields.apart_optional (by simp))
  rw [toDatum, List.append_assoc]
  refine (h.map ?_).record _ _
  rintro ⟨_, _, _⟩ ⟨rfl, rfl, rfl⟩
  rfl

end CrateSettings

/-- **A crate comes back.** -/
theorem Crate.returns (lax : Bool) (c : Crate) (hroot : c.root.Encodable) :
    (Crate.decoder lax).Returns c.toDatum (· = c) := by
  obtain ⟨name, root, stem, settings⟩ := c
  have hfields : Crate.toDatum ⟨name, root, stem, settings⟩ =
      .record "Crate" ([("name", .ofString name)] ++ ([("root", .path root)]
        ++ (Metadata.unlessNone "custom_main_file_stem" stem
          ++ [("settings", settings.toDatum)]))) := by
    cases stem <;> rfl
  have h := (Fields.Returns.required "name" (Decoder.returns_text name)).both
    ((Fields.Returns.required "root" (Decoder.returns_path hroot)).both
      ((Fields.Returns.unlessNone "custom_main_file_stem" stem).both
        (.present "settings" .default (settings.returns lax))
        (Fields.apart_optional (by simp)))
      (Fields.apart_required (by simp)))
    (Fields.apart_required (by simp))
  rw [hfields]
  refine (h.map ?_).record _ _
  rintro ⟨_, _, _, _⟩ ⟨rfl, rfl, rfl, rfl⟩
  rfl

/-- Crates come back in their order. -/
theorem Crate.returns_list (lax : Bool) {how : Gathering} (hhow : how ≠ .set) {cs : List Crate}
    (hroots : ∀ c ∈ cs, c.root.Encodable) :
    (Decoder.listOf (Crate.decoder lax)).Returns (.sequence how (cs.map Crate.toDatum))
      (· = cs) :=
  .list hhow fun c hc => c.returns lax (hroots c hc)

/-! ## Manifests -/

namespace Manifest

/-- The tag of a manifest as its draft has it, among members in any order. -/
lemma exists_findTag {choose : String → Option Bool} {tag : String} {b : Bool}
    (hchoose : choose tag = some b) (p : Place) :
    ∀ ns : List (String × Value), (Assoc.keys ns).Nodup → (Datum.tagName, .text tag) ∈ ns →
      Decoder.findTag Datum.tagName choose p none
        (ns.map fun m => (MemberName.text m.1, m.2.draft)) = .ok b
  | [], _, hmem => absurd hmem List.not_mem_nil
  | (n, w) :: ns, hnodup, hmem => by
      rw [Assoc.keys, List.map_cons, List.nodup_cons] at hnodup
      rw [List.map_cons, Decoder.findTag]
      by_cases hn : n = Datum.tagName
      · have hw : w = .text tag := by
          rcases List.mem_cons.1 hmem with heq | htail
          · exact (Prod.mk.inj heq).2.symm
          · exact absurd (List.mem_map_of_mem htail) (hn ▸ hnodup.1)
        obtain ⟨_, ha, rfl⟩ := Decoder.reads_tag hchoose _ rfl (p ++ [.member Datum.tagName])
        rw [if_pos hn, hw]
        exact ha
      · have htail : (Datum.tagName, Value.text tag) ∈ ns := by
          rcases List.mem_cons.1 hmem with heq | htail
          · exact absurd (Prod.mk.inj heq).1.symm hn
          · exact htail
        have hskip : (Readable.skip w.draft : Except ReadFault Unit) = .ok () := w.skip_draft
        rw [if_neg hn, hskip]
        exact exists_findTag hchoose p ns hnodup.2 htail

/-- The fields of a manifest of one kind are filled by its tag and its path. -/
lemma fills_fields (tag : String) {path : Path} {s : String} (h : path.toString? = .ok s) :
    (fields tag).Fills [(Datum.tagName, .text tag), ("path", .text s)] (· = path) := by
  refine ((Fields.Fills.present (a := ()) (Decoder.reads_tag (if_pos rfl))).both
    (.required (Decoder.reads_path h)) (Fields.apart_optional (by decide))).map ?_
  rintro ⟨_, _⟩ ⟨-, rfl⟩
  rfl

/-- **A manifest comes back, as one of its kind.** -/
theorem returns (m : Manifest) (hpath : m.path.Encodable) : decoder.Returns m.toDatum (· = m) := by
  obtain ⟨s, hs⟩ := hpath
  have hjson : m.toDatum.toJson =
      .ok (.object [(Datum.tagName, .text m.tag), ("path", .text s)]) := by
    rw [toDatum, Datum.toJson, Datum.toJsonFields_cons (Datum.toJson_ofString m.tag)
      (Datum.toJsonFields_cons (Datum.toJson_path hs) rfl)]
    rfl
  have hfills := fills_fields m.tag hs
  refine ⟨_, hjson, ⟨hfills.names, trivial, trivial, trivial⟩, ?_⟩
  intro w hw p
  obtain ⟨ns, rfl, hsame⟩ := Value.same_object hw
  have htag : (Datum.tagName, Value.text m.tag) ∈ ns := by
    obtain ⟨w, hmem, hw⟩ := hsame.right Datum.tagName (.text m.tag) List.mem_cons_self
    rwa [hw.eq trivial] at hmem
  have hnodup : (Assoc.keys ns).Nodup := hsame.names.nodup_iff.2 hfills.names
  refine ⟨m, ?_, rfl⟩
  rw [decoder]
  simp only [Fields.Fills.look_object]
  cases m with
  | scarb path =>
      obtain ⟨_, hread, rfl⟩ := hfills.record "ScarbManifestPath" .refused _ hw p
      rw [exists_findTag rfl p ns hnodup htag]
      exact congrArg (Except.map scarb) hread
  | cairoProject path =>
      obtain ⟨_, hread, rfl⟩ := hfills.record "CairoProjectManifestPath" .refused _ hw p
      rw [exists_findTag rfl p ns hnodup htag]
      exact congrArg (Except.map cairoProject) hread

end Manifest

/-! ## Metadata -/

namespace Metadata

/-! ### What can be written -/

/-- A target whose text every reader agrees on. -/
structure Target.Portable (t : Target) : Prop where
  sourcePath : t.sourcePath.Encodable
  params : (Datum.ofMembers t.params).IsPortable

/-- A component whose text every reader agrees on. -/
structure Component.Portable (c : Component) : Prop where
  sourcePath : c.sourcePath.Encodable
  cfg : ∀ items, c.cfg = some items → ∀ d ∈ items, d.IsPortable

/-- A compilation unit whose text every reader agrees on. -/
structure CompilationUnit.Portable (u : CompilationUnit) : Prop where
  target : u.target.Portable
  components : ∀ c ∈ u.components, c.Portable
  cfg : ∀ d ∈ u.cfg, d.IsPortable

/-- A package whose paths are strings. -/
structure Package.Portable (k : Package) : Prop where
  manifestPath : k.manifestPath.Encodable
  root : k.root.Encodable

/-- A workspace whose paths are strings. -/
structure Workspace.Portable (w : Workspace) : Prop where
  manifestPath : w.manifestPath.Encodable
  root : w.root.Encodable

/-- **Metadata whose text every reader agrees on:** its paths are strings, its version is of one
machine word, and what is kept as it is is portable JSON data. -/
structure Portable (m : Metadata) : Prop where
  version : Json.fitsWord m.version = true
  workspace : m.workspace.Portable
  packages : ∀ k ∈ m.packages, k.Portable
  compilationUnits : ∀ u ∈ m.compilationUnits, u.Portable

/-! ### What is the same -/

/-- The same target, with the same parameters in some order. -/
structure Target.Same (t t' : Target) : Prop where
  kind : t.kind = t'.kind
  name : t.name = t'.name
  sourcePath : t.sourcePath = t'.sourcePath
  params : (Datum.ofMembers t.params).SameJson (.ofMembers t'.params)

/-- The same component; one with flags of its own is not the same as one without. -/
structure Component.Same (c c' : Component) : Prop where
  package : c.package = c'.package
  name : c.name = c'.name
  sourcePath : c.sourcePath = c'.sourcePath
  cfg : Option.Rel (List.Forall₂ Datum.SameJson) c.cfg c'.cfg

/-- The same compilation unit. -/
structure CompilationUnit.Same (u u' : CompilationUnit) : Prop where
  id : u.id = u'.id
  package : u.package = u'.package
  target : u.target.Same u'.target
  components : List.Forall₂ Component.Same u.components u'.components
  cfg : List.Forall₂ Datum.SameJson u.cfg u'.cfg

/-- **The same metadata** up to the order of members in what is kept as it is. -/
structure Same (m m' : Metadata) : Prop where
  version : m.version = m'.version
  workspace : m.workspace = m'.workspace
  packages : m.packages = m'.packages
  compilationUnits : List.Forall₂ CompilationUnit.Same m.compilationUnits m'.compilationUnits

/-! ### Part by part -/

lemma Target.returns {t : Target} (ht : t.Portable) :
    targetDecoder.Returns t.toDatum (·.Same t) := by
  have hparams : (Fields.optional "params" (Decoder.membersOf rawDecoder) []).Returns
      (if t.params.isEmpty then [] else [("params", .ofMembers t.params)])
      fun ms => (Datum.ofMembers ms).SameJson (.ofMembers t.params) := by
    have hread := returns_members ht.params
    split_ifs with hempty
    · rw [List.isEmpty_iff] at hempty
      exact .absent "params" _ (hempty ▸ ht.params.same)
    · exact .present "params" [] hread
  have h := (Fields.Returns.required "kind" (Decoder.returns_text t.kind)).both
    ((Fields.Returns.required "name" (Decoder.returns_text t.name)).both
      ((Fields.Returns.required "source_path" (Decoder.returns_path ht.sourcePath)).both hparams
        (Fields.apart_required (by simp)))
      (Fields.apart_required (by simp)))
    (Fields.apart_required (by simp))
  exact (h.map fun hs => ⟨hs.1, hs.2.1, hs.2.2.1, hs.2.2.2⟩).record _ _

/-- The fields of a component, the last of them only if there is a value for it. -/
lemma Component.toDatum_eq (c : Component) : c.toDatum =
    .record "CompilationUnitComponentMetadata" ([("package", .ofString c.package)] ++
      ([("name", .ofString c.name)] ++ ([("source_path", .path c.sourcePath)] ++
        c.cfg.elim [] fun items => [("cfg", .sequence .tuple items)]))) := by
  rw [toDatum]
  cases c.cfg <;> rfl

lemma Component.returns (lax : Bool) {c : Component} (hc : c.Portable) :
    (componentDecoder lax).Returns c.toDatum (·.Same c) := by
  have hcfg : (Fields.optional "cfg" (Decoder.listOf? lax rawDecoder) none).Returns
      (c.cfg.elim [] fun items => [("cfg", .sequence .tuple items)])
      (Option.Rel (List.Forall₂ Datum.SameJson) · c.cfg) := by
    cases hitems : c.cfg with
    | none => exact .absent "cfg" _ .none
    | some items =>
        have hlist := Decoder.Returns.listOf? (e := fun d => d) (by decide : Gathering.tuple ≠ .set)
          lax fun d hd => returns_raw (hc.cfg items hitems d hd)
        rw [List.map_id'] at hlist
        exact .present "cfg" none hlist
  have h := (Fields.Returns.required "package" (Decoder.returns_text c.package)).both
    ((Fields.Returns.required "name" (Decoder.returns_text c.name)).both
      ((Fields.Returns.required "source_path" (Decoder.returns_path hc.sourcePath)).both hcfg
        (Fields.apart_required (by simp)))
      (Fields.apart_required (by simp)))
    (Fields.apart_required (by simp))
  rw [Component.toDatum_eq]
  exact (h.map fun hs => ⟨hs.1, hs.2.1, hs.2.2.1, hs.2.2.2⟩).record _ _

lemma CompilationUnit.returns (lax : Bool) {u : CompilationUnit} (hu : u.Portable) :
    (unitDecoder lax).Returns u.toDatum (·.Same u) := by
  have hcfg := Fields.Returns.unlessEmpty (r := Datum.SameJson) (e := fun d => d) "cfg"
    fun d (hd : d ∈ u.cfg) => returns_raw (hu.cfg d hd)
  rw [List.map_id'] at hcfg
  have h := (Fields.Returns.required "id" (Decoder.returns_text u.id)).both
    ((Fields.Returns.required "package" (Decoder.returns_text u.package)).both
      ((Fields.Returns.required "target" (Target.returns hu.target)).both
        ((Fields.Returns.unlessEmpty "components" fun c hc =>
            Component.returns lax (hu.components c hc)).both hcfg
          (Fields.apart_optional (by simp)))
        (Fields.apart_required (by simp)))
      (Fields.apart_required (by simp)))
    (Fields.apart_required (by simp))
  rw [toDatum, List.append_assoc]
  exact (h.map fun hs => ⟨hs.1, hs.2.1, hs.2.2.1, hs.2.2.2.1, hs.2.2.2.2⟩).record _ _

lemma Package.returns {k : Package} (hk : k.Portable) :
    packageDecoder.Returns k.toDatum (· = k) := by
  have h := (Fields.Returns.required "id" (Decoder.returns_text k.id)).both
    ((Fields.Returns.required "name" (Decoder.returns_text k.name)).both
      ((Fields.Returns.required "version" (Decoder.returns_text k.version)).both
        ((Fields.Returns.required "manifest_path" (Decoder.returns_path hk.manifestPath)).both
          ((Fields.Returns.required "root" (Decoder.returns_path hk.root)).both
            ((Fields.Returns.unlessNone "edition" k.edition).both
              ((Fields.Returns.unlessNone "source" k.source).both
                (.unlessNoTexts "experimental_features" k.experimentalFeatures)
                (Fields.apart_optional (by simp)))
              (Fields.apart_optional (by simp)))
            (Fields.apart_required (by simp)))
          (Fields.apart_required (by simp)))
        (Fields.apart_required (by simp)))
      (Fields.apart_required (by simp)))
    (Fields.apart_required (by simp))
  rw [toDatum, List.append_assoc, List.append_assoc]
  refine (h.map ?_).record _ _
  rintro ⟨_, _, _, _, _, _, _, _⟩ ⟨rfl, rfl, rfl, rfl, rfl, rfl, rfl, rfl⟩
  rfl

lemma Workspace.returns {w : Workspace} (hw : w.Portable) :
    workspaceDecoder.Returns w.toDatum (· = w) := by
  have h := (Fields.Returns.required "manifest_path" (Decoder.returns_path hw.manifestPath)).both
    ((Fields.Returns.required "root" (Decoder.returns_path hw.root)).both
      (.unlessNoTexts "members" w.members)
      (Fields.apart_required (by simp)))
    (Fields.apart_required (by simp))
  refine (h.map ?_).record _ _
  rintro ⟨_, _, _⟩ ⟨rfl, rfl, rfl⟩
  rfl

/-- **Metadata comes back,** up to the order of members in what is kept as it is. -/
theorem returns (lax : Bool) {m : Metadata} (hm : m.Portable) :
    (Metadata.decoder lax).Returns m.toDatum (·.Same m) := by
  have h := (Fields.Returns.required "version" (Decoder.returns_int lax hm.version)).both
    ((Fields.Returns.required "workspace" (Workspace.returns hm.workspace)).both
      ((Fields.Returns.unlessEmpty (r := Eq) "packages" fun k hk =>
          Package.returns (hm.packages k hk)).both
        (.unlessEmpty "compilation_units" fun u hu =>
          CompilationUnit.returns lax (hm.compilationUnits u hu))
        (Fields.apart_optional (by simp)))
      (Fields.apart_required (by simp)))
    (Fields.apart_required (by simp))
  rw [toDatum, List.append_assoc]
  refine (h.map ?_).record _ _
  rintro ⟨version, workspace, packages, units⟩ ⟨hversion, hworkspace, hpackages, hunits⟩
  rw [List.forall₂_eq_eq_eq] at hpackages
  exact ⟨hversion, hworkspace, hpackages, hunits⟩

/-! ### The same is equal -/

lemma typed_texts (ss : List String) : Datum.TypedItems (ss.map Datum.ofString) := by
  rw [Datum.typedItems_iff]
  intro d hd
  obtain ⟨s, -, rfl⟩ := List.mem_map.1 hd
  trivial

lemma typed_unlessEmpty (name : String) {ds : List Datum} (h : Datum.TypedItems ds) :
    Datum.TypedFields (unlessEmpty name ds) := by
  rw [unlessEmpty]
  split_ifs
  · trivial
  · exact ⟨⟨by decide, h⟩, trivial⟩

lemma typed_unlessNone (name : String) (s : Option String) :
    Datum.TypedFields (unlessNone name s) := by
  cases s with
  | none => trivial
  | some s => exact ⟨trivial, trivial⟩

lemma Package.typed (k : Package) : k.toDatum.IsTyped := by
  refine Datum.typedFields_append.2 ⟨Datum.typedFields_append.2 ⟨Datum.typedFields_append.2
    ⟨?_, typed_unlessNone _ _⟩, typed_unlessNone _ _⟩, typed_unlessEmpty _ (typed_texts _)⟩
  exact ⟨trivial, trivial, trivial, trivial, trivial, trivial⟩

lemma Workspace.typed (w : Workspace) : w.toDatum.IsTyped :=
  Datum.typedFields_append.2
    ⟨⟨trivial, trivial, trivial⟩, typed_unlessEmpty _ (typed_texts _)⟩

lemma eqFields_unlessEmpty (name : String) {as bs : List Datum}
    (h : List.Forall₂ (fun a b => Datum.eq a b = true) as bs) :
    Datum.eqFields (unlessEmpty name as) (unlessEmpty name bs) = true := by
  cases h with
  | nil => exact Datum.eqFields_nil
  | cons ha hs =>
      refine Datum.eqFields_cons ?_ Datum.eqFields_nil
      rw [Datum.eq_sequence (by decide), Datum.eqItems_iff]
      exact .cons ha hs

/-- Targets with equal parts are equal. -/
lemma Target.eq_toDatum {t t' : Target} (hkind : t.kind = t'.kind) (hname : t.name = t'.name)
    (hpath : t.sourcePath = t'.sourcePath)
    (hparams : Datum.eq (.ofMembers t.params) (.ofMembers t'.params) = true) :
    Datum.eq t.toDatum t'.toDatum = true := by
  have hempty : t.params.isEmpty = t'.params.isEmpty := by
    simp only [Datum.ofMembers, Datum.eq, Bool.and_eq_true, beq_iff_eq, List.length_map] at hparams
    rw [Bool.eq_iff_iff, List.isEmpty_iff_length_eq_zero, List.isEmpty_iff_length_eq_zero,
      hparams.1]
  rw [toDatum, toDatum, Datum.eq_record, hkind, hname, hpath, hempty]
  refine Datum.eqFields_append (Datum.eqFields_cons (Datum.eq_ofString _) (Datum.eqFields_cons
    (Datum.eq_ofString _) (Datum.eqFields_cons (Datum.eq_path _) Datum.eqFields_nil))) ?_
  split_ifs
  · exact Datum.eqFields_nil
  · exact Datum.eqFields_cons hparams Datum.eqFields_nil

/-- Components with equal parts are equal. -/
lemma Component.eq_toDatum {c c' : Component} (hpackage : c.package = c'.package)
    (hname : c.name = c'.name) (hpath : c.sourcePath = c'.sourcePath)
    (hcfg : Option.Rel (List.Forall₂ fun a b => Datum.eq a b = true) c.cfg c'.cfg) :
    Datum.eq c.toDatum c'.toDatum = true := by
  rw [toDatum, toDatum, Datum.eq_record, hpackage, hname, hpath]
  refine Datum.eqFields_append (Datum.eqFields_cons (Datum.eq_ofString _) (Datum.eqFields_cons
    (Datum.eq_ofString _) (Datum.eqFields_cons (Datum.eq_path _) Datum.eqFields_nil))) ?_
  generalize c.cfg = cfg, c'.cfg = cfg' at hcfg
  cases hcfg with
  | none => exact Datum.eqFields_nil
  | some hitems =>
      refine Datum.eqFields_cons ?_ Datum.eqFields_nil
      rw [Datum.eq_sequence (by decide), Datum.eqItems_iff]
      exact hitems

/-- Compilation units with equal parts are equal. -/
lemma CompilationUnit.eq_toDatum {u u' : CompilationUnit} (hid : u.id = u'.id)
    (hpackage : u.package = u'.package)
    (htarget : Datum.eq u.target.toDatum u'.target.toDatum = true)
    (hcomponents : List.Forall₂ (fun c c' => Datum.eq c.toDatum c'.toDatum = true) u.components
      u'.components)
    (hcfg : List.Forall₂ (fun a b => Datum.eq a b = true) u.cfg u'.cfg) :
    Datum.eq u.toDatum u'.toDatum = true := by
  rw [toDatum, toDatum, Datum.eq_record, hid, hpackage]
  refine Datum.eqFields_append (Datum.eqFields_append (Datum.eqFields_cons (Datum.eq_ofString _)
    (Datum.eqFields_cons (Datum.eq_ofString _) (Datum.eqFields_cons htarget
      Datum.eqFields_nil))) ?_) (eqFields_unlessEmpty _ hcfg)
  refine eqFields_unlessEmpty _ ?_
  rwa [List.forall₂_map_left_iff, List.forall₂_map_right_iff]

/-- Metadata with equal parts is equal. -/
lemma eq_toDatum {m m' : Metadata} (hversion : m.version = m'.version)
    (hworkspace : m.workspace = m'.workspace) (hpackages : m.packages = m'.packages)
    (hunits : List.Forall₂ (fun u u' => Datum.eq u.toDatum u'.toDatum = true) m.compilationUnits
      m'.compilationUnits) : Datum.eq m.toDatum m'.toDatum = true := by
  rw [toDatum, toDatum, Datum.eq_record, hversion, hworkspace, hpackages]
  refine Datum.eqFields_append (Datum.eqFields_append (Datum.eqFields_cons (Datum.eq_int _)
    (Datum.eqFields_cons m'.workspace.typed.eq_self Datum.eqFields_nil)) ?_) ?_
  · refine Datum.TypedFields.eq_self (typed_unlessEmpty _ (Datum.typedItems_iff.2 ?_))
    intro d hd
    obtain ⟨k, -, rfl⟩ := List.mem_map.1 hd
    exact k.typed
  · refine eqFields_unlessEmpty _ ?_
    rwa [List.forall₂_map_left_iff, List.forall₂_map_right_iff]

lemma forall₂_eq_of_sameJson {as bs : List Datum} (h : List.Forall₂ Datum.SameJson as bs) :
    List.Forall₂ (fun a b => Datum.eq a b = true) as bs :=
  h.imp fun _ _ => Datum.SameJson.eq

lemma Target.Same.eq {t t' : Target} (h : t.Same t') : Datum.eq t.toDatum t'.toDatum = true :=
  t.eq_toDatum h.kind h.name h.sourcePath h.params.eq

lemma Component.Same.eq {c c' : Component} (h : c.Same c') :
    Datum.eq c.toDatum c'.toDatum = true := by
  refine c.eq_toDatum h.package h.name h.sourcePath ?_
  have hcfg := h.cfg
  generalize c.cfg = cfg, c'.cfg = cfg' at hcfg
  cases hcfg with
  | none => exact .none
  | some hitems => exact .some (forall₂_eq_of_sameJson hitems)

lemma CompilationUnit.Same.eq {u u' : CompilationUnit} (h : u.Same u') :
    Datum.eq u.toDatum u'.toDatum = true :=
  u.eq_toDatum h.id h.package h.target.eq (h.components.imp fun _ _ => Component.Same.eq)
    (forall₂_eq_of_sameJson h.cfg)

/-- **Metadata that is the same is equal.** -/
theorem Same.eq {m m' : Metadata} (h : m.Same m') : Datum.eq m.toDatum m'.toDatum = true :=
  m.eq_toDatum h.version h.workspace h.packages
    (h.compilationUnits.imp fun _ _ => CompilationUnit.Same.eq)

end Metadata

/-! ## All formats -/

/-- **What is written is read again,** from the compact text and from the indented one, strictly
and laxly: crates and manifests as they were, and metadata as metadata that is equal to it. -/
theorem Decoder.load_dump (lax pretty : Bool) :
    (∀ cs : List Crate, (∀ c ∈ cs, c.root.Encodable) →
      ∃ text, (Datum.sequence .tuple (cs.map Crate.toDatum)).dump pretty = .ok text ∧
        (Decoder.listOf (Crate.decoder lax)).load (Text.encode (Text.ofString text)) = .ok cs) ∧
    (∀ m : Manifest, m.path.Encodable →
      ∃ text, m.toDatum.dump pretty = .ok text ∧
        Manifest.decoder.load (Text.encode (Text.ofString text)) = .ok m) ∧
    (∀ m : Metadata, m.Portable →
      ∃ text, m.toDatum.dump pretty = .ok text ∧
        ∃ m', (Metadata.decoder lax).load (Text.encode (Text.ofString text)) = .ok m' ∧
          m'.Same m ∧ Datum.eq m'.toDatum m.toDatum = true) := by
  refine ⟨fun cs hroots => ?_, fun m hpath => ?_, fun m hm => ?_⟩
  · obtain ⟨text, htext, _, hload, rfl⟩ :=
      (Crate.returns_list lax (by decide : Gathering.tuple ≠ .set) hroots).load
      pretty
    exact ⟨text, htext, hload⟩
  · obtain ⟨text, htext, _, hload, rfl⟩ := (m.returns hpath).load pretty
    exact ⟨text, htext, hload⟩
  · obtain ⟨text, htext, m', hload, hsame⟩ := (Metadata.returns lax hm).load pretty
    exact ⟨text, htext, m', hload, hsame, hsame.eq⟩

/-- A crate whose flags are known, and none. -/
def Crate.bare : Crate := ⟨"a", .top, none, ⟨.v2024_07, some ⟨[]⟩, .off⟩⟩

/-- A unit of one component, with a flag that is kept as it is. -/
def Metadata.small : Metadata where
  version := 1
  workspace := ⟨.top, .top, []⟩
  packages := []
  compilationUnits := [⟨"u", "p", ⟨"lib", "l", .top, []⟩, [⟨"p", "c", .top, some []⟩],
    [.ofJson (.object [("b", .int 1), ("a", .null)])]⟩]

/-- A crate, a manifest that is not Scarb's, and metadata whose flag is written with its members
in another order. -/
theorem Decoder.load_dump_small :
    (∃ text, (Datum.sequence .tuple ([Crate.bare].map Crate.toDatum)).dump true = .ok text ∧
      (Decoder.listOf (Crate.decoder false)).load (Text.encode (Text.ofString text)) =
        .ok [Crate.bare]) ∧
    (∃ text, (Manifest.cairoProject .top).toDatum.dump true = .ok text ∧
      Manifest.decoder.load (Text.encode (Text.ofString text)) = .ok (.cairoProject .top)) ∧
    (∃ text, Metadata.small.toDatum.dump true = .ok text ∧
      ∃ m', (Metadata.decoder false).load (Text.encode (Text.ofString text)) = .ok m' ∧
        m'.Same .small ∧ Datum.eq m'.toDatum Metadata.small.toDatum = true) := by
  have htop : Path.top.Encodable := ⟨"/", by decide⟩
  have hsmall : Metadata.small.Portable := by
    refine ⟨rfl, ⟨htop, htop⟩, List.forall_mem_nil _, List.forall_mem_singleton.2
      ⟨⟨htop, .object [], ⟨List.nodup_nil, trivial⟩, rfl⟩, List.forall_mem_singleton.2
        ⟨htop, ?_⟩, List.forall_mem_singleton.2 ⟨_, ?_, rfl⟩⟩⟩
    · rintro items hitems d hd
      obtain rfl := Option.some.inj hitems
      exact absurd hd List.not_mem_nil
    · exact ⟨by decide, rfl, trivial, trivial⟩
  obtain ⟨hcrates, hmanifest, hmetadata⟩ := Decoder.load_dump false true
  exact ⟨hcrates [.bare] (List.forall_mem_singleton.2 htop), hmanifest (.cairoProject .top) htop,
    hmetadata .small hsmall⟩

end ScarbCrates
