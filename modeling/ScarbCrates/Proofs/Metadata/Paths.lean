import ScarbCrates.Proofs.Database.Returning
import ScarbCrates.Proofs.Path.Strings
import ScarbCrates.Proofs.Schema.Following
import ScarbCrates.Proofs.Toolchain.Outcome

/-!
# The paths of a document

The paths in a document have been read from strings of JSON, so they are strings again; nothing
else is asked of them.

* `Decoder.Gives` — what holds of all that a decoder makes.
* `Metadata.paths` — all paths of a document.
* `Toolchain.Yields.encodable` — the paths of Scarb's metadata are strings.
-/

namespace ScarbCrates

open Json (Value)

/-! ## What a decoder makes -/

section Gives

variable {α β : Type} {P : α → Prop} {Q : β → Prop}

/-- **What holds of all that a decoder makes,** whatever it is made from. -/
structure Decoder.Gives (d : Decoder Value α) (P : α → Prop) : Prop where
  holds : ∀ {p v a}, d p v = .ok a → P a

/-- The same for the members of an object. -/
structure Fields.Gives (f : Fields Value α) (P : α → Prop) : Prop where
  holds : ∀ {p known a}, f.build p known = .ok a → P a

namespace Fields

variable {f : Fields Value α} {g : Fields Value β}

lemma Gives.required (name : String) {d : Decoder Value α} (h : d.Gives P) :
    (Fields.required name d).Gives P where
  holds hok := by
    obtain ⟨v, -, hv⟩ := exists_of_required hok
    exact h.holds hv

lemma Gives.optional (name : String) {d : Decoder Value α} {default : α} (h : d.Gives P)
    (hdefault : P default) : (Fields.optional name d default).Gives P where
  holds hok := by
    simp only [Fields.optional] at hok
    split at hok
    · exact h.holds hok
    · obtain rfl := Except.ok.inj hok
      exact hdefault

/-- Of members on which nothing depends. -/
lemma gives_true (f : Fields Value α) : f.Gives fun _ => True where
  holds _ := trivial

lemma Gives.both (hf : f.Gives P) (hg : g.Gives Q) :
    (Fields.both f g).Gives fun ab => P ab.1 ∧ Q ab.2 where
  holds hok := ⟨hf.holds (build_of_both hok).1, hg.holds (build_of_both hok).2⟩

lemma Gives.map {k : α → β} (h : f.Gives P) (hPQ : ∀ {a}, P a → Q (k a)) :
    (f.map k).Gives Q where
  holds hok := by
    obtain ⟨a, ha, rfl⟩ := exists_of_map_eq_ok hok
    exact hPQ (h.holds ha)

/-- **What a record is made from** are its members. -/
lemma Gives.record (h : f.Gives P) (kind : String) (unknown : Unknown) :
    (Decoder.record kind unknown f).Gives P where
  holds {p v a} hok := by
    cases v with
    | object ms =>
        obtain ⟨known, -, hok⟩ := exists_of_bind_eq_ok hok
        obtain ⟨_, -, hbuild⟩ := exists_of_bind_eq_ok hok
        exact h.holds hbuild
    | _ => cases hok

end Fields

namespace Decoder

lemma gives_path : (asPath : Decoder Value Path).Gives Path.Encodable where
  holds {p v a} hok := by
    cases v with
    | text s =>
        obtain rfl := Except.ok.inj hok
        exact Path.encodable_ofString s
    | _ => cases hok

lemma gives_itemsFrom {item : Decoder Value α} (h : item.Gives P) {p : Place} {i : Nat}
    {vs : List Value} {as : List α} (hok : itemsFrom item p i vs = .ok as) : ∀ a ∈ as, P a := by
  induction vs generalizing i as with
  | nil =>
      obtain rfl := Except.ok.inj hok
      exact List.forall_mem_nil _
  | cons v vs ih =>
      obtain ⟨a, ha, hok⟩ := exists_of_bind_eq_ok hok
      obtain ⟨rest, hrest, hok⟩ := exists_of_bind_eq_ok hok
      obtain rfl := Except.ok.inj hok
      exact List.forall_mem_cons.2 ⟨h.holds ha, ih hrest⟩

/-- What holds of the items holds of all of a list. -/
lemma Gives.listOf {item : Decoder Value α} (h : item.Gives P) :
    (listOf item).Gives fun as => ∀ a ∈ as, P a where
  holds {p v as} hok := by
    cases v with
    | array vs =>
        rw [listOf_array] at hok
        exact gives_itemsFrom h hok
    | _ => cases hok

end Decoder

end Gives

/-! ## All paths of a document -/

namespace Metadata

/-- The paths of a package. -/
def Package.paths (k : Package) : List Path := [k.manifestPath, k.root]

/-- The source files of a compilation unit. -/
def CompilationUnit.paths (u : CompilationUnit) : List Path :=
  u.target.sourcePath :: u.components.map (·.sourcePath)

/-- The paths of a workspace. -/
def Workspace.paths (w : Workspace) : List Path := [w.manifestPath, w.root]

/-- **All paths of a document.** -/
def paths (m : Metadata) : List Path :=
  m.workspace.paths ++ m.packages.flatMap Package.paths ++
    m.compilationUnits.flatMap CompilationUnit.paths

variable {m : Metadata}

lemma mem_paths_of_workspace {q : Path} (h : q ∈ m.workspace.paths) : q ∈ m.paths :=
  List.mem_append_left _ (List.mem_append_left _ h)

/-- The manifests of the members are paths of packages. -/
lemma memberManifests_subset (m : Metadata) : Database.memberManifests m ⊆ m.paths := by
  intro q hq
  obtain ⟨k, hk, rfl⟩ := List.mem_map.1 hq
  obtain ⟨id, -, hid⟩ := List.mem_filterMap.1 hk
  refine List.mem_append_left _ (List.mem_append_right _ (List.mem_flatMap.2 ⟨k, ?_, ?_⟩))
  · exact List.mem_of_find?_eq_some hid
  · exact List.mem_cons_self

lemma sourcePath_mem_paths {u : CompilationUnit} (hu : u ∈ m.compilationUnits) {c : Component}
    (hc : c ∈ u.components) : c.sourcePath ∈ m.paths :=
  List.mem_append_right _
    (List.mem_flatMap.2 ⟨u, hu, List.mem_cons_of_mem _ (List.mem_map_of_mem hc)⟩)

/-- The source files that a derivation looks at are paths of components. -/
lemma sources_subset (m : Metadata) : Derivation.sources m ⊆ m.paths := by
  intro q hq
  obtain ⟨u, hu, hq⟩ := List.mem_flatMap.1 hq
  rw [Derivation.sourcesOf] at hq
  split_ifs at hq
  · cases hq
  · obtain ⟨c, hc, rfl⟩ := List.mem_map.1 hq
    exact sourcePath_mem_paths hu hc

/-! ## Paths that are read -/

lemma gives_target : (targetDecoder : Decoder Value Target).Gives (·.sourcePath.Encodable) := by
  have hfields := (Fields.gives_true (.required "kind" Decoder.asText)).both
    ((Fields.gives_true (.required "name" Decoder.asText)).both
      ((Fields.Gives.required "source_path" Decoder.gives_path).both
        (Fields.gives_true (.optional "params" (Decoder.membersOf rawDecoder) []))))
  refine (hfields.map fun h => ?_).record _ _
  exact h.2.2.1

lemma gives_component :
    (componentDecoder false : Decoder Value Component).Gives (·.sourcePath.Encodable) := by
  have hfields := (Fields.gives_true (.required "package" Decoder.asText)).both
    ((Fields.gives_true (.required "name" Decoder.asText)).both
      ((Fields.Gives.required "source_path" Decoder.gives_path).both
        (Fields.gives_true (.optional "cfg" (Decoder.listOf? false rawDecoder) none))))
  refine (hfields.map fun h => ?_).record _ _
  exact h.2.2.1

lemma gives_unit : (unitDecoder false : Decoder Value CompilationUnit).Gives
    fun u => ∀ q ∈ u.paths, q.Encodable := by
  have hfields := (Fields.gives_true (.required "id" Decoder.asText)).both
    ((Fields.gives_true (.required "package" Decoder.asText)).both
      ((Fields.Gives.required "target" gives_target).both
        ((Fields.Gives.optional "components" gives_component.listOf (List.forall_mem_nil _)).both
          (Fields.gives_true (.optional "cfg" (Decoder.listOf rawDecoder) [])))))
  refine (hfields.map fun h => ?_).record _ _
  exact List.forall_mem_cons.2 ⟨h.2.2.1, List.forall_mem_map.2 h.2.2.2.1⟩

lemma gives_package : (packageDecoder : Decoder Value Package).Gives
    fun k => ∀ q ∈ k.paths, q.Encodable := by
  have hfields := (Fields.gives_true (.required "id" Decoder.asText)).both
    ((Fields.gives_true (.required "name" Decoder.asText)).both
      ((Fields.gives_true (.required "version" Decoder.asText)).both
        ((Fields.Gives.required "manifest_path" Decoder.gives_path).both
          ((Fields.Gives.required "root" Decoder.gives_path).both
            (Fields.gives_true (.both (.optional "edition" Decoder.asText? none)
              (.both (.optional "source" Decoder.asText? none)
                (.optional "experimental_features" (Decoder.listOf Decoder.asText) []))))))))
  refine (hfields.map fun h => ?_).record _ _
  exact List.forall_mem_cons.2 ⟨h.2.2.2.1, List.forall_mem_singleton.2 h.2.2.2.2.1⟩

lemma gives_workspace : (workspaceDecoder : Decoder Value Workspace).Gives
    fun w => ∀ q ∈ w.paths, q.Encodable := by
  have hfields := (Fields.Gives.required "manifest_path" Decoder.gives_path).both
    ((Fields.Gives.required "root" Decoder.gives_path).both
      (Fields.gives_true (.optional "members" (Decoder.listOf Decoder.asText) [])))
  refine (hfields.map fun h => ?_).record _ _
  exact List.forall_mem_cons.2 ⟨h.1, List.forall_mem_singleton.2 h.2.1⟩

/-- **The paths of a document are strings,** whatever the document. -/
theorem gives_paths : (decoder false : Decoder Value Metadata).Gives
    fun m => ∀ q ∈ m.paths, q.Encodable := by
  have hfields := (Fields.gives_true (.required "version" (Decoder.asInt false))).both
    ((Fields.Gives.required "workspace" gives_workspace).both
      ((Fields.Gives.optional "packages" gives_package.listOf (List.forall_mem_nil _)).both
        (Fields.Gives.optional "compilation_units" gives_unit.listOf (List.forall_mem_nil _))))
  refine (hfields.map fun h => ?_).record _ _
  refine List.forall_mem_append.2 ⟨List.forall_mem_append.2 ⟨h.2.1, ?_⟩, ?_⟩
  · exact List.forall_mem_flatMap.2 h.2.2.1
  · exact List.forall_mem_flatMap.2 h.2.2.2

end Metadata

namespace Toolchain

lemma Yields.encodable {t : Toolchain} {manifest : Path} {w : World Machine} {m : Metadata}
    (h : t.Yields manifest w m) : ∀ q ∈ m.paths, q.Encodable := by
  obtain ⟨_, _, _, -, -, -, hm⟩ := h
  exact Metadata.gives_paths.holds hm

end Toolchain

end ScarbCrates
