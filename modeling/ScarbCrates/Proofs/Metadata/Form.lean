import ScarbCrates.Proofs.Schema.Following
import ScarbCrates.Proofs.Schema.RoundTrip

/-!
# The form of metadata

What a metadata document has to look like, written down, and that documents are read in this way.
Configuration flags and target parameters may be anything; they are kept as they are.

* `Metadata.documentForm` — the form of a document.
* `Metadata.follows` — the decoder of documents follows it.
-/

namespace ScarbCrates

open Json (Value)

namespace Metadata

/-! ## Forms -/

open Form (required optional)

/-- The form of a target. -/
def targetForm : Form :=
  .record [required "kind" .text, required "name" .text, required "source_path" .text,
    optional "params" .members]

/-- The form of a component. -/
def componentForm : Form :=
  .record [required "package" .text, required "name" .text, required "source_path" .text,
    optional "cfg" (.list true .anything)]

/-- The form of a compilation unit. -/
def unitForm : Form :=
  .record [required "id" .text, required "package" .text, required "target" targetForm,
    optional "components" (.list false componentForm), optional "cfg" (.list false .anything)]

/-- The form of a package. -/
def packageForm : Form :=
  .record [required "id" .text, required "name" .text, required "version" .text,
    required "manifest_path" .text, required "root" .text, optional "edition" .text?,
    optional "source" .text?, optional "experimental_features" (.list false .text)]

/-- The form of a workspace. -/
def workspaceForm : Form :=
  .record [required "manifest_path" .text, required "root" .text,
    optional "members" (.list false .text)]

/-- **The form of a metadata document.** -/
def documentForm : Form :=
  .record [required "version" .whole, required "workspace" workspaceForm,
    optional "packages" (.list false packageForm),
    optional "compilation_units" (.list false unitForm)]

/-! ## What is kept as it is -/

lemma follows_raw :
    (rawDecoder : Decoder Value Datum).Follows .anything fun b a => Datum.eq b a = true := by
  refine Decoder.follows_plain (fun p v _ => ⟨_, rfl⟩)
    (fun p v hv => absurd v.kind_mem_kinds hv) fun hv _ hsame hok => ?_
  obtain rfl := Except.ok.inj hok
  exact ⟨_, rfl, Datum.eq_ofJson hsame hv⟩

lemma membersFrom_raw (p : Place) (ms : List (String × Value)) :
    Decoder.membersFrom rawDecoder p (ms.map fun m => (.text m.1, m.2)) =
      .ok (ms.map fun m => (m.1, Datum.ofJson m.2)) := by
  induction ms with
  | nil => rfl
  | cons m ms ih =>
      rw [List.map_cons, Decoder.membersFrom]
      show (Decoder.membersFrom rawDecoder p (ms.map _) >>= _) = _
      rw [ih]
      rfl

lemma membersOf_object (p : Place) (ms : List (String × Value)) :
    Decoder.membersOf rawDecoder p (Value.object ms) =
      .ok (Json.collect (ms.map fun m => (m.1, Datum.ofJson m.2))) := by
  show (Decoder.membersFrom rawDecoder p (ms.map fun m => (.text m.1, m.2)) >>= fun as =>
    pure (Json.collect as)) = _
  rw [membersFrom_raw]
  rfl

/-- An object is kept with all its members. -/
lemma membersOf_raw {p : Place} {v : Value} {members : List (String × Datum)} (hv : v.IsJson)
    (h : Decoder.membersOf rawDecoder p v = .ok members) :
    (∃ ms, v = .object ms) ∧ Datum.ofMembers members = .ofJson v := by
  cases v with
  | object ms =>
      rw [membersOf_object, Json.collect_of_nodup (by rw [Json.keys_map]; exact hv.nodup)] at h
      obtain rfl := Except.ok.inj h
      exact ⟨⟨ms, rfl⟩, Datum.ofMembers_eq_ofJson ms⟩
  | _ => cases h

lemma follows_members : (Decoder.membersOf (rawDecoder : Decoder Value Datum)).Follows .members
    fun b a => Datum.eq (.ofMembers b) (.ofMembers a) = true := by
  refine Decoder.follows_plain (fun p v hv => ?_) (fun p v hv => ?_)
    fun {p q v w a} hv hw hsame hok => ?_
  · cases v with
    | object ms => exact ⟨_, membersOf_object p ms⟩
    | _ => cases List.mem_singleton.1 hv
  · refine ⟨Decoder.misfitOf [.object] v, ?_, Decoder.legible_misfitOf (by decide) v⟩
    cases v with
    | object ms => exact absurd List.mem_cons_self hv
    | _ => rfl
  · obtain ⟨⟨ms, rfl⟩, hms⟩ := membersOf_raw hv hok
    obtain ⟨ns, rfl, -⟩ := Value.same_object hsame
    refine ⟨_, membersOf_object q ns, ?_⟩
    rw [hms, (membersOf_raw hw (membersOf_object q ns)).2]
    exact Datum.eq_ofJson hsame hv

/-! ## Part by part -/

lemma follows_target : (targetDecoder : Decoder Value Target).Follows targetForm
    fun b a => Datum.eq b.toDatum a.toDatum = true := by
  have hdefault : Datum.eq (.ofMembers []) (.ofMembers []) = true := by
    simp [Datum.ofMembers, Datum.eq, Datum.eqPairs]
  have h := (Fields.Follows.required "kind" Decoder.follows_text (by decide)).both
    ((Fields.Follows.required "name" Decoder.follows_text (by decide)).both
      ((Fields.Follows.required "source_path" Decoder.follows_path (by decide)).both
        (.optional "params" [] follows_members hdefault) (by decide)) (by decide)) (by decide)
  refine (h.map ?_).record _
  rintro _ _ ⟨hkind, hname, hpath, hparams⟩
  exact Target.eq_toDatum hkind hname hpath hparams

lemma follows_component : (componentDecoder false : Decoder Value Component).Follows componentForm
    fun b a => Datum.eq b.toDatum a.toDatum = true := by
  have h := (Fields.Follows.required "package" Decoder.follows_text (by decide)).both
    ((Fields.Follows.required "name" Decoder.follows_text (by decide)).both
      ((Fields.Follows.required "source_path" Decoder.follows_path (by decide)).both
        (.optional "cfg" none follows_raw.listOf? .none) (by decide)) (by decide)) (by decide)
  refine (h.map ?_).record _
  rintro _ _ ⟨hpackage, hname, hpath, hcfg⟩
  exact Component.eq_toDatum hpackage hname hpath hcfg

lemma follows_unit : (unitDecoder false : Decoder Value CompilationUnit).Follows unitForm
    fun b a => Datum.eq b.toDatum a.toDatum = true := by
  have h := (Fields.Follows.required "id" Decoder.follows_text (by decide)).both
    ((Fields.Follows.required "package" Decoder.follows_text (by decide)).both
      ((Fields.Follows.required "target" follows_target (by decide)).both
        ((Fields.Follows.optional "components" [] follows_component.listOf .nil).both
          (.optional "cfg" [] follows_raw.listOf .nil) (by decide)) (by decide)) (by decide))
    (by decide)
  refine (h.map ?_).record _
  rintro _ _ ⟨hid, hpackage, htarget, hcomponents, hcfg⟩
  exact CompilationUnit.eq_toDatum hid hpackage htarget hcomponents hcfg

lemma follows_texts :
    (Decoder.listOf (Decoder.asText : Decoder Value String)).Follows (.list false .text) Eq := by
  have h := Decoder.follows_text.listOf
  rwa [List.forall₂_eq_eq_eq] at h

lemma follows_package : (packageDecoder : Decoder Value Package).Follows packageForm Eq := by
  have h := (Fields.Follows.required "id" Decoder.follows_text (by decide)).both
    ((Fields.Follows.required "name" Decoder.follows_text (by decide)).both
      ((Fields.Follows.required "version" Decoder.follows_text (by decide)).both
        ((Fields.Follows.required "manifest_path" Decoder.follows_path (by decide)).both
          ((Fields.Follows.required "root" Decoder.follows_path (by decide)).both
            ((Fields.Follows.optional "edition" none Decoder.follows_text? rfl).both
              ((Fields.Follows.optional "source" none Decoder.follows_text? rfl).both
                (.optional "experimental_features" [] follows_texts rfl)
                (by decide)) (by decide)) (by decide)) (by decide)) (by decide)) (by decide))
    (by decide)
  refine (h.map ?_).record _
  rintro ⟨_, _, _, _, _, _, _, _⟩ ⟨_, _, _, _, _, _, _, _⟩ ⟨rfl, rfl, rfl, rfl, rfl, rfl, rfl, rfl⟩
  rfl

lemma follows_workspace :
    (workspaceDecoder : Decoder Value Workspace).Follows workspaceForm Eq := by
  have h := (Fields.Follows.required "manifest_path" Decoder.follows_path (by decide)).both
    ((Fields.Follows.required "root" Decoder.follows_path (by decide)).both
      (.optional "members" [] follows_texts rfl) (by decide)) (by decide)
  refine (h.map ?_).record _
  rintro ⟨_, _, _⟩ ⟨_, _, _⟩ ⟨rfl, rfl, rfl⟩
  rfl

/-- **Documents are read in the form of metadata.** -/
theorem follows : (decoder false : Decoder Value Metadata).Follows documentForm
    fun b a => Datum.eq b.toDatum a.toDatum = true := by
  have hpackages := follows_package.listOf
  rw [List.forall₂_eq_eq_eq] at hpackages
  have h := (Fields.Follows.required "version" Decoder.follows_int (by decide)).both
    ((Fields.Follows.required "workspace" follows_workspace (by decide)).both
      ((Fields.Follows.optional "packages" [] hpackages rfl).both
        (.optional "compilation_units" [] follows_unit.listOf .nil) (by decide)) (by decide))
    (by decide)
  refine (h.map ?_).record _
  rintro _ _ ⟨hversion, hworkspace, hpackages, hunits⟩
  exact eq_toDatum hversion hworkspace hpackages hunits

end Metadata

end ScarbCrates
