import ScarbCrates.Proofs.Json.Rearranging
import ScarbCrates.Proofs.Query.Reading
import ScarbCrates.Schema.Shape

/-!
# Schemas written down

Which kinds of values may stand where, which members an object must have and which it may have.  A
place leads through a schema as it leads through a value, so a place in a document has a form that
is asked for there, or none.

* `Json.Value.at?`, `Form.at?` — what stands at a place, and what is asked for there.
* `Form.FaultAt` — the value at a place is at fault.
* `Form.Extends` — a value with members that a schema does not know, and in another order.
-/

namespace ScarbCrates

open Json (Value)

lemma Assoc.get?_eq_none_iff {κ α : Type} [DecidableEq κ] {entries : List (κ × α)} {key : κ} :
    get? entries key = none ↔ key ∉ keys entries := by
  rw [← has_iff, has, Bool.not_eq_true, Option.isSome_eq_false_iff, Option.isNone_iff_eq_none]

/-! ## Parts of values -/

namespace Json

namespace Value

/-- The kind of a value. -/
def kind : Value → Kind
  | .null => .null
  | .bool _ => .bool
  | .int _ => .int
  | .float _ => .float
  | .text _ => .str
  | .array _ => .array
  | .object _ => .object

/-- The kinds of all values. -/
def kinds : List Kind := [.null, .bool, .int, .float, .str, .array, .object]

lemma kind_mem_kinds (v : Value) : v.kind ∈ kinds := by
  cases v <;> simp [kind, kinds]

/-- The part of a value that is one step away. -/
def part? (v : Value) (s : PlaceStep) : Option Value :=
  match v, s with
  | .array vs, .item i => vs[i]?
  | .object ms, .member n => Assoc.get? ms n
  | _, _ => none

/-- What stands at a place in a value. -/
def at? : Value → Place → Option Value
  | v, [] => some v
  | v, s :: q => (v.part? s).bind fun w => w.at? q

/-- **What a JSON document holds:** objects whose members have different names, and numbers that
are numbers. -/
structure IsJson (v : Value) : Prop where
  names : ∀ q ms, v.at? q = some (.object ms) → (Assoc.keys ms).Nodup
  numbers : ∀ q x, v.at? q = some (.float x) → x.eqValue x = true

variable {v w : Value} {vs : List Value} {ms : List (String × Value)}

lemma at?_cons {s : PlaceStep} (h : v.part? s = some w) (q : Place) :
    v.at? (s :: q) = w.at? q := by
  rw [at?, h, Option.bind_some]

namespace IsJson

lemma part (h : v.IsJson) {s : PlaceStep} (hw : v.part? s = some w) : w.IsJson where
  names q ms hq := h.names (s :: q) ms (by rw [at?_cons hw, hq])
  numbers q x hq := h.numbers (s :: q) x (by rw [at?_cons hw, hq])

lemma at? (h : v.IsJson) {q : Place} (hw : v.at? q = some w) : w.IsJson := by
  induction q generalizing v with
  | nil => exact Option.some.inj hw ▸ h
  | cons s q ih =>
      obtain ⟨u, hu, hw⟩ := Option.bind_eq_some_iff.1 hw
      exact ih (h.part hu) hw

lemma item (h : (Value.array vs).IsJson) {i : Nat} (hw : vs[i]? = some w) : w.IsJson :=
  h.part (s := .item i) hw

lemma nodup (h : (Value.object ms).IsJson) : (Assoc.keys ms).Nodup := h.names [] ms rfl

lemma member (h : (Value.object ms).IsJson) {n : String} (hw : (n, w) ∈ ms) : w.IsJson :=
  h.part (s := .member n) (Assoc.get?_of_mem h.nodup hw)

end IsJson

/-- The parts of a portable value are portable. -/
lemma Portable.part (h : v.Portable) {s : PlaceStep} (hw : v.part? s = some w) : w.Portable := by
  cases v with
  | array vs =>
      cases s with
      | item i => exact portableItems_iff.1 h w (List.mem_of_getElem? hw)
      | _ => cases hw
  | object ms =>
      cases s with
      | member n => exact portableMembers_iff.1 h.2 _ (Assoc.mem_of_get? hw)
      | _ => cases hw
  | _ => cases hw

lemma Portable.at? (h : v.Portable) {q : Place} (hw : v.at? q = some w) : w.Portable := by
  induction q generalizing v with
  | nil => exact Option.some.inj hw ▸ h
  | cons s q ih =>
      obtain ⟨u, hu, hw⟩ := Option.bind_eq_some_iff.1 hw
      exact ih (h.part hu) hw

/-- A portable value is JSON. -/
lemma Portable.isJson (h : v.Portable) : v.IsJson where
  names _ _ hq := (h.at? hq).1
  numbers _ _ hq := (h.at? hq).elim

end Value

end Json

/-! ## Forms -/

/-- **A form that values may have:** a value of one of some kinds, of whose parts nothing is asked;
a list of items of one form, or also null; an object with fields, each of which is required or not
and has a form of its own. -/
inductive Form
  | plain (kinds : List Kind)
  | list (orNull : Bool) (item : Form)
  | record (fields : List (String × (Bool × Form)))

namespace Form

variable {f g : Form} {v w : Value} {s : PlaceStep} {q : Place}

/-- A field that must be there. -/
def required (name : String) (f : Form) : String × (Bool × Form) := (name, true, f)

/-- A field that may be absent. -/
def optional (name : String) (f : Form) : String × (Bool × Form) := (name, false, f)

/-- A text. -/
def text : Form := .plain [.str]

/-- A text or null. -/
def text? : Form := .plain [.str, .null]

/-- An integer. -/
def whole : Form := .plain [.int]

/-- An object with any members. -/
def members : Form := .plain [.object]

/-- Anything. -/
def anything : Form := .plain Value.kinds

/-- The kinds of the values that a form allows. -/
def kinds : Form → List Kind
  | .plain kinds => kinds
  | .list false _ => [.array]
  | .list true _ => [.array, .null]
  | .record _ => [.object]

/-- What is asked for one step away. -/
def part? (f : Form) (s : PlaceStep) : Option Form :=
  match f, s with
  | .list _ item, .item _ => some item
  | .record fields, .member n => (Assoc.get? fields n).map Prod.snd
  | _, _ => none

/-- What is asked for at a place. -/
def at? : Form → Place → Option Form
  | f, [] => some f
  | f, s :: q => (f.part? s).bind fun g => g.at? q

mutual

/-- The names of all fields that a form knows, at whatever depth. -/
def names : Form → List String
  | .plain _ => []
  | .list _ item => item.names
  | .record fields => namesOfFields fields

/-- The names of some fields and those in them. -/
def namesOfFields : List (String × (Bool × Form)) → List String
  | [] => []
  | (n, _, f) :: rest => n :: (f.names ++ namesOfFields rest)

end

lemma mem_namesOfFields {fields : List (String × (Bool × Form))} {n : String} {b : Bool}
    (h : (n, b, f) ∈ fields) : n ∈ namesOfFields fields ∧ f.names ⊆ namesOfFields fields := by
  induction fields with
  | nil => cases h
  | cons field fields ih =>
      obtain ⟨n', b', f'⟩ := field
      rw [namesOfFields]
      rcases List.mem_cons.1 h with heq | hmem
      · cases heq
        exact ⟨List.mem_cons_self, List.subset_cons_of_subset _ (List.subset_append_left _ _)⟩
      · obtain ⟨hn, hf⟩ := ih hmem
        exact ⟨List.mem_cons_of_mem _ (List.mem_append_right _ hn),
          List.subset_cons_of_subset _ (List.Subset.trans hf (List.subset_append_right _ _))⟩

/-- **The members on the way to a place** that a form knows are among its fields. -/
lemma mem_names_of_at? (h : f.at? q = some g) {n : String} (hn : .member n ∈ q) :
    n ∈ f.names := by
  induction q generalizing f with
  | nil => cases hn
  | cons s q ih =>
      obtain ⟨f', hf', h⟩ := Option.bind_eq_some_iff.1 h
      have hrest : .member n ∈ q → n ∈ f'.names := ih h
      cases f with
      | plain kinds => cases hf'
      | list orNull item =>
          cases s with
          | item i =>
              obtain rfl := Option.some.inj hf'
              exact hrest ((List.mem_cons.1 hn).resolve_left nofun)
          | _ => cases hf'
      | record fields =>
          cases s with
          | member m =>
              obtain ⟨⟨b, _⟩, hfield, rfl⟩ := Option.map_eq_some_iff.1 hf'
              obtain ⟨hm, hsub⟩ := mem_namesOfFields (Assoc.mem_of_get? hfield)
              rcases List.mem_cons.1 hn with heq | hmem
              · obtain rfl := PlaceStep.member.inj heq
                exact hm
              · exact hsub (hrest hmem)
          | _ => cases hf'

/-- A list is allowed, and null if it is one of the choices. -/
lemma cases_of_kind_mem_list {orNull : Bool} (h : v.kind ∈ (Form.list orNull g).kinds) :
    (∃ vs, v = .array vs) ∨ (v = .null ∧ orNull = true) := by
  cases v <;> cases orNull <;> simp_all [Value.kind, kinds]

lemma exists_of_kind_mem_record {fields : List (String × (Bool × Form))}
    (h : v.kind ∈ (Form.record fields).kinds) : ∃ ms, v = .object ms := by
  cases v <;> simp_all [Value.kind, kinds]

lemma cases_of_part?_list {orNull : Bool} (hg : (Form.list orNull f).part? s = some g)
    (hw : v.part? s = some w) : g = f ∧ ∃ (i : Nat) (vs : List Value),
      s = .item i ∧ v = .array vs ∧ vs[i]? = some w := by
  cases s with
  | item i =>
      obtain rfl := Option.some.inj hg
      cases v with
      | array vs => exact ⟨rfl, i, vs, rfl, rfl, hw⟩
      | _ => cases hw
  | _ => cases hg

lemma cases_of_part?_record {fields : List (String × (Bool × Form))}
    (hg : (Form.record fields).part? s = some g) (hw : v.part? s = some w) :
    ∃ n b ms, s = .member n ∧ Assoc.get? fields n = some (b, g) ∧ v = .object ms ∧
      Assoc.get? ms n = some w := by
  cases s with
  | member n =>
      obtain ⟨⟨b, _⟩, hfield, rfl⟩ := Option.map_eq_some_iff.1 hg
      cases v with
      | object ms => exact ⟨n, b, ms, rfl, hfield, rfl, hw⟩
      | _ => cases hw
  | _ => cases hg

/-! ## Faults -/

/-- **A form rejects a value:** the value is of a kind that the form does not allow, or an object
that lacks a member that is required. -/
inductive Rejects : Form → Value → Prop
  | kind {f : Form} {v : Value} (h : v.kind ∉ f.kinds) : Rejects f v
  | missing {fields : List (String × (Bool × Form))} {ms : List (String × Value)} {n : String}
      {g : Form} (hn : Assoc.get? fields n = some (true, g)) (h : n ∉ Assoc.keys ms) :
      Rejects (.record fields) (.object ms)

/-- **The value at a place is at fault:** something stands there, something else is asked for
there. -/
def FaultAt (f : Form) (v : Value) (q : Place) : Prop :=
  ∃ g w, f.at? q = some g ∧ v.at? q = some w ∧ g.Rejects w

lemma faultAt_nil : f.FaultAt v [] ↔ f.Rejects v := by
  simp [FaultAt, at?, Value.at?]

lemma faultAt_cons : f.FaultAt v (s :: q) ↔
    ∃ g w, f.part? s = some g ∧ v.part? s = some w ∧ g.FaultAt w q := by
  simp only [FaultAt, at?, Value.at?, Option.bind_eq_some_iff]
  constructor
  · rintro ⟨g, w, ⟨g', hg', hg⟩, ⟨w', hw', hw⟩, h⟩
    exact ⟨g', w', hg', hw', g, w, hg, hw, h⟩
  · rintro ⟨g', w', hg', hw', g, w, hg, hw, h⟩
    exact ⟨g, w, ⟨g', hg', hg⟩, ⟨w', hw', hw⟩, h⟩

/-! ## Values with more members -/

/-- **A value is extended:** the objects in it that a form has fields for have more members, with
names that are no fields, and all objects have their members in any order. -/
inductive Extends : Form → Value → Value → Prop
  | plain {kinds : List Kind} {v w : Value} (h : w.Same v) : Extends (.plain kinds) v w
  | null {item : Form} : Extends (.list true item) .null .null
  | list {orNull : Bool} {item : Form} {vs ws : List Value} (hlength : ws.length = vs.length)
      (hitems : ∀ (i : Nat) v w, vs[i]? = some v → ws[i]? = some w → Extends item v w) :
      Extends (.list orNull item) (.array vs) (.array ws)
  | record {fields : List (String × (Bool × Form))} {ms ns : List (String × Value)}
      (hkept : Assoc.keys ms ⊆ Assoc.keys ns)
      (hadded : ∀ n ∈ Assoc.keys ns, n ∉ Assoc.keys ms → Assoc.get? fields n = none)
      (hfields : ∀ n field v w, Assoc.get? fields n = some field → (n, v) ∈ ms → (n, w) ∈ ns →
        Extends field.2 v w)
      (hothers : ∀ n v w, Assoc.get? fields n = none → (n, v) ∈ ms → (n, w) ∈ ns → w.Same v) :
      Extends (.record fields) (.object ms) (.object ns)

lemma exists_of_extends_record {fields : List (String × (Bool × Form))}
    (h : (Form.record fields).Extends v w) : ∃ ms ns, v = .object ms ∧ w = .object ns := by
  cases h with
  | record => exact ⟨_, _, rfl, rfl⟩

end Form

end ScarbCrates
