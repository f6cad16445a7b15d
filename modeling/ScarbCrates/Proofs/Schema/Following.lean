import ScarbCrates.Proofs.Schema.Form
import ScarbCrates.Proofs.Schema.Reading
import ScarbCrates.Proofs.Toolchain.Outcome

/-!
# Decoders that follow a form

A decoder follows a form if it takes the values that have the form and no others, names a place at
fault when it takes none, and does not mind what a form has no fields for.  Decoders are put
together in the way in which forms are, so a decoder of a whole document follows the form of the
document.

* `Decoder.Follows` — a decoder follows a form.
* `Decoder.Follows.items`, `Fields.Follows.both`, `Fields.Follows.record` — lists, groups of
  fields, and records.
-/

namespace ScarbCrates

open Json (Value)

/-! ## Words -/

/-- Words that no reader of reports splits: one line, with no dash. -/
def Report.Unsplit (s : String) : Prop := '\n' ∉ s.toList ∧ '-' ∉ s.toList

instance (s : String) : Decidable (Report.Unsplit s) := instDecidableAnd

namespace Report.Unsplit

lemma append {s t : String} (hs : Unsplit s) (ht : Unsplit t) : Unsplit (s ++ t) := by
  simp only [Unsplit, String.toList_append, List.mem_append, not_or]
  exact ⟨⟨hs.1, ht.1⟩, hs.2, ht.2⟩

lemma intercalate {s : String} (hs : Unsplit s) {ts : List String} (h : ∀ t ∈ ts, Unsplit t) :
    Unsplit (String.intercalate s ts) := by
  induction ts with
  | nil => exact ⟨by simp, by simp⟩
  | cons t ts ih =>
      obtain ⟨ht, hts⟩ := List.forall_mem_cons.1 h
      cases ts with
      | nil => rwa [String.intercalate_singleton]
      | cons u us =>
          rw [String.intercalate_cons_cons]
          exact (ht.append hs).append (ih hts)

lemma alternatives {ks : List Kind} (h : ∀ k ∈ ks, Unsplit k.name) :
    Unsplit (Kind.alternatives ks) := by
  have hnames : Unsplit (String.intercalate " | " (ks.map Kind.name)) :=
    intercalate (by decide) (List.forall_mem_map.2 h)
  exact (append (by decide) hnames).append (by decide)

end Report.Unsplit

namespace Mismatch

/-- **A mismatch in words** that are read back from a report as they are. -/
structure Legible (m : Mismatch) : Prop where
  unsplit : Report.Unsplit m.message
  trim : Text.trim m.message = m.message
  ne_empty : m.message ≠ ""

/-- Words that begin with a letter and end with a mark. -/
lemma legible_of_ends {m : Mismatch} {s : String} (hm : m.message = s) (hs : Report.Unsplit s)
    {c : Char} (hfirst : s.toList.head? = some c) (hc : Text.isBlank c = false)
    (hlast : s.toList.getLast? = some Report.mark) : m.Legible := by
  subst hm
  refine ⟨hs, ?_, fun hempty => ?_⟩
  · have htrimmed := Text.trimmed_eq (List.forall_mem_nil _) (List.forall_mem_nil _)
      (fun _ hmem => Option.some.inj (hfirst.symm.trans hmem) ▸ hc)
      (fun _ hmem => Option.some.inj (hlast.symm.trans hmem) ▸ rfl)
    rw [List.nil_append, List.append_nil] at htrimmed
    rw [Text.trim, htrimmed, String.ofList_toList]
  · rw [hempty] at hfirst
    cases hfirst

lemma legible_missing {name : String} (h : Report.Unsplit name) : (missing name).Legible := by
  have hmessage : (missing name).message = "Object missing required field `" ++ name ++ "`" := rfl
  have hwords : Report.Unsplit "Object missing required field `" := by decide
  have hmark : Report.Unsplit "`" := by decide
  have hblank : Text.isBlank 'O' = false := by decide
  refine legible_of_ends hmessage ((hwords.append h).append hmark) ?_ hblank ?_
  · simp only [String.toList_append, List.append_assoc, List.head?_append]
    rfl
  · simp only [String.toList_append, List.getLast?_append]
    rfl

lemma legible_kind {expected : List Kind} {got : Kind}
    (hexpected : ∀ k ∈ expected, Report.Unsplit k.name) (hgot : Report.Unsplit got.name) :
    (kind expected (some got)).Legible := by
  have hmessage : (kind expected (some got)).message =
      "Expected " ++ Kind.alternatives expected ++ ", got " ++ Kind.alternatives [got] := rfl
  have hwords : Report.Unsplit "Expected " := by decide
  have hgap : Report.Unsplit ", got " := by decide
  have hblank : Text.isBlank 'E' = false := by decide
  refine legible_of_ends hmessage (((hwords.append (.alternatives hexpected)).append hgap).append
    (.alternatives (List.forall_mem_singleton.2 hgot))) ?_ hblank ?_
  · simp only [String.toList_append, List.append_assoc, List.head?_append]
    rfl
  · simp only [Kind.alternatives, String.toList_append, List.getLast?_append]
    rfl

end Mismatch

/-! ## Decoders -/

/-- **A decoder follows a form.**  When it does not take a value it names a place in it that is at
fault; when it takes one no place in it is; and it takes a value that is extended as well, and
makes something of it that is related by `R` to what it made of the first. -/
structure Decoder.Follows {α : Type} (d : Decoder Value α) (f : Form) (R : α → α → Prop) :
    Prop where
  blames : ∀ {p v fault}, v.IsJson → d p v = .error fault →
    ∃ q m, fault = .at (p ++ q) m ∧ m.Legible ∧ f.FaultAt v q
  spares : ∀ {p v a}, v.IsJson → d p v = .ok a → ∀ q, ¬f.FaultAt v q
  keeps : ∀ {p q v w a}, v.IsJson → w.IsJson → f.Extends v w → d p v = .ok a →
    ∃ b, d q w = .ok b ∧ R b a

lemma eq_error_of_map {ε α β : Type} {x : Except ε α} {f : α → β} {e : ε}
    (h : x.map f = .error e) : x = .error e := by
  cases x with
  | error e' => exact congrArg Except.error (Except.error.inj h)
  | ok a => cases h

namespace Decoder

variable {α β : Type} {d : Decoder Value α} {f g : Form} {R : α → α → Prop} {S : β → β → Prop}

/-- What is made of a value may be changed. -/
lemma Follows.map (h : d.Follows f R) {k : α → β} (hRS : ∀ {a b}, R b a → S (k b) (k a)) :
    Follows (fun p v => (d p v).map k) f S where
  blames hv herror := h.blames hv (eq_error_of_map herror)
  spares hv hok := by
    obtain ⟨a, ha, -⟩ := exists_of_map_eq_ok hok
    exact h.spares hv ha
  keeps hv hw hextends hok := by
    obtain ⟨a, ha, rfl⟩ := exists_of_map_eq_ok hok
    obtain ⟨b, hb, hR⟩ := h.keeps hv hw hextends ha
    exact ⟨k b, congrArg (Except.map k) hb, hRS hR⟩

/-! ## Values without parts -/

/-- A decoder of values of whose parts nothing is asked. -/
lemma follows_plain {ks : List Kind} (hok : ∀ p v, v.kind ∈ ks → ∃ a, d p v = .ok a)
    (herror : ∀ p v, v.kind ∉ ks → ∃ m, d p v = .error (.at p m) ∧ m.Legible)
    (hkeeps : ∀ {p q v w a}, v.IsJson → w.IsJson → w.Same v → d p v = .ok a →
      ∃ b, d q w = .ok b ∧ R b a) : d.Follows (.plain ks) R where
  blames {p v fault} hv hfault := by
    by_cases hkind : v.kind ∈ ks
    · obtain ⟨a, ha⟩ := hok p v hkind
      rw [ha] at hfault
      cases hfault
    · obtain ⟨m, hm, hlegible⟩ := herror p v hkind
      rw [hm] at hfault
      obtain rfl := Except.error.inj hfault
      exact ⟨[], m, by rw [List.append_nil], hlegible, Form.faultAt_nil.2 (.kind hkind)⟩
  spares {p v a} hv ha q hq := by
    cases q with
    | nil =>
        cases Form.faultAt_nil.1 hq with
        | kind hkind =>
            obtain ⟨m, hm, -⟩ := herror p v hkind
            rw [hm] at ha
            cases ha
    | cons s q =>
        obtain ⟨_, _, hpart, -⟩ := Form.faultAt_cons.1 hq
        cases hpart
  keeps hv hw hextends hok := by
    cases hextends with
    | plain hsame => exact hkeeps hv hw hsame hok

/-- A decoder of values without parts, which judges a value in the same way wherever it stands. -/
lemma follows_scalar {ks : List Kind} (m : Value → Mismatch) (hlegible : ∀ v, (m v).Legible)
    (h : ∀ v : Value, (v.kind ∈ ks ∧ v.IsScalar ∧ ∃ a, ∀ p, d p v = .ok a) ∨
      (v.kind ∉ ks ∧ ∀ p, d p v = .error (.at p (m v)))) : d.Follows (.plain ks) Eq := by
  refine follows_plain (fun p v hv => ?_) (fun p v hv => ?_) fun {p q v w a} _ _ hsame hok => ?_
  · obtain ⟨-, -, a, ha⟩ | ⟨hnot, -⟩ := h v
    · exact ⟨a, ha p⟩
    · exact absurd hv hnot
  · obtain ⟨hks, -⟩ | ⟨-, hm⟩ := h v
    · exact absurd hks hv
    · exact ⟨m v, hm p, hlegible v⟩
  · obtain ⟨-, hscalar, b, hb⟩ | ⟨-, hm⟩ := h v
    · obtain rfl := Except.ok.inj ((hb p).symm.trans hok)
      exact ⟨b, hsame.eq hscalar ▸ hb q, rfl⟩
    · rw [hm p] at hok
      cases hok

/-- The mismatch of a value with some kinds. -/
def misfitOf (expected : List Kind) (v : Value) : Mismatch := .kind expected (some v.kind)

lemma unsplit_kinds : ∀ k ∈ Value.kinds, Report.Unsplit k.name := by decide

lemma legible_misfitOf {expected : List Kind} (h : ∀ k ∈ expected, Report.Unsplit k.name)
    (v : Value) : (misfitOf expected v).Legible :=
  Mismatch.legible_kind h (unsplit_kinds _ v.kind_mem_kinds)

lemma follows_text : asText.Follows .text Eq := by
  refine follows_scalar (misfitOf [.str]) (legible_misfitOf (by decide)) fun v => ?_
  cases v with
  | text s => exact .inl ⟨by simp [Value.kind], trivial, s, fun _ => rfl⟩
  | _ => exact .inr ⟨by simp [Value.kind], fun _ => rfl⟩

lemma follows_text? : asText?.Follows .text? Eq := by
  refine follows_scalar (misfitOf [.str, .null]) (legible_misfitOf (by decide)) fun v => ?_
  cases v with
  | text s => exact .inl ⟨by simp [Value.kind], trivial, some s, fun _ => rfl⟩
  | null => exact .inl ⟨by simp [Value.kind], trivial, none, fun _ => rfl⟩
  | _ => exact .inr ⟨by simp [Value.kind], fun _ => rfl⟩

/-- A strict reader of integers. -/
lemma follows_int : (asInt false).Follows .whole Eq := by
  refine follows_scalar (misfitOf [.int]) (legible_misfitOf (by decide)) fun v => ?_
  cases v with
  | int i => exact .inl ⟨by simp [Value.kind], trivial, i, fun _ => rfl⟩
  | _ => exact .inr ⟨by simp [Value.kind], fun _ => rfl⟩

/-- A path is written as a text. -/
lemma follows_path : asPath.Follows .text Eq := by
  have hnames : ∀ s ∈ ["NoneType", "bool", "int", "float", "str", "list", "dict"],
      Report.Unsplit s := by decide
  have hname : ∀ v : Value, Report.Unsplit v.className := fun v => hnames _ (by
    cases v <;> simp [Value.className])
  refine follows_scalar (fun v => .kind [.named "Path"] (some (.named v.className)))
    (fun v => Mismatch.legible_kind (by decide) (hname v)) fun v => ?_
  cases v with
  | text s => exact .inl ⟨by simp [Value.kind], trivial, Path.ofString s, fun _ => rfl⟩
  | _ => exact .inr ⟨by simp [Value.kind], fun _ => rfl⟩

/-! ## Lists -/

section Lists

variable {item : Decoder Value α} {p : Place} {v : Value} {vs : List Value} {i : Nat}
  {fault : ReadFault}

lemma itemsFrom_cons_eq_error_iff : itemsFrom item p i (v :: vs) = .error fault ↔
    item (p ++ [.item i]) v = .error fault ∨
      (∃ a, item (p ++ [.item i]) v = .ok a) ∧ itemsFrom item p (i + 1) vs = .error fault := by
  rw [itemsFrom]
  cases item (p ++ [.item i]) v <;> cases itemsFrom item p (i + 1) vs <;>
    simp [bind, Except.bind, pure, Except.pure]

lemma itemsFrom_cons_eq_ok_iff {as : List α} : itemsFrom item p i (v :: vs) = .ok as ↔
    ∃ b bs, item (p ++ [.item i]) v = .ok b ∧ itemsFrom item p (i + 1) vs = .ok bs ∧
      as = b :: bs := by
  rw [itemsFrom]
  cases item (p ++ [.item i]) v <;> cases itemsFrom item p (i + 1) vs <;>
    simp [bind, Except.bind, pure, Except.pure, eq_comm]

/-- A fault in a list is one in an item. -/
lemma exists_of_itemsFrom_eq_error (h : itemsFrom item p i vs = .error fault) :
    ∃ j v, vs[j]? = some v ∧ item (p ++ [.item (i + j)]) v = .error fault := by
  induction vs generalizing i with
  | nil => cases h
  | cons v vs ih =>
      rcases itemsFrom_cons_eq_error_iff.1 h with hv | ⟨-, hvs⟩
      · exact ⟨0, v, rfl, hv⟩
      · obtain ⟨j, w, hw, hfault⟩ := ih hvs
        exact ⟨j + 1, w, hw, by rwa [show i + (j + 1) = i + 1 + j by omega]⟩

/-- What is made of an item stands where the item stood. -/
lemma exists_of_itemsFrom_eq_ok {as : List α} (h : itemsFrom item p i vs = .ok as) {j : Nat}
    (hv : vs[j]? = some v) : ∃ a, item (p ++ [.item (i + j)]) v = .ok a ∧ as[j]? = some a := by
  induction vs generalizing i j as with
  | nil => cases hv
  | cons u vs ih =>
      obtain ⟨b, bs, hb, hbs, rfl⟩ := itemsFrom_cons_eq_ok_iff.1 h
      cases j with
      | zero =>
          obtain rfl := Option.some.inj hv
          exact ⟨b, hb, rfl⟩
      | succ j =>
          obtain ⟨a, ha, has⟩ := ih hbs hv
          exact ⟨a, by rwa [show i + (j + 1) = i + 1 + j by omega], has⟩

/-- Lists with items that are taken alike. -/
lemma exists_itemsFrom_eq_ok {ws : List Value} {as : List α}
    (q : Place) (k : Nat) (hlength : ws.length = vs.length)
    (hitems : ∀ (j : Nat) v w p q a, vs[j]? = some v → ws[j]? = some w → item p v = .ok a →
      ∃ b, item q w = .ok b ∧ R b a)
    (h : itemsFrom item p i vs = .ok as) :
    ∃ bs, itemsFrom item q k ws = .ok bs ∧ List.Forall₂ R bs as := by
  induction vs generalizing ws i k as with
  | nil =>
      obtain rfl := List.length_eq_zero_iff.1 hlength
      obtain rfl := Except.ok.inj h
      exact ⟨[], rfl, .nil⟩
  | cons v vs ih =>
      obtain ⟨a, as, ha, has, rfl⟩ := itemsFrom_cons_eq_ok_iff.1 h
      cases ws with
      | nil => cases hlength
      | cons w ws =>
          obtain ⟨b, hb, hR⟩ := hitems 0 v w _ (q ++ [.item k]) a rfl rfl ha
          obtain ⟨bs, hbs, hrel⟩ := ih (k + 1) (Nat.succ.inj hlength)
            (fun j v w p q a hv hw => hitems (j + 1) v w p q a hv hw) has
          exact ⟨b :: bs, itemsFrom_cons_eq_ok_iff.2 ⟨b, bs, hb, hbs, rfl⟩, .cons hR hrel⟩

end Lists

lemma legible_misfitOf_list (orNull : Bool) (v : Value) :
    (misfitOf (Form.list orNull g).kinds v).Legible := by
  cases orNull with
  | false =>
      show (misfitOf [.array] v).Legible
      exact legible_misfitOf (by decide) v
  | true =>
      show (misfitOf [.array, .null] v).Legible
      exact legible_misfitOf (by decide) v

/-- **A list is taken item by item,** and its items are put together by `k`; null is taken if the
form allows it. -/
lemma Follows.items {item : Decoder Value α} {orNull : Bool} {d : Decoder Value β}
    {k : List α → β} (h : item.Follows g R)
    (harray : ∀ p vs, d p (.array vs) = (itemsFrom item p 0 vs).map k)
    (hnull : orNull = true → ∃ b, S b b ∧ ∀ p, d p .null = .ok b)
    (hmisfit : ∀ p v, v.kind ∉ (Form.list orNull g).kinds →
      d p v = .error (.at p (misfitOf (Form.list orNull g).kinds v)))
    (hS : ∀ {as bs}, List.Forall₂ R bs as → S (k bs) (k as)) : d.Follows (.list orNull g) S where
  blames {p v fault} hv herror := by
    by_cases hkind : v.kind ∈ (Form.list orNull g).kinds
    · obtain ⟨vs, rfl⟩ | ⟨rfl, horNull⟩ := Form.cases_of_kind_mem_list hkind
      · rw [harray] at herror
        obtain ⟨j, w, hw, hfault⟩ := exists_of_itemsFrom_eq_error (eq_error_of_map herror)
        obtain ⟨q, m, rfl, hm, hq⟩ := h.blames (hv.item hw) hfault
        exact ⟨.item j :: q, m, by simp, hm, Form.faultAt_cons.2 ⟨g, w, rfl, hw, hq⟩⟩
      · obtain ⟨b, -, hb⟩ := hnull horNull
        rw [hb] at herror
        cases herror
    · rw [hmisfit p v hkind] at herror
      obtain rfl := Except.error.inj herror
      exact ⟨[], _, by rw [List.append_nil], legible_misfitOf_list orNull v,
        Form.faultAt_nil.2 (.kind hkind)⟩
  spares {p v b} hv hok q hq := by
    cases q with
    | nil =>
        cases Form.faultAt_nil.1 hq with
        | kind hkind =>
            rw [hmisfit p v hkind] at hok
            cases hok
    | cons s q =>
        obtain ⟨_, w, hg, hw, hpart⟩ := Form.faultAt_cons.1 hq
        obtain ⟨rfl, i, vs, rfl, rfl, hw⟩ := Form.cases_of_part?_list hg hw
        rw [harray] at hok
        obtain ⟨as, has, -⟩ := exists_of_map_eq_ok hok
        obtain ⟨a, ha, -⟩ := exists_of_itemsFrom_eq_ok has hw
        exact h.spares (hv.item hw) ha q hpart
  keeps {p q v w b} hv hw hextends hok := by
    cases hextends with
    | null =>
        obtain ⟨c, hc, hnull⟩ := hnull rfl
        obtain rfl := Except.ok.inj ((hnull p).symm.trans hok)
        exact ⟨c, hnull q, hc⟩
    | list hlength hitems =>
        rw [harray] at hok
        obtain ⟨as, has, rfl⟩ := exists_of_map_eq_ok hok
        obtain ⟨bs, hbs, hrel⟩ := exists_itemsFrom_eq_ok q 0 hlength
          (fun j x y p q a hx hy => h.keeps (hv.item hx) (hw.item hy) (hitems j x y hx hy)) has
        exact ⟨k bs, by rw [harray, hbs]; rfl, hS hrel⟩

lemma listOf_array (item : Decoder Value α) (p : Place) (vs : List Value) :
    Decoder.listOf item p (.array vs) = itemsFrom item p 0 vs := by
  show (itemsFrom item p 0 vs >>= fun as => finish none as) = _
  cases itemsFrom item p 0 vs <;> rfl

/-- A list is taken item by item. -/
lemma Follows.listOf {item : Decoder Value α} (h : item.Follows g R) :
    (Decoder.listOf item).Follows (.list false g) (List.Forall₂ R) := by
  refine h.items (k := id) (fun p vs => ?_) (by simp) (fun p v hv => ?_) id
  · rw [listOf_array]
    cases itemsFrom item p 0 vs <;> rfl
  · cases v with
    | array vs => exact absurd List.mem_cons_self hv
    | _ => rfl

/-- A list or null is taken, and null for nothing. -/
lemma Follows.listOf? {item : Decoder Value α} (h : item.Follows g R) :
    (Decoder.listOf? false item).Follows (.list true g) (Option.Rel (List.Forall₂ R)) := by
  refine h.items (k := some) (fun p vs => ?_) (fun _ => ⟨none, .none, fun _ => rfl⟩)
    (fun p v hv => ?_) .some
  · show (itemsFrom item p 0 vs >>= fun as => finish none (some as)) = _
    cases itemsFrom item p 0 vs <;> rfl
  · cases v with
    | array vs => exact absurd List.mem_cons_self hv
    | null => exact absurd (List.mem_cons_of_mem _ List.mem_cons_self) hv
    | _ => rfl

end Decoder

/-! ## Fields -/

namespace Fields

variable {α β : Type} {f : Fields Value α} {g : Fields Value β} {R : α → α → Prop}
  {S : β → β → Prop} {fields others : List (String × (Bool × Form))} {p : Place}
  {known known' : List (String × Value)} {n : String}

/-- All members of an object pass their checks. -/
def Passed (f : Fields Value α) (p : Place) (known : List (String × Value)) : Prop :=
  ∀ n v d, last? n known = some v → f.check n = some d → d (p ++ [.member n]) v = .ok ()

/-- The members that a form has fields for are extended. -/
def Grown (fields : List (String × (Bool × Form))) (known known' : List (String × Value)) : Prop :=
  ∀ n field, Assoc.get? fields n = some field →
    (last? n known = none ∧ last? n known' = none) ∨
    ∃ v w, last? n known = some v ∧ last? n known' = some w ∧ v.IsJson ∧ w.IsJson ∧
      field.2.Extends v w

/-- **Groups of fields follow a form:** each field is judged by a decoder that follows its form,
and where all members pass nothing but a required one can be missing. -/
structure Follows (f : Fields Value α) (fields : List (String × (Bool × Form)))
    (R : α → α → Prop) : Prop where
  judges : ∀ n, Option.Rel (fun d field => d.Follows field.2 fun _ _ => True) (f.check n)
    (Assoc.get? fields n)
  builds : ∀ {p known}, f.Passed p known →
    ((∃ a, f.build p known = .ok a) ∧
      ∀ n h, Assoc.get? fields n = some (true, h) → last? n known ≠ none) ∨
    ∃ n h, Assoc.get? fields n = some (true, h) ∧ last? n known = none ∧
      (Mismatch.missing n).Legible ∧ f.build p known = .error (.at p (.missing n))
  keeps : ∀ {p q known known' a}, Grown fields known known' → f.build p known = .ok a →
    ∃ b, f.build q known' = .ok b ∧ R b a

lemma passed_one {name : String} {d : Decoder Value α} {v : Value}
    (h : f.Passed p known) (hcheck : f.check = checkOne name d) (hv : last? name known = some v) :
    ∃ a, d (p ++ [.member name]) v = .ok a := by
  have hone : f.check name = some fun p v => (d p v).map fun _ => () := by
    rw [hcheck]
    exact if_pos rfl
  obtain ⟨a, ha, -⟩ := exists_of_map_eq_ok (h name v _ hv hone)
  exact ⟨a, ha⟩

lemma judges_one {name : String} {d : Decoder Value α} {form : Form} (h : d.Follows form R)
    (isRequired : Bool) (n : String) :
    Option.Rel (fun d field => d.Follows field.2 fun _ _ => True) (checkOne name d n)
      (Assoc.get? [(name, isRequired, form)] n) := by
  rw [checkOne, Assoc.get?, Assoc.get?_nil]
  by_cases hn : n = name
  · rw [if_pos hn, if_pos hn.symm]
    exact .some (h.map fun _ => trivial)
  · rw [if_neg hn, if_neg (Ne.symm hn)]
    exact .none

lemma get?_one {name : String} {field field' : Bool × Form}
    (h : Assoc.get? [(name, field)] n = some field') : n = name ∧ field' = field := by
  rw [Assoc.get?, Assoc.get?_nil] at h
  split_ifs at h with hn
  exact ⟨hn.symm, (Option.some.inj h).symm⟩

namespace Follows

/-- A field that must be there. -/
lemma required (name : String) {d : Decoder Value α} {form : Form} (h : d.Follows form R)
    (hname : Report.Unsplit name) :
    (Fields.required name d).Follows [Form.required name form] R where
  judges := judges_one h true
  builds {p known} hpassed := by
    cases hlast : last? name known with
    | none =>
        refine .inr ⟨name, form, if_pos rfl, hlast, Mismatch.legible_missing hname, ?_⟩
        simp only [Fields.required, hlast]
    | some v =>
        obtain ⟨a, ha⟩ := passed_one hpassed rfl hlast
        refine .inl ⟨⟨a, by simp only [Fields.required, hlast, ha]⟩, fun n h hn => ?_⟩
        obtain ⟨rfl, -⟩ := get?_one hn
        rw [hlast]
        exact Option.some_ne_none v
  keeps {p q known known' a} hgrown hok := by
    obtain ⟨hv, -⟩ | ⟨v, w, hv, hw, hvjson, hwjson, hextends⟩ := hgrown name _ (if_pos rfl)
    · simp only [Fields.required, hv] at hok
      cases hok
    · simp only [Fields.required, hv, hw] at hok ⊢
      exact h.keeps hvjson hwjson hextends hok

/-- A field that may be absent, and whose default is related to itself. -/
lemma optional (name : String) (default : α) {d : Decoder Value α} {form : Form}
    (h : d.Follows form R) (hdefault : R default default) :
    (Fields.optional name d default).Follows [Form.optional name form] R where
  judges := judges_one h false
  builds {p known} hpassed := by
    refine .inl ⟨?_, fun n h hn => ?_⟩
    · cases hlast : last? name known with
      | none => exact ⟨default, by simp only [Fields.optional, hlast]⟩
      | some v =>
          obtain ⟨a, ha⟩ := passed_one hpassed rfl hlast
          exact ⟨a, by simp only [Fields.optional, hlast, ha]⟩
    · cases (Prod.mk.inj (get?_one hn).2).1
  keeps {p q known known' a} hgrown hok := by
    obtain ⟨hv, hw⟩ | ⟨v, w, hv, hw, hvjson, hwjson, hextends⟩ := hgrown name _ (if_pos rfl)
    · simp only [Fields.optional, hv, hw] at hok ⊢
      obtain rfl := Except.ok.inj hok
      exact ⟨default, rfl, hdefault⟩
    · simp only [Fields.optional, hv, hw] at hok ⊢
      exact h.keeps hvjson hwjson hextends hok

lemma map {k : α → β} (h : f.Follows fields R) (hRS : ∀ {a b}, R b a → S (k b) (k a)) :
    (f.map k).Follows fields S where
  judges := h.judges
  builds {p known} hpassed := by
    obtain ⟨⟨a, ha⟩, hthere⟩ | ⟨n, form, hn, hlast, hlegible, herror⟩ := h.builds hpassed
    · exact .inl ⟨⟨k a, congrArg (Except.map k) ha⟩, hthere⟩
    · exact .inr ⟨n, form, hn, hlast, hlegible, congrArg (Except.map k) herror⟩
  keeps hgrown hok := by
    obtain ⟨a, ha, rfl⟩ := exists_of_map_eq_ok hok
    obtain ⟨b, hb, hR⟩ := h.keeps hgrown ha
    exact ⟨k b, congrArg (Except.map k) hb, hRS hR⟩

/-- A field has a check, and a check is that of a field. -/
lemma check_eq_none_iff (h : f.Follows fields R) (n : String) :
    f.check n = none ↔ Assoc.get? fields n = none := by
  have hjudges := h.judges n
  cases hcheck : f.check n <;> cases hfield : Assoc.get? fields n <;> simp_all

lemma build_both (p : Place) (known : List (String × Value)) : (both f g).build p known =
    (f.build p known).bind fun a => (g.build p known).map fun b => (a, b) := by
  show (f.build p known >>= fun a => g.build p known >>= fun b => pure (a, b)) = _
  cases f.build p known <;> cases g.build p known <;> rfl

/-- **Two groups of fields with different names.** -/
lemma both (hf : f.Follows fields R) (hg : g.Follows others S)
    (hapart : ∀ n ∈ Assoc.keys others, n ∉ Assoc.keys fields) :
    (both f g).Follows (fields ++ others) fun b a => R b.1 a.1 ∧ S b.2 a.2 := by
  have hnone : ∀ {n field}, Assoc.get? others n = some field → Assoc.get? fields n = none :=
    fun hn => Assoc.get?_eq_none_iff.2 (hapart _ (List.mem_map_of_mem (Assoc.mem_of_get? hn)))
  have hleft : ∀ {n field}, Assoc.get? fields n = some field →
      Assoc.get? (fields ++ others) n = some field := fun hn => by
    rw [Assoc.get?_append, hn, Option.some_or]
  have hright : ∀ {n field}, Assoc.get? others n = some field →
      Assoc.get? (fields ++ others) n = some field := fun hn => by
    rw [Assoc.get?_append, hnone hn, Option.none_or, hn]
  refine ⟨fun n => ?_, fun {p known} hpassed => ?_, fun {p q known known' a} hgrown hok => ?_⟩
  · show Option.Rel _ ((f.check n).orElse fun _ => g.check n) _
    rw [Assoc.get?_append]
    have hjudges := hf.judges n
    cases hcheck : f.check n with
    | none =>
        rw [(hf.check_eq_none_iff n).1 hcheck]
        exact hg.judges n
    | some d =>
        rw [hcheck] at hjudges
        cases hfield : Assoc.get? fields n with
        | none => rw [hfield] at hjudges; cases hjudges
        | some field => rwa [hfield] at hjudges
  · have hpassedf : f.Passed p known := fun n v d hv hd => hpassed n v d hv (by
      simp [Fields.both, hd])
    have hpassedg : g.Passed p known := fun n v d hv hd => hpassed n v d hv (by
      have hother : Assoc.get? others n ≠ none := by
        rw [ne_eq, ← hg.check_eq_none_iff, hd]
        exact Option.some_ne_none d
      obtain ⟨field, hfield⟩ := Option.ne_none_iff_exists'.1 hother
      simp [Fields.both, hd, (hf.check_eq_none_iff n).2 (hnone hfield)])
    simp only [build_both]
    obtain ⟨⟨a, ha⟩, htheref⟩ | ⟨n, form, hn, hlast, hlegible, herror⟩ := hf.builds hpassedf
    · obtain ⟨⟨b, hb⟩, hthereg⟩ | ⟨n, form, hn, hlast, hlegible, herror⟩ := hg.builds hpassedg
      · refine .inl ⟨⟨(a, b), by rw [ha, hb]; rfl⟩, fun n form hn => ?_⟩
        rw [Assoc.get?_append, Option.or_eq_some_iff] at hn
        exact hn.elim (htheref n form) fun h => hthereg n form h.2
      · exact .inr ⟨n, form, hright hn, hlast, hlegible, by rw [ha, herror]; rfl⟩
    · exact .inr ⟨n, form, hleft hn, hlast, hlegible, by rw [herror]; rfl⟩
  · obtain ⟨ha, hb⟩ := build_of_both hok
    obtain ⟨a', ha', hR⟩ := hf.keeps (q := q) (fun n field hn => hgrown n field (hleft hn)) ha
    obtain ⟨b', hb', hS⟩ := hg.keeps (q := q) (fun n field hn => hgrown n field (hright hn)) hb
    exact ⟨(a', b'), by rw [build_both, ha', hb']; rfl, hR, hS⟩

end Follows

/-! ## Records -/

/-- The members of an object that a record knows, in their order. -/
def knownOf (f : Fields Value α) (ms : List (String × Value)) : List (String × Value) :=
  ms.filter fun m => (f.check m.1).isSome

/-- The last member of a name that a record knows. -/
lemma last?_knownOf {ms : List (String × Value)} (hnodup : (Assoc.keys ms).Nodup)
    (hn : f.check n ≠ none) : last? n (f.knownOf ms) = Assoc.get? ms n := by
  have hkeys : (Assoc.keys (f.knownOf ms)).Nodup :=
    (List.Sublist.map Prod.fst List.filter_sublist).nodup hnodup
  cases hget : Assoc.get? ms n with
  | none =>
      rw [Assoc.get?_eq_none_iff] at hget
      refine last?_of_not_mem fun hmem => hget ?_
      obtain ⟨m, hm, rfl⟩ := List.mem_map.1 hmem
      exact List.mem_map_of_mem (List.mem_of_mem_filter hm)
  | some v =>
      refine last?_of_mem hkeys (List.mem_filter.2 ⟨Assoc.mem_of_get? hget, ?_⟩)
      rwa [Option.isSome_iff_ne_none]

lemma checkMembers_cons_of_none {v : Value} {ms : List (String × Value)}
    (hn : f.check n = none) :
    Decoder.checkMembers .ignored f p (((n, v) :: ms).map fun m => (.text m.1, m.2)) =
      Decoder.checkMembers .ignored f p (ms.map fun m => (.text m.1, m.2)) := by
  simp only [List.map_cons, Decoder.checkMembers, hn]
  rfl

lemma checkMembers_cons_of_some {v : Value} {ms : List (String × Value)}
    {d : Decoder Value Unit} (hn : f.check n = some d) :
    Decoder.checkMembers .ignored f p (((n, v) :: ms).map fun m => (.text m.1, m.2)) =
      (d (p ++ [.member n]) v).bind fun _ =>
        (Decoder.checkMembers .ignored f p (ms.map fun m => (.text m.1, m.2))).map
          ((n, v) :: ·) := by
  simp only [List.map_cons, Decoder.checkMembers, hn]
  cases d (p ++ [.member n]) v with
  | error fault => rfl
  | ok u => cases Decoder.checkMembers .ignored f p (ms.map fun m => (.text m.1, m.2)) <;> rfl

/-- **The members of an object are judged in their order,** and those that are known are kept. -/
lemma checkMembers_cases (f : Fields Value α) (p : Place) (ms : List (String × Value)) :
    (Decoder.checkMembers .ignored f p (ms.map fun m => (.text m.1, m.2)) = .ok (f.knownOf ms) ∧
      ∀ m ∈ ms, ∀ d, f.check m.1 = some d → d (p ++ [.member m.1]) m.2 = .ok ()) ∨
    ∃ m ∈ ms, ∃ d fault, f.check m.1 = some d ∧ d (p ++ [.member m.1]) m.2 = .error fault ∧
      Decoder.checkMembers .ignored f p (ms.map fun m => (.text m.1, m.2)) = .error fault := by
  induction ms with
  | nil => exact .inl ⟨rfl, List.forall_mem_nil _⟩
  | cons m ms ih =>
      obtain ⟨n, v⟩ := m
      cases hn : f.check n with
      | none =>
          rw [checkMembers_cons_of_none hn, knownOf, List.filter_cons_of_neg (by simp [hn])]
          obtain ⟨hok, hall⟩ | ⟨m, hm, hfault⟩ := ih
          · refine .inl ⟨hok, List.forall_mem_cons.2 ⟨fun d hd => ?_, hall⟩⟩
            rw [hn] at hd
            cases hd
          · exact .inr ⟨m, List.mem_cons_of_mem _ hm, hfault⟩
      | some d =>
          rw [checkMembers_cons_of_some hn, knownOf, List.filter_cons_of_pos (by simp [hn])]
          cases hv : d (p ++ [.member n]) v with
          | error fault => exact .inr ⟨(n, v), List.mem_cons_self, d, fault, hn, hv, rfl⟩
          | ok u =>
              obtain ⟨hok, hall⟩ | ⟨m, hm, d', fault, hd', herror, hfault⟩ := ih
              · refine .inl ⟨by rw [hok]; rfl, List.forall_mem_cons.2 ⟨fun d' hd' => ?_, hall⟩⟩
                obtain rfl := Option.some.inj (hn.symm.trans hd')
                exact hv
              · exact .inr ⟨m, List.mem_cons_of_mem _ hm, d', fault, hd', herror, by
                  rw [hfault]; rfl⟩

lemma record_object (kind : String) (p : Place) (ms : List (String × Value)) :
    Decoder.record kind .ignored f p (.object ms) =
      (Decoder.checkMembers .ignored f p (ms.map fun m => (.text m.1, m.2))).bind (f.build p) := by
  show (Decoder.checkMembers .ignored f p (ms.map fun m => (.text m.1, m.2)) >>= fun known =>
    Decoder.finish none known >>= f.build p) = _
  cases Decoder.checkMembers .ignored f p (ms.map fun m => (.text m.1, m.2)) <;> rfl

/-- What comes of an object: a member does not pass, or all do, and the record is built. -/
lemma record_cases (f : Fields Value α) (kind : String) (p : Place) {ms : List (String × Value)}
    (hnodup : (Assoc.keys ms).Nodup) :
    (f.Passed p (f.knownOf ms) ∧
      Decoder.record kind .ignored f p (.object ms) = f.build p (f.knownOf ms)) ∨
    ∃ n v d fault, Assoc.get? ms n = some v ∧ f.check n = some d ∧
      d (p ++ [.member n]) v = .error fault ∧
      Decoder.record kind .ignored f p (.object ms) = .error fault := by
  rw [record_object]
  obtain ⟨hok, hall⟩ | ⟨⟨n, v⟩, hm, d, fault, hd, herror, hfault⟩ := checkMembers_cases f p ms
  · refine .inl ⟨fun n v d hv hd => ?_, by rw [hok]; rfl⟩
    exact hall (n, v) (List.mem_of_mem_filter (mem_of_last? hv)) d hd
  · exact .inr ⟨n, v, d, fault, Assoc.get?_of_mem hnodup hm, hd, herror, by rw [hfault]; rfl⟩

lemma record_of_kind_ne (f : Fields Value α) (kind : String) (p : Place) {v : Value}
    (h : v.kind ∉ (Form.record fields).kinds) :
    Decoder.record kind .ignored f p v = .error (.at p (Decoder.misfitOf [.object] v)) := by
  cases v with
  | object ms => exact absurd List.mem_cons_self h
  | _ => rfl

namespace Follows

lemma exists_field (h : f.Follows fields R) {d : Decoder Value Unit} (hd : f.check n = some d) :
    ∃ field, Assoc.get? fields n = some field ∧ d.Follows field.2 fun _ _ => True := by
  have hjudges := h.judges n
  rw [hd] at hjudges
  cases hfield : Assoc.get? fields n with
  | none => rw [hfield] at hjudges; cases hjudges
  | some field =>
      rw [hfield] at hjudges
      cases hjudges with
      | some hd => exact ⟨field, rfl, hd⟩

lemma exists_check (h : f.Follows fields R) {field : Bool × Form}
    (hn : Assoc.get? fields n = some field) :
    ∃ d, f.check n = some d ∧ d.Follows field.2 fun _ _ => True := by
  have hne : f.check n ≠ none := by
    rw [ne_eq, h.check_eq_none_iff, hn]
    exact Option.some_ne_none field
  obtain ⟨d, hd⟩ := Option.ne_none_iff_exists'.1 hne
  obtain ⟨field', hfield, hfollows⟩ := h.exists_field hd
  obtain rfl := Option.some.inj (hfield.symm.trans hn)
  exact ⟨d, hd, hfollows⟩

/-- The member that counts for a field. -/
lemma last?_knownOf (h : f.Follows fields R) {field : Bool × Form}
    (hn : Assoc.get? fields n = some field) {ms : List (String × Value)}
    (hnodup : (Assoc.keys ms).Nodup) : last? n (f.knownOf ms) = Assoc.get? ms n := by
  obtain ⟨d, hd, -⟩ := h.exists_check hn
  exact Fields.last?_knownOf hnodup (hd ▸ Option.some_ne_none d)

/-- The members that a record knows are extended with the object. -/
lemma grown (h : f.Follows fields R) {ms ns : List (String × Value)}
    (hms : (Value.object ms).IsJson) (hns : (Value.object ns).IsJson)
    (hextends : (Form.record fields).Extends (.object ms) (.object ns)) :
    Grown fields (f.knownOf ms) (f.knownOf ns) := by
  cases hextends with
  | record hkept hadded hfields _ =>
      intro n field hn
      rw [h.last?_knownOf hn hms.nodup, h.last?_knownOf hn hns.nodup]
      by_cases hmem : n ∈ Assoc.keys ms
      · obtain ⟨⟨_, v⟩, hv, rfl⟩ := List.mem_map.1 hmem
        obtain ⟨⟨_, w⟩, hw, rfl⟩ := List.mem_map.1 (hkept hmem)
        exact .inr ⟨v, w, Assoc.get?_of_mem hms.nodup hv, Assoc.get?_of_mem hns.nodup hw,
          hms.member hv, hns.member hw, hfields _ field v w hn hv hw⟩
      · refine .inl ⟨Assoc.get?_eq_none_iff.2 hmem, Assoc.get?_eq_none_iff.2 fun hmem' => ?_⟩
        rw [hadded n hmem' hmem] at hn
        cases hn

/-- **A record follows a form** with its fields. -/
lemma record (h : f.Follows fields R) (kind : String) :
    (Decoder.record kind .ignored f).Follows (.record fields) R where
  blames {p v fault} hv herror := by
    by_cases hkind : v.kind ∈ (Form.record fields).kinds
    · obtain ⟨ms, rfl⟩ := Form.exists_of_kind_mem_record hkind
      obtain ⟨hpassed, hbuild⟩ | ⟨n, w, d, fault', hw, hd, hfault, hrecord⟩ :=
        record_cases f kind p hv.nodup
      · rw [hbuild] at herror
        obtain ⟨⟨a, ha⟩, -⟩ | ⟨n, form, hn, hlast, hlegible, hmissing⟩ := h.builds hpassed
        · rw [ha] at herror
          cases herror
        · rw [hmissing] at herror
          obtain rfl := Except.error.inj herror
          rw [h.last?_knownOf hn hv.nodup, Assoc.get?_eq_none_iff] at hlast
          exact ⟨[], .missing n, by rw [List.append_nil], hlegible,
            Form.faultAt_nil.2 (.missing hn hlast)⟩
      · rw [hrecord] at herror
        obtain rfl := Except.error.inj herror
        obtain ⟨field, hfield, hfollows⟩ := h.exists_field hd
        obtain ⟨q, m, rfl, hm, hq⟩ := hfollows.blames (hv.part (s := .member n) hw) hfault
        refine ⟨.member n :: q, m, by simp, hm, Form.faultAt_cons.2 ⟨field.2, w, ?_, hw, hq⟩⟩
        rw [Form.part?, hfield, Option.map_some]
    · rw [record_of_kind_ne f kind p hkind] at herror
      obtain rfl := Except.error.inj herror
      exact ⟨[], _, by rw [List.append_nil], Decoder.legible_misfitOf (by decide) v,
        Form.faultAt_nil.2 (.kind hkind)⟩
  spares {p v b} hv hok q hq := by
    by_cases hkind : v.kind ∈ (Form.record fields).kinds
    · obtain ⟨ms, rfl⟩ := Form.exists_of_kind_mem_record hkind
      obtain ⟨hpassed, hbuild⟩ | ⟨n, w, d, fault, -, -, -, hrecord⟩ :=
        record_cases f kind p hv.nodup
      · cases q with
        | nil =>
            cases Form.faultAt_nil.1 hq with
            | kind hnot => exact hnot hkind
            | missing hn hmem =>
                rw [← Assoc.get?_eq_none_iff, ← h.last?_knownOf hn hv.nodup] at hmem
                obtain ⟨-, hthere⟩ | ⟨_, _, -, -, -, hmissing⟩ := h.builds hpassed
                · exact hthere _ _ hn hmem
                · rw [hbuild, hmissing] at hok
                  cases hok
        | cons s q =>
            obtain ⟨_, w, hg, hw, hpart⟩ := Form.faultAt_cons.1 hq
            obtain ⟨n, b', _, rfl, hfield, heq, hw⟩ := Form.cases_of_part?_record hg hw
            obtain rfl := Value.object.inj heq
            obtain ⟨d, hd, hfollows⟩ := h.exists_check hfield
            have hlast : last? n (f.knownOf ms) = some w := by
              rw [h.last?_knownOf hfield hv.nodup, hw]
            exact hfollows.spares (hv.part (s := .member n) hw) (hpassed n w d hlast hd) q hpart
      · rw [hrecord] at hok
        cases hok
    · rw [record_of_kind_ne f kind p hkind] at hok
      cases hok
  keeps {p q v w b} hv hw hextends hok := by
    obtain ⟨ms, ns, rfl, rfl⟩ := Form.exists_of_extends_record hextends
    have hgrown := h.grown hv hw hextends
    obtain ⟨hpassed, hbuild⟩ | ⟨n, w, d, fault, -, -, -, hrecord⟩ :=
      record_cases f kind p hv.nodup
    · obtain ⟨-, hbuild'⟩ | ⟨n, y, d, fault, hy, hd, hfault, -⟩ := record_cases f kind q hw.nodup
      · rw [hbuild] at hok
        rw [hbuild']
        exact h.keeps hgrown hok
      · -- A member that is checked is that of a field, and it extends one that has passed.
        obtain ⟨field, hfield, hfollows⟩ := h.exists_field hd
        obtain ⟨-, hnone⟩ | ⟨x, y', hx, hy', hxjson, hyjson, hextends⟩ := hgrown n field hfield
        · rw [h.last?_knownOf hfield hw.nodup, hy] at hnone
          cases hnone
        · rw [h.last?_knownOf hfield hw.nodup, hy] at hy'
          obtain rfl := Option.some.inj hy'
          obtain ⟨_, hok', -⟩ := hfollows.keeps (q := q ++ [.member n]) hxjson hyjson hextends
            (hpassed n x d hx hd)
          rw [hok'] at hfault
          cases hfault
    · rw [hrecord] at hok
      cases hok

end Follows

end Fields

end ScarbCrates
