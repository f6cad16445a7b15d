import Mathlib.Data.List.Nodup
import ScarbCrates.Proofs.Json.Rearranging
import ScarbCrates.Proofs.Path.Spelling
import ScarbCrates.Schema.Decode

/-!
# Typed data is read from values

What a decoder makes of a text without faults, put together in the way in which the decoder is.
The members of an object may stand in any order: a record looks its members up by their names.

* `Decoder.Reads` — a decoder reads a value, up to the order of members.
* `Fields.Fills` — members fill a record.
* `Fields.Fills.both`, `Fields.Fills.record` — how records are put together.
-/

namespace ScarbCrates

open Json (Value Draft)

namespace Decoder

variable {α β : Type} {d : Decoder Draft α} {v : Value} {R S : α → Prop}

/-- **A decoder reads a value:** from every draft of the same value it makes something of which
`R` holds. -/
def Reads (d : Decoder Draft α) (v : Value) (R : α → Prop) : Prop :=
  ∀ w : Value, w.Same v → ∀ p, ∃ a, d p w.draft = .ok a ∧ R a

lemma Reads.mono (h : d.Reads v R) (hRS : ∀ {a}, R a → S a) : d.Reads v S := by
  intro w hw p
  obtain ⟨a, ha, hR⟩ := h w hw p
  exact ⟨a, ha, hRS hR⟩

/-- What is made of a value may be changed. -/
lemma Reads.map {f : α → β} {S : β → Prop} (h : d.Reads v R) (hRS : ∀ {a}, R a → S (f a)) :
    Reads (fun p v => (d p v).map f) v S := by
  intro w hw p
  obtain ⟨a, ha, hR⟩ := h w hw p
  exact ⟨f a, congrArg (Except.map f) ha, hRS hR⟩

/-! ## Scalars -/

/-- What has no parts has one draft. -/
lemma reads_scalar {a : α} (hv : v.IsScalar) (h : ∀ p, d p v.draft = .ok a) :
    d.Reads v (· = a) := by
  intro w hw p
  rw [hw.eq hv]
  exact ⟨a, h p, rfl⟩

lemma reads_text (s : String) : asText.Reads (.text s) (· = s) :=
  reads_scalar trivial fun _ => rfl

lemma reads_text? (s : String) : asText?.Reads (.text s) (· = some s) :=
  reads_scalar trivial fun _ => rfl

lemma reads_path {p : Path} {s : String} (h : p.toString? = .ok s) :
    asPath.Reads (.text s) (· = p) := by
  have hp : Path.ofString s = p := by
    rw [Path.ofString, ← Text.eq_ofString h, Path.ofText, Path.text, Text.encode_decode,
      Path.ofBytes_bytes]
  exact reads_scalar trivial fun _ => congrArg Except.ok hp

lemma reads_bool (lax b : Bool) : (asBool lax).Reads (.bool b) (· = b) :=
  reads_scalar trivial fun _ => rfl

/-- An integer of one machine word is read as an integer. -/
lemma reads_int (lax : Bool) {i : Int} (h : Json.fitsWord i = true) :
    (asInt lax).Reads (.int i) (· = i) := by
  refine reads_scalar trivial fun p => ?_
  have hlook : (Readable.look (Value.int i).draft : Shape Draft) = .int i := if_pos h
  simp only [asInt, hlook]

lemma reads_choice {choose : String → Option α} {s : String} {a : α} (h : choose s = some a) :
    (asChoice choose).Reads (.text s) (· = a) := by
  refine reads_scalar trivial fun p => ?_
  have hlook : (Readable.look (Value.text s).draft : Shape Draft) = .text s := rfl
  simp only [asChoice, hlook, h]

lemma reads_tag {choose : String → Option α} {s : String} {a : α} (h : choose s = some a) :
    (asTag choose).Reads (.text s) (· = a) := by
  refine reads_scalar trivial fun p => ?_
  have htag : (Readable.tag (Value.text s).draft : Except ReadFault (String ⊕ Option Kind)) =
      .ok (.inl s) := rfl
  rw [asTag, htag]
  simp only [h]

/-! ## Lists -/

section Lists

variable {item : Decoder Draft α} {r : α → β → Prop} {vs : List Value} {bs : List β}

lemma exists_itemsFrom (h : List.Forall₂ (fun v b => item.Reads v (r · b)) vs bs)
    {ws : List Value} (hws : List.Forall₂ Value.Same ws vs) (p : Place) (i : Nat) :
    ∃ as, itemsFrom item p i (Json.draftItems ws) = .ok as ∧ List.Forall₂ r as bs := by
  induction h generalizing ws i with
  | nil =>
      obtain rfl := List.forall₂_nil_right_iff.1 hws
      exact ⟨[], rfl, .nil⟩
  | cons hb _ ih =>
      obtain ⟨w, ws', hw, hws', rfl⟩ := List.forall₂_cons_right_iff.1 hws
      obtain ⟨a, ha, hab⟩ := hb w hw (p ++ [.item i])
      obtain ⟨as, has, hrel⟩ := ih hws' (i + 1)
      refine ⟨a :: as, ?_, .cons hab hrel⟩
      rw [Json.draftItems, itemsFrom, ha]
      show (itemsFrom item p (i + 1) (Json.draftItems ws') >>= _) = _
      rw [has]
      rfl

/-- **A list is read item by item.** -/
lemma Reads.listOf (h : List.Forall₂ (fun v b => item.Reads v (r · b)) vs bs) :
    (Decoder.listOf item).Reads (.array vs) (List.Forall₂ r · bs) := by
  intro w hw p
  obtain ⟨ws, rfl, hws⟩ := Json.Value.same_array hw
  obtain ⟨as, has, hrel⟩ := exists_itemsFrom h hws p 0
  refine ⟨as, ?_, hrel⟩
  show (itemsFrom item p 0 (Json.draftItems ws) >>= fun as => finish none as) = _
  rw [has]
  rfl

lemma Reads.listOf? (lax : Bool) (h : List.Forall₂ (fun v b => item.Reads v (r · b)) vs bs) :
    (Decoder.listOf? lax item).Reads (.array vs) (Option.Rel (List.Forall₂ r) · (some bs)) := by
  intro w hw p
  obtain ⟨ws, rfl, hws⟩ := Json.Value.same_array hw
  obtain ⟨as, has, hrel⟩ := exists_itemsFrom h hws p 0
  refine ⟨some as, ?_, .some hrel⟩
  show (itemsFrom item p 0 (Json.draftItems ws) >>= fun as => finish none (some as)) = _
  rw [has]
  rfl

end Lists

end Decoder

namespace Fields

variable {α β : Type} {f : Fields Draft α} {g : Fields Draft β} {ms ns : List (String × Value)}
  {all : List (String × Draft)} {R : α → Prop} {S : β → Prop}

/-! ## Looking members up -/

lemma last?_of_not_mem {ι : Type} {all : List (String × ι)} {n : String}
    (h : n ∉ Assoc.keys all) : last? n all = none := by
  rw [last?, List.lookup_eq_none_iff]
  intro m hm
  rw [bne_iff_ne]
  rintro rfl
  exact h (List.mem_map_of_mem (List.mem_reverse.1 hm))

lemma mem_of_last? {ι : Type} {all : List (String × ι)} {n : String} {d : ι}
    (h : last? n all = some d) : (n, d) ∈ all := by
  obtain ⟨before, after, hall, -⟩ := List.lookup_eq_some_iff.1 h
  rw [← List.mem_reverse, hall]
  exact List.mem_append_right _ List.mem_cons_self

/-- Where names are different, the last member of a name is the only one. -/
lemma last?_of_mem {ι : Type} {all : List (String × ι)} (hnodup : (Assoc.keys all).Nodup)
    {n : String} {d : ι} (h : (n, d) ∈ all) : last? n all = some d := by
  obtain ⟨before, after, rfl⟩ := List.append_of_mem h
  have hafter : n ∉ Assoc.keys after := by
    rw [Assoc.keys, List.map_append, List.map_cons, List.nodup_append] at hnodup
    exact (List.nodup_cons.1 hnodup.2.1).1
  have hnone := last?_of_not_mem hafter
  rw [last?] at hnone
  rw [last?, List.reverse_append, List.reverse_cons, List.append_assoc, List.lookup_append, hnone]
  simp

/-! ## Members that fill a record -/

/-- Members of an object present those in `ms` to a record, and no others that the record
knows. -/
structure Presents (f : Fields Draft α) (all : List (String × Draft))
    (ms : List (String × Value)) : Prop where
  present : ∀ n v, (n, v) ∈ ms → ∃ w : Value, w.Same v ∧ last? n all = some w.draft
  absent : ∀ n, f.check n ≠ none → n ∉ Assoc.keys ms → last? n all = none

/-- Members that are presented to a record are presented to a part of it. -/
lemma Presents.part (h : g.Presents all ns) (hsub : ms ⊆ ns)
    (hnames : ∀ n, f.check n ≠ none →
      g.check n ≠ none ∧ (n ∈ Assoc.keys ns → n ∈ Assoc.keys ms)) : f.Presents all ms where
  present := fun n v hv => h.present n v (hsub hv)
  absent := fun n hn hms => h.absent n (hnames n hn).1 fun hns => hms ((hnames n hn).2 hns)

/-- **Members fill a record:** each is known and passes its check, and together they make
something of which `R` holds. -/
structure Fills (f : Fields Draft α) (ms : List (String × Value)) (R : α → Prop) : Prop where
  names : (Assoc.keys ms).Nodup
  judged : ∀ m ∈ ms, ∃ d, f.check m.1 = some d ∧ d.Reads m.2 fun _ => True
  built : ∀ all p, f.Presents all ms → ∃ a, f.build p all = .ok a ∧ R a

/-- Two groups of members share no name. -/
def Apart (f : Fields Draft α) (g : Fields Draft β) : Prop :=
  ∀ n, f.check n = none ∨ g.check n = none

@[simp]
lemma check_required (name : String) (d : Decoder Draft α) (n : String) :
    (required name d).check n = none ↔ n ≠ name := by
  simp [required, checkOne]

@[simp]
lemma check_optional (name : String) (d : Decoder Draft α) (a : α) (n : String) :
    (optional name d a).check n = none ↔ n ≠ name := by
  simp [optional, checkOne]

@[simp]
lemma check_both (n : String) :
    (both f g).check n = none ↔ f.check n = none ∧ g.check n = none := by
  simp [both]

lemma apart_required {name : String} {d : Decoder Draft α} (h : g.check name = none) :
    (required name d).Apart g := by
  intro n
  by_cases hn : n = name
  · exact .inr (hn ▸ h)
  · exact .inl ((check_required _ _ _).2 hn)

lemma apart_optional {name : String} {d : Decoder Draft α} {a : α}
    (h : g.check name = none) : (optional name d a).Apart g := by
  intro n
  by_cases hn : n = name
  · exact .inr (hn ▸ h)
  · exact .inl ((check_optional _ _ _ _).2 hn)

namespace Fills

lemma known (h : f.Fills ms R) {n : String} (hn : n ∈ Assoc.keys ms) : f.check n ≠ none := by
  obtain ⟨m, hm, rfl⟩ := List.mem_map.1 hn
  obtain ⟨d, hd, -⟩ := h.judged m hm
  rw [hd]
  exact Option.some_ne_none d

/-- A record of one member that is there. -/
lemma single {name : String} {d : Decoder Draft α} {v : Value} (h : d.Reads v R)
    (hcheck : f.check = checkOne name d)
    (hbuild : ∀ all p v, last? name all = some v → f.build p all = d (p ++ [.member name]) v) :
    f.Fills [(name, v)] R where
  names := List.nodup_singleton name
  judged := by
    intro m hm
    obtain rfl := List.mem_singleton.1 hm
    exact ⟨_, by rw [hcheck]; exact if_pos rfl, h.map fun _ => trivial⟩
  built := by
    intro all p hall
    obtain ⟨w, hw, hlast⟩ := hall.present name v List.mem_cons_self
    rw [hbuild all p _ hlast]
    exact h w hw (p ++ [.member name])

lemma required {name : String} {d : Decoder Draft α} {v : Value} (h : d.Reads v R) :
    (required name d).Fills [(name, v)] R :=
  single h rfl fun _ _ _ hlast => by simp only [Fields.required, hlast]

lemma present {name : String} {d : Decoder Draft α} {a : α} {v : Value} (h : d.Reads v R) :
    (optional name d a).Fills [(name, v)] R :=
  single h rfl fun _ _ _ hlast => by simp only [optional, hlast]

/-- Where a member is absent its default stands. -/
lemma absent (name : String) (d : Decoder Draft α) {a : α} (h : R a) :
    (optional name d a).Fills [] R where
  names := List.nodup_nil
  judged := List.forall_mem_nil _
  built := by
    intro all p hall
    have hlast := hall.absent name (by simp [optional, checkOne]) List.not_mem_nil
    refine ⟨a, ?_, h⟩
    rw [optional]
    simp only [hlast]

lemma map {k : α → β} (h : f.Fills ms R) (hRS : ∀ {a}, R a → S (k a)) :
    (f.map k).Fills ms S where
  names := h.names
  judged := h.judged
  built := by
    intro all p hall
    obtain ⟨a, ha, hR⟩ := h.built all p ⟨hall.present, hall.absent⟩
    exact ⟨k a, congrArg (Except.map k) ha, hRS hR⟩

/-- **Two groups of members are filled one after the other.** -/
lemma both (hf : f.Fills ms R) (hg : g.Fills ns S) (hapart : f.Apart g) :
    (both f g).Fills (ms ++ ns) fun ab => R ab.1 ∧ S ab.2 where
  names := by
    rw [Assoc.keys, List.map_append, List.nodup_append]
    refine ⟨hf.names, hg.names, ?_⟩
    rintro n hn _ hn' rfl
    exact (hapart n).elim (hf.known hn) (hg.known hn')
  judged := by
    intro m hm
    rcases List.mem_append.1 hm with hm | hm
    · obtain ⟨d, hd, hread⟩ := hf.judged m hm
      exact ⟨d, by simp [Fields.both, hd], hread⟩
    · obtain ⟨d, hd, hread⟩ := hg.judged m hm
      have hnone := (hapart m.1).resolve_right (hg.known (List.mem_map_of_mem hm))
      exact ⟨d, by simp [Fields.both, hd, hnone], hread⟩
  built := by
    intro all p hall
    have hkeys : Assoc.keys (ms ++ ns) = Assoc.keys ms ++ Assoc.keys ns := List.map_append
    have hallf : f.Presents all ms := by
      refine hall.part (List.subset_append_left ms ns) fun n hn => ?_
      rw [ne_eq, check_both, hkeys, List.mem_append]
      have hnone := (hapart n).resolve_left hn
      exact ⟨fun h => hn h.1, fun h => h.resolve_right fun hns => hg.known hns hnone⟩
    have hallg : g.Presents all ns := by
      refine hall.part (List.subset_append_right ms ns) fun n hn => ?_
      rw [ne_eq, check_both, hkeys, List.mem_append]
      have hnone := (hapart n).resolve_right hn
      exact ⟨fun h => hn h.2, fun h => h.resolve_left fun hms => hf.known hms hnone⟩
    obtain ⟨a, ha, hR⟩ := hf.built all p hallf
    obtain ⟨b, hb, hS⟩ := hg.built all p hallg
    refine ⟨(a, b), ?_, hR, hS⟩
    show (f.build p all >>= fun a => g.build p all >>= fun b => pure (a, b)) = _
    rw [ha]
    show (g.build p all >>= fun b => pure (a, b)) = _
    rw [hb]
    rfl

/-! ## Records -/

/-- The members of an object that is the same as one with the members `ms`. -/
lemma checkMembers (h : f.Fills ms R) (unknown : Unknown) (p : Place) :
    ∀ ns : List (String × Value), (∀ n w, (n, w) ∈ ns → ∃ v, (n, v) ∈ ms ∧ w.Same v) →
      Decoder.checkMembers unknown f p (ns.map fun m => (.text m.1, m.2.draft)) =
        .ok (ns.map fun m => (m.1, m.2.draft))
  | [], _ => rfl
  | (n, w) :: ns, hns => by
      obtain ⟨v, hv, hw⟩ := hns n w List.mem_cons_self
      obtain ⟨d, hd, hread⟩ := h.judged (n, v) hv
      obtain ⟨⟨⟩, hok, -⟩ := hread w hw (p ++ [.member n])
      have ih := h.checkMembers unknown p ns fun n w hmem => hns n w (List.mem_cons_of_mem _ hmem)
      simp only [List.map_cons, Decoder.checkMembers]
      simp only at hd
      simp only [hd]
      rw [hok, ih]
      rfl

/-- **An object whose members fill a record is read,** in whatever order its members stand. -/
lemma recordFrom (h : f.Fills ms R) (unknown : Unknown) (p : Place) {w : Value}
    (hw : w.Same (.object ms)) :
    ∃ ns, w = .object ns ∧ ∃ a, Decoder.recordFrom unknown f p
      (ns.map fun m => (.text m.1, m.2.draft)) none = .ok a ∧ R a := by
  obtain ⟨ns, rfl, hsame⟩ := Json.Value.same_object hw
  have hdrafts : Assoc.keys (ns.map fun m => (m.1, m.2.draft)) = Assoc.keys ns := List.map_map
  have hpresents : f.Presents (ns.map fun m => (m.1, m.2.draft)) ms := by
    constructor
    · intro n v hmem
      obtain ⟨w, hw, hwv⟩ := hsame.right n v hmem
      refine ⟨w, hwv, last?_of_mem ?_ (List.mem_map.2 ⟨(n, w), hw, rfl⟩)⟩
      rw [hdrafts, hsame.names.nodup_iff]
      exact h.names
    · intro n _ hn
      refine last?_of_not_mem ?_
      rwa [hdrafts, hsame.names.mem_iff]
  obtain ⟨a, ha, hR⟩ := h.built _ p hpresents
  refine ⟨ns, rfl, a, ?_, hR⟩
  rw [Decoder.recordFrom, h.checkMembers unknown p ns hsame.left]
  exact ha

lemma look_object (ns : List (String × Value)) :
    (Readable.look (Value.object ns).draft : Shape Draft) =
      .object (ns.map fun m => (.text m.1, m.2.draft)) none := by
  show Draft.look _ = _
  rw [Value.draft, Draft.look, Json.draftMembers_eq, List.map_map]
  rfl

lemma record (h : f.Fills ms R) (kind : String) (unknown : Unknown) :
    (Decoder.record kind unknown f).Reads (.object ms) R := by
  intro w hw p
  obtain ⟨ns, rfl, a, ha, hR⟩ := h.recordFrom unknown p hw
  refine ⟨a, ?_, hR⟩
  rw [Decoder.record]
  simp only [look_object]
  exact ha

lemma record? (h : f.Fills ms R) (lax : Bool) (kind : String) (unknown : Unknown) :
    (Decoder.record? lax kind unknown f).Reads (.object ms) fun o => ∃ a, o = some a ∧ R a := by
  intro w hw p
  obtain ⟨ns, rfl, a, ha, hR⟩ := h.recordFrom unknown p hw
  refine ⟨some a, ?_, a, rfl, hR⟩
  rw [Decoder.record?]
  simp only [look_object, Decoder.isNothing, Bool.false_eq_true, if_false]
  rw [ha]
  rfl

end Fills

end Fields

end ScarbCrates
