import ScarbCrates.Proofs.Datum.Canonical
import ScarbCrates.Proofs.Derivation.Naming
import ScarbCrates.Proofs.FirstMention

/-!
# Flags from raw entries

A document gives flags as raw JSON: a text is a flag by itself, and of two texts in a list the first
is the key and the second the value.  An entry of any other form leaves nothing known about the
flags, wherever it stands.  Otherwise each flag that is given is in the set, once, where it is first
given.

* `Cfg.GivenBy` — what an entry gives; `Cfg.entry` — the entry that gives a flag.
* `Decoder.itemsFrom_ok_iff` — items are read all or not at all.
* `CrateSettings.Collects` — a set that has the flags of some entries.
* `CrateSettings.cfgSetOf_entries` — which entries have a set, and what is in it.
-/

namespace ScarbCrates

open Json (Value)

/-! ## Entries -/

namespace Cfg

/-- **What an entry gives:** a text a flag without a value, two texts a key with a value. -/
inductive GivenBy : Value → Cfg → Prop
  | bare (key : String) : GivenBy (.text key) ⟨key, none⟩
  | valued (key value : String) : GivenBy (.array [.text key, .text value]) ⟨key, some value⟩

/-- **A flag as an entry.** -/
def entry : Cfg → Value
  | ⟨key, none⟩ => .text key
  | ⟨key, some value⟩ => .array [.text key, .text value]

/-- An entry gives one flag at most, and a flag is given by one entry only. -/
lemma givenBy_iff {v : Value} {c : Cfg} : GivenBy v c ↔ v = c.entry := by
  constructor
  · rintro (_ | _) <;> rfl
  · rintro rfl
    obtain ⟨key, _ | value⟩ := c
    · exact .bare key
    · exact .valued key value

lemma entry_injective : Function.Injective entry := by
  rintro ⟨key, _ | value⟩ ⟨key', _ | value'⟩ h <;> simp_all [entry]

lemma forall₂_givenBy_iff {vs : List Value} {cs : List Cfg} :
    List.Forall₂ GivenBy vs cs ↔ vs = cs.map entry := by
  induction cs generalizing vs with
  | nil => rw [List.forall₂_nil_right_iff, List.map_nil]
  | cons c rest ih => simp [List.forall₂_cons_right_iff, givenBy_iff, ih]

end Cfg

lemma CfgSet.items_ofItems (cs : List Cfg) : (ofItems cs).items = cs.eraseDups :=
  foldl_mention_nil cs

/-- A set is built again from its flags. -/
lemma CfgSet.ofItems_items {s : CfgSet} (h : s.items.Nodup) : ofItems s.items = s := by
  obtain ⟨items⟩ := s
  exact congrArg CfgSet.mk ((items_ofItems items).trans (eraseDups_of_nodup h))

/-! ## Reading entries -/

lemma Datum.ofJsonItems_eq (vs : List Value) : ofJsonItems vs = vs.map ofJson := by
  induction vs with
  | nil => rfl
  | cons v rest ih => rw [ofJsonItems, ih, List.map_cons]

namespace Decoder

/-- **Items are read all or not at all.** -/
lemma itemsFrom_ok_iff {κ ι ρ α : Type} [Readable ι ρ] {item : Decoder ι α} {f : κ → ι}
    {R : κ → α → Prop} (h : ∀ p v a, item p (f v) = .ok a ↔ R v a) (p : Place) (i : Nat)
    {vs : List κ} {as : List α} :
    itemsFrom item p i (vs.map f) = .ok as ↔ List.Forall₂ R vs as := by
  constructor
  · intro hok
    induction vs generalizing i as with
    | nil =>
        cases hok
        exact .nil
    | cons v rest ih =>
        obtain ⟨a, ha, hok⟩ := exists_of_bind_eq_ok hok
        obtain ⟨bs, hbs, hok⟩ := exists_of_bind_eq_ok hok
        cases hok
        exact .cons ((h _ _ _).1 ha) (ih _ hbs)
  · intro hrel
    induction hrel generalizing i with
    | nil => rfl
    | cons ha _ ih =>
        rw [List.map_cons, itemsFrom, (h _ _ _).2 ha]
        show (itemsFrom item p (i + 1) _ >>= _) = _
        rw [ih]
        rfl

variable {p : Place} {v : Value} {vs : List Value}

lemma asText_ofJson_iff {s : String} : asText p (Datum.ofJson v) = .ok s ↔ v = .text s := by
  cases v <;> simp [asText, Datum.ofJson, Datum.ofString, Readable.look, Datum.look, misfit,
    Text.shown_ofString]

/-- Only two texts are read as a pair. -/
lemma pairFrom_ofJson_iff {a b : String} :
    pairFrom asText p (vs.map Datum.ofJson) none = .ok (a, b) ↔ vs = [.text a, .text b] := by
  constructor
  · intro h
    match vs with
    | [] | [_] | _ :: _ :: _ :: _ => simp [pairFrom, Readable.countsAhead] at h
    | [v, w] =>
        obtain ⟨a', ha, h⟩ := exists_of_bind_eq_ok h
        obtain ⟨b', hb, h⟩ := exists_of_bind_eq_ok h
        cases h
        rw [asText_ofJson_iff.1 ha, asText_ofJson_iff.1 hb]
  · rintro rfl
    have htext : ∀ (p : Place) (s : String), asText p (Datum.ofJson (.text s)) = .ok s :=
      fun p s => asText_ofJson_iff.2 rfl
    show (asText (p ++ [PlaceStep.item 0]) (Datum.ofJson (.text a)) >>= fun a =>
      asText (p ++ [PlaceStep.item 1]) (Datum.ofJson (.text b)) >>= fun b =>
        finish none (a, b)) = _
    rw [htext, htext]
    rfl

/-- **An entry is read as the flag that it gives.** -/
lemma textOrPair_ofJson_iff {e : String ⊕ (String × String)} :
    textOrPair p (Datum.ofJson v) = .ok e ↔ Cfg.GivenBy v (CrateSettings.flagOf e) := by
  rw [Cfg.givenBy_iff]
  cases v with
  | text s =>
      have htext : textOrPair p (Datum.ofJson (.text s)) = .ok (.inl s) :=
        congrArg (fun s => Except.ok (Sum.inl s)) (Text.shown_ofString s)
      rw [htext]
      rcases e with key | ⟨key, value⟩ <;> simp [CrateSettings.flagOf, Cfg.entry]
  | array vs =>
      have hpair : textOrPair p (Datum.ofJson (.array vs)) =
          (pairFrom asText p (vs.map Datum.ofJson) none).map .inr := by
        rw [← Datum.ofJsonItems_eq]
        rfl
      rw [hpair]
      rcases e with key | ⟨key, value⟩
      · cases pairFrom asText p (vs.map Datum.ofJson) none <;>
          simp [Except.map, CrateSettings.flagOf, Cfg.entry]
      · simp only [CrateSettings.flagOf, Cfg.entry, Value.array.injEq]
        rw [← pairFrom_ofJson_iff (p := p)]
        cases pairFrom asText p (vs.map Datum.ofJson) none <;> simp [Except.map]
  | _ =>
      rcases e with key | ⟨key, value⟩ <;>
        simp [textOrPair, Datum.ofJson, Readable.look, Datum.look, misfit, CrateSettings.flagOf,
          Cfg.entry]

end Decoder

/-! ## Sets of flags -/

namespace CrateSettings

open Decoder

variable {vs : List Value} {cs : List Cfg}

lemma flagOf_surjective : Function.Surjective flagOf := by
  rintro ⟨key, _ | value⟩
  · exact ⟨.inl key, rfl⟩
  · exact ⟨.inr (key, value), rfl⟩

/-- **Raw entries are read** as flags that they give one by one. -/
lemma itemsFrom_textOrPair_iff {es : List (String ⊕ (String × String))} :
    itemsFrom textOrPair [] 0 (vs.map Datum.ofJson) = .ok es ↔
      List.Forall₂ Cfg.GivenBy vs (es.map flagOf) := by
  rw [itemsFrom_ok_iff fun _ _ _ => textOrPair_ofJson_iff, List.forall₂_map_right_iff]

lemma cfgSetOf_of_given (h : List.Forall₂ Cfg.GivenBy vs cs) (crateName : String) :
    cfgSetOf (vs.map Datum.ofJson) crateName = ⟨some (CfgSet.ofItems cs), []⟩ := by
  obtain ⟨es, rfl⟩ := List.map_surjective_iff.2 flagOf_surjective cs
  rw [cfgSetOf, itemsFrom_textOrPair_iff.2 h]
  rfl

/-- The warning comes from the first entry that gives no flag, and says the name of the crate. -/
lemma cfgSetOf_of_not_given (h : ¬∃ cs, List.Forall₂ Cfg.GivenBy vs cs) (crateName : String) :
    ∃ message, Says message crateName ∧
      cfgSetOf (vs.map Datum.ofJson) crateName = ⟨none, [⟨.warning, origin, message⟩]⟩ := by
  cases hitems : itemsFrom textOrPair [] 0 (vs.map Datum.ofJson) with
  | ok es => exact absurd ⟨_, itemsFrom_textOrPair_iff.1 hitems⟩ h
  | error fault =>
      refine ⟨"scarb metadata cfg did not convert identically to cairo one for crate: " ++ crateName
        ++ ": " ++ fault.message, says_append _ crateName ": " _, ?_⟩
      rw [cfgSetOf, hitems]
      rfl

lemma exists_forall₂_givenBy_iff : (∃ cs, List.Forall₂ Cfg.GivenBy vs cs) ↔
    ∀ v ∈ vs, (∃ key, v = .text key) ∨ ∃ key value, v = .array [.text key, .text value] := by
  constructor
  · rintro ⟨cs, h⟩ v hv
    obtain rfl := Cfg.forall₂_givenBy_iff.1 h
    obtain ⟨⟨key, _ | value⟩, -, rfl⟩ := List.mem_map.1 hv
    · exact .inl ⟨key, rfl⟩
    · exact .inr ⟨key, value, rfl⟩
  · intro h
    induction vs with
    | nil => exact ⟨[], .nil⟩
    | cons v rest ih =>
        obtain ⟨hv, hrest⟩ := List.forall_mem_cons.1 h
        obtain ⟨cs, hcs⟩ := ih hrest
        rcases hv with ⟨key, rfl⟩ | ⟨key, value, rfl⟩
        · exact ⟨_, .cons (.bare key) hcs⟩
        · exact ⟨_, .cons (.valued key value) hcs⟩

/-- **A set has the flags of some entries,** each once and in the order in which they are first
given, and its flags written as entries have the set again. -/
structure Collects (vs : List Value) (s : CfgSet) : Prop where
  nodup : s.items.Nodup
  bare : ∀ key, ⟨key, none⟩ ∈ s.items ↔ .text key ∈ vs
  valued : ∀ key value, ⟨key, some value⟩ ∈ s.items ↔ .array [.text key, .text value] ∈ vs
  order : ∃ flags, List.Forall₂ Cfg.GivenBy vs flags ∧ s.items = flags.eraseDups
  again : ∀ crateName,
    cfgSetOf ((s.items.map Cfg.entry).map Datum.ofJson) crateName = ⟨some s, []⟩

lemma collects_ofItems (h : List.Forall₂ Cfg.GivenBy vs cs) : Collects vs (CfgSet.ofItems cs) := by
  have hitems := CfgSet.items_ofItems cs
  have hmem : ∀ c, c ∈ (CfgSet.ofItems cs).items ↔ c.entry ∈ vs := by
    intro c
    rw [hitems, List.mem_eraseDups, Cfg.forall₂_givenBy_iff.1 h,
      List.mem_map_of_injective Cfg.entry_injective]
  have hnodup : (CfgSet.ofItems cs).items.Nodup := hitems ▸ nodup_eraseDups cs
  refine ⟨hnodup, fun key => hmem _, fun key value => hmem _, ⟨cs, h, hitems⟩, fun crateName => ?_⟩
  rw [cfgSetOf_of_given (Cfg.forall₂_givenBy_iff.2 rfl)]
  rw [CfgSet.ofItems_items hnodup]

/-- **The flags of raw entries.**  There is a set exactly if every entry is a text or a list of two
texts, and then it has the flags that they give.  Otherwise there is none, and one warning that says
the name of the crate, wherever the entry stands that gives no flag. -/
theorem cfgSetOf_entries (vs : List Value) (crateName : String) :
    ((∃ s, (cfgSetOf (vs.map Datum.ofJson) crateName).value = some s) ↔
      ∀ v ∈ vs, (∃ key, v = .text key) ∨ ∃ key value, v = .array [.text key, .text value]) ∧
    (∀ s, (cfgSetOf (vs.map Datum.ofJson) crateName).value = some s →
      (cfgSetOf (vs.map Datum.ofJson) crateName).notices = [] ∧ Collects vs s) ∧
    ((cfgSetOf (vs.map Datum.ofJson) crateName).value = none →
      ∃ message, Says message crateName ∧
        (cfgSetOf (vs.map Datum.ofJson) crateName).notices = [⟨.warning, origin, message⟩]) := by
  rw [← exists_forall₂_givenBy_iff]
  by_cases h : ∃ cs, List.Forall₂ Cfg.GivenBy vs cs
  · obtain ⟨cs, hcs⟩ := h
    rw [cfgSetOf_of_given hcs]
    refine ⟨iff_of_true ⟨_, rfl⟩ ⟨cs, hcs⟩, ?_, fun hnone => nomatch hnone⟩
    rintro s hs
    cases hs
    exact ⟨rfl, collects_ofItems hcs⟩
  · obtain ⟨message, hsays, hnone⟩ := cfgSetOf_of_not_given h crateName
    rw [hnone]
    exact ⟨iff_of_false (fun ⟨_, hs⟩ => nomatch hs) h, fun _ hs => (nomatch hs),
      fun _ => ⟨message, hsays, rfl⟩⟩

/-- A bare flag and the same key with an empty value are two flags, and each of them is one however
often it is given. -/
theorem cfgSetOf_entries_empty_value :
    let vs : List Value := [.text "a", .array [.text "a", .text ""], .text "a"]
    ∃ s, (cfgSetOf (vs.map Datum.ofJson) "x").value = some s ∧
      s.items = [⟨"a", none⟩, ⟨"a", some ""⟩] := by
  intro vs
  obtain ⟨hsome, hcollects, -⟩ := cfgSetOf_entries vs "x"
  obtain ⟨s, hs⟩ := hsome.2 (by simp [vs])
  obtain ⟨flags, hflags, hitems⟩ := (hcollects s hs).2.order
  have hmap := Cfg.forall₂_givenBy_iff.1 hflags
  obtain rfl : flags = [⟨"a", none⟩, ⟨"a", some ""⟩, ⟨"a", none⟩] :=
    List.map_injective_iff.2 Cfg.entry_injective hmap.symm
  exact ⟨s, hs, hitems⟩

end CrateSettings

end ScarbCrates
