import ScarbCrates.Metadata.Schema
import ScarbCrates.Proofs.Datum.Writing
import ScarbCrates.Proofs.Query.Freshness
import ScarbCrates.Proofs.Schema.Reading

/-!
# Written data is read again

Data that is written and the decoder that reads it belong together: the decoder makes of the text
what was written.  This is shown for the parts that typed data is put together from, so that for
each type only its fields remain.

* `Decoder.Returns`, `Fields.Returns` — data and decoder belong together.
* `Decoder.Returns.load` — from text to data.
* `Metadata.returns_raw` — values that are kept as they are come back up to the order of members.
-/

namespace ScarbCrates

open Json (Value Draft)

/-! ## Data and its decoder -/

namespace Decoder

variable {α β : Type} {d : Decoder Draft α} {datum : Datum} {R S : α → Prop}

/-- **Data is read again:** it has a portable JSON value, of which the decoder makes something of
which `R` holds. -/
def Returns (d : Decoder Draft α) (datum : Datum) (R : α → Prop) : Prop :=
  ∃ v, datum.toJson = .ok v ∧ v.Portable ∧ d.Reads v R

lemma Returns.mono (h : d.Returns datum R) (hRS : ∀ {a}, R a → S a) : d.Returns datum S := by
  obtain ⟨v, hv, hportable, hread⟩ := h
  exact ⟨v, hv, hportable, hread.mono hRS⟩

/-- From the text of a portable value its draft is read; white space may follow. -/
lemma load_render (d : Decoder Draft α) {w : Value} (hw : w.Portable) (pretty : Bool)
    {b : List Char} (hb : Json.IsBlank b) :
    d.load (Text.encode (Text.ofChars ((w.render pretty).toList ++ b))) = d [] w.draft := by
  obtain ⟨hfloat, -, hwidth⟩ := hw.legible
  rw [Decoder.load, Json.Document.ofBytes, Text.decode_encode_ofChars,
    Value.ofText_render hfloat hwidth pretty hb, readDocument]
  cases d [] w.draft <;> rfl

lemma Reads.load {v w : Value} (h : d.Reads v R) (hv : v.Portable) (hw : w.Same v)
    (pretty : Bool) {b : List Char} (hb : Json.IsBlank b) :
    ∃ a, d.load (Text.encode (Text.ofChars ((w.render pretty).toList ++ b))) = .ok a ∧ R a := by
  rw [load_render d (hv.same hw) pretty hb]
  exact h w hw []

/-- A reader who asks for nothing gets the value itself. -/
lemma load_anything {w : Value} (hw : w.Portable) (pretty : Bool) {b : List Char}
    (hb : Json.IsBlank b) : Decoder.anything.load
      (Text.encode (Text.ofChars ((w.render pretty).toList ++ b))) = .ok w :=
  (load_render _ hw pretty hb).trans (w.value_draft [] hw.legible.2.1)

/-- **What is written is read again,** from the compact text and from the indented one. -/
theorem Returns.load (h : d.Returns datum R) (pretty : Bool) :
    ∃ text, datum.dump pretty = .ok text ∧
      ∃ a, d.load (Text.encode (Text.ofString text)) = .ok a ∧ R a := by
  obtain ⟨v, hv, hportable, hread⟩ := h
  have hload := hread.load hportable rfl pretty Json.isBlank_nil
  rw [List.append_nil] at hload
  exact ⟨v.render pretty, by rw [Datum.dump, hv]; rfl, hload⟩

/-! ### Scalars -/

lemma returns_text (s : String) : asText.Returns (.ofString s) (· = s) :=
  ⟨.text s, Datum.toJson_ofString s, trivial, reads_text s⟩

lemma returns_text? (s : String) : asText?.Returns (.ofString s) (· = some s) :=
  ⟨.text s, Datum.toJson_ofString s, trivial, reads_text? s⟩

lemma returns_path {p : Path} (h : p.Encodable) : asPath.Returns (.path p) (· = p) := by
  obtain ⟨s, hs⟩ := h
  exact ⟨.text s, Datum.toJson_path hs, trivial, reads_path hs⟩

lemma returns_bool (lax b : Bool) : (asBool lax).Returns (.bool b) (· = b) :=
  ⟨.bool b, rfl, trivial, reads_bool lax b⟩

lemma returns_int (lax : Bool) {i : Int} (h : Json.fitsWord i = true) :
    (asInt lax).Returns (.int i) (· = i) :=
  ⟨.int i, rfl, h, reads_int lax h⟩

/-! ### Lists -/

section Lists

variable {item : Decoder Draft α} {r : α → β → Prop} {bs : List β} {e : β → Datum}

lemma exists_values (h : ∀ b ∈ bs, item.Returns (e b) (r · b)) :
    ∃ vs, List.Forall₂ (fun d v => Datum.toJson d = .ok v) (bs.map e) vs ∧
      Value.PortableItems vs ∧ List.Forall₂ (fun v b => item.Reads v (r · b)) vs bs := by
  induction bs with
  | nil => exact ⟨[], .nil, trivial, .nil⟩
  | cons b bs ih =>
      obtain ⟨v, hv, hportable, hread⟩ := h b List.mem_cons_self
      obtain ⟨vs, hvs, hportables, hreads⟩ := ih fun b hb => h b (List.mem_cons_of_mem _ hb)
      exact ⟨v :: vs, .cons hv hvs, ⟨hportable, hportables⟩, .cons hread hreads⟩

lemma Returns.listOf {how : Gathering} (hhow : how ≠ .set)
    (h : ∀ b ∈ bs, item.Returns (e b) (r · b)) :
    (Decoder.listOf item).Returns (.sequence how (bs.map e)) (List.Forall₂ r · bs) := by
  obtain ⟨vs, hvs, hportable, hreads⟩ := exists_values h
  exact ⟨.array vs, Datum.toJson_sequence hhow hvs, hportable, .listOf hreads⟩

lemma Returns.listOf? {how : Gathering} (hhow : how ≠ .set) (lax : Bool)
    (h : ∀ b ∈ bs, item.Returns (e b) (r · b)) :
    (Decoder.listOf? lax item).Returns (.sequence how (bs.map e))
      (Option.Rel (List.Forall₂ r) · (some bs)) := by
  obtain ⟨vs, hvs, hportable, hreads⟩ := exists_values h
  exact ⟨.array vs, Datum.toJson_sequence hhow hvs, hportable, .listOf? lax hreads⟩

/-- Items that come back as they are make a list that does. -/
lemma Returns.list {how : Gathering} (hhow : how ≠ .set) {as : List α} {e : α → Datum}
    (h : ∀ a ∈ as, item.Returns (e a) (· = a)) :
    (Decoder.listOf item).Returns (.sequence how (as.map e)) (· = as) :=
  (Returns.listOf hhow h).mono fun hrel => by rwa [List.forall₂_eq_eq_eq] at hrel

end Lists

end Decoder

/-! ## Fields and their records -/

namespace Fields

variable {α β : Type} {f : Fields Draft α} {g : Fields Draft β}
  {fields fields' : List (String × Datum)} {R : α → Prop} {S : β → Prop}

/-- **Fields are read again:** they have portable JSON values, which fill the record. -/
def Returns (f : Fields Draft α) (fields : List (String × Datum)) (R : α → Prop) : Prop :=
  ∃ ms, Datum.toJsonFields fields = .ok ms ∧ Value.PortableMembers ms ∧ f.Fills ms R

namespace Returns

lemma required {d : Decoder Draft α} {datum : Datum} (name : String) (h : d.Returns datum R) :
    (Fields.required name d).Returns [(name, datum)] R := by
  obtain ⟨v, hv, hportable, hread⟩ := h
  exact ⟨[(name, v)], Datum.toJsonFields_cons hv rfl, ⟨hportable, trivial⟩, .required hread⟩

lemma present {d : Decoder Draft α} {datum : Datum} (name : String) (a : α)
    (h : d.Returns datum R) : (optional name d a).Returns [(name, datum)] R := by
  obtain ⟨v, hv, hportable, hread⟩ := h
  exact ⟨[(name, v)], Datum.toJsonFields_cons hv rfl, ⟨hportable, trivial⟩, .present hread⟩

lemma absent {a : α} (name : String) (d : Decoder Draft α) (h : R a) :
    (optional name d a).Returns [] R :=
  ⟨[], rfl, trivial, .absent name d h⟩

lemma map {k : α → β} (h : f.Returns fields R) (hRS : ∀ {a}, R a → S (k a)) :
    (f.map k).Returns fields S := by
  obtain ⟨ms, hms, hportable, hfills⟩ := h
  exact ⟨ms, hms, hportable, hfills.map hRS⟩

lemma both (hf : f.Returns fields R) (hg : g.Returns fields' S) (hapart : f.Apart g) :
    (Fields.both f g).Returns (fields ++ fields') fun ab => R ab.1 ∧ S ab.2 := by
  obtain ⟨ms, hms, hportable, hfills⟩ := hf
  obtain ⟨ns, hns, hportable', hfills'⟩ := hg
  refine ⟨ms ++ ns, Datum.toJsonFields_append hms hns, ?_, hfills.both hfills' hapart⟩
  rw [Value.portableMembers_iff] at hportable hportable' ⊢
  exact List.forall_mem_append.2 ⟨hportable, hportable'⟩

/-- A list that is written only when it is not empty. -/
lemma unlessEmpty {item : Decoder Draft α} {r : α → β → Prop} {bs : List β} {e : β → Datum}
    (name : String) (h : ∀ b ∈ bs, item.Returns (e b) (r · b)) :
    (optional name (Decoder.listOf item) []).Returns (Metadata.unlessEmpty name (bs.map e))
      (List.Forall₂ r · bs) := by
  cases bs with
  | nil => exact absent name _ .nil
  | cons b bs => exact present name [] (.listOf (by decide) h)

/-- Texts that are written only when there are any. -/
lemma unlessNoTexts (name : String) (ss : List String) :
    (optional name (Decoder.listOf Decoder.asText) []).Returns
      (Metadata.unlessEmpty name (ss.map .ofString)) (· = ss) := by
  obtain ⟨ms, hms, hportable, hfills⟩ :=
    unlessEmpty (r := Eq) name fun s (_ : s ∈ ss) => Decoder.returns_text s
  rw [List.forall₂_eq_eq_eq] at hfills
  exact ⟨ms, hms, hportable, hfills⟩

/-- A text that is written only when there is one. -/
lemma unlessNone (name : String) (s : Option String) :
    (optional name Decoder.asText? none).Returns (Metadata.unlessNone name s) (· = s) := by
  cases s with
  | none => exact absent name _ rfl
  | some s => exact present name none (Decoder.returns_text? s)

lemma toJson (h : f.Returns fields R) (kind : String) :
    ∃ ms, (Datum.record kind fields).toJson = .ok (.object ms) ∧ (Value.object ms).Portable ∧
      f.Fills ms R := by
  obtain ⟨ms, hms, hportable, hfills⟩ := h
  exact ⟨ms, by rw [Datum.toJson, hms]; rfl, ⟨hfills.names, hportable⟩, hfills⟩

/-- **A record is read again if its fields are.** -/
lemma record (h : f.Returns fields R) (kind : String) (unknown : Unknown) :
    (Decoder.record kind unknown f).Returns (.record kind fields) R := by
  obtain ⟨ms, hms, hportable, hfills⟩ := h.toJson kind
  exact ⟨.object ms, hms, hportable, hfills.record kind unknown⟩

lemma record? (h : f.Returns fields R) (lax : Bool) (kind : String) (unknown : Unknown) :
    (Decoder.record? lax kind unknown f).Returns (.record kind fields)
      fun o => ∃ a, o = some a ∧ R a := by
  obtain ⟨ms, hms, hportable, hfills⟩ := h.toJson kind
  exact ⟨.object ms, hms, hportable, hfills.record? lax kind unknown⟩

end Returns

end Fields

/-! ## Values that are kept as they are -/

namespace Metadata

lemma reads_raw {v : Value} (hv : v.Portable) :
    rawDecoder.Reads v fun a => ∃ w, a = Datum.ofJson w ∧ w.Same v := by
  intro w hw p
  refine ⟨.ofJson w, ?_, w, rfl, hw⟩
  have hvalue : (Readable.raw p w.draft : Except ReadFault Value) = .ok w :=
    w.value_draft p (hv.same hw).legible.2.1
  rw [rawDecoder, Decoder.anything, hvalue]
  rfl

/-- **A value of which no type is asked** comes back up to the order of members. -/
lemma returns_raw {d : Datum} (hd : d.IsPortable) : rawDecoder.Returns d (Datum.SameJson · d) := by
  obtain ⟨v, hv, rfl⟩ := hd
  refine ⟨v.sorted, Datum.toJson_ofJson v, v.portable_sorted_iff.2 hv,
    (reads_raw (v.portable_sorted_iff.2 hv)).mono ?_⟩
  rintro a ⟨w, rfl, hw⟩
  exact ⟨w, v, rfl, rfl, hv, hw.trans v.same_sorted⟩

lemma membersFrom_draft {ms : List (String × Value)} (hms : Value.PortableMembers ms)
    (p : Place) : Decoder.membersFrom rawDecoder p (ms.map fun m => (.text m.1, m.2.draft)) =
      .ok (ms.map fun m => (m.1, Datum.ofJson m.2)) := by
  induction ms with
  | nil => rfl
  | cons m ms ih =>
      obtain ⟨name, v⟩ := m
      have hvalue : (Readable.raw (p ++ [.anyMember]) v.draft : Except ReadFault Value) = .ok v :=
        v.value_draft _ hms.1.legible.2.1
      rw [List.map_cons, Decoder.membersFrom, rawDecoder, Decoder.anything, hvalue]
      show (Decoder.membersFrom rawDecoder p (ms.map _) >>= _) = _
      rw [ih hms.2]
      rfl

/-- An object of which no names are known comes back as well. -/
lemma returns_members {members : List (String × Datum)}
    (h : (Datum.ofMembers members).IsPortable) :
    (Decoder.membersOf rawDecoder).Returns (.ofMembers members)
      fun ms => (Datum.ofMembers ms).SameJson (.ofMembers members) := by
  obtain ⟨v, hv, hmembers⟩ := h
  cases v with
  | object ms =>
      rw [hmembers]
      refine ⟨(Value.object ms).sorted, Datum.toJson_ofJson _,
        (Value.object ms).portable_sorted_iff.2 hv, ?_⟩
      intro w hw p
      have hsame := hw.trans (Value.object ms).same_sorted
      have hportable := hv.same hsame
      obtain ⟨ns, rfl, -⟩ := Value.same_object hsame
      refine ⟨ns.map fun m => (m.1, .ofJson m.2), ?_, .object ns, .object ms,
        Datum.ofMembers_eq_ofJson ns, rfl, hv, hsame⟩
      rw [Decoder.membersOf]
      simp only [Fields.Fills.look_object]
      rw [membersFrom_draft hportable.2]
      refine congrArg Except.ok (Json.collect_of_nodup ?_)
      rw [Json.keys_map]
      exact hportable.1
  | _ => exact absurd hmembers (by simp [Datum.ofMembers, Datum.ofJson, Datum.ofString])

end Metadata

end ScarbCrates
