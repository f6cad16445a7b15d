import ScarbCrates.CommandLine.Run
import ScarbCrates.Proofs.Schema.RoundTrip

/-!
# Printed crates

A command makes crates plain before it writes them, so their members are sorted; written directly
they stand in the order of their fields.  For a reader that makes no difference.

* `Crate.typed` — what crates are written from.
* `CommandLine.printing_crates` — what the command prints, and what is read from it.
-/

namespace ScarbCrates

open Json (Value)

/-! ## Crates as typed data -/

lemma Cfg.typed (c : Cfg) : c.toDatum.IsTyped := by
  obtain ⟨key, value⟩ := c
  cases value with
  | none => exact ⟨trivial, trivial⟩
  | some value => exact ⟨trivial, trivial, trivial⟩

lemma CfgSet.typed (s : CfgSet) : s.toDatum.IsTyped := by
  show Datum.TypedFields (if s.items.isEmpty then [] else _)
  split_ifs
  · trivial
  · refine ⟨⟨by decide, Datum.typedItems_iff.2 fun d hd => ?_⟩, trivial⟩
    obtain ⟨c, -, rfl⟩ := List.mem_map.1 hd
    exact c.typed

lemma Features.typed (f : Features) : f.toDatum.IsTyped := by
  have hflag : ∀ name b, Datum.TypedFields (flag name b) := by
    rintro name (_ | _)
    · trivial
    · exact ⟨trivial, trivial⟩
  exact Datum.typedFields_append.2 ⟨hflag _ _, hflag _ _⟩

lemma CrateSettings.typed (s : CrateSettings) : s.toDatum.IsTyped := by
  obtain ⟨edition, cfgSet, features⟩ := s
  refine Datum.typedFields_append.2 ⟨Datum.typedFields_append.2 ⟨?_, ?_⟩, features.typed, trivial⟩
  · show Datum.TypedFields (if edition = .default then [] else _)
    split_ifs
    · trivial
    · exact ⟨trivial, trivial⟩
  · cases cfgSet with
    | none => trivial
    | some c => exact ⟨c.typed, trivial⟩

/-- Crates are made of records, lists and scalars. -/
lemma Crate.typed (c : Crate) : c.toDatum.IsTyped := by
  obtain ⟨name, root, stem, settings⟩ := c
  cases stem with
  | none => exact ⟨trivial, trivial, settings.typed, trivial⟩
  | some stem => exact ⟨trivial, trivial, trivial, settings.typed, trivial⟩

namespace CommandLine

/-! ## Printing typed data -/

/-- What is printed is the plain form, and a line feed. -/
lemma rendered_of_plain {d plain : Datum} {v : Value} (hplain : d.builtins true = .ok plain)
    (hjson : plain.toJson = .ok v) (pretty : Bool) :
    rendered d pretty = .ok (v.render pretty ++ "\n") := by
  rw [rendered, hplain]
  show (plain.dump pretty >>= fun text => pure (text ++ "\n")) = _
  rw [Datum.dump, hjson]
  rfl

/-- Typed data is printed with its members sorted. -/
lemma rendered_typed {d : Datum} {v : Value} (hd : d.IsTyped) (hv : d.toJson = .ok v)
    (pretty : Bool) : rendered d pretty = .ok (v.sorted.render pretty ++ "\n") := by
  obtain ⟨plain, hplain, hjson⟩ := Datum.exists_builtins true hd hv
  exact rendered_of_plain hplain hjson pretty

/-- **Printed crates are one JSON document and a line feed.**  It is read as the crates that were
printed, and as the value that they have when they are written directly, up to the order of
members. -/
theorem printing_crates (cs : List Crate) (hroots : ∀ c ∈ cs, c.root.Encodable)
    (compact : Bool) :
    ∃ (text direct : String) (v w : Value),
      (∀ notices world, printing (.ofList (cs.map Crate.toDatum)) (!compact) notices world =
        ⟨.ok .success, text ++ "\n", notices, world⟩) ∧
      (∃ n ≤ Json.longestWhole, Json.IsText w n text.toList) ∧
      (Decoder.listOf (Crate.decoder false)).load (Text.encode (Text.ofString (text ++ "\n"))) =
        .ok cs ∧
      Decoder.anything.load (Text.encode (Text.ofString (text ++ "\n"))) = .ok w ∧
      (Datum.sequence .tuple (cs.map Crate.toDatum)).dump (!compact) = .ok direct ∧
      Decoder.anything.load (Text.encode (Text.ofString direct)) = .ok v ∧
      w.Same v := by
  obtain ⟨v, hv, hportable, hread⟩ :=
    Crate.returns_list false (by decide : Gathering.list ≠ .set) hroots
  have htyped : (Datum.ofList (cs.map Crate.toDatum)).IsTyped := by
    refine ⟨by decide, Datum.typedItems_iff.2 fun d hd => ?_⟩
    obtain ⟨c, -, rfl⟩ := List.mem_map.1 hd
    exact c.typed
  have hsorted := v.portable_sorted_iff.2 hportable
  have hline : Json.IsBlank ['\n'] := List.forall_mem_singleton.2 rfl
  have hbytes : ∀ s : String, Text.ofString (s ++ "\n") = Text.ofChars (s.toList ++ ['\n']) :=
    fun s => by rw [Text.ofString, String.toList_append]; rfl
  refine ⟨v.sorted.render !compact, v.render !compact, v, v.sorted, ?_,
    Value.isText_render hsorted _, ?_, ?_, ?_, ?_, v.same_sorted⟩
  · intro notices world
    rw [printing, rendered_typed htyped hv]
  · obtain ⟨_, hload, rfl⟩ := hread.load hportable v.same_sorted (!compact) hline
    rw [hbytes]
    exact hload
  · rw [hbytes]
    exact Decoder.load_anything hsorted _ hline
  · obtain ⟨vs, hvs, rfl⟩ := (Datum.toJson_sequence_iff (by decide)).1 hv
    rw [Datum.dump, Datum.toJson_sequence (by decide) hvs]
    rfl
  · have hload := Decoder.load_anything hportable (!compact) Json.isBlank_nil
    rwa [List.append_nil] at hload

/-- A crate whose settings are written in two orders. -/
theorem printing_crates_bare :
    ∃ (text direct : String) (v w : Value),
      (∀ notices world, printing (.ofList ([Crate.bare].map Crate.toDatum)) true notices world =
        ⟨.ok .success, text ++ "\n", notices, world⟩) ∧
      (∃ n ≤ Json.longestWhole, Json.IsText w n text.toList) ∧
      (Decoder.listOf (Crate.decoder false)).load (Text.encode (Text.ofString (text ++ "\n"))) =
        .ok [Crate.bare] ∧
      Decoder.anything.load (Text.encode (Text.ofString (text ++ "\n"))) = .ok w ∧
      (Datum.sequence .tuple ([Crate.bare].map Crate.toDatum)).dump true = .ok direct ∧
      Decoder.anything.load (Text.encode (Text.ofString direct)) = .ok v ∧
      w.Same v :=
  printing_crates [.bare] (List.forall_mem_singleton.2 ⟨"/", by decide⟩) false

end CommandLine

end ScarbCrates
