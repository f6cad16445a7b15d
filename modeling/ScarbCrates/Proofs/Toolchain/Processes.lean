import ScarbCrates.Proofs.Text.Encoding
import ScarbCrates.Toolchain.Process

/-!
# Commands that an operating system runs

A program that runs a command sees less than there is: a command with a byte zero does not reach the
operating system, and outputs are read as texts or not at all.

* `Text.ofOutput_eq_ok_iff`, `Text.ofOutput_eq_error_iff` — outputs that are texts, and the others.
* `Command.holdsNul_iff` — commands that are not run.
* `Exit.ending_eq_notStarted_iff`, `Exit.ending_eq_exited_iff`, `Exit.ending_eq_broken_iff` — the
  end of a process.
-/

namespace ScarbCrates

namespace Text

/-! ## Outputs -/

/-- An output is a text if it is the bytes of one.  Its lines are then ended as everywhere else. -/
lemma ofOutput_eq_ok_iff {bytes : List UInt8} {s : String} : ofOutput bytes = .ok s ↔
    ∃ cs, bytes = encode (ofChars cs) ∧ s = String.ofList (unifyLines cs) := by
  rw [ofOutput]
  cases hfault : Utf8.firstFault bytes with
  | some fault =>
      refine iff_of_false (fun h => by cases h) ?_
      rintro ⟨cs, hcs, -⟩
      rw [firstFault_eq_none_iff.2 ⟨cs, hcs⟩] at hfault
      cases hfault
  | none =>
      obtain ⟨cs, rfl⟩ := firstFault_eq_none_iff.1 hfault
      rw [decode_encode_ofChars, chars_ofChars]
      constructor
      · intro h
        exact ⟨cs, rfl, (Except.ok.inj h).symm⟩
      · rintro ⟨ds, hds, rfl⟩
        rw [encode_ofChars_injective hds]

/-- **An output that is no text** has a first fault. -/
lemma ofOutput_eq_error_iff {bytes : List UInt8} {fault : Utf8.Fault} :
    ofOutput bytes = .error fault ↔ Utf8.firstFault bytes = some fault := by
  rw [ofOutput]
  cases Utf8.firstFault bytes <;> simp

lemma firstFault_of_ofOutput {bytes : List UInt8} {s : String} (h : ofOutput bytes = .ok s) :
    Utf8.firstFault bytes = none := by
  obtain ⟨cs, hcs, -⟩ := ofOutput_eq_ok_iff.1 h
  exact firstFault_eq_none_iff.2 ⟨cs, hcs⟩

/-! ## Bytes zero -/

lemma nul_mem_encode_ofString {s : String} : 0 ∈ encode (ofString s) ↔ '\x00' ∈ s.toList := by
  simp only [encode, ofString, ofChars, List.mem_flatMap, List.mem_map, exists_exists_and_eq_and,
    Letter.bytes]
  constructor
  · rintro ⟨c, hc, hmem⟩
    have hnul : c = '\x00' := Char.toNat_inj.1 (Utf8.toNat_of_mem_utf8EncodeChar (by decide) hmem)
    exact hnul ▸ hc
  · exact fun h => ⟨_, h, by decide⟩

end Text

/-! ## Commands -/

/-- A command is not run if one of its words, or its directory, holds a byte zero. -/
lemma Command.holdsNul_iff {c : Command} : c.holdsNul = true ↔
    (∃ w ∈ c.words, 0 ∈ Text.encode w) ∨
      ∃ p, c.directory = some p ∧ Disk.holdsNul p = true := by
  simp [holdsNul, Option.any_eq_true]

/-! ## The end of a process -/

namespace Exit

variable {x : Exit} {code : Int} {out err : String} {fault : StartFault} {broken : ProcessFault}

lemma ending_eq_notStarted_iff : x.ending = .notStarted fault ↔ x = .notStarted fault := by
  cases x with
  | notStarted fault' => simp [ending]
  | exited code bytes bytes' =>
      rw [ending]
      cases Text.ofOutput bytes <;> cases Text.ofOutput bytes' <;> simp

/-- **A process exits with two texts** if both of its outputs are texts. -/
lemma ending_eq_exited_iff : x.ending = .exited code out err ↔ ∃ bytes bytes',
    x = .exited code bytes bytes' ∧ Text.ofOutput bytes = .ok out ∧
      Text.ofOutput bytes' = .ok err := by
  cases x with
  | notStarted fault => simp [ending]
  | exited code' bytes bytes' =>
      rw [ending]
      cases hout : Text.ofOutput bytes <;> cases herr : Text.ofOutput bytes' <;> simp [hout, herr]

/-- **The run breaks off** at the first output that is no text. -/
lemma ending_eq_broken_iff : x.ending = .broken broken ↔ ∃ code bytes bytes' fault,
    x = .exited code bytes bytes' ∧ broken = .undecodable fault ∧
      (Utf8.firstFault bytes = some fault ∨
        Utf8.firstFault bytes = none ∧ Utf8.firstFault bytes' = some fault) := by
  cases x with
  | notStarted fault => simp [ending]
  | exited code bytes bytes' =>
      rw [ending]
      cases hout : Text.ofOutput bytes with
      | error fault =>
          have hfault := Text.ofOutput_eq_error_iff.1 hout
          simp [hfault, eq_comm]
      | ok out =>
          have hnone := Text.firstFault_of_ofOutput hout
          cases herr : Text.ofOutput bytes' with
          | error fault =>
              have hfault := Text.ofOutput_eq_error_iff.1 herr
              simp [hnone, hfault, eq_comm]
          | ok err =>
              simp [hnone, Text.firstFault_of_ofOutput herr]

end Exit

end ScarbCrates
