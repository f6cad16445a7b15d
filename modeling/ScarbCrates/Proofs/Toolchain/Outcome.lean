import Mathlib.Data.List.Induction
import ScarbCrates.Proofs.Schema.Reading
import ScarbCrates.Proofs.Toolchain.Processes
import ScarbCrates.Proofs.Toolchain.Scanning
import ScarbCrates.Toolchain.Run

/-!
# What comes of a run

A run of Scarb ends in one of five ways: there is no Scarb, the command fails, the run breaks off,
the output holds no usable document, or there is metadata.  Which of them it is follows from the
executable, the directory, the process and its output, in this order.

* `Scan.objects` — the objects in an output, in their order; `Scan.membersOf?_eq_some_iff` tells
  which lines hold one.
* `Metadata.ofDocument_eq_ok_iff` — the documents that are accepted.
* `Toolchain.Missing`, `Toolchain.Exits`, `Toolchain.Fails`, `Toolchain.BreaksOff`,
  `Toolchain.Yields` — how far a run comes.
* `Toolchain.breaksOff_iff` — why a run breaks off where an operating system runs the processes.
* `Toolchain.metadata_outcome` — the outcome of a run.
-/

namespace ScarbCrates

open Json (IsText Value longestWhole)

/-! ## Objects in an output -/

namespace Scan

variable {line : List Char} {ms : List (String × Value)}

/-- A line holds an object: without the white space at its ends it is a text of the object, with
no integer that is too long. -/
def Holds (line : List Char) (ms : List (String × Value)) : Prop :=
  ∃ n ≤ longestWhole, IsText (.object ms) n (Text.trimmed line)

/-- The objects in an output, in their order. -/
def objects (out : String) : List (List (String × Value)) :=
  (Text.lines out.toList).filterMap membersOf?

/-- Whether an object counts as the metadata document. -/
def isMetadata (ms : List (String × Value)) : Bool := !isError ms && isDocument ms

lemma membersOf?_eq_some_iff : membersOf? line = some ms ↔ Holds line ms := by
  refine ⟨isText_of_membersOf?, ?_⟩
  rintro ⟨n, hn, htext⟩
  have hhead : (Text.trimmed line).head? = some '\x7b' := htext.head? fun c hc => by
    rw [← Bool.not_eq_true]
    intro hspace
    have hblank := Text.isBlank_of_isSpace hspace
    rw [Text.isBlank_of_head?_trimmed hc] at hblank
    cases hblank
  obtain ⟨hholds, htrailing⟩ := htext.ofText
  unfold membersOf?
  simp only [hhead, ne_eq, not_true_eq_false, if_false, htrailing, (hholds [] _).2 ⟨hn, rfl⟩]

lemma foldl_after (lines : List (List Char)) : lines.foldl after empty =
    ⟨((lines.filterMap membersOf?).filter isMetadata).getLast?.map .object,
      ((lines.filterMap membersOf?).filter isError).map errorText⟩ := by
  induction lines using List.reverseRecOn with
  | nil => rfl
  | append_singleton lines line ih =>
      rw [List.foldl_append, ih, List.foldl_cons, List.foldl_nil, after, Line.of,
        List.filterMap_append, List.filter_append, List.filter_append]
      cases hline : membersOf? line with
      | none => simp [hline, add]
      | some ms =>
          by_cases herror : isError ms = true
          · simp [hline, herror, isMetadata, add]
          · by_cases hdocument : isDocument ms = true
            · simp [hline, herror, hdocument, isMetadata, add]
            · simp [hline, herror, hdocument, isMetadata, add]

/-- **The messages of an output** are those of its errors, in their order. -/
lemma messages_ofText (out : String) :
    (ofText out).messages = ((objects out).filter isError).map errorText := by
  have h := foldl_after (Text.lines out.toList)
  rw [← ofText_ofList, String.ofList_toList] at h
  rw [h]
  rfl

/-- **The document of an output** is the last of its metadata documents. -/
lemma document_eq (out : String) :
    (ofText out).document = ((objects out).filter isMetadata).getLast?.map .object := by
  have h := foldl_after (Text.lines out.toList)
  rw [← ofText_ofList, String.ofList_toList] at h
  rw [h]
  rfl

lemma nodup_of_membersOf? (h : membersOf? line = some ms) : (Assoc.keys ms).Nodup := by
  unfold membersOf? at h
  simp only at h
  split_ifs at h
  split at h
  · rename_i hvalue _
    obtain rfl := Option.some.inj h
    exact Json.nodup_of_value hvalue
  · cases h

lemma nodup_of_mem_objects {out : String} (h : ms ∈ objects out) : (Assoc.keys ms).Nodup := by
  obtain ⟨line, -, hline⟩ := List.mem_filterMap.1 h
  exact nodup_of_membersOf? hline

end Scan

/-! ## Documents that are accepted -/

/-- An object that is read from a value has no members but its own. -/
lemma Decoder.checkMembers_subset {ι ρ α : Type} [Readable ι ρ] {unknown : Unknown}
    {f : Fields ι α} {p : Place} {ms known : List (String × ι)}
    (h : checkMembers unknown f p (ms.map fun m => (.text m.1, m.2)) = .ok known) :
    known ⊆ ms := by
  induction ms generalizing known with
  | nil =>
      obtain rfl := Except.ok.inj h
      exact List.nil_subset _
  | cons m ms ih =>
      obtain ⟨n, v⟩ := m
      simp only [List.map_cons, checkMembers] at h
      split at h
      · obtain ⟨_, -, h⟩ := exists_of_bind_eq_ok h
        obtain ⟨known', hknown, h⟩ := exists_of_bind_eq_ok h
        obtain rfl := Except.ok.inj h
        exact List.cons_subset_cons _ (ih hknown)
      · cases h
      · obtain ⟨_, -, h⟩ := exists_of_bind_eq_ok h
        exact List.Subset.trans (ih h) (List.subset_cons_self _ _)

lemma Fields.exists_of_required {ι ρ α : Type} [Readable ι ρ] {name : String} {d : Decoder ι α}
    {p : Place} {ms : List (String × ι)} {a : α} (h : (required name d).build p ms = .ok a) :
    ∃ v, (name, v) ∈ ms ∧ d (p ++ [.member name]) v = .ok a := by
  simp only [required] at h
  split at h
  · rename_i v hlast
    exact ⟨v, mem_of_last? hlast, h⟩
  · cases h

lemma Fields.build_of_both {ι ρ α β : Type} [Readable ι ρ] {f : Fields ι α} {g : Fields ι β}
    {p : Place} {ms : List (String × ι)} {ab : α × β} (h : (both f g).build p ms = .ok ab) :
    f.build p ms = .ok ab.1 ∧ g.build p ms = .ok ab.2 := by
  obtain ⟨a, ha, h⟩ := exists_of_bind_eq_ok h
  obtain ⟨b, hb, h⟩ := exists_of_bind_eq_ok h
  obtain rfl := Except.ok.inj h
  exact ⟨ha, hb⟩

/-- A strict reader takes nothing but an integer for one. -/
lemma Decoder.eq_int_of_asInt {p : Place} {v : Value} {i : Int}
    (h : asInt false p v = .ok i) : v = .int i := by
  cases v with
  | int j => exact congrArg Value.int (Except.ok.inj h)
  | _ => cases h

namespace Metadata

/-- The version of metadata is that of its document. -/
lemma version_of_decoder {ms : List (String × Value)} {m : Metadata}
    (hnodup : (Assoc.keys ms).Nodup) (h : decoder false [] (Value.object ms) = .ok m) :
    Assoc.get? ms "version" = some (.int m.version) := by
  obtain ⟨known, hknown, h⟩ := exists_of_bind_eq_ok h
  obtain ⟨_, hfinish, hbuild⟩ := exists_of_bind_eq_ok h
  obtain rfl := Except.ok.inj hfinish
  obtain ⟨⟨version, rest⟩, hfields, rfl⟩ := exists_of_map_eq_ok hbuild
  obtain ⟨v, hmem, hv⟩ := Fields.exists_of_required (Fields.build_of_both hfields).1
  obtain rfl := Decoder.eq_int_of_asInt hv
  exact Assoc.get?_of_mem hnodup (Decoder.checkMembers_subset hknown hmem)

lemma eq_int_iff (i j : Int) : Datum.eq (.int i) (.int j) = true ↔ i = j := by
  simp [Datum.eq, Datum.number?, Datum.sameNumber]

lemma versionOf_eq {ms : List (String × Value)} {i : Int}
    (h : Assoc.get? ms "version" = some (.int i)) : versionOf (.object ms) = .int i := by
  rw [versionOf, Value.member?, h]
  rfl

/-- **A document is accepted** if its version is that of the format, as an integer, and it is of
the expected form. -/
lemma ofDocument_eq_ok_iff {ms : List (String × Value)} {m : Metadata}
    (hnodup : (Assoc.keys ms).Nodup) : ofDocument (.object ms) = .ok m ↔
      Assoc.get? ms "version" = some (.int 1) ∧ decoder false [] (Value.object ms) = .ok m := by
  constructor
  · intro h
    rw [ofDocument, ofVersioned] at h
    split_ifs at h with hversion
    split at h
    · rename_i m' hm'
      obtain rfl := Except.ok.inj h
      have hget := version_of_decoder hnodup hm'
      refine ⟨?_, hm'⟩
      rw [versionOf_eq hget, Bool.not_eq_true, Bool.not_eq_false', eq_int_iff] at hversion
      rw [hget, hversion]
      rfl
    · cases h
  · rintro ⟨hget, hm⟩
    rw [ofDocument, ofVersioned, versionOf_eq hget, (eq_int_iff 1 formatVersion).2 rfl, hm]
    rfl

/-- A document is a dictionary. -/
lemma ofDocument_ne_notDictionary (doc : Value) (className : String) :
    ofDocument doc ≠ .error (.notDictionary className) := by
  rw [ofDocument, ofVersioned]
  split_ifs
  · rintro ⟨⟩
  · split <;> rintro ⟨⟩

end Metadata

/-! ## How far a run comes -/

namespace Toolchain

variable {t : Toolchain} {manifest : Path} {w : World Machine} {c : Command}

/-- **There is no Scarb:** none is configured, the environment names none, and there is none on the
search path. -/
structure Missing (t : Toolchain) : Prop where
  configured : ∀ s, t.scarbPath = some s → s = ""
  named : ∀ s, t.environment.get? scarbVariable = some s → ∀ c ∈ s.toList, Text.isBlank c = true
  located : t.located = none

/-- A command is started for a manifest: Scarb's, in the directory of the manifest if there is
one. -/
structure Starts (t : Toolchain) (manifest : Path) (w : World Machine) (c : Command) : Prop where
  executable : ∃ e, t.executable = .ok e ∧ c.words = words e manifest
  directory : startDirectory w.disk manifest = .ok c.directory

/-- A command is started and exits with a code and two texts. -/
def Exits (t : Toolchain) (manifest : Path) (w : World Machine) (code : Int)
    (out err : String) : Prop :=
  ∃ c, t.Starts manifest w c ∧ (w.outside.behaviour c w.disk.files).2 = .exited code out err

/-- **The command fails,** with a code, a text and some messages: the directory of the manifest
cannot be looked at, or the process does not start, or its code is not zero. -/
inductive Fails (t : Toolchain) (manifest : Path) (w : World Machine) :
    Int → String → List String → Prop
  | probe {e : String} {errno : Errno} {p : Path} (he : t.executable = .ok e)
      (h : w.disk.isDirectory manifest.parent = .error (.os errno p)) :
      Fails t manifest w (-1) (AccessFault.os errno p).message []
  | start {c : Command} {fault : StartFault} (hc : t.Starts manifest w c)
      (h : (w.outside.behaviour c w.disk.files).2 = .notStarted fault) :
      Fails t manifest w (-1) fault.message []
  | exit {code : Int} {out err : String} (h : t.Exits manifest w code out err)
      (hcode : code ≠ 0) :
      Fails t manifest w code err (((Scan.objects out).filter Scan.isError).map Scan.errorText)

/-- **The run breaks off:** a command is started, and what comes of it is no end of a process. -/
def BreaksOff (t : Toolchain) (manifest : Path) (w : World Machine) (fault : ProcessFault) : Prop :=
  ∃ c, t.Starts manifest w c ∧ (w.outside.behaviour c w.disk.files).2 = .broken fault

/-- **The output holds metadata:** the command exits with zero, and the last metadata document of
its output has the version of the format and the expected form. -/
def Yields (t : Toolchain) (manifest : Path) (w : World Machine) (m : Metadata) : Prop :=
  ∃ out err ms, t.Exits manifest w 0 out err ∧
    ((Scan.objects out).filter Scan.isMetadata).getLast? = some ms ∧
    Assoc.get? ms "version" = some (.int 1) ∧ Metadata.decoder false [] (Value.object ms) = .ok m

lemma nonEmpty?_eq_none_iff {s : Option String} :
    nonEmpty? s = none ↔ ∀ x, s = some x → x = "" := by
  simp [nonEmpty?, Option.filter_eq_none_iff]

lemma value?_eq_none_iff {env : Environment} {name : String} : env.value? name = none ↔
    ∀ s, env.get? name = some s → ∀ c ∈ s.toList, Text.isBlank c = true := by
  rw [Environment.value?]
  cases env.get? name with
  | none => simp
  | some raw => simp [Text.trim, Text.trimmed_eq_nil_iff]

lemma executable_eq_error_iff {fault : ToolchainFault} :
    t.executable = .error fault ↔ t.Missing ∧ fault = .notFound := by
  have hmissing : t.Missing ↔ nonEmpty? t.scarbPath = none ∧
      t.environment.value? scarbVariable = none ∧ t.located = none := by
    rw [nonEmpty?_eq_none_iff, value?_eq_none_iff]
    exact ⟨fun h => ⟨h.configured, h.named, h.located⟩, fun h => ⟨h.1, h.2.1, h.2.2⟩⟩
  rw [executable, hmissing]
  cases nonEmpty? t.scarbPath <;> cases t.environment.value? scarbVariable <;>
    cases t.located <;> simp [eq_comm]

/-- A directory that cannot be looked at is an error of the operating system. -/
lemma exists_os_of_isDirectory {d : Disk} {p : Path} {fault : AccessFault}
    (h : d.isDirectory p = .error fault) : ∃ errno q, fault = .os errno q := by
  rw [Disk.isDirectory, Disk.ask] at h
  cases fault with
  | os errno q => exact ⟨errno, q, rfl⟩
  | nul => split at h <;> simp_all

lemma metadata_of_missing (h : t.Missing) :
    (t.metadata manifest w).value = (.error .notFound, w) := by
  rw [metadata, executable_eq_error_iff.2 ⟨h, rfl⟩]
  rfl

lemma metadata_of_probe {e : String} {errno : Errno} {p : Path} (he : t.executable = .ok e)
    (h : w.disk.isDirectory manifest.parent = .error (.os errno p)) :
    (t.metadata manifest w).value =
      (.error (.command (-1) (AccessFault.os errno p).message []), w) := by
  have hdirectory : startDirectory w.disk manifest = .error (.os errno p) := by
    rw [startDirectory, h]
    rfl
  rw [metadata, he]
  simp only [hdirectory]
  rfl

lemma metadata_of_starts (h : t.Starts manifest w c) :
    (t.metadata manifest w).value.1 = judge (w.outside.behaviour c w.disk.files).2 := by
  obtain ⟨⟨e, he, hwords⟩, hdirectory⟩ := h
  rw [metadata, he]
  simp only [hdirectory]
  rw [← hwords]
  rfl

lemma metadata_of_exits {code : Int} {out err : String}
    (h : t.Exits manifest w code out err) :
    (t.metadata manifest w).value.1 = judge (.exited code out err) := by
  obtain ⟨c, hc, hending⟩ := h
  rw [metadata_of_starts hc, hending]

/-- **How far a run comes:** there is no Scarb, or the command fails, or the run breaks off, or the
command exits with zero. -/
lemma course (t : Toolchain) (manifest : Path) (w : World Machine) :
    t.Missing ∨ (∃ code err messages, t.Fails manifest w code err messages) ∨
      (∃ fault, t.BreaksOff manifest w fault) ∨ ∃ out err, t.Exits manifest w 0 out err := by
  cases he : t.executable with
  | error fault => exact .inl (executable_eq_error_iff.1 he).1
  | ok e =>
      right
      cases hprobe : w.disk.isDirectory manifest.parent with
      | error fault =>
          obtain ⟨errno, p, rfl⟩ := exists_os_of_isDirectory hprobe
          exact .inl ⟨_, _, _, .probe he hprobe⟩
      | ok b =>
          have hstarts : t.Starts manifest w
              ⟨words e manifest, if b then some manifest.parent else none⟩ := by
            refine ⟨⟨e, he, rfl⟩, ?_⟩
            rw [startDirectory, hprobe]
            rfl
          cases hending : (w.outside.behaviour _ w.disk.files).2 with
          | notStarted fault => exact .inl ⟨_, _, _, .start hstarts hending⟩
          | broken fault => exact .inr (.inl ⟨fault, _, hstarts, hending⟩)
          | exited code out err =>
              by_cases hcode : code = 0
              · exact .inr (.inr ⟨out, err, _, hstarts, hcode ▸ hending⟩)
              · exact .inl ⟨_, _, _, .exit ⟨_, hstarts, hending⟩ hcode⟩

/-! ## Where an operating system runs the processes -/

/-- A command is handed to the operating system: it is started, and the executable holds no byte
zero. -/
structure Spawns (t : Toolchain) (manifest : Path) (w : World Machine) (c : Command) : Prop where
  starts : t.Starts manifest w c
  nulFree : ∀ e, t.executable = .ok e → '\x00' ∉ e.toList

/-- **Why a run breaks off:** the executable holds a byte zero, so that nothing is handed over; or
Scarb exits, and one of its outputs is no text. -/
inductive Disrupted (t : Toolchain) (manifest : Path) (w : World Machine) (system : System) :
    ProcessFault → Prop
  | nul {c : Command} {e : String} (hc : t.Starts manifest w c) (he : t.executable = .ok e)
      (h : '\x00' ∈ e.toList) : Disrupted t manifest w system .nul
  | undecodable {c : Command} {code : Int} {out err : List UInt8} {fault : Utf8.Fault}
      (hc : t.Spawns manifest w c) (h : (system c w.disk.files).2 = .exited code out err)
      (hfault : Utf8.firstFault out = some fault ∨
        Utf8.firstFault out = none ∧ Utf8.firstFault err = some fault) :
      Disrupted t manifest w system (.undecodable fault)

/-- A directory to start in holds no byte zero. -/
lemma holdsNul_of_startDirectory {d : Disk} {p : Path}
    (h : startDirectory d manifest = .ok (some p)) : Disk.holdsNul p = false := by
  rw [startDirectory] at h
  cases hprobe : d.isDirectory manifest.parent with
  | error fault => rw [hprobe] at h; cases h
  | ok b =>
      rw [hprobe] at h
      cases b with
      | false => cases h
      | true =>
          obtain rfl : manifest.parent = p := Option.some.inj (Except.ok.inj h)
          by_contra hnul
          rw [Bool.not_eq_false] at hnul
          simp [Disk.isDirectory, Disk.ask, Disk.stat, Disk.locate, hnul] at hprobe

/-- Whether a command holds a byte zero is decided by the executable. -/
lemma Starts.holdsNul_iff (h : t.Starts manifest w c) (hm : Disk.holdsNul manifest = false)
    {e : String} (he : t.executable = .ok e) : c.holdsNul = true ↔ '\x00' ∈ e.toList := by
  obtain ⟨⟨e', he', hwords⟩, hdirectory⟩ := h
  obtain rfl : e = e' := Except.ok.inj (he.symm.trans he')
  have hmanifest : 0 ∉ Text.encode manifest.text := by
    rw [Path.text, Text.encode_decode]
    intro hmem
    exact List.any_eq_false.1 hm 0 hmem rfl
  have hoptions : ∀ s ∈ ["--json", "--manifest-path", "metadata", "--format-version",
      toString Metadata.formatVersion], 0 ∉ Text.encode (Text.ofString s) := by decide
  rw [Command.holdsNul_iff, hwords]
  constructor
  · rintro (⟨word, hword, hnul⟩ | ⟨p, hp, hnul⟩)
    · simp only [words, List.mem_cons, List.not_mem_nil, or_false] at hword
      rcases hword with rfl | rfl | rfl | rfl | rfl | rfl | rfl
      · exact Text.nul_mem_encode_ofString.1 hnul
      · exact absurd hnul (hoptions _ (by decide))
      · exact absurd hnul (hoptions _ (by decide))
      · exact absurd hnul hmanifest
      · exact absurd hnul (hoptions _ (by decide))
      · exact absurd hnul (hoptions _ (by decide))
      · exact absurd hnul (hoptions _ (by decide))
    · rw [hp] at hdirectory
      rw [holdsNul_of_startDirectory hdirectory] at hnul
      cases hnul
  · intro hnul
    exact .inl ⟨_, List.mem_cons_self, Text.nul_mem_encode_ofString.2 hnul⟩

section System

variable {system : System} (hw : w.outside.behaviour = .ofSystem system)
  (hm : Disk.holdsNul manifest = false)

include hw hm

/-- What comes of a command that is handed over. -/
lemma Spawns.ending (h : t.Spawns manifest w c) :
    (w.outside.behaviour c w.disk.files).2 = (system c w.disk.files).2.ending := by
  obtain ⟨e, he, -⟩ := h.starts.executable
  have hfree : ¬c.holdsNul = true := fun hnul =>
    h.nulFree e he ((h.starts.holdsNul_iff hm he).1 hnul)
  rw [hw, Behaviour.ofSystem, if_neg hfree]

/-- A command that is started is handed over, or breaks off the run at once. -/
lemma Starts.spawns_or (h : t.Starts manifest w c) : t.Spawns manifest w c ∨
    (∃ e, t.executable = .ok e ∧ '\x00' ∈ e.toList) ∧
      (w.outside.behaviour c w.disk.files).2 = .broken .nul := by
  obtain ⟨e, he, -⟩ := h.executable
  by_cases hnul : '\x00' ∈ e.toList
  · refine .inr ⟨⟨e, he, hnul⟩, ?_⟩
    rw [hw, Behaviour.ofSystem, if_pos ((h.holdsNul_iff hm he).2 hnul)]
  · refine .inl ⟨h, fun e' he' => ?_⟩
    rwa [← Except.ok.inj (he.symm.trans he')]

/-- **Why a run breaks off** where an operating system runs the processes. -/
lemma breaksOff_iff {fault : ProcessFault} :
    t.BreaksOff manifest w fault ↔ t.Disrupted manifest w system fault := by
  constructor
  · rintro ⟨c, hc, hbroken⟩
    obtain hspawns | ⟨⟨e, he, hnul⟩, hending⟩ := hc.spawns_or hw hm
    · rw [hspawns.ending hw hm, Exit.ending_eq_broken_iff] at hbroken
      obtain ⟨code, out, err, fault, hexit, rfl, hfault⟩ := hbroken
      exact .undecodable hspawns hexit hfault
    · obtain rfl := Ending.broken.inj (hending.symm.trans hbroken)
      exact .nul hc he hnul
  · intro h
    cases h with
    | @nul c e hc he hnul =>
        refine ⟨c, hc, ?_⟩
        rw [hw, Behaviour.ofSystem, if_pos ((hc.holdsNul_iff hm he).2 hnul)]
    | @undecodable c code out err fault hc hexit hfault =>
        refine ⟨c, hc.starts, ?_⟩
        rw [hc.ending hw hm, Exit.ending_eq_broken_iff]
        exact ⟨code, out, err, fault, hexit, rfl, hfault⟩

/-- **A process is not started** where an operating system runs the processes. -/
lemma notStarted_iff {fault : StartFault} :
    (∃ c, t.Starts manifest w c ∧ (w.outside.behaviour c w.disk.files).2 = .notStarted fault) ↔
      ∃ c, t.Spawns manifest w c ∧ (system c w.disk.files).2 = .notStarted fault := by
  constructor
  · rintro ⟨c, hc, hfault⟩
    obtain hspawns | ⟨-, hending⟩ := hc.spawns_or hw hm
    · rw [hspawns.ending hw hm, Exit.ending_eq_notStarted_iff] at hfault
      exact ⟨c, hspawns, hfault⟩
    · cases hending.symm.trans hfault
  · rintro ⟨c, hspawns, hfault⟩
    refine ⟨c, hspawns.starts, ?_⟩
    rw [hspawns.ending hw hm, hfault]
    rfl

/-- **A run exits with two texts** where an operating system runs the processes. -/
lemma exits_iff {code : Int} {out err : String} : t.Exits manifest w code out err ↔
    ∃ c bytes bytes', t.Spawns manifest w c ∧
      (system c w.disk.files).2 = .exited code bytes bytes' ∧
      Text.ofOutput bytes = .ok out ∧ Text.ofOutput bytes' = .ok err := by
  constructor
  · rintro ⟨c, hc, hexited⟩
    obtain hspawns | ⟨-, hending⟩ := hc.spawns_or hw hm
    · rw [hspawns.ending hw hm, Exit.ending_eq_exited_iff] at hexited
      obtain ⟨bytes, bytes', h⟩ := hexited
      exact ⟨c, bytes, bytes', hspawns, h⟩
    · cases hending.symm.trans hexited
  · rintro ⟨c, bytes, bytes', hspawns, h⟩
    refine ⟨c, hspawns.starts, ?_⟩
    rw [hspawns.ending hw hm, Exit.ending_eq_exited_iff]
    exact ⟨bytes, bytes', h⟩

end System

/-! ## The outcome of a run -/

lemma judge_notStarted (fault : StartFault) :
    judge (.notStarted fault) = .error (.command (-1) fault.message []) := rfl

lemma judge_broken (fault : ProcessFault) : judge (.broken fault) = .error (.process fault) := rfl

lemma judge_exited_of_ne {code : Int} (hcode : code ≠ 0) (out err : String) :
    judge (.exited code out err) = .error (.command code err
      (((Scan.objects out).filter Scan.isError).map Scan.errorText)) := by
  rw [judge, ← Scan.messages_ofText]
  exact if_pos hcode

lemma judge_exited_zero (out err : String) : judge (.exited 0 out err) =
    (Metadata.ofScan (Scan.ofText out)).mapError .metadata := rfl

/-- The metadata of an output is that of its last metadata document. -/
lemma ofScan_eq_ok_iff (out : String) (m : Metadata) :
    Metadata.ofScan (Scan.ofText out) = .ok m ↔
      ∃ ms, ((Scan.objects out).filter Scan.isMetadata).getLast? = some ms ∧
        Assoc.get? ms "version" = some (.int 1) ∧
        Metadata.decoder false [] (Value.object ms) = .ok m := by
  rw [Metadata.ofScan, Scan.document_eq]
  cases hlast : ((Scan.objects out).filter Scan.isMetadata).getLast? with
  | none =>
      refine iff_of_false (fun h => by cases h) ?_
      rintro ⟨ms, hms, -⟩
      cases hms
  | some ms =>
      have hmem := (List.mem_filter.1 (List.mem_of_getLast? hlast)).1
      refine (Metadata.ofDocument_eq_ok_iff (Scan.nodup_of_mem_objects hmem)).trans ?_
      exact ⟨fun h => ⟨ms, rfl, h⟩, fun ⟨_, hms, h⟩ => Option.some.inj hms ▸ h⟩

/-- What is wrong with an output is never that something else stands in place of a document. -/
lemma ofScan_ne_notDictionary (s : Scan) (className : String) :
    Metadata.ofScan s ≠ .error (.notDictionary className) := by
  rw [Metadata.ofScan]
  split
  · exact Metadata.ofDocument_ne_notDictionary _ _
  · rintro ⟨⟩

lemma metadata_of_fails {code : Int} {err : String} {messages : List String}
    (h : t.Fails manifest w code err messages) :
    (t.metadata manifest w).value.1 = .error (.command code err messages) := by
  cases h with
  | probe he h => rw [metadata_of_probe he h]
  | start hc h => rw [metadata_of_starts hc, h, judge_notStarted]
  | exit h hcode => rw [metadata_of_exits h, judge_exited_of_ne hcode]

lemma metadata_of_breaksOff {fault : ProcessFault} (h : t.BreaksOff manifest w fault) :
    (t.metadata manifest w).value.1 = .error (.process fault) := by
  obtain ⟨c, hc, hbroken⟩ := h
  rw [metadata_of_starts hc, hbroken, judge_broken]

lemma metadata_of_exits_zero {out err : String} (h : t.Exits manifest w 0 out err) :
    (∃ m, (t.metadata manifest w).value.1 = .ok m ∧ t.Yields manifest w m) ∨
      ∃ fault, (t.metadata manifest w).value.1 = .error (.metadata fault) ∧
        ∀ className, fault ≠ .notDictionary className := by
  rw [metadata_of_exits h, judge_exited_zero]
  cases hscan : Metadata.ofScan (Scan.ofText out) with
  | ok m =>
      obtain ⟨ms, hms⟩ := (ofScan_eq_ok_iff out m).1 hscan
      exact .inl ⟨m, rfl, out, err, ms, h, hms⟩
  | error fault =>
      refine .inr ⟨fault, rfl, fun className hfault => ?_⟩
      exact ofScan_ne_notDictionary _ className (hfault ▸ hscan)

lemma metadata_of_yields {m : Metadata} (h : t.Yields manifest w m) :
    (t.metadata manifest w).value.1 = .ok m := by
  obtain ⟨out, err, ms, hexits, hms⟩ := h
  rw [metadata_of_exits hexits, judge_exited_zero, (ofScan_eq_ok_iff out m).2 ⟨ms, hms⟩]
  rfl

/-- A run gives a document exactly if it yields one. -/
lemma metadata_eq_ok_iff {m : Metadata} :
    (t.metadata manifest w).value.1 = .ok m ↔ t.Yields manifest w m := by
  refine ⟨fun h => ?_, metadata_of_yields⟩
  rcases t.course manifest w with hmissing | ⟨code, err, messages, hfails⟩ | ⟨fault, hbroken⟩ |
    ⟨out, err, hexits⟩
  · rw [metadata_of_missing hmissing] at h
    cases h
  · rw [metadata_of_fails hfails] at h
    cases h
  · rw [metadata_of_breaksOff hbroken] at h
    cases h
  · rcases metadata_of_exits_zero hexits with ⟨m', hm', hyields⟩ | ⟨fault, hfault, -⟩
    · obtain rfl := Except.ok.inj (hm'.symm.trans h)
      exact hyields
    · cases hfault.symm.trans h

/-- A run gives a fault of the process exactly if it breaks off. -/
lemma metadata_eq_process_iff {fault : ProcessFault} :
    (t.metadata manifest w).value.1 = .error (.process fault) ↔ t.BreaksOff manifest w fault := by
  refine ⟨fun h => ?_, metadata_of_breaksOff⟩
  rcases t.course manifest w with hmissing | ⟨code, err, messages, hfails⟩ | ⟨fault', hbroken⟩ |
    ⟨out, err, hexits⟩
  · rw [metadata_of_missing hmissing] at h
    cases h
  · rw [metadata_of_fails hfails] at h
    cases h
  · rw [metadata_of_breaksOff hbroken] at h
    cases h
    exact hbroken
  · rcases metadata_of_exits_zero hexits with ⟨m, hm, -⟩ | ⟨fault', hfault, -⟩
    · cases hm.symm.trans h
    · cases hfault.symm.trans h

/-- Metadata has the version of the format. -/
lemma Yields.version {m : Metadata} (h : t.Yields manifest w m) : m.version = 1 := by
  obtain ⟨out, err, ms, -, hlast, hversion, hm⟩ := h
  have hmem := (List.mem_filter.1 (List.mem_of_getLast? hlast)).1
  have hget := Metadata.version_of_decoder (Scan.nodup_of_mem_objects hmem) hm
  exact Value.int.inj (Option.some.inj (hget.symm.trans hversion))

/-- **Each outcome has its own cause,** and one of the causes is there. -/
lemma metadata_cases (t : Toolchain) (manifest : Path) (w : World Machine) :
    (t.Missing ∧ (t.metadata manifest w).value.1 = .error .notFound) ∨
    (∃ code err messages, t.Fails manifest w code err messages ∧
      (t.metadata manifest w).value.1 = .error (.command code err messages)) ∨
    (∃ fault, t.BreaksOff manifest w fault ∧
      (t.metadata manifest w).value.1 = .error (.process fault)) ∨
    (∃ m, t.Yields manifest w m ∧ (t.metadata manifest w).value.1 = .ok m) ∨
    ∃ fault, (∃ out err, t.Exits manifest w 0 out err) ∧
      (t.metadata manifest w).value.1 = .error (.metadata fault) ∧
      ∀ className, fault ≠ .notDictionary className := by
  rcases t.course manifest w with h | ⟨code, err, messages, h⟩ | ⟨fault, h⟩ | ⟨out, err, h⟩
  · exact .inl ⟨h, by rw [metadata_of_missing h]⟩
  · exact .inr (.inl ⟨code, err, messages, h, metadata_of_fails h⟩)
  · exact .inr (.inr (.inl ⟨fault, h, metadata_of_breaksOff h⟩))
  · rcases metadata_of_exits_zero h with ⟨m, hm, hyields⟩ | ⟨fault, hfault, hne⟩
    · exact .inr (.inr (.inr (.inl ⟨m, hyields, hm⟩)))
    · exact .inr (.inr (.inr (.inr ⟨fault, ⟨out, err, h⟩, hfault, hne⟩)))

/-- **What a run of Scarb comes to.**  There is no Scarb, and then nothing is started; or the
command fails, with its code and all messages of its output; or the run breaks off; or the output
holds metadata, which has the version of the format; or the command exits with zero and its output
holds none.  Nothing else can happen.  The objects of an output are those of which a line is a text.
Where an operating system runs the processes, a run breaks off because of a byte zero in the
executable, or because an output is no text. -/
theorem metadata_outcome (t : Toolchain) (manifest : Path) (w : World Machine) :
    ((t.metadata manifest w).value.1 = .error .notFound ↔ t.Missing) ∧
    (t.Missing → (t.metadata manifest w).value.2 = w) ∧
    (∀ code err messages, (t.metadata manifest w).value.1 = .error (.command code err messages) ↔
      t.Fails manifest w code err messages) ∧
    (∀ m, (t.metadata manifest w).value.1 = .ok m ↔ t.Yields manifest w m) ∧
    (∀ m, t.Yields manifest w m → m.version = 1) ∧
    ((∃ fault, (t.metadata manifest w).value.1 = .error (.metadata fault)) ↔
      (∃ out err, t.Exits manifest w 0 out err) ∧ ¬∃ m, t.Yields manifest w m) ∧
    (∀ className, (t.metadata manifest w).value.1 ≠
      .error (.metadata (.notDictionary className))) ∧
    (∀ fault, (t.metadata manifest w).value.1 = .error (.process fault) ↔
      t.BreaksOff manifest w fault) ∧
    (∀ system, w.outside.behaviour = .ofSystem system → Disk.holdsNul manifest = false →
      (∀ fault, t.BreaksOff manifest w fault ↔ t.Disrupted manifest w system fault) ∧
      (∀ fault,
        (∃ c, t.Starts manifest w c ∧ (w.outside.behaviour c w.disk.files).2 = .notStarted fault) ↔
          ∃ c, t.Spawns manifest w c ∧ (system c w.disk.files).2 = .notStarted fault) ∧
      ∀ code out err, t.Exits manifest w code out err ↔
        ∃ c bytes bytes', t.Spawns manifest w c ∧
          (system c w.disk.files).2 = .exited code bytes bytes' ∧
          Text.ofOutput bytes = .ok out ∧ Text.ofOutput bytes' = .ok err) ∧
    ∀ line ms, Scan.membersOf? line = some ms ↔ Scan.Holds line ms := by
  have hmissing : t.Missing → (t.metadata manifest w).value.1 = .error .notFound :=
    fun h => by rw [metadata_of_missing h]
  have hcases := t.metadata_cases manifest w
  refine ⟨⟨fun h => ?_, hmissing⟩, fun h => by rw [metadata_of_missing h],
    fun code err messages => ⟨fun h => ?_, metadata_of_fails⟩,
    fun m => metadata_eq_ok_iff, fun m => Yields.version,
    ⟨?_, ?_⟩, fun className h => ?_, fun fault => metadata_eq_process_iff,
    fun system hw hm => ⟨fun _ => breaksOff_iff hw hm, fun _ => notStarted_iff hw hm,
      fun _ _ _ => exits_iff hw hm⟩,
    fun _ _ => Scan.membersOf?_eq_some_iff⟩
  · obtain ⟨hm, -⟩ | ⟨_, _, _, -, ⟨⟩⟩ | ⟨_, -, ⟨⟩⟩ | ⟨_, -, ⟨⟩⟩ | ⟨_, -, ⟨⟩, -⟩ := h ▸ hcases
    exact hm
  · obtain ⟨-, ⟨⟩⟩ | ⟨_, _, _, hfails, ⟨⟩⟩ | ⟨_, -, ⟨⟩⟩ | ⟨_, -, ⟨⟩⟩ | ⟨_, -, ⟨⟩, -⟩ := h ▸ hcases
    exact hfails
  · rintro ⟨fault, h⟩
    obtain ⟨-, ⟨⟩⟩ | ⟨_, _, _, -, ⟨⟩⟩ | ⟨_, -, ⟨⟩⟩ | ⟨_, -, ⟨⟩⟩ | ⟨_, hexits, -⟩ := h ▸ hcases
    refine ⟨hexits, fun ⟨m, hm⟩ => ?_⟩
    rw [metadata_of_yields hm] at h
    cases h
  · rintro ⟨⟨out, err, hexits⟩, hno⟩
    rcases metadata_of_exits_zero hexits with ⟨m, -, hm⟩ | ⟨fault, hfault, -⟩
    · exact absurd ⟨m, hm⟩ hno
    · exact ⟨fault, hfault⟩
  · obtain ⟨-, ⟨⟩⟩ | ⟨_, _, _, -, ⟨⟩⟩ | ⟨_, -, ⟨⟩⟩ | ⟨_, -, ⟨⟩⟩ | ⟨_, -, ⟨⟩, hne⟩ := h ▸ hcases
    exact hne className rfl

/-- The executable is configured with a byte zero at its end: Scarb is not run, though nothing is
wrong with it. -/
theorem metadata_outcome_nul :
    let t : Toolchain := ⟨some "/opt/scarb\x00", [], none⟩
    let w : World Machine :=
      ⟨⟨.empty, .top⟩, ⟨.ofSystem fun _ files => (files, .exited 0 [] []), []⟩⟩
    (t.metadata (.ofString "/w/Scarb.toml") w).value.1 = .error (.process .nul) := by
  intro t w
  obtain ⟨-, -, -, -, -, -, -, hbroken, hsystem, -⟩ :=
    metadata_outcome t (.ofString "/w/Scarb.toml") w
  have hstarts : t.Starts (.ofString "/w/Scarb.toml") w
      ⟨words "/opt/scarb\x00" (.ofString "/w/Scarb.toml"), none⟩ :=
    ⟨⟨"/opt/scarb\x00", rfl, rfl⟩, by decide⟩
  refine (hbroken _).2 (((hsystem _ rfl (by decide)).1 _).2 ?_)
  exact .nul hstarts rfl (by decide)

end Toolchain

end ScarbCrates
