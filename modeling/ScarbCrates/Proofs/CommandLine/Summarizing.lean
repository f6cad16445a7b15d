import ScarbCrates.Proofs.CommandLine.Printing
import ScarbCrates.Proofs.Datum.Plain
import ScarbCrates.Proofs.Metadata.Paths

/-!
# Printed summaries

Metadata is printed in brief: texts, lists and dictionaries of them, and the paths of the workspace,
which have to be strings.  Like crates, a summary is printed as one JSON document.

* `Datum.Printable` — data for which there is such a document, part by part.
* `Metadata.printable_summary` — a summary is printable.
* `CommandLine.PrintsDocument` — a command prints data as one document, and succeeds.
* `CommandLine.printsDocument_crates`, `CommandLine.printsDocument_of_printable` — crates, and all
  that is printable.
-/

namespace ScarbCrates

open Json (Value)

/-! ## What can be printed -/

namespace Datum

/-- **Data that can be printed:** its plain form is of a value that every reader agrees on. -/
def Printable (d : Datum) : Prop := ∃ v : Value, d.Becomes true v ∧ v.Portable

lemma printable_int {i : Int} (h : Json.fitsWord i = true) : Printable (.int i) :=
  ⟨.int i, .of_eq rfl, h⟩

lemma printable_text (s : String) : (ofString s).Printable := ⟨.text s, .of_eq rfl, trivial⟩

lemma printable_option (s : Option String) : (ofOption s).Printable := by
  cases s with
  | none => exact ⟨.null, .of_eq rfl, trivial⟩
  | some s => exact printable_text s

/-- A path is printed as its text, which must be a string. -/
lemma printable_path {p : Path} (h : p.Encodable) : Printable (.path p) := by
  have htext : p.text = Text.ofString p.spelling := Text.eq_ofString h.toString?_eq
  exact ⟨.text p.spelling, .of_eq (congrArg (fun t => Except.ok (Datum.text t)) htext), trivial⟩

lemma printable_list {ds : List Datum} (h : ∀ d ∈ ds, d.Printable) : (ofList ds).Printable := by
  choose! value hvalue using h
  refine ⟨.array (ds.map value), becomes_sequence (by decide) ?_, ?_⟩
  · exact List.forall₂_map_right_iff.2 (List.forall₂_same.2 fun d hd => (hvalue d hd).1)
  · exact Value.portableItems_iff.2 (List.forall_mem_map.2 fun d hd => (hvalue d hd).2)

lemma printable_texts {α : Type} (items : List α) (text : α → String) :
    (ofList (items.map fun a => ofString (text a))).Printable :=
  printable_list (List.forall_mem_map.2 fun a _ => printable_text (text a))

lemma printable_members {ms : List (String × Datum)} (hnames : (ms.map Prod.fst).Nodup)
    (h : ∀ m ∈ ms, m.2.Printable) : (ofMembers ms).Printable := by
  choose! value hvalue using h
  have hdict : (ofMembers ms).Becomes true (.object (ms.map fun m => (m.1, value m))) :=
    becomes_dict hnames fun m hm => (hvalue m hm).1
  refine ⟨_, hdict, ?_, ?_⟩
  · rw [Assoc.keys, List.map_map]
    exact hnames
  · exact Value.portableMembers_iff.2 (List.forall_mem_map.2 fun m hm => (hvalue m hm).2)

end Datum

/-! ## Summaries -/

namespace Metadata

open Datum

lemma Package.printable_summary (k : Package) : k.summary.Printable := by
  refine printable_members (by simp) ?_
  simp only [List.forall_mem_cons]
  exact ⟨printable_text _, printable_text _, printable_option _, printable_texts _ _,
    List.forall_mem_nil _⟩

lemma CompilationUnit.printable_summary (u : CompilationUnit) : u.summary.Printable := by
  refine printable_members (by simp) ?_
  simp only [List.forall_mem_cons]
  exact ⟨printable_text _, printable_text _, printable_texts _ _, List.forall_mem_nil _⟩

lemma Workspace.printable_summary {w : Workspace} (h : ∀ q ∈ w.paths, q.Encodable) :
    w.summary.Printable := by
  refine printable_members (by simp) ?_
  simp only [Workspace.paths, List.forall_mem_cons] at h ⊢
  exact ⟨printable_path h.2.1, printable_path h.1, printable_texts _ _, List.forall_mem_nil _⟩

/-- **A summary can be printed** if the paths of the workspace are strings. -/
lemma printable_summary {m : Metadata} (hversion : Json.fitsWord m.version = true)
    (hpaths : ∀ q ∈ m.workspace.paths, q.Encodable) : m.summary.Printable := by
  refine printable_members (by simp) ?_
  simp only [List.forall_mem_cons]
  exact ⟨printable_int hversion, Workspace.printable_summary hpaths,
    printable_list (List.forall_mem_map.2 fun k _ => k.printable_summary),
    printable_list (List.forall_mem_map.2 fun u _ => u.printable_summary), List.forall_mem_nil _⟩

end Metadata

namespace CommandLine

/-! ## Printed documents -/

/-- **A command prints data** and succeeds: what it prints is one JSON document, the text of the
canonical value of the data, and a line feed. -/
structure PrintsDocument (payload : Datum) (r : Result) : Prop where
  exit : r.exit = .ok .success
  document : ∃ v text, payload.canonical true = .ok v ∧
    (∃ n ≤ Json.longestWhole, Json.IsText v n text.toList) ∧ r.stdout = text ++ "\n"

lemma world_printing (payload : Datum) (pretty : Bool) (notices : List Notice)
    (w : World Machine) : (printing payload pretty notices w).world = w := by
  rw [printing]
  cases rendered payload pretty <;> rfl

lemma printsDocument_of_plain {d plain : Datum} {v : Value} (hplain : d.builtins true = .ok plain)
    (hjson : plain.toJson = .ok v.sorted) (hv : v.Portable) (pretty : Bool)
    (notices : List Notice) (w : World Machine) :
    PrintsDocument d (printing d pretty notices w) := by
  have hcanonical : d.canonical true = .ok v.sorted := by
    rw [Datum.canonical, hplain]
    show (plain.toJson >>= fun w => .ok w.sorted) = _
    rw [hjson]
    exact congrArg Except.ok v.sorted_sorted
  rw [printing, rendered_of_plain hplain hjson]
  exact ⟨rfl, v.sorted, v.sorted.render pretty, hcanonical,
    Value.isText_render (v.portable_sorted_iff.2 hv) pretty, rfl⟩

lemma printsDocument_of_printable {d : Datum} (h : d.Printable) (pretty : Bool)
    (notices : List Notice) (w : World Machine) :
    PrintsDocument d (printing d pretty notices w) := by
  obtain ⟨v, hbecomes, hv⟩ := h
  obtain ⟨plain, hplain, hjson⟩ := hbecomes.exists_plain
  exact printsDocument_of_plain hplain hjson hv pretty notices w

/-- Crates are printed whatever they are, if their roots are strings. -/
lemma printsDocument_crates {cs : List Crate} (hroots : ∀ c ∈ cs, c.root.Encodable)
    (pretty : Bool) (notices : List Notice) (w : World Machine) :
    PrintsDocument (.ofList (cs.map Crate.toDatum))
      (printing (.ofList (cs.map Crate.toDatum)) pretty notices w) := by
  obtain ⟨v, hv, hportable, -⟩ :=
    Crate.returns_list false (by decide : Gathering.list ≠ .set) hroots
  have htyped : (Datum.ofList (cs.map Crate.toDatum)).IsTyped :=
    ⟨by decide, Datum.typedItems_iff.2 (List.forall_mem_map.2 fun c _ => c.typed)⟩
  obtain ⟨plain, hplain, hjson⟩ := Datum.exists_builtins true htyped hv
  exact printsDocument_of_plain hplain hjson hportable pretty notices w

end CommandLine

end ScarbCrates
