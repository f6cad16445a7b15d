import ScarbCrates.Proofs.Derivation.Naming
import ScarbCrates.Proofs.FileTree.Reaching
import ScarbCrates.Proofs.Path.Stem

/-!
# Which source files are accepted

Every path that can be looked at falls into one of six classes, by where it leads, whether it has a
final name, whether it is absolute, and whether the stem of the name is a text.  One class is
accepted, and what it is taken apart into makes the path again.

* `SourceRoot.Sorts`, `SourceRoot.sorts_ofNode` — the classes of paths that lead somewhere.
* `SourceRoot.TakenApart` — an accepted path and its parts.
* `SourceRoot.Classified` — all classes, each with the paths that are in it.
* `SourceRoot.check_classified` — the check tells them apart.
-/

namespace ScarbCrates

namespace SourceRoot

variable {d : Disk} {p : Path} {name : String}

/-! ## Paths that lead somewhere -/

/-- A path leads to a file. -/
def FindsFile (d : Disk) (p : Path) : Prop :=
  ∃ content readable, d.Reaches p (.file content readable)

/-- What is made of a path that leads to a node. -/
inductive Sorts (p : Path) : Node → Except RejectionCause SourceRoot → Prop
  | isDirectory {enterable : Bool} : Sorts p (.directory enterable) (.error .isDirectory)
  | noParent {content : List UInt8} {readable : Bool} (nameless : p.name? = none) :
      Sorts p (.file content readable) (.error .noParent)
  | relativeRoot {content : List UInt8} {readable : Bool} {n : Name} (named : p.name? = some n)
      (relative : p.isAbsolute = false) : Sorts p (.file content readable) (.error .relativeRoot)
  | nonUtf8Stem {content : List UInt8} {readable : Bool} {n : Name} (named : p.name? = some n)
      (absolute : p.isAbsolute = true) (garbled : ¬IsUtf8 n.stemBytes) :
      Sorts p (.file content readable) (.error .nonUtf8Stem)
  | accepted {content : List UInt8} {readable : Bool} {n : Name} (named : p.name? = some n)
      (absolute : p.isAbsolute = true) {stem : String}
      (spelled : Text.encode (Text.ofString stem) = n.stemBytes) :
      Sorts p (.file content readable) (.ok ⟨p.parent, stem⟩)

/-- A name always has a stem, so an absolute path is only judged by whether that is a text. -/
lemma ofName_of_isAbsolute {n : Name} {outcome : Except Text.StrayRun String}
    (habsolute : p.isAbsolute = true)
    (h : Text.toString? (Text.decode n.stemBytes) = outcome) : ofName p n =
      (outcome.map fun stem => ⟨p.parent, stem⟩).mapError fun _ => .nonUtf8Stem := by
  rw [ofName, if_neg (by simp [habsolute]), if_neg (by simpa using n.stemBytes_ne_nil), h]
  cases outcome <;> rfl

lemma ofName_of_relative (n : Name) (h : p.isAbsolute = false) :
    ofName p n = .error .relativeRoot := by
  rw [ofName, h]
  rfl

lemma ofNode_file (p : Path) (content : List UInt8) (readable : Bool) :
    ofNode p (.file content readable) =
      (p.name?.elim (.error .noParent) fun n => ofName p n) := by
  cases h : p.name? <;> simp [ofNode, Node.isDirectory, h]

/-- **Every path that leads somewhere is in one class.** -/
lemma sorts_ofNode (p : Path) (node : Node) : Sorts p node (ofNode p node) := by
  cases node with
  | directory enterable => exact .isDirectory
  | file content readable =>
      rw [ofNode_file]
      cases hname : p.name? with
      | none => exact .noParent hname
      | some n =>
          rw [Option.elim_some]
          cases habsolute : p.isAbsolute with
          | false =>
              rw [ofName_of_relative n habsolute]
              exact .relativeRoot hname habsolute
          | true =>
              cases hstem : Text.toString? (Text.decode n.stemBytes) with
              | error stray =>
                  rw [ofName_of_isAbsolute habsolute hstem]
                  exact .nonUtf8Stem hname habsolute ((not_isUtf8_iff _).2 ⟨stray, hstem⟩)
              | ok stem =>
                  rw [ofName_of_isAbsolute habsolute hstem]
                  refine .accepted hname habsolute ?_
                  rw [← Text.eq_ofString hstem, Text.encode_decode]

/-! ## Accepted paths -/

/-- **A path is taken apart** into an absolute directory and a stem that is not empty; with the
suffix of the name they make the path. -/
structure TakenApart (p : Path) (source : SourceRoot) : Prop where
  absolute : source.root.isAbsolute = true
  stem_ne_empty : source.stem ≠ ""
  whole : ∃ n suffix, p.name? = some n ∧ n ≠ .up ∧
    n.HasStem (Text.encode (Text.ofString source.stem)) ∧ n.HasSuffix suffix ∧
      source.root.join (Path.ofBytes (Text.encode (Text.ofString source.stem) ++ suffix)) = p

lemma takenApart {n : Name} {stem : String} (hname : p.name? = some n) (hup : n ≠ .up)
    (habsolute : p.isAbsolute = true) (hstem : Text.encode (Text.ofString stem) = n.stemBytes) :
    TakenApart p ⟨p.parent, stem⟩ := by
  refine ⟨habsolute, ?_, n, n.suffixBytes, hname, hup, Name.hasStem_iff.2 hstem.symm,
    Name.hasSuffix_iff.2 rfl, ?_⟩
  · rintro rfl
    exact n.stemBytes_ne_nil hstem.symm
  · rw [hstem, n.stemBytes_append_suffixBytes, Path.join_ofBytes_name, Path.child_parent hname]

/-! ## All classes -/

/-- **The classes of paths.**  Each outcome of the check has the paths that come to it and no
others. -/
structure Classified (d : Disk) (p : Path) (name : String)
    (outcome : Except Rejection SourceRoot) : Prop where
  ioError : (∃ errno, outcome = .error ⟨name, p, .io errno⟩) ↔ ¬∃ node, d.Reaches p node
  isDirectory : outcome = .error ⟨name, p, .isDirectory⟩ ↔
    ∃ enterable, d.Reaches p (.directory enterable)
  noParent : outcome = .error ⟨name, p, .noParent⟩ ↔ FindsFile d p ∧ p.name? = none
  relativeRoot : outcome = .error ⟨name, p, .relativeRoot⟩ ↔
    FindsFile d p ∧ p.name? ≠ none ∧ p.isAbsolute = false
  nonUtf8Stem : outcome = .error ⟨name, p, .nonUtf8Stem⟩ ↔
    FindsFile d p ∧ p.isAbsolute = true ∧
      ∃ n stem, p.name? = some n ∧ n.HasStem stem ∧ ¬IsUtf8 stem
  accepted : (∃ source, outcome = .ok source) ↔
    FindsFile d p ∧ p.isAbsolute = true ∧
      ∃ n stem, p.name? = some n ∧ n.HasStem stem ∧ IsUtf8 stem
  rejected : ∀ r, outcome = .error r → r.crateName = name ∧ r.path = p ∧ r.cause ≠ .noFileStem
  takenApart : ∀ source, outcome = .ok source → TakenApart p source

/-- A path that leads nowhere is in the first class. -/
lemma classified_of_not_reaches {errno : Errno} (h : ¬∃ node, d.Reaches p node) :
    Classified d p name (.error ⟨name, p, .io errno⟩) := by
  have hfile : ¬FindsFile d p := fun ⟨_, _, hreaches⟩ => h ⟨_, hreaches⟩
  have hdirectory : ¬∃ enterable, d.Reaches p (.directory enterable) :=
    fun ⟨_, hreaches⟩ => h ⟨_, hreaches⟩
  constructor <;> simp [h, hfile, hdirectory]

/-- A path that leads to a node is in one of the others. -/
lemma classified_of_sorts {node : Node} {outcome : Except RejectionCause SourceRoot}
    (hnul : Disk.holdsNul p = false) (hnode : d.Reaches p node) (h : Sorts p node outcome) :
    Classified d p name (outcome.mapError fun cause => ⟨name, p, cause⟩) := by
  have hreaches : ∀ node', d.Reaches p node' ↔ node' = node := fun node' =>
    ⟨fun h => h.unique hnul hnode, fun h => h ▸ hnode⟩
  cases h with
  | isDirectory => constructor <;> simp [Except.mapError, FindsFile, hreaches]
  | noParent hname => constructor <;> simp [Except.mapError, FindsFile, hreaches, hname]
  | relativeRoot hname hrelative =>
      constructor <;> simp [Except.mapError, FindsFile, hreaches, hname, hrelative]
  | nonUtf8Stem hname habsolute hgarbled =>
      constructor <;> simp [Except.mapError, FindsFile, hreaches, hname, habsolute, hgarbled,
        Name.hasStem_iff]
  | accepted hname habsolute hspelled =>
      have hup : ∀ n, p.name? = some n → n ≠ .up := by
        rintro n hn rfl
        cases hnode.isDirectory_of_up hn
      have htext : IsUtf8 _ := ⟨_, hspelled⟩
      constructor <;> simp [Except.mapError, FindsFile, hreaches, hname, habsolute, htext,
        Name.hasStem_iff]
      exact SourceRoot.takenApart hname (hup _ hname) habsolute hspelled

/-- **The check classifies every path** that holds no byte zero, on every disk. -/
theorem check_classified (d : Disk) (name : String) (h : Disk.holdsNul p = false) :
    ∃ outcome, check d p name = .ok outcome ∧ Classified d p name outcome := by
  cases hstat : d.stat p with
  | ok node =>
      refine ⟨_, by rw [check, hstat], ?_⟩
      exact classified_of_sorts h ((Disk.stat_ok_iff h).1 hstat) (sorts_ofNode p node)
  | error fault =>
      cases fault with
      | nul =>
          rw [d.stat_eq_nul_iff, h] at hstat
          cases hstat
      | os errno path =>
          refine ⟨_, by rw [check, hstat], classified_of_not_reaches ?_⟩
          rintro ⟨node, hreaches⟩
          rw [(Disk.stat_ok_iff h).2 hreaches] at hstat
          cases hstat

/-- The file `..cairo` is accepted by a path through `..`; its stem is one full stop. -/
theorem check_classified_dots :
    let n : Name := ⟨Text.encode (Text.ofString "..cairo"), by decide, by decide, by decide⟩
    let p : Path := ⟨.double, [.up, n]⟩
    let d : Disk := ⟨FileTree.empty.write [n] (.file [] true), .top⟩
    Disk.holdsNul p = false ∧
      ∃ source, check d p "x" = .ok (.ok source) ∧ TakenApart p source ∧ source.stem = "." := by
  intro n p d
  have hnul : Disk.holdsNul p = false := by decide
  obtain ⟨outcome, hcheck, hclass⟩ := check_classified d "x" hnul
  have hfile : FindsFile d p := ⟨[], true, (Disk.stat_ok_iff hnul).1 (by decide)⟩
  obtain ⟨source, rfl⟩ := hclass.accepted.2
    ⟨hfile, by decide, n, [dot], by decide, Name.hasStem_iff.2 (by decide), ".", by decide⟩
  refine ⟨hnul, source, hcheck, hclass.takenApart source rfl, ?_⟩
  have hsource : check d p "x" = .ok (.ok ⟨⟨.double, [.up]⟩, "."⟩) := by decide
  rw [hcheck] at hsource
  cases hsource
  rfl

end SourceRoot

end ScarbCrates
