import ScarbCrates.Proofs.SourceRoot.Classes

/-!
# From a source file to a crate and back

A crate does not hold the source file that its component names.  It holds the directory and, unless
it is the usual one, the stem; the entry file is put together from them, with the ending of Cairo
files.  So the entry file is in the directory of the source file and has its stem, and it is the
source file exactly if that has the ending too.

* `Name.cairo` — the Cairo file with the stem of a name.
* `SourceRoot.exists_name_of_accepted` — the name that an accepted path was taken apart at.
* `Derivation.mainFile_eq_child` — the entry file of a derived crate.
* `Derivation.mainFile_eq_iff` — when it is the source file, and when the stem goes unmentioned.
-/

namespace ScarbCrates

/-- The ending of Cairo files. -/
def cairoEnding : List UInt8 := Text.encode (Text.ofString "cairo")

namespace Name

variable {n : Name}

/-- **The Cairo file with the stem of a name.** -/
def cairo (n : Name) : Name where
  bytes := n.stemBytes ++ dot :: cairoEnding
  ne_nil := List.append_ne_nil_of_left_ne_nil n.stemBytes_ne_nil _
  no_slash := by
    rw [List.mem_append]
    rintro (h | h)
    · refine n.no_slash ?_
      rw [← n.stemBytes_append_suffixBytes]
      exact List.mem_append_left _ h
    · exact absurd h (by decide)
  ne_dot := by
    intro h
    obtain ⟨hnil, -⟩ | ⟨-, hnil⟩ := List.append_eq_singleton_iff.1 h
    · exact n.stemBytes_ne_nil hnil
    · cases hnil

/-- A name with the ending, and something before it, is that of the Cairo file with its stem. -/
lemma cairo_eq_self_iff :
    n.cairo = n ↔ ∃ before, before ≠ [] ∧ n.bytes = before ++ dot :: cairoEnding := by
  constructor
  · intro h
    exact ⟨n.stemBytes, n.stemBytes_ne_nil, (congrArg Name.bytes h).symm⟩
  · rintro ⟨before, hbefore, hbytes⟩
    have hdivides : n.Divides before cairoEnding := ⟨hbytes, hbefore, by decide, by decide⟩
    obtain ⟨bytes, _, _, _⟩ := n
    simp only [cairo, Name.mk.injEq, hdivides.stemBytes]
    exact hbytes.symm

end Name

namespace SourceRoot

variable {d : Disk} {p : Path} {name : String} {source : SourceRoot}

/-- An accepted path has been taken apart at its final name. -/
lemma exists_name_of_accepted (h : check d p name = .ok (.ok source)) :
    ∃ n, p.name? = some n ∧ source.root = p.parent ∧
      Text.encode (Text.ofString source.stem) = n.stemBytes := by
  rw [check] at h
  split at h
  · cases h
  · cases h
  · rename_i node _
    have hsorts := sorts_ofNode p node
    generalize ofNode p node = outcome at h hsorts
    cases hsorts with
    | accepted hname _ hspelled =>
        cases h
        exact ⟨_, hname, rfl, hspelled⟩
    | _ => cases h

end SourceRoot

namespace Derivation

open Metadata

variable {d : Disk} {m : Metadata} {unit : CompilationUnit} {c : Component} {source : SourceRoot}

/-- The crate of a component whose source file is accepted. -/
lemma value_componentCrate_of_accepted (m : Metadata) (unit : CompilationUnit)
    (h : SourceRoot.check d c.sourcePath c.name = .ok (.ok source)) :
    (componentCrate d m unit c).run.value = .ok (some ⟨c.name, source.root,
      customStem source.stem, (CrateSettings.ofMetadata (m.package? c.package) unit c).value⟩) := by
  rw [componentCrate, h]
  cases m.package? c.package <;> rfl

/-- A crate has the stem that was left unmentioned as well as any other. -/
lemma mainFileStem_customStem {name stem : String} {root : Path} {settings : CrateSettings}
    (h : stem ≠ "") : Crate.mainFileStem ⟨name, root, customStem stem, settings⟩ = stem := by
  rw [Crate.mainFileStem, customStem]
  split_ifs with hlib
  · exact hlib.symm
  · simp [h]

/-- **The entry file** is the Cairo file with the stem of the source file, in its directory. -/
lemma mainFile_eq_child (name : String) (p : Path) (settings : CrateSettings) {stem : String}
    {n : Name} (hstem : Text.encode (Text.ofString stem) = n.stemBytes) :
    Crate.mainFile ⟨name, p.parent, customStem stem, settings⟩ = p.parent.child n.cairo := by
  have hne : stem ≠ "" := by
    rintro rfl
    exact n.stemBytes_ne_nil hstem.symm
  have hbytes : Text.encode (Text.ofString (stem ++ ".cairo")) = n.cairo.bytes := by
    show _ = n.stemBytes ++ dot :: cairoEnding
    rw [Text.encode_ofString_append, hstem]
    rfl
  rw [Crate.mainFile, mainFileStem_customStem hne, Path.ofString, Path.ofText, hbytes,
    Path.join_ofBytes_name]

lemma child_eq_iff {p : Path} {n k : Name} (h : p.name? = some n) :
    p.parent.child k = p ↔ k = n := by
  constructor
  · intro hk
    have hname : (p.parent.child k).name? = some k := List.getLast?_concat
    rw [hk, h] at hname
    exact (Option.some.inj hname).symm
  · rintro rfl
    exact Path.child_parent h

/-- **The crate of an accepted component points back at its source file** exactly if that has the
ending of Cairo files after something else; in any case it points at a file in the same directory,
of the same stem.  The stem goes unmentioned exactly if it is `lib`. -/
theorem mainFile_eq_iff (m : Metadata) (unit : CompilationUnit)
    (h : SourceRoot.check d c.sourcePath c.name = .ok (.ok source)) :
    ∃ crate n, (componentCrate d m unit c).run.value = .ok (some crate) ∧
      c.sourcePath.name? = some n ∧
      (crate.mainFile = c.sourcePath ↔
        ∃ before, before ≠ [] ∧ n.bytes = before ++ Text.encode (Text.ofString ".cairo")) ∧
      (crate.customMainFileStem = none ↔ n.HasStem (Text.encode (Text.ofString "lib"))) ∧
      ∃ k stem, crate.mainFile = c.sourcePath.parent.child k ∧ n.HasStem stem ∧
        k.bytes = stem ++ Text.encode (Text.ofString ".cairo") := by
  obtain ⟨n, hname, hroot, hstem⟩ := SourceRoot.exists_name_of_accepted h
  obtain ⟨root, stem⟩ := source
  obtain rfl : root = c.sourcePath.parent := hroot
  have hchild := mainFile_eq_child c.name c.sourcePath
    (CrateSettings.ofMetadata (m.package? c.package) unit c).value hstem
  refine ⟨_, n, value_componentCrate_of_accepted m unit h, hname, ?_, ?_, n.cairo, n.stemBytes,
    hchild, Name.hasStem_iff.2 rfl, rfl⟩
  · rw [hchild, child_eq_iff hname]
    exact Name.cairo_eq_self_iff
  · rw [Name.hasStem_iff, ← hstem, customStem]
    split_ifs with hlib
    · exact iff_of_true rfl (congrArg (fun s => Text.encode (Text.ofString s)) hlib)
    · refine iff_of_false (fun hnone => nomatch hnone) fun heq => hlib ?_
      exact String.toList_injective (Text.encode_ofChars_injective heq)

/-- The crate of `..cairo` points back at it, by the stem that is one full stop; that of `lib.txt`
mentions no stem and points at another file. -/
theorem mainFile_eq_iff_dots :
    let dots : Name := ⟨Text.encode (Text.ofString "..cairo"), by decide, by decide, by decide⟩
    let lib : Name := ⟨Text.encode (Text.ofString "lib.txt"), by decide, by decide, by decide⟩
    let d : Disk := ⟨(FileTree.empty.write [dots] (.file [] true)).write [lib] (.file [] true), .top⟩
    let component (n : Name) : Component := ⟨"p", "x", ⟨.double, [.up, n]⟩, none⟩
    SourceRoot.check d (component dots).sourcePath "x" = .ok (.ok ⟨⟨.double, [.up]⟩, "."⟩) ∧
      SourceRoot.check d (component lib).sourcePath "x" = .ok (.ok ⟨⟨.double, [.up]⟩, "lib"⟩) ∧
      (∃ crate, (componentCrate d default default (component dots)).run.value = .ok (some crate) ∧
        crate.mainFile = (component dots).sourcePath ∧ crate.customMainFileStem ≠ none) ∧
      ∃ crate, (componentCrate d default default (component lib)).run.value = .ok (some crate) ∧
        crate.mainFile ≠ (component lib).sourcePath ∧ crate.customMainFileStem = none := by
  intro dots lib d component
  have hdots : SourceRoot.check d (component dots).sourcePath "x" =
      .ok (.ok ⟨⟨.double, [.up]⟩, "."⟩) := by decide
  have hlib : SourceRoot.check d (component lib).sourcePath "x" =
      .ok (.ok ⟨⟨.double, [.up]⟩, "lib"⟩) := by decide
  refine ⟨hdots, hlib, ?_, ?_⟩
  · obtain ⟨crate, n, hcrate, hname, hmain, hstem, -⟩ :=
      mainFile_eq_iff default default (c := component dots) hdots
    obtain rfl : dots = n := Option.some.inj hname
    refine ⟨crate, hcrate, hmain.2 ⟨[dot], by decide, by decide⟩, fun h => ?_⟩
    exact absurd (Name.hasStem_iff.1 (hstem.1 h)) (by decide)
  · obtain ⟨crate, n, hcrate, hname, hmain, hstem, -⟩ :=
      mainFile_eq_iff default default (c := component lib) hlib
    obtain rfl : lib = n := Option.some.inj hname
    refine ⟨crate, hcrate, fun h => ?_, hstem.2 (Name.hasStem_iff.2 (by decide))⟩
    obtain ⟨before, -, hbytes⟩ := hmain.1 h
    have hlast := congrArg List.getLast? hbytes
    rw [List.getLast?_append_of_ne_nil _ (by decide)] at hlast
    exact absurd hlast (by decide)

end Derivation

end ScarbCrates
