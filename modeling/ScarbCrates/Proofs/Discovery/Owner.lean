import ScarbCrates.Discovery
import ScarbCrates.Proofs.Path.Walking

/-!
# The owner of a file

A search for a manifest goes through the directories that the text of a path goes through, from its
end to its beginning.  A path may pass through directories that its end is not in, since `..` leads
out of a directory again; and it passes through all directories that its end is in.  So nothing is
missed, but something may be found that does not own the file.

* `Discovery.HoldsManifest` — a directory with a manifest.
* `Discovery.Finds` — what a search has found, and what it has not.
* `Discovery.manifestOf_finds` — every search without a fault.
* `Discovery.manifestOf_finds_stray` — one that finds what it should not.
-/

namespace ScarbCrates

namespace Discovery

/-! ## Directories with a manifest -/

/-- A directory with a file of a name. -/
def Holds (t : FileTree) (l : Location) (n : Name) : Prop :=
  (∃ reachable, t.node? l = some (.directory reachable)) ∧
    ∃ content readable, t.node? (l ++ [n]) = some (.file content readable)

/-- A directory with a manifest. -/
def HoldsManifest (t : FileTree) (l : Location) : Prop :=
  Holds t l Manifest.cairoProjectToml ∨ Holds t l Manifest.scarbToml

variable {d : Disk} {p dir : Path} {l a : Location} {n : Name} {b : Bool} {m : Manifest}

/-- A name that nothing keeps from being looked up. -/
def Plain (n : Name) : Prop :=
  n ≠ .up ∧ n.bytes.length ≤ Disk.longestName ∧ n.bytes.any (· == 0) = false

lemma plain_cairoProjectToml : Plain Manifest.cairoProjectToml := by
  refine ⟨?_, ?_, ?_⟩ <;> decide

lemma plain_scarbToml : Plain Manifest.scarbToml := by
  refine ⟨?_, ?_, ?_⟩ <;> decide

/-- **A look at a file in a directory** that the operating system answers tells whether it is
there. -/
lemma isFile_child (hp : p.isAbsolute) (ha : d.locate p = .ok a) (hn : Plain n)
    (h : d.isFile (p.child n) = .ok b) : b = true ↔ Holds d.files a n := by
  obtain ⟨hup, hlong, hnul⟩ := hn
  obtain ⟨hnulp, -, hwalk⟩ := (Disk.locate_ok_iff hp).1 ha
  have hchild : (p.child n).isAbsolute := hp
  have hnulc : Disk.holdsNul (p.child n) = false := by
    rw [Disk.holdsNul_eq] at hnulp ⊢
    simp [Path.child, List.any_append, hnulp, hnul]
  have hwalkc : Disk.walk d.files [] (p.child n).names = Disk.walk d.files a [n] := by
    rw [Path.child, Disk.walk_append, hwalk]
    rfl
  rw [Disk.isFile, Disk.ask, Disk.stat, Disk.locate, Disk.namesFromTop_eq d hchild, hwalkc, hnulc,
    if_neg Bool.false_ne_true] at h
  split_ifs at h
  -- What is left is one step, from the place of the directory.
  rw [Disk.walk, Disk.enter] at h
  rw [Holds]
  cases hnode : d.files.node? a with
  | none =>
      rw [hnode] at h
      obtain rfl : false = b := Except.ok.inj h
      simp
  | some node =>
      rw [hnode] at h
      cases node with
      | file content readable =>
          obtain rfl : false = b := Except.ok.inj h
          simp
      | directory reachable =>
          cases reachable with
          | false => cases h
          | true =>
              simp only [if_neg hup, if_neg (Nat.not_lt.2 hlong)] at h
              cases hfile : d.files.node? (a ++ [n]) with
              | none =>
                  simp [hfile] at h
                  simp [h]
              | some node =>
                  cases node <;> simp [hfile, Disk.walk, Node.isDirectory] at h ⊢ <;> simp [h]

/-- What is found in a directory: the manifest that goes first there, or none. -/
def FoundIn (t : FileTree) (directory : Path) (l : Location) : Option Manifest → Prop
  | none => ¬HoldsManifest t l
  | some (.cairoProject p) =>
    p = directory.child Manifest.cairoProjectToml ∧ Holds t l Manifest.cairoProjectToml
  | some (.scarb p) => p = directory.child Manifest.scarbToml ∧ Holds t l Manifest.scarbToml ∧
    ¬Holds t l Manifest.cairoProjectToml

lemma foundIn_of_manifestIn {result : Option Manifest} (hp : p.isAbsolute)
    (ha : d.locate p = .ok a) (h : manifestIn d p = .ok result) : FoundIn d.files p a result := by
  rw [manifestIn] at h
  cases hcairo : d.isFile (p.child Manifest.cairoProjectToml) with
  | error fault =>
      rw [hcairo] at h
      cases h
  | ok b =>
      have hcairo' := isFile_child hp ha plain_cairoProjectToml hcairo
      rw [hcairo] at h
      cases b with
      | true =>
          cases h
          exact ⟨rfl, hcairo'.1 rfl⟩
      | false =>
          have hnot : ¬Holds d.files a Manifest.cairoProjectToml := fun hholds =>
            Bool.false_ne_true (hcairo'.2 hholds)
          cases hscarb : d.isFile (p.child Manifest.scarbToml) with
          | error fault =>
              simp only [hscarb] at h
              cases h
          | ok b =>
              have hscarb' := isFile_child hp ha plain_scarbToml hscarb
              simp only [hscarb] at h
              cases b with
              | true =>
                  cases h
                  exact ⟨rfl, hscarb'.1 rfl, hnot⟩
              | false =>
                  cases h
                  exact not_or.2 ⟨hnot, fun hholds => Bool.false_ne_true (hscarb'.2 hholds)⟩

/-! ## The search -/

lemma selfAndParents_concat (root : Root) (ns : List Name) (n : Name) :
    (⟨root, ns ++ [n]⟩ : Path).selfAndParents =
      ⟨root, ns ++ [n]⟩ :: (⟨root, ns⟩ : Path).selfAndParents := by
  simp [Path.selfAndParents, List.range_succ_eq_map, Function.comp_def]

/-- **The search goes through the beginnings of a path,** the longest first, up to the first with a
manifest. -/
lemma search_cases {root : Root} {ns : List Name} {result : Option Manifest}
    (h : firstManifest d (⟨root, ns⟩ : Path).selfAndParents = .ok result) :
    (result = none ∧ ∀ visited, visited <+: ns → manifestIn d ⟨root, visited⟩ = .ok none) ∨
      ∃ m before after, result = some m ∧ ns = before ++ after ∧
        manifestIn d ⟨root, before⟩ = .ok (some m) ∧
        ∀ visited, visited <+: after → visited ≠ [] →
          manifestIn d ⟨root, before ++ visited⟩ = .ok none := by
  -- The search begins with the whole path, so the induction takes names off at the end.
  induction ns using List.reverseRecOn with
  | nil =>
      have hself : (⟨root, []⟩ : Path).selfAndParents = [⟨root, []⟩] := rfl
      rw [hself, firstManifest] at h
      split at h
      · cases h
      · rename_i m hm
        cases h
        exact .inr ⟨m, [], [], rfl, rfl, hm,
          fun visited hvisited hne => absurd (List.prefix_nil.1 hvisited) hne⟩
      · rename_i hnone
        cases h
        refine .inl ⟨rfl, fun visited hvisited => ?_⟩
        rw [List.prefix_nil.1 hvisited]
        exact hnone
  | append_singleton ns n ih =>
      rw [selfAndParents_concat, firstManifest] at h
      split at h
      · cases h
      · rename_i m hm
        cases h
        exact .inr ⟨m, ns ++ [n], [], rfl, (List.append_nil _).symm, hm,
          fun visited hvisited hne => absurd (List.prefix_nil.1 hvisited) hne⟩
      · rename_i hnone
        rcases ih h with ⟨rfl, hall⟩ | ⟨m, before, after, rfl, rfl, hm, hall⟩
        · refine .inl ⟨rfl, fun visited hvisited => ?_⟩
          rcases List.prefix_concat_iff.1 hvisited with rfl | hvisited
          · exact hnone
          · exact hall visited hvisited
        · refine .inr ⟨m, before, after ++ [n], rfl, List.append_assoc _ _ _, hm, ?_⟩
          intro visited hvisited hne
          rcases List.prefix_concat_iff.1 hvisited with rfl | hvisited
          · rw [← List.append_assoc]
            exact hnone
          · exact hall visited hvisited hne

/-! ## What a search finds -/

/-- **What a search has found,** from a directory that is at a place.  The manifest is in a
directory that the text of the path goes through.  Of the directories that the place is in, no other
has one on the way from there.  The place is in the directory of the manifest exactly if the way to
it does not leave that directory again, as no way does that never goes up. -/
structure Finds (d : Disk) (dir : Path) (l : Location) (m : Manifest) (before after : List Name)
    (a : Location) : Prop where
  names : dir.names = before ++ after
  located : d.locate ⟨dir.root, before⟩ = .ok a
  manifest : FoundIn d.files ⟨dir.root, before⟩ a (some m)
  nearer : ∀ b, b <+: l → b ≠ a → (∀ c, c <+: a → c <+: l → c <+: b) → ¬HoldsManifest d.files b
  above_iff : a <+: l ↔
    ∀ visited, visited <+: after → ∀ b, Disk.walk d.files a visited = .ok b → a <+: b
  above_of_plain : .up ∉ after → a <+: l

lemma FoundIn.holdsManifest {t : FileTree} (h : FoundIn t dir a (some m)) : HoldsManifest t a := by
  cases m with
  | cairoProject _ => exact .inl h.2
  | scarb _ => exact .inr h.2.1

variable {root : Root} {before after visited : List Name} {b : Location}

lemma isAbsolute_of_root (hroot : root ≠ .none) (ns : List Name) :
    (⟨root, ns⟩ : Path).isAbsolute := by
  simpa [Path.isAbsolute] using hroot

/-- Where a search goes past there is no manifest. -/
lemma not_holdsManifest_of_passed (hroot : root ≠ .none) {ns : List Name}
    (hl : d.locate ⟨root, ns⟩ = .ok l) (hvisited : visited <+: ns)
    (hb : Disk.walk d.files [] visited = .ok b) (h : manifestIn d ⟨root, visited⟩ = .ok none) :
    ¬HoldsManifest d.files b := by
  obtain ⟨rest, rfl⟩ := hvisited
  obtain ⟨b', hb', -⟩ := Disk.exists_locate_of_append hroot hl
  have habsolute := isAbsolute_of_root hroot visited
  obtain ⟨-, -, hwalk⟩ := (Disk.locate_ok_iff habsolute).1 hb'
  obtain rfl : b = b' := Except.ok.inj (hb.symm.trans hwalk)
  exact foundIn_of_manifestIn habsolute hb' h

lemma finds_of_search (hroot : root ≠ .none) (hl : d.locate ⟨root, before ++ after⟩ = .ok l)
    (hm : manifestIn d ⟨root, before⟩ = .ok (some m))
    (hpassed : ∀ visited, visited <+: after → visited ≠ [] →
      manifestIn d ⟨root, before ++ visited⟩ = .ok none) :
    ∃ a, Finds d ⟨root, before ++ after⟩ l m before after a := by
  obtain ⟨a, ha, hafter⟩ := Disk.exists_locate_of_append hroot hl
  have hfound := foundIn_of_manifestIn (isAbsolute_of_root hroot before) ha hm
  have hbefore := ((Disk.locate_ok_iff (isAbsolute_of_root hroot before)).1 ha).2.2
  have hnone : ∀ visited b, visited <+: after → visited ≠ [] →
      Disk.walk d.files a visited = .ok b → ¬HoldsManifest d.files b := by
    intro visited b hvisited hne hb
    have hwalk : Disk.walk d.files [] (before ++ visited) = .ok b := by
      rw [Disk.walk_append, hbefore]
      exact hb
    exact not_holdsManifest_of_passed hroot hl ((List.prefix_append_right_inj before).2 hvisited)
      hwalk (hpassed visited hvisited hne)
  refine ⟨a, rfl, ha, hfound, ?_, ⟨?_, ?_⟩, Disk.prefix_of_walk hafter⟩
  · intro b hb hne hlow
    obtain ⟨visited, rest, rfl, hvisited, hwalk⟩ := Disk.exists_visit hafter hb hne hlow
    exact hnone visited b (List.prefix_append visited rest) hvisited hwalk
  · -- A way that leaves the directory of the manifest and ends in it comes by there once more,
    -- where the search would have found the manifest sooner.
    rintro hal visited ⟨rest, rfl⟩ b hb
    by_contra hnot
    obtain ⟨b', hb', hrest⟩ := Disk.walk_append_ok hafter
    obtain rfl : b = b' := Except.ok.inj (hb.symm.trans hb')
    have hne : a ≠ b := fun h => hnot (h ▸ List.prefix_rfl)
    have hlow : ∀ c, c <+: b → c <+: l → c <+: a := fun c hcb hcl =>
      (List.prefix_or_prefix_of_prefix hcl hal).resolve_right fun hac => hnot (hac.trans hcb)
    obtain ⟨visited', rest', rfl, hvisited', hback⟩ := Disk.exists_visit hrest hal hne hlow
    have hwalk : Disk.walk d.files a (visited ++ visited') = .ok a := by
      rw [Disk.walk_append, hb]
      exact hback
    refine hnone (visited ++ visited') a ?_ ?_ hwalk hfound.holdsManifest
    · rw [← List.append_assoc]
      exact List.prefix_append _ rest'
    · exact fun h => hvisited' (List.append_eq_nil_iff.1 h).2
  · exact fun h => h after List.prefix_rfl l hafter

lemma root_of_startDirectory (hdirectory : d.directory.isAbsolute)
    (h : startDirectory d (p.absoluteFrom d.directory) = .ok dir) : dir.root ≠ .none := by
  have hroot : (p.absoluteFrom d.directory).root ≠ .none := by
    rw [Path.absoluteFrom, Path.join]
    split_ifs with hp
    · simpa [Path.isAbsolute] using hp
    · simpa [Path.isAbsolute] using hdirectory
  rw [startDirectory] at h
  cases hb : d.isDirectory (p.absoluteFrom d.directory) with
  | error fault =>
      rw [hb] at h
      cases h
  | ok isDirectory =>
      rw [hb] at h
      cases isDirectory <;> cases h <;> exact hroot

/-- **Every search that no fault ends,** from a start directory that is there.  If it finds nothing,
no directory that the start is in has a manifest; if it finds one, it is as said above. -/
theorem manifestOf_finds {homes : Homes} {q : Path} {result : Option Manifest}
    (hdirectory : d.directory.isAbsolute) (hhome : Path.expandHome homes p = .ok q)
    (hdir : startDirectory d (q.absoluteFrom d.directory) = .ok dir) (hl : d.locate dir = .ok l)
    (h : manifestOf homes d p = .ok result) :
    (result = none → ∀ b, b <+: l → ¬HoldsManifest d.files b) ∧
      ∀ m, result = some m → ∃ before after a, Finds d dir l m before after a := by
  have hsearch : firstManifest d dir.selfAndParents = .ok result := by
    simp only [manifestOf, hhome, ownerOf, hdir] at h
    cases hfirst : firstManifest d dir.selfAndParents with
    | error fault => simp [hfirst, Except.mapError, bind, Except.bind] at h
    | ok result' => simpa [hfirst, Except.mapError, bind, Except.bind] using h
  have hroot := root_of_startDirectory hdirectory hdir
  obtain ⟨root, ns⟩ := dir
  rcases search_cases hsearch with ⟨rfl, hall⟩ | ⟨m, before, after, rfl, rfl, hm, hall⟩
  · refine ⟨fun _ b hb => ?_, nofun⟩
    have hwalk := ((Disk.locate_ok_iff (isAbsolute_of_root hroot ns)).1 hl).2.2
    obtain ⟨visited, rest, rfl, hvisited⟩ := Disk.exists_visit_of_top hwalk hb
    have hprefix := List.prefix_append visited rest
    exact not_holdsManifest_of_passed hroot hl hprefix hvisited (hall visited hprefix)
  · refine ⟨nofun, fun m' hm' => ?_⟩
    obtain rfl : m = m' := Option.some.inj hm'
    exact ⟨before, after, finds_of_search hroot hl hm hall⟩

/-- From `/a/b/../s` a search finds the manifest in `/a/b`, which is not above `/a`. -/
theorem manifestOf_finds_stray :
    let a : Name := ⟨[0x61], by decide, by decide, by decide⟩
    let b : Name := ⟨[0x62], by decide, by decide, by decide⟩
    let s : Name := ⟨[0x73], by decide, by decide, by decide⟩
    let d : Disk := ⟨FileTree.empty.writeAll [([a, b, Manifest.scarbToml], .file [] true),
      ([a, s], .file [] true)], .top⟩
    let m : Manifest := .scarb ⟨.single, [a, b, Manifest.scarbToml]⟩
    manifestOf .unknown d ⟨.single, [a, b, .up, s]⟩ = .ok (some m) ∧
      (∃ before after, Finds d ⟨.single, [a, b, .up]⟩ [a] m before after [a, b]) ∧
      ¬[a, b] <+: [a] := by
  intro a b s d m
  have hfound : manifestOf .unknown d ⟨.single, [a, b, .up, s]⟩ = .ok (some m) := by decide
  have hl : d.locate ⟨.single, [a, b, .up]⟩ = .ok [a] := by decide
  obtain ⟨-, hfinds⟩ := manifestOf_finds (by decide) rfl (by decide) hl hfound
  obtain ⟨before, after, place, h⟩ := hfinds m rfl
  have hbefore : before = [a, b] := by
    have hnames := congrArg (fun p : Path => p.names.dropLast) h.manifest.1
    simpa [Path.child] using hnames.symm
  have hplace : place = [a, b] := by
    have hlocated := h.located
    rw [hbefore] at hlocated
    exact Except.ok.inj (hlocated.symm.trans (by decide))
  exact ⟨hfound, ⟨before, after, hplace ▸ h⟩, by decide⟩

end Discovery

end ScarbCrates
