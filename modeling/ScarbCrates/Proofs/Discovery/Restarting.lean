import ScarbCrates.Proofs.Discovery.Owner

/-!
# Searching again on the way

A search may be started again from the manifest that it has found, or from any directory that it has
looked into on the way there, and finds the same manifest.  A path on the way need not lead to a
directory, and then the new search starts one name higher up; but what is no directory holds no
manifest, so nothing is missed by that.

* `Discovery.Passes` — the way of a search.
* `Disk.exists_isDirectory_of_child`, `Disk.isDirectory_of_child` — what a look into a directory
  tells about the directory.
* `Discovery.manifestOf_restarts` — the searches that are started again.
-/

namespace ScarbCrates

namespace Path

variable {p q : Path} {n : Name} {front rest : List Path}

@[simp]
lemma parent_child (p : Path) (n : Name) : (p.child n).parent = p := by
  simp [parent, child]

@[simp]
lemma name?_child (p : Path) (n : Name) : (p.child n).name? = some n := by
  simp [name?, child]

lemma root_ne_none (hp : p.isAbsolute) : p.root ≠ .none := by
  simpa [isAbsolute] using hp

lemma absoluteFrom_of_isAbsolute (hp : p.isAbsolute) (directory : Path) :
    p.absoluteFrom directory = p := by
  rw [absoluteFrom, join, if_pos hp]

/-- Only a relative path can begin with a home directory. -/
lemma expandHome_of_isAbsolute (hp : p.isAbsolute) (homes : Homes) :
    expandHome homes p = .ok p := by
  obtain ⟨root, names⟩ := p
  cases root with
  | none => exact absurd rfl (root_ne_none hp)
  | single | double => rfl

/-- What stands above a path is above it or is the end. -/
lemma selfAndParents_eq (p : Path) :
    p.selfAndParents = [p] ∧ p.names = [] ∨ p.selfAndParents = p :: p.parent.selfAndParents := by
  obtain ⟨root, names⟩ := p
  induction names using List.reverseRecOn with
  | nil => exact .inl ⟨rfl, rfl⟩
  | append_singleton names n _ =>
      refine .inr ?_
      rw [Discovery.selfAndParents_concat, parent, List.dropLast_concat]

/-- **The directories above a directory on the way** are the rest of the way. -/
lemma selfAndParents_of_append (h : p.selfAndParents = front ++ q :: rest) :
    q.selfAndParents = q :: rest ∧ q.root = p.root := by
  obtain ⟨root, names⟩ := p
  induction names using List.reverseRecOn generalizing front with
  | nil =>
      have hself : (⟨root, []⟩ : Path).selfAndParents = [⟨root, []⟩] := rfl
      cases front with
      | nil =>
          rw [hself, List.nil_append, List.cons.injEq] at h
          obtain ⟨rfl, rfl⟩ := h
          exact ⟨rfl, rfl⟩
      | cons x front => simp [hself] at h
  | append_singleton names n ih =>
      cases front with
      | nil =>
          have hhead := h
          rw [Discovery.selfAndParents_concat, List.nil_append, List.cons.injEq] at hhead
          obtain ⟨rfl, -⟩ := hhead
          exact ⟨h, rfl⟩
      | cons x front =>
          rw [Discovery.selfAndParents_concat, List.cons_append, List.cons.injEq] at h
          exact ih h.2

end Path

namespace Disk

open Discovery (Plain)

variable {d : Disk} {p : Path} {n : Name} {b : Bool}

lemma holdsNul_child (hn : Plain n) : holdsNul (p.child n) = holdsNul p := by
  rw [holdsNul_eq, holdsNul_eq, Path.child, List.any_append]
  simp [hn.2.2]

/-- Whatever keeps a path from being followed keeps a longer path from it, which may be too long
besides. -/
lemma locate_child_of_refused (hp : p.isAbsolute) (hn : Plain n) {errno : Errno} {q : Path}
    (h : d.locate p = .error (.os errno q)) :
    ∃ errno', d.locate (p.child n) = .error (.os errno' (p.child n)) ∧
      (errno' = errno ∨ errno' = .nameTooLong) := by
  have hlength : p.bytes.length ≤ (p.child n).bytes.length :=
    length_bytes_le (Path.root_ne_none hp) p.names [n]
  have hwalk : walk d.files [] (p.child n).names =
      (walk d.files [] p.names).bind fun there => walk d.files there [n] := walk_append _ _ _ _
  have hchild : (p.child n).isAbsolute := hp
  rw [locate, namesFromTop_eq d hp] at h
  rw [locate, namesFromTop_eq d hchild, holdsNul_child hn, hwalk]
  split_ifs at h with hnul hlong
  · cases h
  · have hlong' : longestPath < (p.child n).bytes.length := by omega
    simp_all
  · by_cases hlong' : longestPath < (p.child n).bytes.length
    · simp [hnul, hlong']
    · cases hw : walk d.files [] p.names with
      | ok l => simp [hw] at h
      | error e =>
          simp only [hw, Except.error.injEq, AccessFault.os.injEq] at h
          simp [hnul, hlong', Except.bind, h.1]

/-- **A look into a directory** that is answered shows that the directory can be looked at. -/
lemma exists_isDirectory_of_child (hp : p.isAbsolute) (hn : Plain n)
    (h : d.isFile (p.child n) = .ok b) : ∃ b', d.isDirectory p = .ok b' := by
  rw [isDirectory, ask, stat]
  cases hlocate : d.locate p with
  | ok place => cases hnode : d.files.node? place <;> simp [hnode]
  | error fault =>
      cases fault with
      | nul => simp
      | os errno q =>
          obtain ⟨errno', hchild, herrno⟩ := locate_child_of_refused hp hn hlocate
          rw [isFile, ask, stat, hchild] at h
          -- Of the faults only two are an answer to a look at a file, and these are the same fault.
          have hquiet : errno = .noEntry ∨ errno = .notDirectory := by
            cases errno' <;> simp_all
          rcases hquiet with rfl | rfl <;> simp

/-- **Where there is a file, there is a directory.** -/
lemma isDirectory_of_child (hp : p.isAbsolute) (hn : Plain n)
    (h : d.isFile (p.child n) = .ok true) : d.isDirectory p = .ok true := by
  have hlocate : ∃ l, d.locate (p.child n) = .ok l := by
    rw [isFile, ask, stat] at h
    cases hl : d.locate (p.child n) with
    | ok l => exact ⟨l, rfl⟩
    | error fault =>
      rw [hl] at h
      cases fault with
      | nul => simp at h
      | os errno q => cases errno <;> simp at h
  obtain ⟨l, hl⟩ := hlocate
  obtain ⟨place, hplace, -⟩ := exists_locate_of_append (Path.root_ne_none hp) hl
  obtain ⟨⟨reachable, hnode⟩, -⟩ := (Discovery.isFile_child hp hplace hn h).1 rfl
  rw [isDirectory, ask, stat, show d.locate p = .ok place from hplace]
  simp [hnode, Node.isDirectory]

/-- A file is no directory. -/
lemma isDirectory_of_isFile (h : d.isFile p = .ok true) : d.isDirectory p = .ok false := by
  rw [isFile, ask] at h
  rw [isDirectory, ask]
  cases hstat : d.stat p with
  | ok node => simpa [hstat] using h
  | error fault =>
      rw [hstat] at h
      cases fault with
      | nul => simp at h
      | os errno q => cases errno <;> simp at h

end Disk

namespace Discovery

variable {d : Disk} {p q dir x : Path} {m : Manifest} {homes : Homes}

/-! ## What is found in a directory -/

/-- A manifest that is found in a directory is a file there, and its name tells its kind. -/
lemma of_manifestIn (h : manifestIn d x = .ok (some m)) :
    ∃ n, Plain n ∧ m.path = x.child n ∧ Manifest.ofPath m.path = m ∧
      d.isFile (x.child n) = .ok true := by
  rw [manifestIn] at h
  cases hcairo : d.isFile (x.child Manifest.cairoProjectToml) with
  | error fault =>
      rw [hcairo] at h
      cases h
  | ok b =>
      rw [hcairo] at h
      cases b with
      | true =>
          cases h
          exact ⟨_, plain_cairoProjectToml, rfl, by simp [Manifest.ofPath, Manifest.path], hcairo⟩
      | false =>
          cases hscarb : d.isFile (x.child Manifest.scarbToml) with
          | error fault =>
              simp only [hscarb] at h
              cases h
          | ok b =>
              simp only [hscarb] at h
              cases b with
              | true =>
                  cases h
                  refine ⟨_, plain_scarbToml, rfl, ?_, hscarb⟩
                  simp [Manifest.ofPath, Manifest.path]
                  decide
              | false => cases h

/-! ## The way of a search -/

/-- **The way of a search** from a directory: those that it goes past, the directory of the manifest,
and those above, which it does not come to. -/
structure Passes (d : Disk) (dir : Path) (m : Manifest) (passed above : List Path) : Prop where
  way : dir.selfAndParents = passed ++ m.path.parent :: above
  nothing : ∀ x ∈ passed, manifestIn d x = .ok none
  found : manifestIn d m.path.parent = .ok (some m)

variable {passed above dirs : List Path}

lemma exists_passed (h : firstManifest d dirs = .ok (some m)) :
    ∃ passed x above, dirs = passed ++ x :: above ∧ (∀ y ∈ passed, manifestIn d y = .ok none) ∧
      manifestIn d x = .ok (some m) := by
  induction dirs with
  | nil => cases h
  | cons x dirs ih =>
      rw [firstManifest] at h
      split at h
      · cases h
      · rename_i m' hm
        obtain rfl : m' = m := Option.some.inj (Except.ok.inj h)
        exact ⟨[], x, dirs, rfl, by simp, hm⟩
      · rename_i hnone
        obtain ⟨passed, y, above, rfl, hnothing, hfound⟩ := ih h
        exact ⟨x :: passed, y, above, rfl, List.forall_mem_cons.2 ⟨hnone, hnothing⟩, hfound⟩

lemma firstManifest_of_passed (hnothing : ∀ y ∈ passed, manifestIn d y = .ok none)
    (hfound : manifestIn d x = .ok (some m)) :
    firstManifest d (passed ++ x :: above) = .ok (some m) := by
  induction passed with
  | nil => rw [List.nil_append, firstManifest, hfound]
  | cons y passed ih =>
      rw [List.forall_mem_cons] at hnothing
      rw [List.cons_append, firstManifest, hnothing.1]
      exact ih hnothing.2

/-- A search starts in a directory and goes on from there. -/
lemma manifestOf_eq_ok_iff {result : Option Manifest} : manifestOf homes d p = .ok result ↔
    ∃ q dir, Path.expandHome homes p = .ok q ∧
      startDirectory d (q.absoluteFrom d.directory) = .ok dir ∧
      firstManifest d dir.selfAndParents = .ok result := by
  rw [manifestOf]
  cases Path.expandHome homes p with
  | error fault => simp
  | ok q =>
      simp only [ownerOf]
      cases hstart : startDirectory d (q.absoluteFrom d.directory) with
      | error fault => simp [hstart, Except.mapError, bind, Except.bind]
      | ok dir =>
          cases hfirst : firstManifest d dir.selfAndParents <;>
            simp [hstart, hfirst, Except.mapError, bind, Except.bind]

lemma manifestOf_of_isAbsolute (hx : x.isAbsolute) (hstart : startDirectory d x = .ok dir)
    {result : Option Manifest} (h : firstManifest d dir.selfAndParents = .ok result) :
    manifestOf homes d x = .ok result := by
  refine manifestOf_eq_ok_iff.2 ⟨x, dir, Path.expandHome_of_isAbsolute hx homes, ?_, h⟩
  rw [Path.absoluteFrom_of_isAbsolute hx]
  exact hstart

lemma exists_passes (h : firstManifest d dir.selfAndParents = .ok (some m)) :
    ∃ passed above, Passes d dir m passed above := by
  obtain ⟨passed, x, above, hway, hnothing, hfound⟩ := exists_passed h
  obtain ⟨n, -, hpath, -, -⟩ := of_manifestIn hfound
  have hx : m.path.parent = x := by rw [hpath, Path.parent_child]
  exact ⟨passed, above, by rw [hx, hway], hnothing, by rw [hx, hfound]⟩

/-! ## Searches from the way -/

lemma Passes.isAbsolute (h : Passes d dir m passed above) (hroot : dir.root ≠ .none)
    (hx : x ∈ passed ++ [m.path.parent]) : x.isAbsolute := by
  obtain ⟨front, rest, hsplit⟩ := List.append_of_mem hx
  have hway : dir.selfAndParents = front ++ x :: (rest ++ above) := by
    rw [h.way, List.append_cons, hsplit, List.append_assoc, List.cons_append]
  have hsame := (Path.selfAndParents_of_append hway).2
  rw [Path.isAbsolute, hsame]
  simpa using hroot

/-- A search from the directory of the manifest finds it at once. -/
lemma Passes.restart_found (h : Passes d dir m passed above) (hroot : dir.root ≠ .none) :
    manifestOf homes d m.path.parent = .ok (some m) := by
  have habsolute : m.path.parent.isAbsolute := h.isAbsolute hroot (by simp)
  obtain ⟨n, hn, -, -, hfile⟩ := of_manifestIn h.found
  have hstart : startDirectory d m.path.parent = .ok m.path.parent := by
    rw [startDirectory, Disk.isDirectory_of_child habsolute hn hfile]
    rfl
  obtain ⟨hself, -⟩ := Path.selfAndParents_of_append h.way
  refine manifestOf_of_isAbsolute habsolute hstart ?_
  rw [hself, firstManifest, h.found]

/-- A search from a directory that has been gone past goes the rest of the way; where there is no
directory, it starts with the next one. -/
lemma Passes.restart_passed (h : Passes d dir m passed above) (hroot : dir.root ≠ .none)
    (hx : x ∈ passed) : manifestOf homes d x = .ok (some m) := by
  have habsolute : x.isAbsolute := h.isAbsolute hroot (List.mem_append_left _ hx)
  have hnone := h.nothing x hx
  obtain ⟨b, hb⟩ : ∃ b, d.isDirectory x = .ok b := by
    cases hfile : d.isFile (x.child Manifest.cairoProjectToml) with
    | ok b => exact Disk.exists_isDirectory_of_child habsolute plain_cairoProjectToml hfile
    | error fault =>
        rw [manifestIn, hfile] at hnone
        cases hnone
  obtain ⟨front, rest, rfl⟩ := List.append_of_mem hx
  have hrest : ∀ y ∈ rest, manifestIn d y = .ok none := fun y hy =>
    h.nothing y (List.mem_append_right _ (List.mem_cons_of_mem _ hy))
  obtain ⟨hself, -⟩ := Path.selfAndParents_of_append
    (h.way.trans (List.append_assoc front (x :: rest) _))
  cases b with
  | true =>
      have hstart : startDirectory d x = .ok x := by
        rw [startDirectory, hb]
        rfl
      refine manifestOf_of_isAbsolute habsolute hstart ?_
      rw [hself]
      exact firstManifest_of_passed (List.forall_mem_cons.2 ⟨hnone, hrest⟩) h.found
  | false =>
      have hstart : startDirectory d x = .ok x.parent := by
        rw [startDirectory, hb]
        rfl
      -- The path has something above it, since the manifest is further on.
      have hparent : x.parent.selfAndParents = rest ++ m.path.parent :: above := by
        rcases x.selfAndParents_eq with ⟨hend, -⟩ | hnext
        · simp [hend] at hself
        · rw [hnext, List.cons.injEq] at hself
          exact hself.2
      refine manifestOf_of_isAbsolute habsolute hstart ?_
      rw [hparent]
      exact firstManifest_of_passed hrest h.found

/-- **A search may be started again** from the manifest that it has found, and from every directory
that it has looked into, and finds the same manifest.  The manifest is also what a user names who
gives its path. -/
theorem manifestOf_restarts (hdirectory : d.directory.isAbsolute)
    (h : manifestOf homes d p = .ok (some m)) :
    Manifest.ofArgument homes d.directory m.path = .ok m ∧
    manifestOf homes d m.path = .ok (some m) ∧
    ∃ q dir passed above, Path.expandHome homes p = .ok q ∧
      startDirectory d (q.absoluteFrom d.directory) = .ok dir ∧ Passes d dir m passed above ∧
      ∀ x ∈ passed ++ [m.path.parent], manifestOf homes d x = .ok (some m) := by
  obtain ⟨q, dir, hq, hdir, hfirst⟩ := manifestOf_eq_ok_iff.1 h
  obtain ⟨passed, above, hpasses⟩ := exists_passes hfirst
  have hroot := root_of_startDirectory hdirectory hdir
  obtain ⟨n, -, hpath, hkind, hfile⟩ := of_manifestIn hpasses.found
  have hparent : m.path.parent.isAbsolute := hpasses.isAbsolute hroot (by simp)
  have habsolute : m.path.isAbsolute := hparent
  refine ⟨?_, ?_, q, dir, passed, above, hq, hdir, hpasses, fun x hx => ?_⟩
  · rw [Manifest.ofArgument, Path.expandHome_of_isAbsolute habsolute, Except.map,
      Path.absoluteFrom_of_isAbsolute habsolute, hkind]
  · -- The manifest is a file, so the search starts in its directory.
    have hstart : startDirectory d m.path = .ok m.path.parent := by
      rw [startDirectory, Disk.isDirectory_of_isFile (by rw [hpath]; exact hfile)]
      rfl
    obtain ⟨hself, -⟩ := Path.selfAndParents_of_append hpasses.way
    refine manifestOf_of_isAbsolute habsolute hstart ?_
    rw [hself, firstManifest, hpasses.found]
  · rcases List.mem_append.1 hx with hx | hx
    · exact hpasses.restart_passed hroot hx
    · obtain rfl := List.mem_singleton.1 hx
      exact hpasses.restart_found hroot

/-- The user `u` has the home `/a`.  A search from the missing file `~u/x/../s` goes past `/a/x/..` and
`/a/x`, neither of which is there, and finds the manifest in `/a`. -/
theorem manifestOf_restarts_missing :
    let a : Name := ⟨[0x61], by decide, by decide, by decide⟩
    let u : Name := ⟨[0x7E, 0x75], by decide, by decide, by decide⟩
    let x : Name := ⟨[0x78], by decide, by decide, by decide⟩
    let s : Name := ⟨[0x73], by decide, by decide, by decide⟩
    let homes : Homes := ⟨none, fun user => if user = [0x75] then some [slash, 0x61] else none⟩
    let d : Disk := ⟨FileTree.empty.write [a, Manifest.scarbToml] (.file [] true), .top⟩
    let m : Manifest := .scarb ⟨.single, [a, Manifest.scarbToml]⟩
    d.directory.isAbsolute ∧ manifestOf homes d ⟨.none, [u, x, .up, s]⟩ = .ok (some m) ∧
      Manifest.ofArgument homes d.directory m.path = .ok m ∧
      manifestOf homes d m.path = .ok (some m) ∧
      ∃ passed above, Passes d ⟨.single, [a, x, .up]⟩ m passed above ∧
        ∀ y ∈ passed ++ [⟨.single, [a]⟩], manifestOf homes d y = .ok (some m) := by
  intro a u x s homes d m
  have hdirectory : d.directory.isAbsolute := by decide
  have hhome : Path.expandHome homes ⟨.none, [u, x, .up, s]⟩ = .ok ⟨.single, [a, x, .up, s]⟩ := by
    decide
  have hfound : manifestOf homes d ⟨.none, [u, x, .up, s]⟩ = .ok (some m) := by decide
  have hstart : startDirectory d ⟨.single, [a, x, .up, s]⟩ = .ok ⟨.single, [a, x, .up]⟩ := by
    decide
  obtain ⟨hargument, hself, q, dir, passed, above, hq, hdir, hpasses, hrestarts⟩ :=
    manifestOf_restarts hdirectory hfound
  obtain rfl : ⟨.single, [a, x, .up, s]⟩ = q := Except.ok.inj (hhome.symm.trans hq)
  obtain rfl : ⟨.single, [a, x, .up]⟩ = dir := Except.ok.inj (hstart.symm.trans hdir)
  exact ⟨hdirectory, hfound, hargument, hself, passed, above, hpasses, hrestarts⟩

end Discovery

end ScarbCrates
