import ScarbCrates.Proofs.Derivation.Naming
import ScarbCrates.Proofs.FirstMention

/-!
# Crates by their names

Several components of a workspace may have the same name, and then the index has the crate of the
last of them, at the place of the first.  Only accepted components count: one that is rejected, or
that belongs to a compiler plugin, does not come into it, wherever it stands.

* `Assoc.get?_ofList` — the values in a table of entries.
* `Crate.keys_byName`, `Crate.get?_byName` — the places and the values in the index of crates.
* `Derivation.accepted` — the components that count.
* `Derivation.byName_crates` — the index of a workspace.
-/

namespace ScarbCrates

namespace Assoc

variable {κ α : Type} [DecidableEq κ]

lemma get?_put (entries : List (κ × α)) (key other : κ) (a : α) :
    get? (put entries key a) other = if key = other then some a else get? entries other := by
  split_ifs with h
  · rw [← h, get?_put_self]
  · exact get?_put_of_ne entries a (Ne.symm h)

/-- **The values of a table** are the last ones that each key is given. -/
theorem get?_ofList (entries : List (κ × α)) (key : κ) :
    get? (ofList entries) key = ((entries.filter fun e => e.1 = key).getLast?).map Prod.snd := by
  induction entries using List.reverseRecOn with
  | nil => rfl
  | append_singleton entries e ih =>
      have hput : ofList (entries ++ [e]) = put (ofList entries) e.1 e.2 := by
        rw [ofList, List.foldl_append]
        rfl
      rw [hput, get?_put, ih, List.filter_append]
      split_ifs with h <;> simp [h]

end Assoc

namespace Crate

lemma keys_byName (cs : List Crate) : Assoc.keys (byName cs) = (cs.map Crate.name).eraseDups := by
  rw [byName, Assoc.keys_ofList, Assoc.keys, List.map_map]
  rfl

lemma get?_byName (cs : List Crate) (name : String) :
    Assoc.get? (byName cs) name = (cs.filter fun c => c.name = name).getLast? := by
  rw [byName, Assoc.get?_ofList, List.filter_map, List.getLast?_map, Option.map_map]
  exact Option.map_id'

/-- **One index overrides another:** names that only the second has come behind those of the first,
and where the second has a crate it takes the place of that of the first. -/
structure Overridden (first second both : List (String × Crate)) : Prop where
  keys : Assoc.keys both =
    Assoc.keys first ++ (Assoc.keys second).filter fun name => name ∉ Assoc.keys first
  values : ∀ name, Assoc.get? both name = (Assoc.get? second name).or (Assoc.get? first name)

lemma overridden_byName (cs ds : List Crate) :
    Overridden (byName cs) (byName ds) (byName (cs ++ ds)) := by
  refine ⟨?_, fun name => ?_⟩
  · rw [keys_byName, keys_byName, keys_byName, List.map_append, ← foldl_mention_nil,
      List.foldl_append, foldl_mention_nil, foldl_mention, eraseDups_filter]
  · rw [get?_byName, get?_byName, get?_byName, List.filter_append, List.getLast?_append]

end Crate

namespace Derivation

open Metadata

variable {d : Disk} {m : Metadata}

/-! ## Accepted components -/

/-- The source file of a component is accepted. -/
def Accepts (d : Disk) (c : Component) : Prop :=
  ∃ source, SourceRoot.check d c.sourcePath c.name = .ok (.ok source)

instance : DecidablePred (Accepts d) := fun c =>
  match h : SourceRoot.check d c.sourcePath c.name with
  | .ok (.ok source) => isTrue ⟨source, h⟩
  | .ok (.error _) => isFalse fun ⟨_, h'⟩ => by simp [h] at h'
  | .error _ => isFalse fun ⟨_, h'⟩ => by simp [h] at h'

/-- **The components whose source files are accepted,** of those that crates are made of, in the
order of the document. -/
def accepted (d : Disk) (m : Metadata) : List (List Datum × Component) :=
  (placed m).filter fun x => Accepts d x.2

/-- An accepted component has a crate of its name, and no other has any. -/
lemma crateAt_cases (d : Disk) (m : Metadata) (x : List Datum × Component) :
    (Accepts d x.2 ∧ ∃ crate, crateAt d m x = some crate ∧ crate.name = x.2.name) ∨
      ¬Accepts d x.2 ∧ crateAt d m x = none := by
  have hiff : (crateAt d m x).isSome ↔ Accepts d x.2 := isSome_crateAt_iff
  cases hcrate : crateAt d m x with
  | some crate => exact .inl ⟨hiff.1 (by rw [hcrate]; rfl), crate, rfl, name_of_crateAt hcrate⟩
  | none => exact .inr ⟨fun h => by simpa [hcrate] using hiff.2 h, rfl⟩

lemma names_crates (xs : List (List Datum × Component)) :
    (xs.filterMap (crateAt d m)).map Crate.name =
      (xs.filter fun x => Accepts d x.2).map fun x => x.2.name := by
  induction xs with
  | nil => rfl
  | cons x rest ih =>
      rcases crateAt_cases d m x with ⟨haccepts, crate, hcrate, hname⟩ | ⟨hnot, hnone⟩
      · rw [List.filterMap_cons_some hcrate, List.filter_cons_of_pos (by simpa using haccepts),
          List.map_cons, List.map_cons, ih, hname]
      · rw [List.filterMap_cons_none hnone, List.filter_cons_of_neg (by simpa using hnot), ih]

/-- The crates of a name are those of the accepted components of the name. -/
lemma filter_name_crates (name : String) (xs : List (List Datum × Component)) :
    (xs.filterMap (crateAt d m)).filter (fun crate => crate.name = name) =
      ((xs.filter fun x => Accepts d x.2).filter fun x => x.2.name = name).filterMap
        (crateAt d m) := by
  induction xs with
  | nil => rfl
  | cons x rest ih =>
      rcases crateAt_cases d m x with ⟨haccepts, crate, hcrate, hname⟩ | ⟨hnot, hnone⟩
      · have hkept : (x :: rest).filter (fun x => Accepts d x.2) =
            x :: rest.filter fun x => Accepts d x.2 :=
          List.filter_cons_of_pos (by simpa using haccepts)
        rw [List.filterMap_cons_some hcrate, hkept, List.filter_cons, List.filter_cons, hname, ih]
        split_ifs
        · rw [List.filterMap_cons_some hcrate]
        · rfl
      · rw [List.filterMap_cons_none hnone, List.filter_cons_of_neg (by simpa using hnot), ih]

lemma getLast?_crates {xs : List (List Datum × Component)} {x : List Datum × Component}
    (h : xs.getLast? = some x) (haccepts : Accepts d x.2) :
    ∃ crate, crateAt d m x = some crate ∧
      (xs.filterMap (crateAt d m)).getLast? = some crate := by
  obtain ⟨front, rfl⟩ := List.getLast?_eq_some_iff.1 h
  obtain ⟨-, crate, hcrate, -⟩ | ⟨hnot, -⟩ := crateAt_cases d m x
  · refine ⟨crate, hcrate, ?_⟩
    rw [List.filterMap_append, List.filterMap_cons_some hcrate]
    exact List.getLast?_concat
  · exact absurd haccepts hnot

/-! ## The index of a workspace -/

/-- The last accepted component of a name. -/
def lastNamed (d : Disk) (m : Metadata) (name : String) :
    Option (List Datum × Component) :=
  ((accepted d m).filter fun x => x.2.name = name).getLast?

/-- A component that no accepted one of its name follows is the last of its name. -/
lemma lastNamed_of_split {xs ys : List (List Datum × Component)} {x : List Datum × Component}
    (hplaced : placed m = xs ++ x :: ys) (hx : Accepts d x.2)
    (hys : ∀ y ∈ ys, y.2.name = x.2.name → ¬Accepts d y.2) :
    lastNamed d m x.2.name = some x := by
  have hrest : (ys.filter fun y => Accepts d y.2).filter (fun y => y.2.name = x.2.name) = [] := by
    simpa [List.filter_eq_nil_iff] using fun flags c => hys (flags, c)
  rw [lastNamed, accepted, hplaced, List.filter_append, List.filter_append,
    List.filter_cons_of_pos (by simpa using hx), List.filter_cons_of_pos (by simp), hrest]
  exact List.getLast?_concat

/-- **An index of the crates of a document.**  Its names are those of the accepted components, in
the order in which they are first accepted, and each has the crate of the last accepted component of
the name.  What comes after that, and is rejected or belongs to a compiler plugin, does not displace
it. -/
structure Indexes (d : Disk) (m : Metadata) (index : List (String × Crate)) : Prop where
  names : Assoc.keys index = ((accepted d m).map fun x => x.2.name).eraseDups
  last : ∀ name x, lastNamed d m name = some x →
    ∃ crate, crateAt d m x = some crate ∧ Assoc.get? index name = some crate
  undisplaced : ∀ (pre post : List CompilationUnit) (unit : CompilationUnit)
    (front back : List Component) (c : Component),
    m.compilationUnits = pre ++ unit :: post → unit.components = front ++ c :: back →
    unit.target.kind ≠ pluginKind → Accepts d c →
    (∀ c' ∈ back, c'.name = c.name → ¬Accepts d c') →
    (∀ unit' ∈ post, unit'.target.kind ≠ pluginKind →
      ∀ c' ∈ unit'.components, c'.name = c.name → ¬Accepts d c') →
    ∃ crate, crateAt d m (unit.cfg, c) = some crate ∧ Assoc.get? index c.name = some crate

/-- A component has its place between those before it and those after it. -/
lemma placed_of_split {pre post : List CompilationUnit} {unit : CompilationUnit}
    {front back : List Component} {c : Component}
    (hunits : m.compilationUnits = pre ++ unit :: post)
    (hcomponents : unit.components = front ++ c :: back) (hkind : unit.target.kind ≠ pluginKind) :
    placed m = (pre.flatMap placedIn ++ placedIn { unit with components := front }) ++
      (unit.cfg, c) :: (placedIn { unit with components := back } ++ post.flatMap placedIn) := by
  have hunit : unit = { unit with components := front ++ [c] ++ back } := by
    rw [List.append_assoc, List.singleton_append, ← hcomponents]
  have hone : placedIn { unit with components := [c] } = [(unit.cfg, c)] := if_neg hkind
  rw [hunit] at hunits
  rw [placed_components hunits, hone, List.append_assoc, List.singleton_append]

lemma exists_of_mem_placedIn {unit : CompilationUnit} {y : List Datum × Component}
    (h : y ∈ placedIn unit) :
    unit.target.kind ≠ pluginKind ∧ ∃ c ∈ unit.components, (unit.cfg, c) = y := by
  rw [placedIn] at h
  split_ifs at h with hkind
  · cases h
  · exact ⟨hkind, List.mem_map.1 h⟩

lemma indexes_byName (d : Disk) (m : Metadata) :
    Indexes d m (Crate.byName ((placed m).filterMap (crateAt d m))) := by
  have hlast : ∀ name x, lastNamed d m name = some x → ∃ crate, crateAt d m x = some crate ∧
      Assoc.get? (Crate.byName ((placed m).filterMap (crateAt d m))) name = some crate := by
    intro name x hx
    have hmem := List.mem_of_getLast? hx
    rw [Crate.get?_byName, filter_name_crates]
    refine getLast?_crates hx ?_
    simpa using (List.mem_filter.1 (List.mem_filter.1 hmem).1).2
  refine ⟨?_, hlast, ?_⟩
  · rw [Crate.keys_byName, names_crates, accepted]
  · intro pre post unit front back c hunits hcomponents hkind hc hback hpost
    refine hlast c.name (unit.cfg, c) (lastNamed_of_split
      (placed_of_split hunits hcomponents hkind) hc fun y hy hname => ?_)
    rcases List.mem_append.1 hy with hy | hy
    · obtain ⟨-, c', hc', rfl⟩ := exists_of_mem_placedIn hy
      exact hback c' hc' hname
    · obtain ⟨unit', hunit', hy⟩ := List.mem_flatMap.1 hy
      obtain ⟨hkind', c', hc', rfl⟩ := exists_of_mem_placedIn hy
      exact hpost unit' hunit' hkind' c' hc' hname

/-- **The crates of a document by their names,** where its source files can be looked at: the crates
are what the crates query answers, they have the index of the accepted components, and the index of
some crates and more is that of the first overridden by that of the others. -/
theorem byName_crates (h : NulFree m) :
    ∃ cs ns, (crates d m).run = ⟨.ok cs, ns⟩ ∧
      (∀ (t : Toolchain) (p : Manifest) (s s₁ : Database.State),
        Session.run (Database.metadata t p) s = (.ok (some m), s₁) → s₁.world.disk = d →
          Session.run (Database.computeCrates t p) s = (.ok (.crates cs), s₁.withNotices ns)) ∧
      Indexes d m (Crate.byName cs) ∧
      ∀ first second : List Crate,
        Crate.Overridden (Crate.byName first) (Crate.byName second)
          (Crate.byName (first ++ second)) := by
  have hvalue := crates_value_of_nulFree (d := d) h
  have hrun : (crates d m).run =
      ⟨.ok ((placed m).filterMap (crateAt d m)), (crates d m).run.notices⟩ := by rw [← hvalue]
  refine ⟨_, _, hrun, ?_, indexes_byName d m, Crate.overridden_byName⟩
  rintro t p s s₁ hmetadata rfl
  exact Database.run_computeCrates_of_metadata hmetadata hrun

/-- The second of two accepted components has the name, and neither one without a source file nor a
compiler plugin takes it away. -/
theorem byName_crates_of_rejected :
    let d : Disk :=
      ⟨(FileTree.empty.write [sampleName] (.file [] true)).write [otherName] (.file [] true), .top⟩
    let component (name : String) (n : Name) : Component := ⟨"p", name, ⟨.single, [n]⟩, none⟩
    let m : Metadata := { (default : Metadata) with compilationUnits :=
      [{ (default : CompilationUnit) with
        components := [component "x" sampleName, component "y" sampleName] },
      { (default : CompilationUnit) with
        components := [component "x" otherName,
          component "x" ⟨[0x63], by decide, by decide, by decide⟩] },
      { (default : CompilationUnit) with
        target := { (default : Target) with kind := pluginKind },
        components := [component "x" sampleName] }] }
    ∃ cs ns, (crates d m).run = ⟨.ok cs, ns⟩ ∧ Assoc.keys (Crate.byName cs) = ["x", "y"] ∧
      Assoc.get? (Crate.byName cs) "x" =
        some ⟨"x", .top, some "b", ⟨.default, some ⟨[]⟩, .off⟩⟩ := by
  intro d component m
  have hnul : ∀ x ∈ placed m, Disk.holdsNul x.2.sourcePath = false := by decide
  obtain ⟨cs, ns, hrun, -, hindex, -⟩ := byName_crates (d := d) hnul
  obtain ⟨crate, hcrate, hget⟩ := hindex.last "x" ([], component "x" otherName) rfl
  obtain rfl : crate = ⟨"x", .top, some "b", ⟨.default, some ⟨[]⟩, .off⟩⟩ := by
    exact (Option.some.inj hcrate).symm
  exact ⟨cs, ns, hrun, hindex.names.trans (by decide), hget⟩

end Derivation

end ScarbCrates
