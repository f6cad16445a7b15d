import ScarbCrates.Proofs.Path.Walking

/-!
# Where a path leads

The rules by which a path leads to what is there, one name after the other.  A step goes from a
directory that can be entered, and from nothing else: `..` goes to the directory above, which for
`/` is `/` itself, and any other name of a length that is allowed to what is there under it.  What
kind of node is at the end does not matter to the way.

* `Disk.Step`, `Disk.Leads` — one step, and a way.
* `Disk.Founded` — a place with directories above it; all that a way from `/` comes to are.
* `Disk.Reaches`, `Disk.stat_ok_iff` — what a path leads to is what is found.
* `Disk.Reaches.isDirectory_of_up` — a path that ends with `..` leads to a directory.
-/

namespace ScarbCrates

namespace Disk

variable {t : FileTree} {here there last : Location} {n : Name} {ns more : List Name}

/-! ## Ways -/

/-- **One step.** -/
inductive Step (t : FileTree) (here : Location) : Name → Location → Prop
  | up (enterable : t.node? here = some (.directory true)) : Step t here .up here.dropLast
  | down {n : Name} (enterable : t.node? here = some (.directory true)) (ne_up : n ≠ .up)
      (short : n.bytes.length ≤ longestName) (present : (t.node? (here ++ [n])).isSome) :
      Step t here n (here ++ [n])

/-- **A way,** one step for each name. -/
inductive Leads (t : FileTree) : Location → List Name → Location → Prop
  | stay {here : Location} : Leads t here [] here
  | go {here there last : Location} {n : Name} {ns : List Name} (step : Step t here n there)
      (rest : Leads t there ns last) : Leads t here (n :: ns) last

lemma enter_ok_iff : enter t here n = .ok there ↔ Step t here n there := by
  constructor
  · intro h
    obtain ⟨henterable, ⟨rfl, rfl⟩ | ⟨hup, rfl, hpresent⟩⟩ := enter_cases h
    · exact .up henterable
    · refine .down henterable hup (Nat.not_lt.1 fun hlong => ?_) hpresent
      rw [enter, henterable] at h
      simp only [if_neg hup, if_pos hlong] at h
      cases h
  · intro h
    cases h with
    | up henterable => simp only [enter, henterable, if_true]
    | down henterable hup hshort hpresent =>
        simp only [enter, henterable, if_neg hup, if_neg (Nat.not_lt.2 hshort), if_pos hpresent]

lemma walk_ok_iff : walk t here ns = .ok last ↔ Leads t here ns last := by
  constructor
  · intro h
    induction ns generalizing here with
    | nil =>
        cases h
        exact .stay
    | cons n rest ih =>
        obtain ⟨there, henter, hrest⟩ := walk_cons h
        exact .go (enter_ok_iff.1 henter) (ih hrest)
  · intro h
    induction h with
    | stay => rfl
    | go step _ ih => rw [walk_cons_of_enter (enter_ok_iff.2 step), ih]

/-! ## What is above a place that is reached -/

/-- **A place is founded** if something is there and all above it are directories that can be
entered. -/
structure Founded (t : FileTree) (l : Location) : Prop where
  above : ∀ a, a <+: l → a ≠ l → t.node? a = some (.directory true)
  present : (t.node? l).isSome

lemma founded_top (t : FileTree) : Founded t [] := by
  refine ⟨fun a ha hne => absurd (List.prefix_nil.1 ha) hne, ?_⟩
  rw [FileTree.node?]
  split <;> simp

/-- The place above a founded one is a directory, that of `/` being `/`. -/
lemma Founded.dropLast (h : Founded t here) (hdirectory : t.node? here = some (.directory true)) :
    t.node? here.dropLast = some (.directory true) := by
  by_cases hnil : here = []
  · rw [hnil] at hdirectory ⊢
    exact hdirectory
  · refine h.above _ (List.dropLast_prefix here) fun heq => ?_
    have hlength := congrArg List.length heq
    have := List.length_pos_iff.2 hnil
    rw [List.length_dropLast] at hlength
    omega

lemma Step.founded (hstep : Step t here n there) (h : Founded t here) : Founded t there := by
  cases hstep with
  | up henterable =>
      refine ⟨fun a ha _ => ?_, Option.isSome_of_eq_some (h.dropLast henterable)⟩
      by_cases hhere : a = here
      · rw [hhere, henterable]
      · exact h.above a (ha.trans (List.dropLast_prefix here)) hhere
  | down henterable _ _ hpresent =>
      refine ⟨fun a ha hne => ?_, hpresent⟩
      obtain rfl | ha := List.prefix_concat_iff.1 ha
      · exact absurd rfl hne
      · by_cases hhere : a = here
        · rw [hhere, henterable]
        · exact h.above a ha hhere

lemma Leads.founded (hleads : Leads t here ns last) (h : Founded t here) : Founded t last := by
  induction hleads with
  | stay => exact h
  | go step _ ih => exact ih (step.founded h)

lemma Leads.append_iff : Leads t here (ns ++ more) last ↔
    ∃ there, Leads t here ns there ∧ Leads t there more last := by
  simp only [← walk_ok_iff, walk_append]
  cases walk t here ns <;> simp [Except.bind]

/-! ## What a path leads to -/

/-- **A path leads to a node** if it is not too long and the way from `/`, for a relative path by
the working directory, ends where the node is. -/
def Reaches (d : Disk) (p : Path) (node : Node) : Prop :=
  p.bytes.length ≤ longestPath ∧
    ∃ place, Leads d.files [] (d.namesFromTop p) place ∧ d.files.node? place = some node

variable {d : Disk} {p : Path} {node node' : Node}

/-- **What a path leads to is what is found,** and nothing else is. -/
theorem stat_ok_iff (hnul : holdsNul p = false) : d.stat p = .ok node ↔ d.Reaches p node := by
  rw [Reaches, stat, locate, if_neg (by simp [hnul])]
  split_ifs with hlong
  · simp [Nat.not_le.2 hlong]
  · simp only [← walk_ok_iff, Nat.not_lt.1 hlong, true_and]
    cases walk d.files [] (d.namesFromTop p) with
    | error e => simp
    | ok place =>
        simp only [Except.ok.injEq, exists_eq_left']
        split <;> simp_all

lemma Reaches.unique (hnul : holdsNul p = false) (h : d.Reaches p node)
    (h' : d.Reaches p node') : node = node' := by
  rw [← stat_ok_iff hnul] at h h'
  exact Except.ok.inj (h.symm.trans h')

/-- **A path that ends with `..` leads to a directory,** if it leads anywhere. -/
theorem Reaches.isDirectory_of_up (h : d.Reaches p node) (hname : p.name? = some .up) :
    node.isDirectory = true := by
  obtain ⟨-, place, hleads, hnode⟩ := h
  obtain ⟨front, hfront⟩ : ∃ front, d.namesFromTop p = front ++ [.up] := by
    obtain ⟨front, hp⟩ := List.getLast?_eq_some_iff.1 hname
    rw [namesFromTop, Path.absoluteFrom, Path.join]
    split
    · exact ⟨front, hp⟩
    · exact ⟨d.directory.names ++ front, by rw [hp, List.append_assoc]⟩
  rw [hfront, Leads.append_iff] at hleads
  obtain ⟨there, hthere, hlast⟩ := hleads
  have hfounded := hthere.founded (founded_top _)
  rcases hlast with _ | ⟨hstep, _ | _⟩
  cases hstep with
  | up henterable =>
      rw [hfounded.dropLast henterable] at hnode
      cases hnode
      rfl
  | down _ hup => exact absurd rfl hup

end Disk

end ScarbCrates
