import Mathlib.Data.List.Infix
import Mathlib.Tactic.Common
import ScarbCrates.FileTree.Disk

/-!
# Places on the way

Following the names of a path goes from place to place, down into a directory or up to the one that
it is in.  So whoever gets to a place has been at the places above it, wherever else the way has
led.

* `Disk.enter_cases` — one step.
* `Disk.exists_visit` — the places above the end of a way are visited on it.
* `Disk.prefix_of_walk` — a way that never goes up stays below its beginning.
-/

namespace ScarbCrates

namespace Disk

variable {t : FileTree} {here there last : Location} {n : Name} {ns more : List Name}

/-- One step goes from a directory up, or down to something that is there. -/
lemma enter_cases (h : enter t here n = .ok there) : t.node? here = some (.directory true) ∧
    (n = .up ∧ there = here.dropLast ∨
      n ≠ .up ∧ there = here ++ [n] ∧ (t.node? there).isSome) := by
  rw [enter] at h
  split at h
  · cases h
  · cases h
  · cases h
  · rename_i hnode
    refine ⟨hnode, ?_⟩
    split_ifs at h with hup hlong hsome
    · cases h
      exact .inl ⟨hup, rfl⟩
    · cases h
      exact .inr ⟨hup, rfl, hsome⟩

lemma walk_cons (h : walk t here (n :: ns) = .ok last) :
    ∃ there, enter t here n = .ok there ∧ walk t there ns = .ok last := by
  rw [walk] at h
  split at h
  · cases h
  · exact ⟨_, ‹_›, h⟩

lemma walk_cons_of_enter (h : enter t here n = .ok there) :
    walk t here (n :: ns) = walk t there ns := by
  rw [walk, h]

/-- A way leads on from where its first part leads. -/
lemma walk_append (t : FileTree) (here : Location) (ns more : List Name) :
    walk t here (ns ++ more) = (walk t here ns).bind fun there => walk t there more := by
  induction ns generalizing here with
  | nil => rfl
  | cons n rest ih =>
      rw [List.cons_append, walk, walk]
      cases enter t here n with
      | error e => rfl
      | ok there => exact ih there

lemma walk_append_ok (h : walk t here (ns ++ more) = .ok last) :
    ∃ there, walk t here ns = .ok there ∧ walk t there more = .ok last := by
  rw [walk_append] at h
  cases hns : walk t here ns with
  | error e =>
      rw [hns] at h
      cases h
  | ok there =>
      rw [hns] at h
      exact ⟨there, rfl, h⟩

/-- **The places above the end of a way are visited on it,** those apart that are above all that is
above both its beginning and its end. -/
lemma exists_visit {place : Location} (h : walk t here ns = .ok last) (hplace : place <+: last)
    (hne : place ≠ here) (hlow : ∀ c, c <+: here → c <+: last → c <+: place) :
    ∃ visited rest, ns = visited ++ rest ∧ visited ≠ [] ∧ walk t here visited = .ok place := by
  -- Whichever way a step goes, what is above both ends remains above the place.
  induction ns generalizing here with
  | nil =>
      obtain rfl : last = here := (Except.ok.inj h).symm
      have hplace' := hlow last List.prefix_rfl List.prefix_rfl
      exact absurd (hplace.eq_of_length_le hplace'.length_le) hne
  | cons n rest ih =>
      obtain ⟨there, henter, hwalk⟩ := walk_cons h
      by_cases hthere : place = there
      · refine ⟨[n], rest, rfl, List.cons_ne_nil n [], ?_⟩
        rw [walk_cons_of_enter henter, hthere, walk]
      · have hlow' : ∀ c, c <+: there → c <+: last → c <+: place := by
          intro c hc hlast
          obtain ⟨-, ⟨-, rfl⟩ | ⟨-, rfl, -⟩⟩ := enter_cases henter
          · exact hlow c (hc.trans (List.dropLast_prefix here)) hlast
          · rcases List.prefix_concat_iff.1 hc with rfl | hc
            · -- The step leads to a place above the end, and so towards the place in question.
              have hhere := hlow here List.prefix_rfl ((List.prefix_append here [n]).trans hlast)
              refine List.prefix_of_prefix_length_le hlast hplace ?_
              have hlength : here.length ≠ place.length := fun hlength =>
                hne (hhere.eq_of_length hlength).symm
              have := hhere.length_le
              simp only [List.length_append, List.length_singleton]
              omega
            · exact hlow c hc hlast
        obtain ⟨visited, rest', rfl, -, hvisited⟩ := ih hwalk hthere hlow'
        refine ⟨n :: visited, rest', rfl, List.cons_ne_nil _ _, ?_⟩
        rw [walk_cons_of_enter henter, hvisited]

lemma exists_visit_of_top {place : Location} (h : walk t [] ns = .ok last)
    (hplace : place <+: last) :
    ∃ visited rest, ns = visited ++ rest ∧ walk t [] visited = .ok place := by
  by_cases hne : place = []
  · exact ⟨[], ns, rfl, by rw [hne, walk]⟩
  · have hlow : ∀ c, c <+: ([] : Location) → c <+: last → c <+: place := by
      intro c hc _
      rw [List.prefix_nil.1 hc]
      exact List.nil_prefix
    obtain ⟨visited, rest, hns, -, hvisited⟩ := exists_visit h hplace hne hlow
    exact ⟨visited, rest, hns, hvisited⟩

/-- A way that never goes up stays below its beginning. -/
lemma prefix_of_walk (h : walk t here ns = .ok last) (hup : Name.up ∉ ns) : here <+: last := by
  induction ns generalizing here with
  | nil =>
      cases h
      exact List.prefix_rfl
  | cons n rest ih =>
      rw [List.mem_cons, not_or] at hup
      obtain ⟨there, henter, hwalk⟩ := walk_cons h
      obtain ⟨-, ⟨rfl, -⟩ | ⟨-, rfl, -⟩⟩ := enter_cases henter
      · exact absurd rfl hup.1
      · exact (List.prefix_append here [n]).trans (ih hwalk hup.2)

/-! ## Paths that begin at the top -/

lemma any_joinNames (ns : List Name) :
    (Path.joinNames ns).any (· == 0) = ns.any fun n => n.bytes.any (· == 0) := by
  induction ns with
  | nil => rfl
  | cons n rest ih =>
      cases rest with
      | nil => simp [Path.joinNames]
      | cons n' rest =>
          rw [Path.joinNames, List.any_append, List.any_cons, ih, List.any_cons]
          · rfl
          · exact List.cons_ne_nil n' rest

lemma holdsNul_eq (p : Path) : holdsNul p = p.names.any fun n => n.bytes.any (· == 0) := by
  obtain ⟨root, ns⟩ := p
  rw [← any_joinNames, holdsNul]
  cases root <;> cases ns <;> simp [Path.bytes, Path.rootBytes, Path.joinNames, slash, dot]

lemma length_joinNames_le (ns more : List Name) :
    (Path.joinNames ns).length ≤ (Path.joinNames (ns ++ more)).length := by
  induction ns with
  | nil => exact Nat.zero_le _
  | cons n rest ih =>
      cases rest with
      | nil => cases more <;> simp [Path.joinNames]
      | cons n' rest => simpa [Path.joinNames] using ih

lemma length_bytes_le {root : Root} (hroot : root ≠ .none) (ns more : List Name) :
    (⟨root, ns⟩ : Path).bytes.length ≤ (⟨root, ns ++ more⟩ : Path).bytes.length := by
  have hbytes : ∀ ns, (⟨root, ns⟩ : Path).bytes = Path.rootBytes root ++ Path.joinNames ns := by
    intro ns
    cases root with
    | none => exact absurd rfl hroot
    | single | double => rfl
  rw [hbytes, hbytes, List.length_append, List.length_append]
  exact Nat.add_le_add_left (length_joinNames_le ns more) _

lemma namesFromTop_eq {p : Path} (d : Disk) (hp : p.isAbsolute) : d.namesFromTop p = p.names := by
  rw [namesFromTop, Path.absoluteFrom, Path.join, if_pos hp]

lemma locate_ok_iff {d : Disk} {p : Path} {l : Location} (hp : p.isAbsolute) :
    d.locate p = .ok l ↔
      holdsNul p = false ∧ p.bytes.length ≤ longestPath ∧ walk d.files [] p.names = .ok l := by
  rw [locate, namesFromTop_eq d hp]
  split_ifs with hnul hlong
  · simp [hnul]
  · simp [Nat.not_le.2 hlong]
  · cases walk d.files [] p.names <;> simp [hnul, Nat.not_lt.1 hlong]

/-- The beginning of a path that leads somewhere leads somewhere. -/
lemma exists_locate_of_append {d : Disk} {root : Root} {l : Location} (hroot : root ≠ .none)
    (h : d.locate ⟨root, ns ++ more⟩ = .ok l) :
    ∃ place, d.locate ⟨root, ns⟩ = .ok place ∧ walk d.files place more = .ok l := by
  have habsolute : ∀ ns, (⟨root, ns⟩ : Path).isAbsolute := fun ns => by
    simpa [Path.isAbsolute] using hroot
  obtain ⟨hnul, hlong, hwalk⟩ := (locate_ok_iff (habsolute _)).1 h
  obtain ⟨place, hplace, hmore⟩ := walk_append_ok hwalk
  refine ⟨place, (locate_ok_iff (habsolute _)).2 ⟨?_, ?_, hplace⟩, hmore⟩
  · rw [holdsNul_eq, List.any_append, Bool.or_eq_false_iff] at hnul
    rw [holdsNul_eq, hnul.1]
  · exact Nat.le_trans (length_bytes_le hroot ns more) hlong

end Disk

end ScarbCrates
