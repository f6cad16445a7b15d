import Mathlib.Data.List.Pairwise
import Mathlib.Data.List.Sort
import Mathlib.Data.String.Basic
import Mathlib.Order.Compare
import ScarbCrates.Settings.Cfg

/-!
# The order of flags

Flags are ordered by their keys, and flags with the same key by their values.  A flag without a
value has no place among the flags with a value: it can be compared with those of other keys, but
not with one of its own.  So the order is total exactly where no key stands both with and without a
value, and there the flags can be sorted.

* `Cfg.Before`, `Cfg.Clash` — the order, and the flags that have none.
* `Cfg.insertSorted?_eq_none_iff` — a flag finds its place unless it clashes with one in the list.
* `Cfg.sort?_eq_some_iff` — sorting gives the one ascending list of the flags.
* `Cfg.ordered_unless_clash` — which flags can be compared, and which can be sorted.
-/

namespace ScarbCrates

namespace Cfg

variable {a b c : Cfg} {cs ds : List Cfg}

/-! ## Two flags -/

/-- **One flag comes before another:** its key does, or the keys are the same and its value does. -/
def Before (a b : Cfg) : Prop :=
  a.key < b.key ∨ a.key = b.key ∧ ∃ v w, a.value = some v ∧ b.value = some w ∧ v < w

/-- **Two flags clash:** they have the same key, and one of them has a value. -/
def Clash (a b : Cfg) : Prop := a.key = b.key ∧ a.value.isSome ≠ b.value.isSome

/-- What comparing two flags can say, and what each answer means. -/
inductive Compared (a b : Cfg) : Option Ordering → Prop
  | before (h : Before a b) : Compared a b (some .lt)
  | same (h : a = b) : Compared a b (some .eq)
  | after (h : Before b a) : Compared a b (some .gt)
  | clash (h : Clash a b) : Compared a b none

/-- **Comparing two flags.** -/
lemma compared (a b : Cfg) : Compared a b (compare? a b) := by
  obtain ⟨k, x⟩ := a
  obtain ⟨l, y⟩ := b
  rw [compare?]
  cases hkey : compare k l with
  | lt => exact .before (.inl (compare_lt_iff_lt.1 hkey))
  | gt => exact .after (.inl (compare_gt_iff_gt.1 hkey))
  | eq =>
      obtain rfl := compare_eq_iff_eq.1 hkey
      cases x with
      | none =>
          cases y with
          | none => exact .same rfl
          | some w => exact .clash ⟨rfl, Bool.false_ne_true⟩
      | some v =>
          cases y with
          | none => exact .clash ⟨rfl, Bool.false_ne_true.symm⟩
          | some w =>
              show Compared _ _ (some (compare v w))
              cases hvalue : compare v w with
              | lt => exact .before (.inr ⟨rfl, v, w, rfl, rfl, compare_lt_iff_lt.1 hvalue⟩)
              | gt => exact .after (.inr ⟨rfl, w, v, rfl, rfl, compare_gt_iff_gt.1 hvalue⟩)
              | eq =>
                  obtain rfl := compare_eq_iff_eq.1 hvalue
                  exact .same rfl

lemma Before.trans (hab : Before a b) (hbc : Before b c) : Before a c := by
  rcases hab with hab | ⟨hab, v, w, hv, hw, hvw⟩
  · rcases hbc with hbc | ⟨hbc, -⟩
    · exact .inl (hab.trans hbc)
    · exact .inl (hbc ▸ hab)
  · rcases hbc with hbc | ⟨hbc, w', x, hw', hx, hwx⟩
    · exact .inl (hab.symm ▸ hbc)
    · obtain rfl := Option.some.inj (hw.symm.trans hw')
      exact .inr ⟨hab.trans hbc, v, x, hv, hx, hvw.trans hwx⟩

lemma Before.irrefl (a : Cfg) : ¬Before a a := by
  rintro (h | ⟨-, v, w, hv, hw, hvw⟩)
  · exact lt_irrefl _ h
  · obtain rfl := Option.some.inj (hv.symm.trans hw)
    exact lt_irrefl _ hvw

lemma Before.not_before (h : Before a b) : ¬Before b a := fun h' => Before.irrefl a (h.trans h')

lemma Clash.symm (h : Clash a b) : Clash b a := ⟨h.1.symm, h.2.symm⟩

lemma Clash.irrefl (a : Cfg) : ¬Clash a a := fun h => h.2 rfl

/-- Flags that clash have no order. -/
lemma Before.not_clash (h : Before a b) : ¬Clash a b := by
  rintro ⟨hkey, hvalue⟩
  rcases h with h | ⟨-, v, w, hv, hw, -⟩
  · exact h.ne hkey
  · rw [hv, hw] at hvalue
    exact hvalue rfl

lemma compare?_eq_lt_iff : compare? a b = some .lt ↔ Before a b := by
  have hcompared := compared a b
  generalize compare? a b = o at hcompared ⊢
  cases hcompared with
  | before h => exact iff_of_true rfl h
  | same h => exact iff_of_false nofun (h ▸ Before.irrefl a)
  | after h => exact iff_of_false nofun h.not_before
  | clash h => exact iff_of_false nofun fun h' => h'.not_clash h

lemma compare?_eq_eq_iff : compare? a b = some .eq ↔ a = b := by
  have hcompared := compared a b
  generalize compare? a b = o at hcompared ⊢
  cases hcompared with
  | before h => exact iff_of_false nofun fun h' => Before.irrefl b (h' ▸ h)
  | same h => exact iff_of_true rfl h
  | after h => exact iff_of_false nofun fun h' => Before.irrefl b (h' ▸ h)
  | clash h => exact iff_of_false nofun fun h' => Clash.irrefl b (h' ▸ h)

lemma compare?_eq_gt_iff : compare? a b = some .gt ↔ Before b a := by
  have hcompared := compared a b
  generalize compare? a b = o at hcompared ⊢
  cases hcompared with
  | before h => exact iff_of_false nofun h.not_before
  | same h => exact iff_of_false nofun (h ▸ Before.irrefl a)
  | after h => exact iff_of_true rfl h
  | clash h => exact iff_of_false nofun fun h' => h'.not_clash h.symm

lemma compare?_eq_none_iff : compare? a b = none ↔ Clash a b := by
  have hcompared := compared a b
  generalize compare? a b = o at hcompared ⊢
  cases hcompared with
  | before h => exact iff_of_false nofun h.not_clash
  | same h => exact iff_of_false nofun (h ▸ Clash.irrefl a)
  | after h => exact iff_of_false nofun fun h' => h.not_clash h'.symm
  | clash h => exact iff_of_true rfl h

/-! ## Sorting -/

/-- One flag comes before another, or is the same. -/
def UpTo (a b : Cfg) : Prop := Before a b ∨ a = b

/-- **Flags in ascending order.** -/
def Ascending (cs : List Cfg) : Prop := cs.Pairwise UpTo

lemma UpTo.not_clash (h : UpTo a b) : ¬Clash a b := by
  rcases h with h | rfl
  · exact h.not_clash
  · exact Clash.irrefl a

lemma Before.trans_upTo (hab : Before a b) (hbc : UpTo b c) : Before a c := by
  rcases hbc with hbc | rfl
  · exact hab.trans hbc
  · exact hab

lemma UpTo.antisymm (hab : UpTo a b) (hba : UpTo b a) : a = b := by
  rcases hab with hab | rfl
  · rcases hba with hba | rfl
    · exact absurd hba hab.not_before
    · rfl
  · rfl

/-- In an ascending list there are no flags that clash. -/
lemma Ascending.not_clash (h : Ascending cs) (ha : a ∈ cs) (hb : b ∈ cs) : ¬Clash a b := by
  have hapart : cs.Pairwise fun a b => ¬Clash a b := h.imp UpTo.not_clash
  have hsymm : Std.Symm fun a b : Cfg => ¬Clash a b := ⟨fun _ _ h h' => h h'.symm⟩
  exact List.Pairwise.forall_of_forall (fun c _ => Clash.irrefl c) hapart ha hb

/-- Nothing is lost when a flag is put into its place. -/
lemma insertSorted?_perm (h : insertSorted? c cs = some ds) : ds.Perm (c :: cs) := by
  induction cs generalizing ds with
  | nil =>
      cases h
      exact List.Perm.refl _
  | cons d rest ih =>
      rw [insertSorted?] at h
      split at h
      · cases h
      · cases h
        exact List.Perm.refl _
      · obtain ⟨es, hes, rfl⟩ := Option.map_eq_some_iff.1 h
        exact ((ih hes).cons d).trans (List.Perm.swap c d rest)

lemma insertSorted?_ascending (hcs : Ascending cs) (h : insertSorted? c cs = some ds) :
    Ascending ds := by
  induction cs generalizing ds with
  | nil =>
      cases h
      exact List.pairwise_singleton _ _
  | cons d rest ih =>
      obtain ⟨hd, hrest⟩ := List.pairwise_cons.1 hcs
      rw [insertSorted?] at h
      cases hcd : compare? c d with
      | none => simp [hcd] at h
      | some o =>
          by_cases ho : o = .lt
          · subst ho
            simp only [hcd, Option.some.injEq] at h
            subst h
            have hbefore := compare?_eq_lt_iff.1 hcd
            refine List.pairwise_cons.2 ⟨List.forall_mem_cons.2 ⟨.inl hbefore, fun e he => ?_⟩, hcs⟩
            exact .inl (hbefore.trans_upTo (hd e he))
          · have hdc : UpTo d c := by
              cases o with
              | lt => exact absurd rfl ho
              | eq => exact .inr (compare?_eq_eq_iff.1 hcd).symm
              | gt => exact .inl (compare?_eq_gt_iff.1 hcd)
            simp only [hcd] at h
            obtain ⟨es, hes, rfl⟩ := Option.map_eq_some_iff.1 h
            refine List.pairwise_cons.2 ⟨fun e he => ?_, ih hrest hes⟩
            rcases List.mem_cons.1 ((insertSorted?_perm hes).mem_iff.1 he) with rfl | he
            · exact hdc
            · exact hd e he

/-- **A flag finds its place in an ascending list** unless it clashes with a flag there.  It goes
past all flags that come before one of its own key, so that it meets the one that it clashes with. -/
lemma insertSorted?_eq_none_iff (hcs : Ascending cs) :
    insertSorted? c cs = none ↔ ∃ d ∈ cs, Clash c d := by
  induction cs with
  | nil => simp [insertSorted?]
  | cons d rest ih =>
      obtain ⟨hd, hrest⟩ := List.pairwise_cons.1 hcs
      rw [insertSorted?, List.exists_mem_cons_iff]
      cases hcd : compare? c d with
      | none => exact iff_of_true rfl (.inl (compare?_eq_none_iff.1 hcd))
      | some o =>
          have hclash : ¬Clash c d := fun h => nomatch hcd.symm.trans (compare?_eq_none_iff.2 h)
          rw [or_iff_right hclash, ← ih hrest]
          by_cases ho : o = .lt
          · subst ho
            have hbefore := compare?_eq_lt_iff.1 hcd
            refine iff_of_false nofun fun hnone => ?_
            obtain ⟨e, he, hce⟩ := (ih hrest).1 hnone
            exact (hbefore.trans_upTo (hd e he)).not_clash hce
          · simp only [Option.map_eq_none_iff]

/-- **Flags are put into their places one after the other.** -/
lemma foldlM_insertSorted? (hds : Ascending ds) :
    (∀ sorted, cs.foldlM (fun sorted c => insertSorted? c sorted) ds = some sorted →
        sorted.Perm (cs ++ ds) ∧ Ascending sorted) ∧
      (cs.foldlM (fun sorted c => insertSorted? c sorted) ds = none →
        ∃ a ∈ cs ++ ds, ∃ b ∈ cs ++ ds, Clash a b) := by
  induction cs generalizing ds with
  | nil => exact ⟨fun sorted h => Option.some.inj h ▸ ⟨List.Perm.refl _, hds⟩, nofun⟩
  | cons c rest ih =>
      rw [List.foldlM_cons]
      cases hc : insertSorted? c ds with
      | none =>
          obtain ⟨d, hd, hclash⟩ := (insertSorted?_eq_none_iff hds).1 hc
          exact ⟨nofun, fun _ => ⟨c, List.mem_cons_self, d, List.mem_append_right _ hd, hclash⟩⟩
      | some es =>
          have hes := insertSorted?_perm hc
          have hperm : (rest ++ es).Perm (c :: rest ++ ds) :=
            (hes.append_left rest).trans List.perm_middle
          obtain ⟨hsome, hnone⟩ := ih (insertSorted?_ascending hds hc)
          refine ⟨fun sorted h => ?_, fun h => ?_⟩
          · obtain ⟨hp, hs⟩ := hsome sorted h
            exact ⟨hp.trans hperm, hs⟩
          · obtain ⟨a, ha, b, hb, hclash⟩ := hnone h
            exact ⟨a, hperm.mem_iff.1 ha, b, hperm.mem_iff.1 hb, hclash⟩

/-- Sorting fails only for flags that clash. -/
lemma exists_clash_of_sort? (h : sort? cs = none) : ∃ a ∈ cs, ∃ b ∈ cs, Clash a b := by
  have hclash := (foldlM_insertSorted? List.Pairwise.nil).2 h
  rwa [List.append_nil] at hclash

/-- **Sorting gives the one ascending list of the flags,** if there is one. -/
lemma sort?_eq_some_iff : sort? cs = some ds ↔ ds.Perm cs ∧ Ascending ds := by
  have hsorted : ∀ sorted, sort? cs = some sorted → sorted.Perm cs ∧ Ascending sorted :=
    fun sorted h => by
      have hs := (foldlM_insertSorted? List.Pairwise.nil).1 sorted h
      rwa [List.append_nil] at hs
  refine ⟨hsorted ds, fun ⟨hperm, hds⟩ => ?_⟩
  cases hs : sort? cs with
  | none =>
      obtain ⟨a, ha, b, hb, hclash⟩ := exists_clash_of_sort? hs
      exact absurd hclash (hds.not_clash (hperm.mem_iff.2 ha) (hperm.mem_iff.2 hb))
  | some sorted =>
      obtain ⟨hp, hasc⟩ := hsorted sorted hs
      rw [(hp.trans hperm.symm).eq_of_pairwise (fun _ _ _ _ => UpTo.antisymm) hasc hds]

/-- **Which flags can be compared, and which can be sorted.**  Comparing two flags fails exactly if
they clash; otherwise exactly one of the two comes before the other, or they are the same, and that
is what comparing them says.  The order is transitive.  Some flags can be sorted exactly if no two
of them clash, and what comes of it is the one list of these flags that is in ascending order. -/
theorem ordered_unless_clash (a b c : Cfg) (cs sorted : List Cfg) :
    ((compare? a b = none ↔ Clash a b) ∧ (compare? a b = some .lt ↔ Before a b) ∧
      (compare? a b = some .eq ↔ a = b) ∧ (compare? a b = some .gt ↔ Before b a)) ∧
    (UpTo a b → UpTo b c → UpTo a c) ∧
    ((∃ sorted, sort? cs = some sorted) ↔ ∀ a ∈ cs, ∀ b ∈ cs, ¬Clash a b) ∧
    (sort? cs = some sorted ↔ sorted.Perm cs ∧ Ascending sorted) := by
  refine ⟨⟨compare?_eq_none_iff, compare?_eq_lt_iff, compare?_eq_eq_iff, compare?_eq_gt_iff⟩,
    fun hab hbc => ?_, ⟨?_, fun hclash => ?_⟩, sort?_eq_some_iff⟩
  · rcases hab with hab | rfl
    · exact .inl (hab.trans_upTo hbc)
    · exact hbc
  · rintro ⟨sorted, h⟩ a ha b hb
    obtain ⟨hperm, hsorted⟩ := sort?_eq_some_iff.1 h
    exact hsorted.not_clash (hperm.mem_iff.2 ha) (hperm.mem_iff.2 hb)
  · cases hs : sort? cs with
    | none =>
        obtain ⟨a, ha, b, hb, h⟩ := exists_clash_of_sort? hs
        exact absurd h (hclash a ha b hb)
    | some sorted => exact ⟨sorted, rfl⟩

/-- A flag with a value and the same one without it cannot be sorted, and with a flag of another key
either of them can. -/
theorem ordered_unless_clash_bare :
    let bare : Cfg := ⟨"test", none⟩
    let valued : Cfg := ⟨"test", some "x"⟩
    let release : Cfg := ⟨"release", none⟩
    let debug : Cfg := ⟨"debug", some ""⟩
    compare? bare valued = none ∧ (¬∃ sorted, sort? [release, valued, bare] = some sorted) ∧
      UpTo debug bare ∧ sort? [valued, release] = some [release, valued] := by
  intro bare valued release debug
  have hclash : Clash bare valued := ⟨rfl, Bool.false_ne_true⟩
  have hdebug : UpTo debug release := .inl (.inl (by decide))
  have hkey : "release" < "test" := by decide
  have hrelease : ∀ value, UpTo release ⟨"test", value⟩ := fun _ => .inl (.inl hkey)
  obtain ⟨⟨hcompare, -⟩, -, hsorts, -⟩ :=
    ordered_unless_clash bare valued bare [release, valued, bare] []
  obtain ⟨-, htrans, -, hsorted⟩ :=
    ordered_unless_clash debug release bare [valued, release] [release, valued]
  refine ⟨hcompare.2 hclash, fun h => ?_, htrans hdebug (hrelease none), hsorted.2 ⟨?_, ?_⟩⟩
  · exact hsorts.1 h bare (by simp) valued (by simp) hclash
  · exact List.Perm.swap _ _ _
  · exact List.pairwise_pair.2 (hrelease (some "x"))

end Cfg

end ScarbCrates
