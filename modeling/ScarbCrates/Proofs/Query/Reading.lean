import ScarbCrates.Proofs.FirstMention
import ScarbCrates.Query.Digests

/-!
# What a table of digests says about a disk

The laws of the tables that computations collect, without the notices that reading leaves.

* `Digests.Holds` — the disk has every digest that a table records.
* `Digests.Holds.current_eq` — reading the files of such a table again gives the same table.
* `Digests.exists_current` — whether a file can be looked at at all does not depend on the disk.
* `Assoc.keys_ofList`, `Digests.files_merge` — tables keep the order of the first mention.
-/

namespace ScarbCrates

/-! ## Steps that leave notices -/

namespace Noted

variable {ε α β : Type}

/-- What a step gives decides whether the next one runs; notices play no part in it. -/
lemma value_run_bind (x : ExceptT ε Noted α) (f : α → ExceptT ε Noted β) :
    (x >>= f).run.value = x.run.value.bind fun a => (f a).run.value := by
  show (ExceptT.bindCont f x.run.value).value = _
  cases x.run.value <;> rfl

end Noted

/-! ## Tables in order of insertion -/

namespace Assoc

variable {κ α : Type} [DecidableEq κ]

lemma mem_of_get? {entries : List (κ × α)} {key : κ} {a : α} (h : get? entries key = some a) :
    (key, a) ∈ entries := by
  induction entries with
  | nil => simp at h
  | cons e rest ih =>
      obtain ⟨k, old⟩ := e
      by_cases hk : k = key
      · simp only [get?, hk, if_true, Option.some.injEq] at h
        simp [hk, h]
      · simp only [get?, hk, if_false] at h
        exact List.mem_cons_of_mem _ (ih h)

lemma get?_of_mem {entries : List (κ × α)} (hd : (keys entries).Nodup) {key : κ} {a : α}
    (h : (key, a) ∈ entries) : get? entries key = some a := by
  induction entries with
  | nil => cases h
  | cons e rest ih =>
      obtain ⟨k, old⟩ := e
      rw [keys, List.map_cons, List.nodup_cons] at hd
      rcases List.mem_cons.1 h with heq | hrest
      · obtain ⟨rfl, rfl⟩ := Prod.mk.inj heq
        exact if_pos rfl
      · have hmem : key ∈ rest.map Prod.fst := List.mem_map_of_mem hrest
        have hk : ¬k = key := fun hk => hd.1 (hk ▸ hmem)
        exact (if_neg hk).trans (ih hd.2 hrest)

lemma has_iff {entries : List (κ × α)} {key : κ} : has entries key = true ↔ key ∈ keys entries := by
  induction entries with
  | nil => simp [has, keys]
  | cons e rest ih =>
      obtain ⟨k, old⟩ := e
      by_cases hk : k = key
      · simp [has, get?, keys, hk]
      · have hk' : ¬key = k := fun h => hk h.symm
        simpa [has, get?, keys, hk, hk'] using ih

lemma put_of_not_mem {entries : List (κ × α)} {key : κ} (a : α) (h : key ∉ keys entries) :
    put entries key a = entries ++ [(key, a)] := by
  induction entries with
  | nil => rfl
  | cons e rest ih =>
      obtain ⟨k, old⟩ := e
      simp only [keys, List.map_cons, List.mem_cons, not_or] at h
      simp only [put, Ne.symm h.1, if_false, List.cons_append]
      rw [ih h.2]

lemma mem_put {entries : List (κ × α)} {key : κ} {a : α} {e : κ × α}
    (h : e ∈ put entries key a) : e ∈ entries ∨ e = (key, a) := by
  induction entries with
  | nil => exact Or.inr (List.mem_singleton.1 h)
  | cons x rest ih =>
      obtain ⟨k, old⟩ := x
      by_cases hk : k = key
      · simp only [put, hk, if_true, List.mem_cons] at h
        rcases h with h | h
        · exact Or.inr h
        · exact Or.inl (List.mem_cons_of_mem _ h)
      · simp only [put, hk, if_false, List.mem_cons] at h
        rcases h with h | h
        · exact Or.inl (h ▸ List.mem_cons_self)
        · exact (ih h).imp_left (List.mem_cons_of_mem _)

/-- To put an entry is to mention its key. -/
lemma keys_put (entries : List (κ × α)) (key : κ) (a : α) :
    keys (put entries key a) = mention (keys entries) key := by
  induction entries with
  | nil => rfl
  | cons e rest ih =>
      obtain ⟨k, old⟩ := e
      by_cases h : k = key
      · simp [put, keys, mention, h]
      · rw [put, if_neg h]
        show k :: keys (put rest key a) = mention (k :: keys rest) key
        rw [ih, mention, mention]
        by_cases hkey : key ∈ keys rest <;> simp [hkey, Ne.symm h]

/-- **The places of a table** go by the first mention of each key. -/
theorem keys_ofList (entries : List (κ × α)) : keys (ofList entries) = (keys entries).eraseDups := by
  have hfold : ∀ table : List (κ × α), keys (entries.foldl (fun t e => put t e.1 e.2) table) =
      (keys entries).foldl mention (keys table) := by
    induction entries with
    | nil => exact fun _ => rfl
    | cons e rest ih =>
        intro table
        rw [List.foldl_cons, ih, keys_put]
        rfl
  rw [ofList, hfold]
  exact foldl_mention_nil _

/-- A table has each key once. -/
lemma nodup_ofList (entries : List (κ × α)) : (keys (ofList entries)).Nodup := by
  rw [keys_ofList]
  exact nodup_eraseDups _

lemma keep_of_mem {entries : List (κ × α)} {key : κ} (a : α) (h : key ∈ keys entries) :
    keep entries key a = entries := by
  rw [keep, if_pos (has_iff.2 h)]

lemma keep_of_not_mem {entries : List (κ × α)} {key : κ} (a : α) (h : key ∉ keys entries) :
    keep entries key a = entries ++ [(key, a)] := by
  rw [keep, if_neg (mt has_iff.1 h)]

lemma mem_keep {entries : List (κ × α)} {key : κ} {a : α} {e : κ × α}
    (h : e ∈ keep entries key a) : e ∈ entries ∨ e = (key, a) := by
  rw [keep] at h
  split_ifs at h
  · exact Or.inl h
  · simpa using h

/-- To keep an entry is to mention its key, too. -/
lemma keys_keep (entries : List (κ × α)) (key : κ) (a : α) :
    keys (keep entries key a) = mention (keys entries) key := by
  rw [mention]
  split_ifs with h
  · rw [keep_of_mem a h]
  · rw [keep_of_not_mem a h]
    exact List.map_append

end Assoc

/-! ## Bytes zero -/

namespace Disk

/-- Only a byte zero keeps a path from the operating system. -/
lemma locate_eq_nul_iff (d : Disk) (p : Path) :
    d.locate p = .error .nul ↔ holdsNul p = true := by
  rw [locate]
  by_cases hn : holdsNul p = true
  · simp [hn]
  · simp only [hn, Bool.false_eq_true, if_false, iff_false]
    split
    · simp
    · split <;> simp

lemma stat_eq_nul_iff (d : Disk) (p : Path) : d.stat p = .error .nul ↔ holdsNul p = true := by
  rw [← d.locate_eq_nul_iff p]
  rw [stat]
  cases d.locate p with
  | error e => simp
  | ok l =>
      simp only [reduceCtorEq, iff_false]
      split <;> simp

lemma read_eq_nul_iff (d : Disk) (p : Path) : d.read p = .error .nul ↔ holdsNul p = true := by
  rw [← d.stat_eq_nul_iff p]
  rw [read]
  cases d.stat p with
  | error e => simp
  | ok n =>
      cases n with
      | directory reachable => simp
      | file content readable => cases readable <;> simp

end Disk

/-! ## Digests as of now -/

namespace Digests

/-- **The digest of a file:** one for its content, none if it cannot be read, and a fault only for a
byte zero in its path. -/
lemma ofFile_value (d : Disk) (p : Path) :
    (ofFile d p).run.value =
      if Disk.holdsNul p then .error .nul else .ok (hashOf d Sha256.fileBuffer p).toOption := by
  have hn : hashOf d Sha256.fileBuffer p = .error .nul ↔ Disk.holdsNul p = true := by
    rw [← d.read_eq_nul_iff p]
    rw [hashOf]
    cases d.read p <;> simp [Except.map]
  rw [ofFile]
  split
  · rename_i digest h
    have : Disk.holdsNul p = false := by
      rw [← Bool.not_eq_true, ← hn, h]
      simp
    rw [this, h]
    rfl
  · rename_i h
    rw [if_pos (hn.1 h)]
    rfl
  · rename_i fault hfault h
    have : Disk.holdsNul p = false := by
      rw [← Bool.not_eq_true, ← hn, h, Except.error.injEq]
      exact hfault
    rw [this, h]
    rfl

/-- The disk has every digest that the table records. -/
def Holds (d : Disk) (ds : Digests) : Prop := ∀ e ∈ ds, (ofFile d e.1).run.value = .ok e.2

/-- No path of the table has a byte zero. -/
def NulFree (ds : Digests) : Prop := ∀ p ∈ ds.files, Disk.holdsNul p = false

lemma Holds.nulFree {d : Disk} {ds : Digests} (h : ds.Holds d) : ds.NulFree := by
  intro p hp
  obtain ⟨e, he, rfl⟩ := List.mem_map.1 hp
  have hv := h e he
  rw [ofFile_value] at hv
  by_contra hn
  rw [Bool.not_eq_false] at hn
  simp [hn] at hv

lemma currentFrom_value (d : Disk) {ps : List Path} (hd : ps.Nodup)
    (hn : ∀ p ∈ ps, Disk.holdsNul p = false) :
    ∀ taken : Digests, (∀ p ∈ ps, p ∉ taken.files) →
      (currentFrom d taken ps).run.value =
        .ok (taken ++ ps.map fun p => (p, (hashOf d Sha256.fileBuffer p).toOption)) := by
  induction ps with
  | nil => intro taken _; simp [currentFrom]
  | cons p rest ih =>
      intro taken ht
      rw [List.nodup_cons] at hd
      have hp : (ofFile d p).run.value = .ok (hashOf d Sha256.fileBuffer p).toOption := by
        rw [ofFile_value, hn p List.mem_cons_self]
        rfl
      rw [currentFrom, Noted.value_run_bind, hp, Except.bind,
        Assoc.put_of_not_mem _ (ht p List.mem_cons_self),
        ih hd.2 (fun q hq => hn q (List.mem_cons_of_mem _ hq))]
      · simp
      · intro q hq
        have hqp : q ≠ p := fun h => hd.1 (h ▸ hq)
        simpa [files, Assoc.keys, hqp] using ht q (List.mem_cons_of_mem _ hq)

/-- **Reading files again:** paths without a byte zero can be looked at on every disk. -/
lemma exists_current (d : Disk) {ps : List Path} (hd : ps.Nodup)
    (hn : ∀ p ∈ ps, Disk.holdsNul p = false) :
    ∃ now, (current d ps).run.value = .ok now ∧ Holds d now ∧ files now = ps := by
  refine ⟨_, currentFrom_value d hd hn [] (by simp [files, Assoc.keys]), ?_, ?_⟩
  · intro e he
    simp only [List.nil_append, List.mem_map] at he
    obtain ⟨p, hp, rfl⟩ := he
    rw [ofFile_value, hn p hp]
    rfl
  · simp [files, Assoc.keys, Function.comp_def]

/-- Two tables of the same files that one disk has are the same table. -/
lemma Holds.unique {d : Disk} {ds now : Digests} (h : ds.Holds d) (h' : now.Holds d)
    (hf : files now = files ds) : now = ds := by
  induction ds generalizing now with
  | nil => simpa [files, Assoc.keys] using hf
  | cons e rest ih =>
      cases now with
      | nil => simp [files, Assoc.keys] at hf
      | cons e' rest' =>
          simp only [files, Assoc.keys, List.map_cons, List.cons.injEq] at hf
          have he := h e List.mem_cons_self
          have he' := h' e' List.mem_cons_self
          rw [hf.1, he, Except.ok.injEq] at he'
          rw [ih (fun x hx => h x (List.mem_cons_of_mem _ hx))
            (fun x hx => h' x (List.mem_cons_of_mem _ hx)) hf.2, Prod.ext hf.1 he'.symm]

lemma Holds.current_eq {d : Disk} {ds : Digests} (h : ds.Holds d) (hd : ds.files.Nodup) :
    (current d ds.files).run.value = .ok ds := by
  obtain ⟨now, hnow, hholds, hfiles⟩ := exists_current d hd h.nulFree
  rw [hnow, h.unique hholds hfiles]

/-! ## What computations collect -/

lemma declare_value (d : Disk) (ds : Digests) (p : Path) :
    (declare d ds p).run.value =
      if Assoc.has ds p then .ok ds
      else (ofFile d p).run.value.map fun digest => Assoc.keep ds p digest := by
  rw [declare]
  split_ifs
  · rfl
  · rw [Noted.value_run_bind]
    cases (ofFile d p).run.value <;> rfl

/-- What mentioning a file does: either the file is there already, or it is added. -/
lemma declare_cases {d : Disk} {ds ds' : Digests} {p : Path}
    (h : (declare d ds p).run.value = .ok ds') :
    (p ∈ ds.files ∧ ds' = ds) ∨
      ∃ digest, p ∉ ds.files ∧ (ofFile d p).run.value = .ok digest ∧ ds' = ds ++ [(p, digest)] := by
  rw [declare_value] at h
  split_ifs at h with hp
  · cases h
    exact Or.inl ⟨Assoc.has_iff.1 hp, rfl⟩
  · have hnot : p ∉ ds.files := fun hm => hp (Assoc.has_iff.2 hm)
    cases hf : (ofFile d p).run.value with
    | error fault => simp [hf, Except.map] at h
    | ok digest =>
        rw [hf, Except.map, Assoc.keep_of_not_mem digest hnot] at h
        exact Or.inr ⟨digest, hnot, rfl, (Except.ok.inj h).symm⟩

lemma Holds.declare {d : Disk} {ds ds' : Digests} {p : Path} (h : ds.Holds d)
    (hv : (declare d ds p).run.value = .ok ds') : ds'.Holds d := by
  rcases declare_cases hv with ⟨-, rfl⟩ | ⟨digest, -, hp, rfl⟩
  · exact h
  · intro e he
    rcases List.mem_append.1 he with he | he
    · exact h e he
    · obtain rfl := List.mem_singleton.1 he
      exact hp

lemma files_declare {d : Disk} {ds ds' : Digests} {p : Path}
    (hv : (declare d ds p).run.value = .ok ds') : ds'.files = mention ds.files p := by
  rw [mention]
  rcases declare_cases hv with ⟨hp, rfl⟩ | ⟨digest, hp, -, rfl⟩
  · rw [if_pos hp]
  · rw [if_neg hp]
    exact List.map_append

lemma nodup_declare {d : Disk} {ds ds' : Digests} {p : Path} (hd : ds.files.Nodup)
    (hv : (declare d ds p).run.value = .ok ds') : ds'.files.Nodup := by
  rw [files_declare hv]
  exact nodup_mention hd p

lemma mem_merge {ds other : Digests} {e : Path × Option String} (h : e ∈ ds.merge other) :
    e ∈ ds ∨ e ∈ other := by
  induction other generalizing ds with
  | nil => exact Or.inl h
  | cons x rest ih =>
      have h : e ∈ merge (Assoc.keep ds x.1 x.2) rest := h
      rcases ih h with h | h
      · rcases Assoc.mem_keep h with h | rfl
        · exact Or.inl h
        · exact Or.inr List.mem_cons_self
      · exact Or.inr (List.mem_cons_of_mem _ h)

lemma Holds.merge {d : Disk} {ds other : Digests} (h : ds.Holds d) (h' : other.Holds d) :
    (ds.merge other).Holds d := by
  intro e he
  rcases mem_merge he with he | he
  · exact h e he
  · exact h' e he

/-- Nothing is lost of files that are not there yet. -/
lemma merge_eq_append {ds other : Digests} (hd : (ds ++ other).files.Nodup) :
    ds.merge other = ds ++ other := by
  induction other generalizing ds with
  | nil => exact (List.append_nil ds).symm
  | cons x rest ih =>
      have hd' : (ds ++ [x] ++ rest).files.Nodup := by
        rwa [List.append_assoc, List.singleton_append]
      have hx : x.1 ∉ Assoc.keys ds := by
        rw [files, Assoc.keys, List.map_append, List.nodup_append] at hd
        exact fun h => hd.2.2 _ h _ List.mem_cons_self rfl
      show merge (Assoc.keep ds x.1 x.2) rest = _
      rw [Assoc.keep_of_not_mem x.2 hx, ih hd', List.append_assoc, List.singleton_append]

/-- To merge a table is to mention its files, one after the other. -/
lemma files_merge (ds other : Digests) :
    (ds.merge other).files = other.files.foldl mention ds.files := by
  induction other generalizing ds with
  | nil => rfl
  | cons x rest ih =>
      show (merge (Assoc.keep ds x.1 x.2) rest).files = _
      rw [ih, files, Assoc.keys_keep]
      rfl

lemma nodup_merge {ds : Digests} (hd : ds.files.Nodup) (other : Digests) :
    (ds.merge other).files.Nodup := by
  rw [files_merge]
  exact List.foldlRecOn other.files mention hd fun _ h p _ => nodup_mention h p

/-- The digests that are there stay; a table that is merged adds the files that are new. -/
lemma get?_merge (ds other : Digests) (p : Path) :
    Assoc.get? (ds.merge other) p = (Assoc.get? ds p).or (Assoc.get? other p) := by
  induction other generalizing ds with
  | nil => exact (Option.or_none).symm
  | cons x rest ih =>
      show Assoc.get? (merge (Assoc.keep ds x.1 x.2) rest) p = _
      rw [ih, Assoc.get?_keep, Option.or_assoc]
      congr 1
      by_cases hx : x.1 = p <;> simp [Assoc.get?, hx]

lemma mem_files_iff {ds : Digests} {p : Path} :
    p ∈ ds.files ↔ ∃ digest, Assoc.get? ds p = some digest := by
  rw [files, ← Assoc.has_iff, Assoc.has, Option.isSome_iff_exists]

lemma mem_files_merge {ds other : Digests} {p : Path} :
    p ∈ (ds.merge other).files ↔ p ∈ ds.files ∨ p ∈ other.files := by
  simp only [mem_files_iff, get?_merge]
  cases Assoc.get? ds p <;> simp

lemma merge_append (ds other more : Digests) :
    ds.merge (other ++ more) = (ds.merge other).merge more := List.foldl_append

/-! ## Merging into nothing -/

/-- A table that is merged into an empty one has each file once, where it is first mentioned. -/
lemma files_merge_nil (other : Digests) : (merge [] other).files = other.files.eraseDups :=
  (files_merge [] other).trans (foldl_mention_nil _)

lemma get?_merge_nil (other : Digests) (p : Path) :
    Assoc.get? (merge [] other) p = Assoc.get? other p :=
  (get?_merge [] other p).trans Option.none_or

/-! ## Several files in their order -/

/-- Mentions some files, one after the other. -/
def declareAll (d : Disk) : Digests → List Path → Except AccessFault Digests
  | ds, [] => .ok ds
  | ds, p :: rest => (declare d ds p).run.value.bind fun ds => declareAll d ds rest

lemma declareAll_cons {d : Disk} {ds ds' : Digests} {p : Path} {rest : List Path}
    (h : declareAll d ds (p :: rest) = .ok ds') :
    ∃ ds₁, (declare d ds p).run.value = .ok ds₁ ∧ declareAll d ds₁ rest = .ok ds' := by
  rw [declareAll] at h
  cases hp : (declare d ds p).run.value with
  | error fault => simp [hp, Except.bind] at h
  | ok ds₁ =>
      rw [hp] at h
      exact ⟨ds₁, rfl, h⟩

/-- Mentioning files adds to a table and leaves what is there. -/
lemma declareAll_spec {d : Disk} {ds ds' : Digests} {ps : List Path}
    (h : declareAll d ds ps = .ok ds') :
    ∃ more : Digests, ds' = ds ++ more ∧ more.Holds d ∧ (∀ p ∈ ps, p ∈ ds'.files) ∧
      ∀ p ∈ more.files, p ∈ ps := by
  induction ps generalizing ds with
  | nil =>
      cases h
      exact ⟨[], (List.append_nil _).symm, fun _ he => absurd he List.not_mem_nil,
        fun _ hp => absurd hp List.not_mem_nil, fun _ hp => absurd hp List.not_mem_nil⟩
  | cons p rest ih =>
      obtain ⟨ds₁, hp, h⟩ := declareAll_cons h
      obtain ⟨more, rfl, hmore, hall, hfiles⟩ := ih h
      have hold : ∀ q ∈ ds₁.files, q ∈ files (ds₁ ++ more) := fun q hq => by
        rw [files, Assoc.keys, List.map_append]
        exact List.mem_append_left _ hq
      rcases declare_cases hp with ⟨hm, rfl⟩ | ⟨digest, hm, hf, rfl⟩
      · refine ⟨more, rfl, hmore, List.forall_mem_cons.2 ⟨hold p hm, hall⟩, fun q hq => ?_⟩
        exact List.mem_cons_of_mem _ (hfiles q hq)
      · refine ⟨(p, digest) :: more, List.append_assoc _ _ _, List.forall_mem_cons.2 ⟨hf, hmore⟩,
          List.forall_mem_cons.2 ⟨hold p ?_, hall⟩, ?_⟩
        · rw [files, Assoc.keys, List.map_append]
          exact List.mem_append_right _ (List.mem_singleton.2 rfl)
        · exact List.forall_mem_cons.2 ⟨List.mem_cons_self, fun q hq =>
            List.mem_cons_of_mem _ (hfiles q hq)⟩

lemma mem_files_declareAll {d : Disk} {ds ds' : Digests} {ps : List Path} {p : Path}
    (h : declareAll d ds ps = .ok ds') : p ∈ ds'.files ↔ p ∈ ds.files ∨ p ∈ ps := by
  obtain ⟨more, rfl, -, hall, hfiles⟩ := declareAll_spec h
  have happ : files (ds ++ more) = ds.files ++ more.files := List.map_append
  rw [happ, List.mem_append]
  constructor
  · exact Or.imp_right (hfiles p)
  · rintro (hp | hp)
    · exact Or.inl hp
    · have hm := hall p hp
      rwa [happ, List.mem_append] at hm

/-- Files can all be mentioned exactly if none that is new has a byte zero in its path. -/
lemma exists_declareAll_iff {d : Disk} {ds : Digests} {ps : List Path} :
    (∃ ds', declareAll d ds ps = .ok ds') ↔ ∀ p ∈ ps, p ∈ ds.files ∨ Disk.holdsNul p = false := by
  constructor
  · rintro ⟨ds', h⟩ p hp
    obtain ⟨more, rfl, hmore, hall, _⟩ := declareAll_spec h
    have hm := hall p hp
    rw [files, Assoc.keys, List.map_append, List.mem_append] at hm
    exact hm.imp_right (hmore.nulFree p)
  · intro h
    induction ps generalizing ds with
    | nil => exact ⟨ds, rfl⟩
    | cons p rest ih =>
        rw [declareAll]
        have hrest := fun q hq => h q (List.mem_cons_of_mem _ hq)
        rw [declare_value]
        split_ifs with hp
        · exact ih hrest
        · have hn : Disk.holdsNul p = false :=
            (h p List.mem_cons_self).resolve_left fun hm => hp (Assoc.has_iff.2 hm)
          rw [ofFile_value, hn]
          refine ih fun q hq => (hrest q hq).imp_left fun hm => ?_
          show q ∈ files (Assoc.keep ds p (hashOf d Sha256.fileBuffer p).toOption)
          rw [Assoc.keep, if_neg hp, files, Assoc.keys, List.map_append]
          exact List.mem_append_left _ hm

lemma declareAll_error {d : Disk} {ds : Digests} {ps : List Path} {fault : AccessFault}
    (h : declareAll d ds ps = .error fault) : ∃ p ∈ ps, Disk.holdsNul p = true := by
  by_contra hn
  have hall : ∀ p ∈ ps, p ∈ ds.files ∨ Disk.holdsNul p = false := fun p hp =>
    Or.inr (Bool.not_eq_true _ ▸ fun ht => hn ⟨p, hp, ht⟩)
  obtain ⟨ds', hds⟩ := exists_declareAll_iff.2 hall
  rw [hds] at h
  simp at h

/-- **On a disk that has all the digests of the outcome** the same files are mentioned with the same
outcome. -/
lemma declareAll_of_holds {d d' : Disk} {ds ds' : Digests} {ps : List Path}
    (h : declareAll d ds ps = .ok ds') (hh : ds'.Holds d') : declareAll d' ds ps = .ok ds' := by
  induction ps generalizing ds with
  | nil => exact h
  | cons p rest ih =>
      obtain ⟨ds₁, hp, h⟩ := declareAll_cons h
      have hp' : (declare d' ds p).run.value = .ok ds₁ := by
        rw [declare_value]
        rcases declare_cases hp with ⟨hm, rfl⟩ | ⟨digest, hm, hf, rfl⟩
        · rw [if_pos (Assoc.has_iff.2 hm)]
        · obtain ⟨more, rfl, _⟩ := declareAll_spec h
          have hmem : (p, digest) ∈ ds ++ [(p, digest)] ++ more :=
            List.mem_append_left _ (List.mem_append_right _ (List.mem_singleton.2 rfl))
          rw [if_neg (mt Assoc.has_iff.1 hm), hh _ hmem, Except.map,
            Assoc.keep_of_not_mem digest hm]
      rw [declareAll, hp']
      exact ih h

end Digests

end ScarbCrates
