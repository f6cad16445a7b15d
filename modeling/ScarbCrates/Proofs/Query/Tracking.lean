import ScarbCrates.Proofs.Digest.Streaming
import ScarbCrates.Proofs.Path.Spelling
import ScarbCrates.Proofs.Query.Reading

/-!
# Tracking files that change

While a computation collects what it depends on, files come and go.  A tracker mentions files and
adopts tables of other computations, and of whatever it hears about a file only the first counts:
also that the file could not be read.

* `Digests.Event`, `Digests.track` — mentions, adopted tables and changes of the disk in some order.
* `Digests.mentions` — all that is heard about files, with the digests of the moment.
* `Digests.track_value` — a tracker holds all of that, merged into an empty table.
* `Digests.prefix_merge`, `Digests.merge_of_subset` — a table only grows, and only by new files.
* `Digests.track_first_mentions` — what a tracker holds in the end.
-/

namespace ScarbCrates

namespace Digests

/-! ## What happens to a tracker -/

/-- Something that happens while files are tracked. -/
inductive Event
  /-- Files change. -/
  | change (d : Disk)
  /-- A file is mentioned. -/
  | declare (p : Path)
  /-- The table of another computation is adopted. -/
  | merge (other : Digests)

/-- **Tracks files** from some disk on, after those that are tracked already. -/
def track : Disk → Digests → List Event → Reading Digests
  | _, ds, [] => pure ds
  | _, ds, .change d :: rest => track d ds rest
  | d, ds, .declare p :: rest => do
    let ds ← declare d ds p
    track d ds rest
  | d, ds, .merge other :: rest => track d (ds.merge other) rest

/-- The digest of the whole content of a file; `none` if the file cannot be read. -/
def contentDigest (d : Disk) (p : Path) : Option String := (d.read p).toOption.map Sha256.hash

/-- **All that is heard about files,** in order and with repetitions: of a file that is mentioned
the digest that it has at that moment, and what adopted tables say. -/
def mentions : Disk → List Event → Digests
  | _, [] => []
  | _, .change d :: rest => mentions d rest
  | d, .declare p :: rest => (p, contentDigest d p) :: mentions d rest
  | d, .merge other :: rest => other ++ mentions d rest

variable {d : Disk} {ds other : Digests} {p : Path}

/-! ## A tracker holds what it has heard -/

lemma ofFile_of_nulFree (d : Disk) (hp : Disk.holdsNul p = false) :
    (ofFile d p).run.value = .ok (contentDigest d p) := by
  have hsize : Sha256.fileBuffer ≠ .nothing := by simp [Sha256.fileBuffer, Sha256.PieceSize.nothing]
  rw [ofFile_value, hp, contentDigest, hashOf]
  cases d.read p with
  | error fault => rfl
  | ok bytes => exact congrArg (Except.ok ∘ some) (Sha256.hashInPieces_eq_hash bytes hsize)

/-- To mention a file is to keep the digest of its content. -/
lemma declare_of_nulFree (d : Disk) (ds : Digests) (hp : Disk.holdsNul p = false) :
    (declare d ds p).run.value = .ok (Assoc.keep ds p (contentDigest d p)) := by
  rw [declare_value]
  split_ifs with hhas
  · rw [Assoc.keep, if_pos hhas]
  · rw [ofFile_of_nulFree d hp]
    rfl

/-- **A tracker holds all that it has heard, merged.** -/
lemma track_value {events : List Event}
    (hn : ∀ p, .declare p ∈ events → Disk.holdsNul p = false) (d : Disk) (ds : Digests) :
    (track d ds events).run.value = .ok (ds.merge (mentions d events)) := by
  induction events generalizing d ds with
  | nil => rfl
  | cons event rest ih =>
      have hrest : ∀ p, .declare p ∈ rest → Disk.holdsNul p = false :=
        fun p hp => hn p (List.mem_cons_of_mem _ hp)
      cases event with
      | change d' => exact ih hrest d' ds
      | declare p =>
          rw [track, Noted.value_run_bind, declare_of_nulFree d ds (hn p List.mem_cons_self)]
          exact ih hrest d _
      | merge other =>
          rw [mentions, merge_append]
          exact ih hrest d _

/-- What has been heard stays heard. -/
lemma prefix_mentions (d : Disk) (earlier later : List Event) :
    mentions d earlier <+: mentions d (earlier ++ later) := by
  induction earlier generalizing d with
  | nil => exact List.nil_prefix
  | cons event rest ih =>
      cases event with
      | change d' => exact ih d'
      | declare p => exact (List.prefix_cons_inj _).2 (ih d)
      | merge other => exact (List.prefix_append_right_inj _).2 (ih d)

lemma mem_files_mentions {events : List Event} (h : .merge other ∈ events) (hp : p ∈ other.files)
    (d : Disk) : p ∈ (mentions d events).files := by
  induction events generalizing d with
  | nil => exact absurd h List.not_mem_nil
  | cons event rest ih =>
      have hrest := fun hevent d => ih ((List.mem_cons.1 h).resolve_left hevent) d
      cases event with
      | change d' => exact hrest (fun heq => nomatch heq) d'
      | declare q => exact List.mem_cons_of_mem _ (hrest (fun heq => nomatch heq) d)
      | merge table =>
          have happ : files (table ++ mentions d rest) = table.files ++ files (mentions d rest) :=
            List.map_append
          rw [mentions, happ, List.mem_append]
          by_cases htable : table = other
          · exact Or.inl (htable ▸ hp)
          · exact Or.inr (hrest (fun heq => htable (Event.merge.inj heq).symm) d)

/-! ## Merging adds what is new -/

lemma prefix_merge (ds other : Digests) : ds <+: ds.merge other := by
  induction other generalizing ds with
  | nil => exact List.prefix_rfl
  | cons e rest ih =>
      refine List.IsPrefix.trans ?_ (ih (Assoc.keep ds e.1 e.2))
      rw [Assoc.keep]
      split_ifs
      · exact List.prefix_rfl
      · exact List.prefix_append _ _

/-- **Only new files make a difference.** -/
lemma merge_of_subset (h : ∀ p ∈ other.files, p ∈ ds.files) : ds.merge other = ds := by
  induction other with
  | nil => rfl
  | cons e rest ih =>
      obtain ⟨he, hrest⟩ := List.forall_mem_cons.1 h
      show merge (Assoc.keep ds e.1 e.2) rest = ds
      rw [Assoc.keep_of_mem e.2 he]
      exact ih hrest

/-! ## First mentions -/

/-- **What a tracker holds** after files have been mentioned, tables adopted and the disk changed in
any order: the files by their texts in the order in which they were first mentioned, each with the
digest that it had at its first mention or that was adopted there, which may be the absence of one.
What it held before is the beginning of that, and to adopt again what it held, or what it has
adopted, changes nothing. -/
theorem track_first_mentions (d : Disk) (events : List Event)
    (hn : ∀ p, .declare p ∈ events → Disk.holdsNul p = false) :
    ∃ ds, (track d [] events).run.value = .ok ds ∧
      ds.files.map Path.text = ((mentions d events).files.map Path.text).eraseDups ∧
      (∀ p, Assoc.get? ds p = Assoc.get? (mentions d events) p) ∧
      (∀ earlier later, events = earlier ++ later →
        ∃ ds', (track d [] earlier).run.value = .ok ds' ∧ ds' <+: ds ∧ ds.merge ds' = ds) ∧
      ds.merge ds = ds ∧
      (∀ other, .merge other ∈ events → ds.merge other = ds) ∧
      ∀ other, (ds.merge other).merge other = ds.merge other := by
  refine ⟨merge [] (mentions d events), track_value hn d [], ?_, get?_merge_nil _,
    fun earlier later hsplit => ?_, merge_of_subset fun _ hp => hp, fun other hother => ?_,
    fun other => merge_of_subset fun p hp => mem_files_merge.2 (Or.inr hp)⟩
  · rw [files_merge_nil, map_eraseDups Path.text_injective]
  · subst hsplit
    obtain ⟨more, hmore⟩ := prefix_mentions d earlier later
    have hearlier : merge [] (mentions d earlier) <+: merge [] (mentions d (earlier ++ later)) := by
      rw [← hmore, merge_append]
      exact prefix_merge _ _
    refine ⟨merge [] (mentions d earlier), track_value (fun p hp => ?_) d [], hearlier,
      merge_of_subset fun p hp => (hearlier.map Prod.fst).subset hp⟩
    exact hn p (List.mem_append_left _ hp)
  · exact merge_of_subset fun p hp => mem_files_merge.2 (Or.inr (mem_files_mentions hother hp d))

/-- A file that is not there when it is first mentioned, is written, mentioned again and adopted from
another table. -/
theorem track_first_mentions_absent :
    let p : Path := ⟨.single, [⟨[0x61], by decide, by decide, by decide⟩]⟩
    let events : List Event := [.declare p,
      .change ⟨FileTree.empty.write p.names (.file [1, 2, 3] true), .top⟩,
      .declare p, .merge [(p, some "adopted")]]
    (∀ q, .declare q ∈ events → Disk.holdsNul q = false) ∧
      ∃ ds, (track default [] events).run.value = .ok ds ∧
        ds.files.map Path.text = [p.text] ∧ Assoc.get? ds p = some none ∧
        ds.merge [(p, some "adopted")] = ds := by
  intro p events
  have hn : ∀ q, .declare q ∈ events → Disk.holdsNul q = false := by
    intro q hq
    have hqp : q = p := by simpa [events] using hq
    rw [hqp]
    decide
  obtain ⟨ds, hds, hfiles, hget, -, -, hmerge, -⟩ := track_first_mentions default events hn
  refine ⟨hn, ds, hds, hfiles.trans ?_, (hget p).trans ?_, hmerge _ (by simp [events])⟩
  · decide
  · decide

end Digests

end ScarbCrates
