import Mathlib.Data.List.Permutation
import ScarbCrates.Proofs.Datum.Canonical
import ScarbCrates.Proofs.Json.Unambiguous
import ScarbCrates.Proofs.Path.Spelling
import ScarbCrates.Proofs.Query.Reading
import ScarbCrates.Query.Cache

/-!
# When a stored result is fresh

A stored result is compared with the files of now through one fingerprint for all of them.  The
text that the fingerprint is taken of tells any two tables of digests apart, so only a collision
of the hash can hide a change.

* `Digests.mem_of_canonicalBytes_eq` — the same text is of the same table.
* `Entry.Sealed` — what every stored result has: files that can be looked at on any disk, each
  once, and the fingerprint of its table.
* `Entry.isFresh_of_holds`, `Entry.holds_of_isFresh` — a tracked result is fresh exactly if the
  disk has all its digests.
-/

namespace ScarbCrates

namespace Path

/-- A path that is a string. -/
def Encodable (p : Path) : Prop := ∃ s, p.toString? = .ok s

/-- The characters of a path. -/
def spelling (p : Path) : String := String.ofList (Text.chars p.text)

lemma Encodable.toString?_eq {p : Path} (h : p.Encodable) : p.toString? = .ok p.spelling := by
  obtain ⟨s, hs⟩ := h
  have hs' := hs
  rw [toString?, Text.toString?] at hs'
  split at hs'
  · simp at hs'
  · rw [hs, ← hs']
    rfl

end Path

namespace Digests

/-! ## The text of a table -/

/-- A digest as a JSON value. -/
def digestValue : Option String → Json.Value
  | none => .null
  | some digest => .text digest

lemma digestValue_injective : Function.Injective digestValue := by
  rintro (_ | a) (_ | b) h <;> simp_all [digestValue]

lemma toJson_digestDatum (digest : Option String) :
    (digestDatum digest).toJson = .ok (digestValue digest) := by
  cases digest with
  | none => rfl
  | some s =>
      show (Datum.encodeText (Text.ofString s)).map Json.Value.text = _
      rw [Datum.encodeText, Text.toString?_ofString]
      rfl

/-- The members of a table as they are written. -/
def written (ds : Digests) : List (String × Json.Value) :=
  ds.map fun e => (e.1.spelling, digestValue e.2)

/-- The table as it goes into its payload. -/
def filesDatum (ds : Digests) : Datum :=
  .dict (Datum.textPairs ds (fun e => e.1.text) fun e => digestDatum e.2)

/-- The names of the two parts of a payload: the version of its format, and the table. -/
def partName : Bool → String
  | false => "version"
  | true => "files"

/-- The two parts of a payload. -/
def part (ds : Digests) : Bool → Datum
  | false => .int 1
  | true => filesDatum ds

/-- The two parts of a payload as they are written. -/
def writtenPart (ds : Digests) : Bool → Json.Value
  | false => .int 1
  | true => .object ds.written

/-- A payload as it is written. -/
def writtenPayload (ds : Digests) : Json.Value :=
  .object ([true, false].map fun b => (partName b, writtenPart ds b))

lemma payload_eq (ds : Digests) :
    payload ds = .dict (Datum.textPairs [false, true] (Text.ofString ∘ partName) (part ds)) := by
  simp only [payload, Datum.ofMembers, Datum.ofString, Datum.textPairs, List.map_cons,
    List.map_nil, Function.comp, partName, part, filesDatum]

lemma builtins_payload {ds : Digests} (hd : ds.files.Nodup) :
    ∃ (ds' : Digests) (parts : List Bool), ds'.Perm ds ∧ parts.Perm [false, true] ∧
      Datum.builtins true (payload ds) =
        .ok (.dict (Datum.textPairs parts (Text.ofString ∘ partName) (part ds'))) := by
  have hkey : (ds.map fun e => e.1.text).Nodup := by
    have := hd.map Path.text_injective
    rwa [files, Assoc.keys, List.map_map] at this
  obtain ⟨ds', hp, hds⟩ := Datum.builtins_dict true ds (fun e => e.1.text)
    (fun e => digestDatum e.2) (fun e => digestDatum e.2) hkey
    fun e _ => by cases e.2 <;> rfl
  have hparts : ∀ b ∈ [false, true], Datum.builtins true (part ds b) = .ok (part ds' b) := by
    intro b _
    cases b with
    | false => rfl
    | true => exact hds
  have hnames : ([false, true].map (Text.ofString ∘ partName)).Nodup := by
    rw [← List.map_map]
    exact List.Nodup.map Text.ofString_injective (by decide)
  obtain ⟨parts, hperm, h⟩ := Datum.builtins_dict true [false, true] (Text.ofString ∘ partName)
    (part ds) (part ds') hnames hparts
  exact ⟨ds', parts, hp, hperm, by rw [payload_eq, h]⟩

lemma toJson_part {ds : Digests} (he : ∀ p ∈ ds.files, p.Encodable) :
    ∃ ds' : Digests, ds'.Perm ds ∧
      ∀ b, (part ds b).toJson = .ok (writtenPart ds' b) := by
  have hname : ∀ e ∈ ds, Text.toString? e.1.text = .ok e.1.spelling := fun e h =>
    (he e.1 (List.mem_map.2 ⟨e, h, rfl⟩)).toString?_eq
  obtain ⟨ds', hp, h⟩ := Datum.toJson_dict ds (fun e => e.1.text) (fun e => e.1.spelling)
    (fun e => digestDatum e.2) (fun e => digestValue e.2) hname fun e _ => toJson_digestDatum e.2
  refine ⟨ds', hp, fun b => ?_⟩
  cases b with
  | false => rfl
  | true => exact h

lemma sorted_writtenPart (ds : Digests) :
    ∃ ds' : Digests, ds'.Perm ds ∧ ∀ b, (writtenPart ds b).sorted = writtenPart ds' b := by
  obtain ⟨ds', hp, -, h⟩ := Json.Value.sorted_object ds (fun e => e.1.spelling)
    fun e => digestValue e.2
  refine ⟨ds', hp, fun b => ?_⟩
  cases b with
  | false => rfl
  | true =>
      show (Json.Value.object (written ds)).sorted = .object (written ds')
      rw [written, h, written]
      refine congrArg Json.Value.object (List.map_congr_left fun e _ => ?_)
      cases e.2 <;> rfl

/-- The parts of a payload stand in the order of their names. -/
lemma parts_eq {parts : List Bool} (hparts : parts.Perm [false, true])
    (horder : parts.Pairwise fun a b => ¬partName b < partName a) : parts = [true, false] := by
  rcases List.perm_pair.1 hparts with rfl | rfl
  · exact absurd (by decide) (List.rel_of_pairwise_cons horder List.mem_cons_self)
  · rfl

/-- **The canonical form of a payload** is an object with the table and the version, if all paths
are strings. -/
theorem exists_canonical_payload {ds : Digests} (hd : ds.files.Nodup)
    (he : ∀ p ∈ ds.files, p.Encodable) :
    ∃ ds' : Digests, ds'.Perm ds ∧ (payload ds).canonical true = .ok (writtenPayload ds') := by
  obtain ⟨ds₁, parts₁, hp₁, hparts₁, h₁⟩ := builtins_payload hd
  have he₁ : ∀ p ∈ ds₁.files, p.Encodable := fun p hp =>
    he p ((hp₁.map Prod.fst).mem_iff.1 hp)
  obtain ⟨ds₂, hp₂, h₂⟩ := toJson_part he₁
  obtain ⟨parts₂, hparts₂, h₃⟩ := Datum.toJson_dict parts₁ (Text.ofString ∘ partName) partName
    (part ds₁) (writtenPart ds₂) (fun b _ => Text.toString?_ofString _) fun b _ => h₂ b
  obtain ⟨ds₃, hp₃, h₄⟩ := sorted_writtenPart ds₂
  obtain ⟨parts₃, hparts₃, horder, h₅⟩ :=
    Json.Value.sorted_object parts₂ partName (writtenPart ds₂)
  obtain rfl := parts_eq (hparts₃.trans (hparts₂.trans hparts₁)) horder
  refine ⟨ds₃, hp₃.trans (hp₂.trans hp₁), ?_⟩
  rw [Datum.canonical, h₁]
  show (Datum.toJson _ >>= _) = _
  rw [h₃]
  show Except.ok (Json.Value.sorted _) = _
  rw [h₅]
  simp only [h₄]
  rfl

/-- A payload that has a canonical form is about paths that are strings. -/
lemma encodable_of_canonical {ds : Digests} (hd : ds.files.Nodup) {v : Json.Value}
    (h : (payload ds).canonical true = .ok v) : ∀ p ∈ ds.files, p.Encodable := by
  obtain ⟨ds', parts, hp, hparts, hb⟩ := builtins_payload hd
  obtain ⟨plain, hplain, h⟩ := exists_of_bind_eq_ok h
  rw [hb, Except.ok.injEq] at hplain
  subst hplain
  obtain ⟨w, hw, _⟩ := exists_of_bind_eq_ok h
  have htrue : true ∈ parts := hparts.mem_iff.2 (by decide)
  obtain ⟨w', hw'⟩ := (Datum.exists_of_toJson_dict hw htrue).2
  intro p hpf
  obtain ⟨e, hm, rfl⟩ := List.mem_map.1 ((hp.map Prod.fst).mem_iff.2 hpf)
  exact (Datum.exists_of_toJson_dict hw' hm).1

/-- Whether a table has a fingerprint depends on its files only. -/
lemma exists_fingerprint_iff {ds : Digests} (hd : ds.files.Nodup) :
    (∃ digest, ds.fingerprint = .ok digest) ↔ ∀ p ∈ ds.files, p.Encodable := by
  rw [fingerprint, Datum.fingerprint, Datum.hash, Datum.canonicalBytes]
  constructor
  · rintro ⟨digest, h⟩
    cases hv : (payload ds).canonical true with
    | error fault => simp [hv, Except.map] at h
    | ok v => exact encodable_of_canonical hd hv
  · intro he
    obtain ⟨ds', _, h⟩ := exists_canonical_payload hd he
    rw [h]
    exact ⟨_, rfl⟩

lemma floatFree_digestValue (digest : Option String) : (digestValue digest).floatFree = true := by
  cases digest <;> rfl

lemma floatFree_written (ds : Digests) : Json.Value.floatFreeMembers (written ds) = true := by
  induction ds with
  | nil => rfl
  | cons e rest ih =>
      show ((digestValue e.2).floatFree && Json.Value.floatFreeMembers (written rest)) = true
      rw [floatFree_digestValue, ih]
      rfl

lemma floatFree_writtenPayload (ds : Digests) : (writtenPayload ds).floatFree = true := by
  show (Json.Value.floatFreeMembers (written ds) && _) = true
  rw [floatFree_written]
  rfl

/-- The entries of a table can be read off the members that are written for it. -/
lemma mem_of_written_eq {ds ds' : Digests} (he : ∀ p ∈ ds.files, p.Encodable)
    (he' : ∀ p ∈ ds'.files, p.Encodable) (h : written ds = written ds')
    {e : Path × Option String} (hm : e ∈ ds) : e ∈ ds' := by
  have hw : (e.1.spelling, digestValue e.2) ∈ written ds' := h ▸ List.mem_map.2 ⟨e, hm, rfl⟩
  obtain ⟨e', hm', heq⟩ := List.mem_map.1 hw
  simp only [Prod.mk.injEq] at heq
  have hp := (he e.1 (List.mem_map.2 ⟨e, hm, rfl⟩)).toString?_eq
  have hp' := (he' e'.1 (List.mem_map.2 ⟨e', hm', rfl⟩)).toString?_eq
  rw [heq.1] at hp'
  rwa [Prod.ext (Path.eq_of_toString? hp hp') (digestValue_injective heq.2).symm]

/-- **The same text is of the same table,** whatever the order of its files. -/
theorem mem_of_canonicalBytes_eq {ds ds' : Digests} (hd : ds.files.Nodup) (hd' : ds'.files.Nodup)
    {bytes : List UInt8} (h : (payload ds).canonicalBytes true = .ok bytes)
    (h' : (payload ds').canonicalBytes true = .ok bytes) {e : Path × Option String}
    (hm : e ∈ ds) : e ∈ ds' := by
  have key : ∀ {ds : Digests}, ds.files.Nodup → (payload ds).canonicalBytes true = .ok bytes →
      ∃ ds₁ : Digests, ds₁.Perm ds ∧ (∀ p ∈ ds₁.files, p.Encodable) ∧
        Text.encode (Text.ofChars (writtenPayload ds₁).compact) = bytes := by
    intro ds hd h
    rw [Datum.canonicalBytes] at h
    cases hv : (payload ds).canonical true with
    | error fault => simp [hv, Except.map] at h
    | ok v =>
        have he := encodable_of_canonical hd hv
        obtain ⟨ds₁, hp, h₁⟩ := exists_canonical_payload hd he
        rw [h₁, Except.map, Except.ok.injEq] at h
        exact ⟨ds₁, hp, fun p hpm => he p ((hp.map Prod.fst).mem_iff.1 hpm), h⟩
  obtain ⟨ds₁, hp, he, hb⟩ := key hd h
  obtain ⟨ds₁', hp', he', hb'⟩ := key hd' h'
  have hobj := Json.Value.compact_injective (floatFree_writtenPayload ds₁)
    (floatFree_writtenPayload ds₁') (Text.encode_ofChars_injective (hb.trans hb'.symm))
  simp only [writtenPayload, List.map_cons, List.map_nil, writtenPart, Json.Value.object.injEq,
    List.cons.injEq, Prod.mk.injEq, true_and, and_true] at hobj
  exact hp'.mem_iff.1 (mem_of_written_eq he he' hobj (hp.mem_iff.2 hm))

lemma exists_bytes_of_fingerprint {ds : Digests} {digest : String}
    (h : ds.fingerprint = .ok digest) :
    ∃ bytes, ds.payload.canonicalBytes true = .ok bytes ∧ Sha256.hash bytes = digest := by
  rw [fingerprint, Datum.fingerprint, Datum.hash] at h
  cases hb : ds.payload.canonicalBytes true with
  | error fault => simp [hb, Except.map] at h
  | ok bytes => exact ⟨bytes, rfl, by simpa [hb, Except.map] using h⟩

end Digests

/-! ## Stored results -/

namespace Entry

variable {V : Type} {e : Entry V} {d : Disk}

/-- What every stored result has: files that can be looked at, each of them once, and the
fingerprint of its own table. -/
structure Sealed (e : Entry V) : Prop where
  nodup : e.digests.files.Nodup
  nulFree : e.digests.NulFree
  fingerprint : e.digests.fingerprint = .ok e.inputsDigest

/-- The text that the fingerprint of a result was taken of, and the one that it is compared with on
a disk, do not collide. -/
def NoCollision (e : Entry V) (d : Disk) : Prop :=
  ∀ now bytes bytes', (Digests.current d e.digests.files).run.value = .ok now →
    now.payload.canonicalBytes true = .ok bytes →
    e.digests.payload.canonicalBytes true = .ok bytes' →
    Sha256.hash bytes = Sha256.hash bytes' → bytes = bytes'

/-- Nothing collides on a disk that has all digests: the texts are the same. -/
lemma NoCollision.of_holds (hd : e.digests.files.Nodup) (h : e.digests.Holds d) :
    e.NoCollision d := by
  intro now bytes bytes' hnow hb hb' _
  rw [h.current_eq hd, Except.ok.injEq] at hnow
  rw [← hnow, hb', Except.ok.injEq] at hb
  exact hb.symm

lemma isFresh_of_untracked (hu : e.untracked = true) : (e.isFresh d).run.value = .ok false := by
  rw [isFresh, if_pos hu]
  rfl

/-- The freshness of a tracked result is one comparison of fingerprints. -/
lemma isFresh_value (hu : e.untracked = false) {now : Digests}
    (hn : (Digests.current d e.digests.files).run.value = .ok now) :
    (e.isFresh d).run.value =
      (now.fingerprint.mapError InputFault.datum).map fun digest => digest == e.inputsDigest := by
  have hadapt : (ExceptT.adapt InputFault.access
      (Digests.current d e.digests.files)).run.value = .ok now := by
    show (Except.mapError _ (Digests.current d e.digests.files).run.value) = _
    rw [hn]
    rfl
  rw [isFresh, hu, if_neg Bool.false_ne_true, Noted.value_run_bind, hadapt]
  show ((ExceptT.mk (pure _) >>= _ : ExceptT InputFault Noted Bool).run.value) = _
  rw [Noted.value_run_bind]
  show Except.bind (now.fingerprint.mapError InputFault.datum) _ = _
  cases now.fingerprint <;> rfl

/-- **A tracked result is fresh on a disk that has all its digests.** -/
lemma isFresh_of_holds (hs : e.Sealed) (hu : e.untracked = false) (h : e.digests.Holds d) :
    (e.isFresh d).run.value = .ok true := by
  rw [isFresh_value hu (h.current_eq hs.nodup), hs.fingerprint]
  show Except.ok (e.inputsDigest == e.inputsDigest) = _
  rw [beq_self_eq_true]

/-- The freshness of a stored result can always be told. -/
lemma exists_isFresh (hs : e.Sealed) (d : Disk) : ∃ b, (e.isFresh d).run.value = .ok b := by
  cases hu : e.untracked with
  | true => exact ⟨false, isFresh_of_untracked hu⟩
  | false =>
      obtain ⟨now, hnow, _, hfiles⟩ := Digests.exists_current d hs.nodup hs.nulFree
      have hnodup : now.files.Nodup := hfiles ▸ hs.nodup
      have henc := (Digests.exists_fingerprint_iff hs.nodup).1 ⟨_, hs.fingerprint⟩
      obtain ⟨digest, hd⟩ := (Digests.exists_fingerprint_iff hnodup).2 (hfiles ▸ henc)
      exact ⟨digest == e.inputsDigest, by rw [isFresh_value hu hnow, hd]; rfl⟩

/-- Whether a result may be used again depends on nothing but the digests of its files. -/
lemma isFresh_congr (hs : e.Sealed) {d' : Disk} (h : ∀ p ∈ e.digests.files,
    (Digests.ofFile d' p).run.value = (Digests.ofFile d p).run.value) :
    (e.isFresh d').run.value = (e.isFresh d).run.value := by
  cases hu : e.untracked with
  | true => rw [isFresh_of_untracked hu, isFresh_of_untracked hu]
  | false =>
      obtain ⟨now, hnow, hholds, hfiles⟩ := Digests.exists_current d hs.nodup hs.nulFree
      have hholds' : now.Holds d' := fun x hx =>
        (h x.1 (hfiles ▸ List.mem_map_of_mem hx)).trans (hholds x hx)
      have hnow' := hholds'.current_eq (hfiles ▸ hs.nodup)
      rw [hfiles] at hnow'
      rw [isFresh_value hu hnow, isFresh_value hu hnow']

/-- **A fresh result is tracked, and the disk has all its digests,** unless there is a collision. -/
lemma holds_of_isFresh (hs : e.Sealed) (hc : e.NoCollision d)
    (h : (e.isFresh d).run.value = .ok true) : e.untracked = false ∧ e.digests.Holds d := by
  cases hu : e.untracked with
  | true =>
      rw [isFresh_of_untracked hu] at h
      simp at h
  | false =>
      obtain ⟨now, hnow, hholds, hfiles⟩ := Digests.exists_current d hs.nodup hs.nulFree
      have hnodup : now.files.Nodup := hfiles ▸ hs.nodup
      rw [isFresh_value hu hnow] at h
      obtain ⟨bytes', hb', hh'⟩ := Digests.exists_bytes_of_fingerprint hs.fingerprint
      cases hd : now.fingerprint with
      | error fault => simp [hd, Except.mapError, Except.map] at h
      | ok digest =>
          obtain ⟨bytes, hb, hh⟩ := Digests.exists_bytes_of_fingerprint hd
          have heq : digest = e.inputsDigest := by
            simpa [hd, Except.mapError, Except.map] using h
          have hbytes := hc now bytes bytes' hnow hb hb' (hh.trans (heq.trans hh'.symm))
          subst hbytes
          exact ⟨rfl, fun x hx =>
            hholds x (Digests.mem_of_canonicalBytes_eq hs.nodup hnodup hb' hb hx)⟩

end Entry

end ScarbCrates
