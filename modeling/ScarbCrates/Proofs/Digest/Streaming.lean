import Mathlib.Tactic.Common
import ScarbCrates.Query.Digests

/-!
# Hashing a file piece by piece

A file is read in pieces of some size, and each piece is fed to the hash function as it comes.  The
hash function keeps what does not fill a block until the next piece, so the digest is that of the
blocks of the whole content, wherever the content was cut.

* `Sha256.State.Buffers`, `Sha256.State.Buffers.update` — what a hash under way has taken in.
* `Sha256.IsPadded`, `Sha256.exists_blocks_hash` — the digest of some data by its padded blocks.
* `Sha256.Handle.Loop` — the loop that reads a file, with its place in the file.
* `Sha256.Handle.Loop.eq_update`, `Sha256.Handle.exists_loop` — it ends, with all of the file fed.
* `Sha256.PieceSize.exists_ofInt_iff` — the numbers that are sizes of pieces.
* `Digests.hashFile_of_read` — the digest of a file does not depend on the size of the pieces.
-/

namespace ScarbCrates

namespace Sha256

/-! ## Blocks -/

/-- The words of a chain as bytes. -/
def Chain.toBytes (c : Chain) : List UInt8 :=
  [c.a, c.b, c.c, c.d, c.e, c.f, c.g, c.h].flatMap fun w => bigEndian 4 w.toNat

/-- The chain after some blocks. -/
def Chain.compressAll (blocks : List (List UInt8)) : Chain := blocks.foldl Chain.compress .initial

/-- Every block is full. -/
def Full (blocks : List (List UInt8)) : Prop := ∀ block ∈ blocks, block.length = 64

lemma Full.length_flatten {blocks : List (List UInt8)} (h : Full blocks) :
    blocks.flatten.length = 64 * blocks.length := by
  induction blocks with
  | nil => rfl
  | cons block rest ih =>
      obtain ⟨hblock, hrest⟩ := List.forall_mem_cons.1 h
      rw [List.flatten_cons, List.length_append, ih hrest, hblock, List.length_cons]
      omega

/-- **What a hash under way has taken in:** full blocks, which are in the chain, and the bytes that
do not fill one. -/
def State.Buffers (s : State) (bytes : List UInt8) : Prop :=
  ∃ blocks, Full blocks ∧ s.chain = Chain.compressAll blocks ∧
    blocks.flatten ++ s.pending.toList = bytes ∧ s.pending.size < 64 ∧ s.length = bytes.length

namespace State

variable {s : State} {bytes : List UInt8}

lemma buffers_initial : initial.Buffers [] :=
  ⟨[], fun _ h => absurd h List.not_mem_nil, rfl, rfl, Nat.zero_lt_succ _, rfl⟩

/-- **One byte more** fills the block, or is kept for later. -/
lemma Buffers.push (h : s.Buffers bytes) (b : UInt8) : (s.push b).Buffers (bytes ++ [b]) := by
  obtain ⟨blocks, hfull, hchain, hbytes, hsize, hlength⟩ := h
  have hlength' : s.length + 1 = (bytes ++ [b]).length := by
    rw [hlength, List.length_append, List.length_singleton]
  have hbytes' : blocks.flatten ++ (s.pending.push b).toList = bytes ++ [b] := by
    rw [Array.toList_push, ← List.append_assoc, hbytes]
  simp only [State.push]
  by_cases hblock : (s.pending.push b).size = 64
  · have hlast : (s.pending.push b).toList.length = 64 := by rw [Array.length_toList, hblock]
    rw [if_pos hblock]
    refine ⟨blocks ++ [(s.pending.push b).toList], ?_, ?_, ?_, Nat.zero_lt_succ _, hlength'⟩
    · exact List.forall_mem_append.2 ⟨hfull, List.forall_mem_singleton.2 hlast⟩
    · rw [hchain, Chain.compressAll, Chain.compressAll, List.foldl_append]
      rfl
    · rw [← hbytes', List.flatten_append, List.flatten_singleton]
      exact List.append_nil _
  · rw [if_neg hblock]
    refine ⟨blocks, hfull, hchain, hbytes', ?_, hlength'⟩
    rw [Array.size_push] at hblock ⊢
    omega

/-- **A piece more.**  Whatever the pieces are, what has been taken in is all of them. -/
lemma Buffers.update (h : s.Buffers bytes) (piece : List UInt8) :
    (s.update piece).Buffers (bytes ++ piece) := by
  induction piece generalizing s bytes with
  | nil => rwa [List.append_nil]
  | cons b rest ih =>
      have hrest := ih (h.push b)
      rwa [List.append_assoc, List.singleton_append] at hrest

end State

/-! ## The digest of some data -/

/-- **Data with its padding:** a one bit, as few zeros as lead up to eight bytes before the end of a
block, and the length in bits. -/
def IsPadded (bytes padded : List UInt8) : Prop :=
  ∃ zeros, (bytes.length + 1 + zeros) % 64 = 56 ∧
    (∀ fewer, (bytes.length + 1 + fewer) % 64 = 56 → zeros ≤ fewer) ∧
    padded = bytes ++ 0x80 :: List.replicate zeros 0 ++ bigEndian 8 (bytes.length * 8)

lemma length_bigEndian (n value : Nat) : (bigEndian n value).length = n := by
  induction n generalizing value with
  | zero => rfl
  | succ n ih => rw [bigEndian, List.length_append, ih, List.length_singleton]

/-- Padded data is full blocks. -/
lemma IsPadded.length_mod {bytes padded : List UInt8} (h : IsPadded bytes padded) :
    padded.length % 64 = 0 := by
  obtain ⟨zeros, hzeros, -, rfl⟩ := h
  simp only [List.length_append, List.length_cons, List.length_replicate, length_bigEndian]
  omega

lemma isPadded_padding {s : State} {bytes : List UInt8} (h : s.length = bytes.length) :
    IsPadded bytes (bytes ++ s.padding) := by
  refine ⟨(119 - s.length % 64) % 64, ?_, fun fewer hfewer => ?_, ?_⟩
  · omega
  · omega
  · rw [State.padding, h, ← List.append_assoc]

/-- **The digest of some data** is the chain after the blocks of the padded data. -/
theorem exists_blocks_hash (bytes : List UInt8) :
    ∃ blocks, Full blocks ∧ IsPadded bytes blocks.flatten ∧
      hash bytes = Hex.encode (Chain.compressAll blocks).toBytes := by
  have hbytes := State.buffers_initial.update bytes
  rw [List.nil_append] at hbytes
  obtain ⟨-, -, -, -, -, hlength⟩ := id hbytes
  have hpadded := isPadded_padding hlength
  obtain ⟨blocks, hfull, hchain, hflatten, hsize, -⟩ :=
    hbytes.update (State.initial.update bytes).padding
  -- All blocks are full, so nothing is left over.
  have hrest : ((State.initial.update bytes).update
      (State.initial.update bytes).padding).pending.toList = [] := by
    have hlength' := congrArg List.length hflatten
    have hmod := hpadded.length_mod
    rw [List.length_append, hfull.length_flatten] at hlength'
    rw [← Array.length_toList] at hsize
    refine List.eq_nil_of_length_eq_zero ?_
    omega
  rw [hrest, List.append_nil] at hflatten
  refine ⟨blocks, hfull, hflatten ▸ hpadded, ?_⟩
  rw [hash, State.hexDigest, State.digest, hchain]
  rfl

/-! ## Sizes of pieces -/

namespace PieceSize

/-- A read of no bytes at all. -/
def nothing : PieceSize := .bytes 0 (Nat.zero_le _)

lemma ofInt_neg_one : ofInt (-1) = .ok all := rfl

lemma ofInt_natCast {n : Nat} (h : n ≤ longestPiece) : ofInt n = .ok (bytes n h) := dif_pos h

/-- **The numbers that are sizes of pieces:** `-1`, and as many bytes as a piece may have. -/
lemma exists_ofInt_iff (size : Int) :
    (∃ pieces, ofInt size = .ok pieces) ↔ size = -1 ∨ 0 ≤ size ∧ size ≤ longestPiece := by
  constructor
  · rintro ⟨pieces, h⟩
    rcases size with n | _ | n
    · rw [ofInt] at h
      split_ifs at h with fits
      exact .inr ⟨Int.natCast_nonneg n, Int.ofNat_le.2 fits⟩
    · exact .inl rfl
    · rw [ofInt] at h
      split_ifs at h
  · rintro (rfl | ⟨hpos, hle⟩)
    · exact ⟨_, ofInt_neg_one⟩
    · obtain ⟨n, rfl⟩ := Int.eq_ofNat_of_zero_le hpos
      exact ⟨_, ofInt_natCast (Int.ofNat_le.1 hle)⟩

/-- Only zero stands for nothing. -/
lemma ne_nothing_of_ofInt {size : Int} {pieces : PieceSize} (h : ofInt size = .ok pieces)
    (hsize : size ≠ 0) : pieces ≠ nothing := by
  rintro rfl
  rcases (exists_ofInt_iff size).1 ⟨_, h⟩ with rfl | ⟨hpos, hle⟩
  · cases h.symm.trans ofInt_neg_one
  · obtain ⟨n, rfl⟩ := Int.eq_ofNat_of_zero_le hpos
    cases h.symm.trans (ofInt_natCast (Int.ofNat_le.1 hle))
    exact hsize rfl

end PieceSize

/-! ## Reading a file -/

/-- An open file: its content, and the place up to which it has been read. -/
structure Handle where
  content : List UInt8
  position : Nat

namespace Handle

/-- What is left to read. -/
def rest (f : Handle) : List UInt8 := f.content.drop f.position

/-- **What a read gives:** all that is left, or so many bytes of it at most. -/
def read (f : Handle) : (size : PieceSize) → List UInt8
  | .all => f.rest
  | .bytes n _ => f.rest.take n

/-- The file after a piece of it has been read. -/
def past (f : Handle) (piece : List UInt8) : Handle :=
  { f with position := f.position + piece.length }

/-- **The loop that hashes a file:** as long as a read gives something, it is fed.  The number is how
often something is fed. -/
inductive Loop (size : PieceSize) : Nat → Handle → State → State → Prop
  | stop {f : Handle} {s : State} (hread : f.read size = []) : Loop size 0 f s s
  | next {n : Nat} {f : Handle} {s s' : State} (hread : f.read size ≠ [])
      (hloop : Loop size n (f.past (f.read size)) (s.update (f.read size)) s') :
      Loop size (n + 1) f s s'

variable {f : Handle} {s s' : State} {n : Nat} {size : PieceSize}

lemma rest_past (f : Handle) (piece : List UInt8) :
    (f.past piece).rest = f.rest.drop piece.length := by
  rw [rest, past, rest, List.drop_drop]

/-- What is read and what is left after that is what was left. -/
lemma read_append_rest (f : Handle) (size : PieceSize) :
    f.read size ++ (f.past (f.read size)).rest = f.rest := by
  rw [rest_past]
  cases size with
  | all =>
      show f.rest ++ f.rest.drop f.rest.length = f.rest
      rw [List.drop_length, List.append_nil]
  | bytes n fits =>
      show f.rest.take n ++ f.rest.drop (f.rest.take n).length = f.rest
      rw [List.length_take]
      rcases Nat.le_total n f.rest.length with h | h
      · rw [Nat.min_eq_left h, List.take_append_drop]
      · rw [Nat.min_eq_right h, List.drop_length, List.append_nil, List.take_of_length_le h]

/-- A read finds nothing only at the end of the file, unless nothing is asked for. -/
lemma read_eq_nil_iff (f : Handle) (size : PieceSize) :
    f.read size = [] ↔ f.rest = [] ∨ size = .nothing := by
  cases size with
  | all => exact (or_iff_left PieceSize.noConfusion).symm
  | bytes n fits =>
      show f.rest.take n = [] ↔ _
      rw [List.take_eq_nil_iff, or_comm, PieceSize.nothing, PieceSize.bytes.injEq]

/-- **Whatever is left of a file has been fed when the loop ends.** -/
lemma Loop.eq_update (hloop : Loop size n f s s') (hsize : size ≠ .nothing) :
    s' = s.update f.rest := by
  induction hloop with
  | stop hread =>
      rw [((read_eq_nil_iff _ _).1 hread).resolve_right hsize]
      rfl
  | next hread _ ih => rw [ih, ← State.update_append, read_append_rest]

/-- **The loop ends,** after at most as many reads as there are bytes, and one that finds nothing. -/
lemma exists_loop (f : Handle) (s : State) (size : PieceSize) :
    ∃ n s', n ≤ f.rest.length ∧ Loop size n f s s' := by
  induction hlength : f.rest.length using Nat.strongRecOn generalizing f s with
  | ind length ih =>
      by_cases hread : f.read size = []
      · exact ⟨0, s, Nat.zero_le _, .stop hread⟩
      · -- What is left gets shorter with each piece.
        have hsplit := congrArg List.length (read_append_rest f size)
        have hpos := List.length_pos_iff.2 hread
        rw [List.length_append] at hsplit
        obtain ⟨n, s', hn, hloop⟩ := ih (f.past (f.read size)).rest.length (by omega)
          (f.past (f.read size)) (s.update (f.read size)) rfl
        exact ⟨n + 1, s', by omega, .next hread hloop⟩

/-- Data in pieces is fed as the loop does it, also in pieces of no bytes. -/
lemma Loop.updateInPieces_eq {k : Nat} {fits : k ≤ longestPiece}
    (hloop : Loop (.bytes k fits) n f s s') : s.updateInPieces k f.rest = s' := by
  have hnil : ∀ f : Handle, f.read (.bytes k fits) = [] ↔ f.rest = [] ∨ k = 0 := fun f =>
    (read_eq_nil_iff f _).trans (or_congr_right (iff_of_eq (PieceSize.bytes.injEq _ _ _ _)))
  induction hloop with
  | stop hread => rw [State.updateInPieces, dif_pos ((hnil _).1 hread)]
  | @next n f s s' hread _ ih =>
      have hpiece : f.read (.bytes k fits) = f.rest.take k := rfl
      have hrest := read_append_rest f (.bytes k fits)
      rw [hpiece] at hrest ih
      have hdrop := List.append_cancel_left (hrest.trans (List.take_append_drop k f.rest).symm)
      rw [State.updateInPieces, dif_neg fun h => hread ((hnil f).2 h), ← hdrop]
      exact ih

/-- **The digest of data that is read piece by piece** is the one that the loop comes to. -/
lemma Loop.hashInPieces_eq {bytes : List UInt8} (hloop : Loop size n ⟨bytes, 0⟩ .initial s) :
    hashInPieces size bytes = s.hexDigest := by
  cases size with
  | all =>
      rw [hloop.eq_update PieceSize.noConfusion]
      rfl
  | bytes k fits =>
      have hpieces := hloop.updateInPieces_eq
      rw [hashInPieces, ← hpieces]
      rfl

end Handle

/-- **The digest does not depend on the pieces.** -/
lemma hashInPieces_eq_hash (bytes : List UInt8) {size : PieceSize} (hsize : size ≠ .nothing) :
    hashInPieces size bytes = hash bytes := by
  obtain ⟨n, s, -, hloop⟩ := Handle.exists_loop ⟨bytes, 0⟩ .initial size
  rw [hloop.hashInPieces_eq, hloop.eq_update hsize]
  rfl

end Sha256

namespace Digests

open Sha256

variable {d : Disk} {p : Path} {bytes : List UInt8} {size : Int}

lemma hashFile_of_ofInt {pieces : PieceSize} (hread : d.read p = .ok bytes)
    (h : PieceSize.ofInt size = .ok pieces) :
    hashFile d size p = .ok (hashInPieces pieces bytes) := by
  simp only [hashFile, hread, h]

lemma hashFile_of_fault {fault : SizeFault} (hread : d.read p = .ok bytes)
    (h : PieceSize.ofInt size = .error fault) : hashFile d size p = .error (.size fault) := by
  simp only [hashFile, hread, h]

/-- **The digest of a file that can be read,** in pieces of any size but zero.  If the size is one of
pieces, the loop ends, after no more pieces than the file has bytes, and the digest is the one that
it comes to; that is the digest of the whole content, which is the one of the blocks of the padded
content.  With any other number nothing is hashed. -/
theorem hashFile_of_read (hread : d.read p = .ok bytes) (hsize : size ≠ 0) :
    ((size = -1 ∨ 0 < size ∧ size ≤ longestPiece) → ∃ pieces,
      PieceSize.ofInt size = .ok pieces ∧
      (∃ n s, n ≤ bytes.length ∧ Handle.Loop pieces n ⟨bytes, 0⟩ .initial s) ∧
      (∀ n s, Handle.Loop pieces n ⟨bytes, 0⟩ .initial s → hashFile d size p = .ok s.hexDigest) ∧
      hashFile d size p = .ok (shorten none (Sha256.hash bytes))) ∧
    (¬(size = -1 ∨ 0 < size ∧ size ≤ longestPiece) → ∃ fault,
      PieceSize.ofInt size = .error fault ∧ hashFile d size p = .error (.size fault)) ∧
    ∃ blocks, Full blocks ∧ IsPadded bytes blocks.flatten ∧
      Sha256.hash bytes = Hex.encode (Chain.compressAll blocks).toBytes := by
  have hiff : (size = -1 ∨ 0 < size ∧ size ≤ longestPiece) ↔
      ∃ pieces, PieceSize.ofInt size = .ok pieces := by
    rw [PieceSize.exists_ofInt_iff]
    omega
  refine ⟨fun haccepted => ?_, fun hrefused => ?_, exists_blocks_hash bytes⟩
  · obtain ⟨pieces, hpieces⟩ := hiff.1 haccepted
    have hfile := hashFile_of_ofInt hread hpieces
    refine ⟨pieces, hpieces, Handle.exists_loop ⟨bytes, 0⟩ .initial pieces, fun n s hloop => ?_, ?_⟩
    · rw [hfile, hloop.hashInPieces_eq]
    · rw [hfile, hashInPieces_eq_hash bytes (PieceSize.ne_nothing_of_ofInt hpieces hsize)]
      rfl
  · cases h : PieceSize.ofInt size with
    | ok pieces => exact absurd (hiff.2 ⟨pieces, h⟩) hrefused
    | error fault => exact ⟨fault, rfl, hashFile_of_fault hread h⟩

/-- The name of a file. -/
def dataName : Name := ⟨[0x64], by decide, by decide, by decide⟩

/-- A disk with three bytes in the file. -/
def sampleDisk : Disk := ⟨FileTree.empty.write [dataName] (.file [1, 2, 3] true), .top⟩

lemma read_sampleDisk : sampleDisk.read ⟨.single, [dataName]⟩ = .ok [1, 2, 3] := by decide

/-- Three bytes that are read two at a time. -/
theorem hashFile_of_read_uneven :
    sampleDisk.read ⟨.single, [dataName]⟩ = .ok [1, 2, 3] ∧ (2 : Int) ≠ 0 ∧
      (∃ pieces n s, PieceSize.ofInt 2 = .ok pieces ∧ n ≤ 3 ∧
        Handle.Loop pieces n ⟨[1, 2, 3], 0⟩ .initial s) ∧
      hashFile sampleDisk 2 ⟨.single, [dataName]⟩ = .ok (Sha256.hash [1, 2, 3]) := by
  have hsize : (2 : Int) ≠ 0 := by decide
  obtain ⟨haccepted, -, -⟩ := hashFile_of_read read_sampleDisk hsize
  obtain ⟨pieces, hpieces, ⟨n, s, hn, hloop⟩, -, hhash⟩ := haccepted (.inr (by decide))
  exact ⟨read_sampleDisk, hsize, ⟨pieces, n, s, hpieces, hn, hloop⟩, hhash⟩

/-- A file that can be read is not hashed in pieces of a size that no machine word holds, nor in
pieces of less than `-1` bytes. -/
theorem hashFile_refused :
    sampleDisk.read ⟨.single, [dataName]⟩ = .ok [1, 2, 3] ∧
      hashFile sampleDisk wordEnd ⟨.single, [dataName]⟩ = .error (.size .word) ∧
      hashFile sampleDisk (-2) ⟨.single, [dataName]⟩ = .error (.size .negative) :=
  ⟨read_sampleDisk, hashFile_of_fault read_sampleDisk (by decide),
    hashFile_of_fault read_sampleDisk (by decide)⟩

end Digests

end ScarbCrates
