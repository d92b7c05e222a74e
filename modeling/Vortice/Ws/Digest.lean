import Mathlib.Data.List.GetD
import Vortice.Foundation.Sha1

/-!
# The digest of the handshake

SHA-1 as the source computes it, with the whole blocks of the message taken as they are
and what is left of it padded apart, in one block or two.
-/

namespace Vortice.Ws.Digest

open Vortice.Foundation
open Vortice.Foundation.Sha1 (Words)

/-- `rotate_left` of the standard library. -/
def rotateLeft (word : UInt32) (n : Nat) : UInt32 := ⟨word.toBitVec.rotateLeft n⟩

/-- The loop over the words behind the first sixteen. -/
def extend (schedule : List UInt32) (index : Nat) : List UInt32 :=
  schedule.set index (rotateLeft
    (schedule.getD (index - 3) 0 ^^^ schedule.getD (index - 8) 0 ^^^
      schedule.getD (index - 14) 0 ^^^ schedule.getD (index - 16) 0) 1)

def schedule (block : Octets) : List UInt32 :=
  let words := (chunksExact 4 block).map fun octets => UInt32.ofNat (ofBigEndian octets)
  (List.range' 16 64).foldl extend (overwrite (List.replicate 80 0) 0 words)

/-- The body of the loop over the schedule. -/
def mix (words : Words) (entry : UInt32 × Nat) : Words :=
  let ⟨a, b, c, d, e⟩ := words
  let (word, round) := entry
  let (mixed, constant) :=
    if round ≤ 19 then (b &&& c ||| ~~~b &&& d, 0x5a827999)
    else if round ≤ 39 then (b ^^^ c ^^^ d, 0x6ed9eba1)
    else if round ≤ 59 then (b &&& c ||| b &&& d ||| c &&& d, 0x8f1bbcdc)
    else (b ^^^ c ^^^ d, 0xca62c1d6)
  let next := rotateLeft a 5 + mixed + e + constant + word
  ⟨next, a, rotateLeft b 30, c, d⟩

/-- Mixes one 64-octet block into the running state. -/
def compress (state : Words) (block : Octets) : Words :=
  let ⟨a, b, c, d, e⟩ := (schedule block).zipIdx.foldl mix state
  ⟨state.a + a, state.b + b, state.c + c, state.d + d, state.e + e⟩

/-- The remainder, its terminator, zero padding and the length, and how much of that
is hashed. -/
def tail (message : Octets) : Octets :=
  let remainder := remainder 64 message
  let tailLen := if remainder.length + 9 ≤ 64 then 64 else 128
  let tail := overwrite (List.replicate 128 0) 0 remainder
  let tail := tail.set remainder.length 0x80
  let bits := UInt64.ofNat message.length * 8
  (overwrite tail (tailLen - 8) (bigEndian 8 bits.toNat)).take tailLen

def sha1 (message : Octets) : Octets :=
  let state : Words := ⟨0x67452301, 0xefcdab89, 0x98badcfe, 0x10325476, 0xc3d2e1f0⟩
  let state := (chunksExact 64 message).foldl compress state
  let state := (chunksExact 64 (tail message)).foldl compress state
  [state.a, state.b, state.c, state.d, state.e].flatMap fun word => bigEndian 4 word.toNat

/-! ## The rounds -/

theorem rotateLeft_one (word : UInt32) : rotateLeft word 1 = Sha1.shift 1 word := by
  rw [rotateLeft, BitVec.rotateLeft_def]
  rfl

theorem rotateLeft_five (word : UInt32) : rotateLeft word 5 = Sha1.shift 5 word := by
  rw [rotateLeft, BitVec.rotateLeft_def]
  rfl

theorem rotateLeft_thirty (word : UInt32) : rotateLeft word 30 = Sha1.shift 30 word := by
  rw [rotateLeft, BitVec.rotateLeft_def]
  rfl

/-- A round of the source is one of the definition, for the word of its number. -/
theorem mix_eq (block : Octets) (t : Nat) (words : Words) :
    mix words (Sha1.w block t, t) = Sha1.round block t words := by
  obtain ⟨a, b, c, d, e⟩ := words
  have hmixed : (if t ≤ 19 then (b &&& c ||| ~~~b &&& d, 0x5a827999)
      else if t ≤ 39 then (b ^^^ c ^^^ d, 0x6ed9eba1)
      else if t ≤ 59 then (b &&& c ||| b &&& d ||| c &&& d, 0x8f1bbcdc)
      else (b ^^^ c ^^^ d, (0xca62c1d6 : UInt32))) = (Sha1.f t b c d, Sha1.k t) := by
    simp only [Sha1.f, Sha1.k, Nat.lt_succ_iff]
    split
    · rfl
    split
    · rfl
    split <;> rfl
  have hsum : rotateLeft a 5 + Sha1.f t b c d + e + Sha1.k t + Sha1.w block t =
      Sha1.shift 5 a + Sha1.f t b c d + e + Sha1.w block t + Sha1.k t := by
    rw [rotateLeft_five, UInt32.add_assoc _ (Sha1.k t), UInt32.add_comm (Sha1.k t),
      ← UInt32.add_assoc]
  simp only [mix, hmixed, hsum, rotateLeft_thirty, Sha1.round]

theorem extended {block : Octets} (hblock : block.length = 64) {n : Nat} (hn : n ≤ 64) :
    let filled := (List.range' 16 n).foldl extend (overwrite (List.replicate 80 0) 0
      ((chunksExact 4 block).map fun octets => UInt32.ofNat (ofBigEndian octets)))
    filled.length = 80 ∧ ∀ t < 16 + n, filled.getD t 0 = Sha1.w block t := by
  induction n with
  | zero =>
      have hcount : block.length / 4 = 16 := by rw [hblock]
      refine ⟨?_, fun t ht => ?_⟩
      · simp [overwrite, length_chunksExact, hcount]
      · rw [Sha1.w_of_lt ht]
        simp only [List.range'_zero, List.foldl_nil, overwrite, List.take_zero, List.nil_append]
        rw [List.getD_append _ _ _ _ (by simpa [length_chunksExact, hcount] using ht)]
        simp [chunksExact, hcount, ht, Nat.mul_comm, Sha1.word]
  | succ n ih =>
      obtain ⟨hlength, hwords⟩ := ih (by omega)
      rw [List.range'_concat, List.foldl_append]
      obtain ⟨filled, hfilled⟩ : ∃ filled, filled = (List.range' 16 n).foldl extend
        (overwrite (List.replicate 80 0) 0 ((chunksExact 4 block).map fun octets =>
          UInt32.ofNat (ofBigEndian octets))) := ⟨_, rfl⟩
      rw [← hfilled] at hlength hwords ⊢
      simp only [List.foldl_cons, List.foldl_nil, extend, List.length_set, hlength, true_and]
      intro t ht
      by_cases hlast : t = 16 + 1 * n
      · subst hlast
        rw [List.getD_eq_getElem _ _ (by rw [List.length_set, hlength]; omega),
          List.getElem_set_self, rotateLeft_one, Sha1.w_of_le (by omega), hwords _ (by omega),
          hwords _ (by omega), hwords _ (by omega), hwords _ (by omega)]
      · rw [← hwords t (by omega), List.getD_eq_getElem?_getD,
          List.getElem?_set_ne (Ne.symm hlast), List.getD_eq_getElem?_getD]

theorem schedule_eq {block : Octets} (hblock : block.length = 64) :
    schedule block = (List.range 80).map (Sha1.w block) := by
  obtain ⟨hlength, hwords⟩ := extended hblock (Nat.le_refl 64)
  have hlength : (schedule block).length = 80 := hlength
  refine List.ext_getElem (by rw [hlength, List.length_map, List.length_range]) ?_
  intro t ht _
  have hword := hwords t (by omega)
  rw [List.getElem_map, List.getElem_range, ← hword]
  exact (List.getD_eq_getElem _ _ ht).symm

theorem foldl_mix (block : Octets) (n : Nat) (words : Words) :
    (((List.range n).map (Sha1.w block)).zipIdx).foldl mix words =
      Sha1.rounds block n words := by
  induction n with
  | zero => rfl
  | succ n ih =>
      rw [List.range_succ, List.map_append, List.zipIdx_append, List.foldl_append, ih]
      simp only [List.map_cons, List.map_nil, List.length_map, List.length_range, Nat.zero_add,
        List.zipIdx_singleton, List.foldl_cons, List.foldl_nil]
      exact mix_eq block n _

theorem compress_eq {block : Octets} (hblock : block.length = 64) (state : Words) :
    compress state block = Sha1.process state block := by
  rw [compress, schedule_eq hblock, foldl_mix]
  rfl

theorem foldl_compress {blocks : List Octets} (h : ∀ block ∈ blocks, block.length = 64)
    (state : Words) : blocks.foldl compress state = blocks.foldl Sha1.process state := by
  induction blocks generalizing state with
  | nil => rw [List.foldl_nil, List.foldl_nil]
  | cons block blocks ih =>
      obtain ⟨hblock, hblocks⟩ := List.forall_mem_cons.mp h
      rw [List.foldl_cons, List.foldl_cons, compress_eq hblock, ih hblocks]

/-! ## The padding -/

theorem overwrite_zeros (n : Nat) (piece : Octets) :
    overwrite (List.replicate n 0) 0 piece = piece ++ List.replicate (n - piece.length) 0 := by
  rw [overwrite, List.take_zero, List.nil_append, Nat.zero_add, List.drop_replicate]

theorem tail_eq {message : Octets} (h : message.length < 2 ^ 61) :
    tail message = remainder 64 message ++
      0x80 :: List.replicate (padding 64 (by decide) (message.length + 9)) 0 ++
        bigEndian 8 (8 * message.length) := by
  have hbits : (UInt64.ofNat message.length * 8).toNat = 8 * message.length := by
    have height : (8 : UInt64).toNat = 8 := rfl
    rw [UInt64.toNat_mul, UInt64.toNat_ofNat', height,
      Nat.mod_eq_of_lt (Nat.lt_trans h (by decide)), Nat.mod_eq_of_lt (by omega), Nat.mul_comm]
  have hrest : (remainder 64 message).length = message.length % 64 := length_remainder message
  obtain ⟨rest, hremainder⟩ : ∃ rest, rest = remainder 64 message := ⟨_, rfl⟩
  rw [← hremainder] at hrest ⊢
  have hlt := Nat.mod_lt message.length (show 64 > 0 by decide)
  obtain ⟨tailLen, htail⟩ : ∃ tailLen, tailLen = if rest.length + 9 ≤ 64 then 64 else 128 :=
    ⟨_, rfl⟩
  have hlow : rest.length + 9 ≤ tailLen := by split at htail <;> omega
  have hhigh : tailLen ≤ 128 := by split at htail <;> omega
  have hzeros : padding 64 (by decide) (message.length + 9) = tailLen - 9 - rest.length := by
    refine padding_eq _ ?_ ?_ <;> split at htail <;> omega
  have hterminated : (rest ++ List.replicate (128 - rest.length) 0).set rest.length 0x80 =
      rest ++ 0x80 :: List.replicate (127 - rest.length) 0 := by
    have hcons : 128 - rest.length = (127 - rest.length) + 1 := by omega
    rw [hcons, List.replicate_succ, List.set_append_right _ _ (Nat.le_refl _), Nat.sub_self,
      List.set_cons_zero]
  rw [tail, ← hremainder]
  simp only [← htail]
  rw [overwrite_zeros, hterminated, hbits, hzeros, overwrite]
  have htake : (rest ++ 0x80 :: List.replicate (127 - rest.length) 0).take (tailLen - 8) =
      rest ++ 0x80 :: List.replicate (tailLen - 9 - rest.length) 0 := by
    have hcons : tailLen - 8 - rest.length = (tailLen - 9 - rest.length) + 1 := by omega
    rw [List.take_append, List.take_of_length_le (by omega), hcons, List.take_succ_cons,
      List.take_replicate]
    congr 3
    omega
  rw [htake, List.take_left']
  rw [List.length_append, List.length_append, List.length_cons, List.length_replicate,
    length_bigEndian]
  omega

/-- Every message shorter than that is digested as the definition says. -/
theorem sha1_eq_digest (message : Octets) (h : message.length < 2 ^ 61) :
    sha1 message = Sha1.digest message := by
  obtain ⟨front, hmessage, hfront, hchunks⟩ := exists_blocks (by decide : 0 < 64) message
  have hpad : Sha1.pad message = front ++ tail message := by
    have hassoc : Sha1.pad message = message ++
        (0x80 :: List.replicate (padding 64 (by decide) (message.length + 9)) 0 ++
          bigEndian 8 (8 * message.length)) := by
      rw [Sha1.pad, List.append_assoc]
    rw [hassoc, tail_eq h, List.append_assoc, ← List.append_assoc front, ← hmessage]
  have hcut : chunksExact 64 (Sha1.pad message) =
      chunksExact 64 message ++ chunksExact 64 (tail message) := by
    rw [hpad, chunksExact_append (by decide) hfront, hchunks]
  rw [Sha1.digest, hcut, List.foldl_append, ← foldl_compress fun _ => length_of_mem_chunksExact,
    ← foldl_compress fun _ => length_of_mem_chunksExact]
  rfl

/-- `abc`, whose digest is published. -/
theorem sha1_eq_digest_abc :
    sha1 [97, 98, 99] = Sha1.digest [97, 98, 99] :=
  sha1_eq_digest [97, 98, 99] (by decide)

example : sha1 [97, 98, 99] = [0xa9, 0x99, 0x3e, 0x36, 0x47, 0x06, 0x81, 0x6a, 0xba, 0x3e,
    0x25, 0x71, 0x78, 0x50, 0xc2, 0x6c, 0x9c, 0xd0, 0xd8, 0x9d] := by decide +kernel

end Vortice.Ws.Digest
