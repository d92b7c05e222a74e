import Mathlib.Data.List.Basic
import Mathlib.Data.Nat.Find

/-!
# Blocks

A list cut into blocks of one size from its front, with what is left of it, and the
least padding that leaves nothing.
-/

namespace Vortice.Foundation

variable {α : Type*}

/-- The whole blocks of a list. -/
def chunksExact (size : Nat) (source : List α) : List (List α) :=
  (List.range (source.length / size)).map fun i => (source.drop (i * size)).take size

/-- What is left behind the whole blocks. -/
def remainder (size : Nat) (source : List α) : List α :=
  source.drop (source.length / size * size)

/-- A piece put in place of as many items. -/
def overwrite (source : List α) (at' : Nat) (piece : List α) : List α :=
  source.take at' ++ piece ++ source.drop (at' + piece.length)

section Cutting

variable {size count : Nat} {front : List α}

theorem length_of_mem_chunksExact {source block : List α}
    (h : block ∈ chunksExact size source) : block.length = size := by
  obtain ⟨i, hi, rfl⟩ := List.mem_map.mp h
  have hblocks := Nat.mul_le_mul_right size (Nat.succ_le_of_lt (List.mem_range.mp hi))
  have hwhole := Nat.div_mul_le_self source.length size
  rw [Nat.succ_mul] at hblocks
  rw [List.length_take, List.length_drop]
  omega

/-- Behind whole blocks the cutting begins again. -/
theorem chunksExact_append (hsize : 0 < size) (hfront : front.length = count * size)
    (rest : List α) :
    chunksExact size (front ++ rest) = chunksExact size front ++ chunksExact size rest := by
  have hcount : front.length / size = count := by rw [hfront, Nat.mul_div_cancel _ hsize]
  have hboth : (front ++ rest).length / size = count + rest.length / size := by
    rw [List.length_append, hfront, Nat.add_comm, Nat.add_mul_div_right _ _ hsize, Nat.add_comm]
  rw [chunksExact, hboth, List.range_add, List.map_append, List.map_map]
  refine congrArg₂ _ ?_ ?_
  · rw [chunksExact, hcount]
    refine List.map_congr_left fun i hi => ?_
    have hblocks := Nat.mul_le_mul_right size (Nat.succ_le_of_lt (List.mem_range.mp hi))
    rw [Nat.succ_mul] at hblocks
    rw [List.drop_append_of_le_length (by omega), List.take_append_of_le_length]
    rw [List.length_drop]
    omega
  · refine List.map_congr_left fun i _ => ?_
    have hplace : (count + i) * size = front.length + i * size := by
      rw [Nat.add_mul, hfront]
    rw [Function.comp_apply, hplace, List.drop_length_add_append]

theorem chunksExact_of_lt {source : List α} (h : source.length < size) :
    chunksExact size source = [] := by
  rw [chunksExact, Nat.div_eq_of_lt h]
  rfl

theorem length_chunksExact (source : List α) :
    (chunksExact size source).length = source.length / size := by
  rw [chunksExact, List.length_map, List.length_range]

theorem length_remainder (source : List α) :
    (remainder size source).length = source.length % size := by
  rw [remainder, List.length_drop, Nat.mul_comm, ← Nat.mod_def]

/-- A list is its whole blocks and what is left of it. -/
theorem exists_blocks (hsize : 0 < size) (source : List α) :
    ∃ front, source = front ++ remainder size source ∧
      front.length = source.length / size * size ∧
      chunksExact size front = chunksExact size source := by
  have hlength : (source.take (source.length / size * size)).length =
      source.length / size * size :=
    List.length_take_of_le (Nat.div_mul_le_self _ _)
  refine ⟨source.take (source.length / size * size), (List.take_append_drop _ _).symm, hlength, ?_⟩
  have hcut := chunksExact_append hsize hlength (remainder size source)
  have hrest : (remainder size source).length < size := by
    rw [length_remainder]
    exact Nat.mod_lt _ hsize
  rw [chunksExact_of_lt hrest, List.append_nil, remainder, List.take_append_drop] at hcut
  exact hcut.symm

end Cutting

/-! ## Padding -/

theorem exists_padding {size : Nat} (hsize : 0 < size) (length : Nat) :
    ∃ count, (length + count) % size = 0 := by
  refine ⟨size - length % size, ?_⟩
  have hlt := Nat.mod_lt length hsize
  have hsum : length + (size - length % size) = size * (length / size + 1) := by
    have hdiv := Nat.div_add_mod length size
    rw [Nat.mul_add, Nat.mul_one]
    omega
  rw [hsum, Nat.mul_mod_right]

/-- The least number of items that makes whole blocks of so many. -/
def padding (size : Nat) (hsize : 0 < size) (length : Nat) : Nat :=
  Nat.find (exists_padding hsize length)

/-- It is less than a block. -/
theorem padding_eq {size count length : Nat} (hsize : 0 < size) (hcount : count < size)
    (h : (length + count) % size = 0) : padding size hsize length = count := by
  refine (Nat.find_eq_iff _).mpr ⟨h, fun fewer hfewer hwhole => ?_⟩
  have hdvd := Nat.dvd_sub (Nat.dvd_of_mod_eq_zero h) (Nat.dvd_of_mod_eq_zero hwhole)
  rw [Nat.add_sub_add_left] at hdvd
  have hle := Nat.le_of_dvd (Nat.sub_pos_of_lt hfewer) hdvd
  omega

end Vortice.Foundation
