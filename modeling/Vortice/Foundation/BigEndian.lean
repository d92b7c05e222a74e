import Mathlib.Data.List.Induction
import Vortice.Foundation.Octets

/-!
# Numbers in network order

A number in so many octets, the most significant first, and back.
-/

namespace Vortice.Foundation

/-- The number whose octets these are. -/
def ofBigEndian (source : Octets) : Nat :=
  source.foldl (fun value octet => value * 256 + octet.toNat) 0

/-- The last `width` octets of a number. -/
def bigEndian : Nat → Nat → Octets
  | 0, _ => []
  | width + 1, value => bigEndian width (value / 256) ++ [UInt8.ofNat value]

@[simp] theorem length_bigEndian (width value : Nat) :
    (bigEndian width value).length = width := by
  induction width generalizing value with
  | zero => rfl
  | succ width ih => rw [bigEndian, List.length_append, ih, List.length_singleton]

theorem ofBigEndian_concat (source : Octets) (octet : UInt8) :
    ofBigEndian (source ++ [octet]) = ofBigEndian source * 256 + octet.toNat := by
  rw [ofBigEndian, List.foldl_append]
  rfl

theorem ofBigEndian_bigEndian {width value : Nat} (h : value < 256 ^ width) :
    ofBigEndian (bigEndian width value) = value := by
  induction width generalizing value with
  | zero =>
      rw [Nat.pow_zero, Nat.lt_one_iff] at h
      rw [h]
      rfl
  | succ width ih =>
      rw [Nat.pow_succ] at h
      rw [bigEndian, ofBigEndian_concat, ih (Nat.div_lt_of_lt_mul (by omega)),
        UInt8.toNat_ofNat']
      omega

theorem ofBigEndian_lt (source : Octets) : ofBigEndian source < 256 ^ source.length := by
  induction source using List.reverseRecOn with
  | nil => exact Nat.one_pos
  | append_singleton source octet ih =>
      have hoctet := octet.toNat_lt
      rw [ofBigEndian_concat, List.length_append, List.length_singleton, Nat.pow_succ]
      omega

theorem bigEndian_ofBigEndian (source : Octets) :
    bigEndian source.length (ofBigEndian source) = source := by
  induction source using List.reverseRecOn with
  | nil => rfl
  | append_singleton source octet ih =>
      have hoctet := octet.toNat_lt
      have hfront : (ofBigEndian source * 256 + octet.toNat) / 256 = ofBigEndian source := by
        omega
      have hlast : UInt8.ofNat (ofBigEndian source * 256 + octet.toNat) = octet := by
        apply UInt8.toNat_inj.mp
        rw [UInt8.toNat_ofNat']
        omega
      rw [ofBigEndian_concat, List.length_append, List.length_singleton, bigEndian, hfront,
        hlast, ih]

end Vortice.Foundation
