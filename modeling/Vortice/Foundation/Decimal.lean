import Vortice.Foundation.Octets
import Mathlib.Data.Nat.Digits.Lemmas

/-!
# Decimal numerals

The ASCII rendering of a natural number, most significant digit first, and the
value of a string of digits.  Leading zeros are allowed when reading, so
`value` is a left inverse of `render` and not its inverse.
-/

namespace Vortice.Foundation.Decimal

def isDigit (octet : UInt8) : Bool := 48 ≤ octet && octet ≤ 57

def digit (n : Nat) : UInt8 := UInt8.ofNat (48 + n)

theorem toNat_digit {n : Nat} (h : n < 10) : (digit n).toNat = 48 + n := by
  rw [digit, UInt8.toNat_ofNat']
  omega

theorem isDigit_iff {octet : UInt8} :
    isDigit octet ↔ 48 ≤ octet.toNat ∧ octet.toNat ≤ 57 := by
  simp [isDigit, UInt8.le_iff_toNat_le]

theorem isDigit_digit {n : Nat} (h : n < 10) : isDigit (digit n) := by
  rw [isDigit_iff, toNat_digit h]
  omega

/-- The numeral of `n`; zero is the one number whose numeral has a leading zero. -/
def render (n : Nat) : Octets :=
  if n = 0 then [digit 0] else (Nat.digits 10 n).reverse.map digit

def value (numeral : Octets) : Nat :=
  numeral.foldl (fun total octet => total * 10 + (octet.toNat - 48)) 0

theorem render_of_lt {n : Nat} (h : n < 10) : render n = [digit n] := by
  by_cases hn : n = 0
  · simp [render, hn]
  · simp [render, hn, Nat.digits_of_lt 10 n hn h]

theorem render_of_le {n : Nat} (h : 10 ≤ n) :
    render n = render (n / 10) ++ [digit (n % 10)] := by
  have hn : n ≠ 0 := by omega
  have hdiv : n / 10 ≠ 0 := by omega
  rw [render, render, if_neg hn, if_neg hdiv,
    Nat.digits_def' (by omega) (by omega)]
  simp

theorem value_append (front : Octets) (octet : UInt8) :
    value (front ++ [octet]) = value front * 10 + (octet.toNat - 48) := by
  simp [value]

theorem render_ne_nil (n : Nat) : render n ≠ [] := by
  by_cases h : n < 10
  · simp [render_of_lt h]
  · simp [render_of_le (Nat.le_of_not_lt h)]

theorem isDigit_of_mem_render {n : Nat} {octet : UInt8} (h : octet ∈ render n) :
    isDigit octet := by
  unfold render at h
  split at h
  · rw [List.mem_singleton] at h
    exact h ▸ isDigit_digit (by omega)
  · simp only [List.mem_map, List.mem_reverse] at h
    obtain ⟨d, hd, rfl⟩ := h
    exact isDigit_digit (Nat.digits_lt_base (by omega) hd)

@[simp] theorem value_render (n : Nat) : value (render n) = n := by
  induction n using Nat.strong_induction_on with
  | _ n ih =>
      by_cases h : n < 10
      · rw [render_of_lt h, value, List.foldl_cons, List.foldl_nil,
          toNat_digit h]
        omega
      · rw [render_of_le (Nat.le_of_not_lt h), value_append,
          ih (n / 10) (by omega), toNat_digit (Nat.mod_lt n (by omega))]
        omega

theorem length_render_le {n k : Nat} (hk : 0 < k) (h : n < 10 ^ k) :
    (render n).length ≤ k := by
  unfold render
  split
  · simp only [List.length_singleton]
    omega
  · simpa using (Nat.digits_length_le_iff (by omega) n).mpr h

theorem length_render_of_lt {n : Nat} (h : n < 10) : (render n).length = 1 := by
  simp [render_of_lt h]

theorem length_render_of_le {n : Nat} (h : 10 ≤ n) :
    (render n).length = (render (n / 10)).length + 1 := by
  simp [render_of_le h]

/-- The value of a numeral read behind digits already worth `total`. -/
def valueFrom (total : Nat) (numeral : Octets) : Nat :=
  numeral.foldl (fun total octet => total * 10 + (octet.toNat - 48)) total

@[simp] theorem valueFrom_zero (numeral : Octets) :
    valueFrom 0 numeral = value numeral := rfl

/-- Reading on never makes the value smaller. -/
theorem le_valueFrom (total : Nat) (numeral : Octets) :
    total ≤ valueFrom total numeral := by
  induction numeral generalizing total with
  | nil => exact Nat.le_refl total
  | cons octet numeral ih =>
      have hread := ih (total * 10 + (octet.toNat - 48))
      simp only [valueFrom, List.foldl_cons] at hread ⊢
      omega

end Vortice.Foundation.Decimal
