import Mathlib.Data.Nat.Init

/-!
# Places of a ring

The numbers below a size, taken round and round.  `FirstFree` is what a search
for a free place finds that starts anywhere, goes round once and gives up.
-/

namespace Vortice.Foundation.Ring

variable {size start place steps : Nat} {used : Nat → Prop}

/-- The place some steps further on. -/
def after (size start steps : Nat) : Nat := (start + steps) % size

theorem after_lt (h : 0 < size) (start steps : Nat) : after size start steps < size :=
  Nat.mod_lt _ h

@[simp] theorem after_zero (h : start < size) : after size start 0 = start :=
  Nat.mod_eq_of_lt h

theorem after_after (size start first second : Nat) :
    after size (after size start first) second = after size start (first + second) := by
  rw [after, after, after, Nat.mod_add_mod, Nat.add_assoc]

/-- Once round is back at the start. -/
theorem after_size (h : start < size) : after size start size = start := by
  rw [after, Nat.add_mod_right, Nat.mod_eq_of_lt h]

/-- Every place is met on the way round. -/
theorem exists_after (hstart : start < size) (hplace : place < size) :
    ∃ steps < size, after size start steps = place := by
  by_cases hle : start ≤ place
  · refine ⟨place - start, by omega, ?_⟩
    rw [after, Nat.add_sub_cancel' hle, Nat.mod_eq_of_lt hplace]
  · refine ⟨place + size - start, by omega, ?_⟩
    have hsum : start + (place + size - start) = place + size := by omega
    rw [after, hsum, Nat.add_mod_right, Nat.mod_eq_of_lt hplace]

/-- The first place from a start on that is not used. -/
def FirstFree (size : Nat) (used : Nat → Prop) (start found : Nat) : Prop :=
  ∃ steps < size, found = after size start steps ∧ ¬ used found ∧
    ∀ earlier < steps, used (after size start earlier)

/-- What is used all the way round is used everywhere. -/
theorem used_of_round (hstart : start < size)
    (h : ∀ steps < size, used (after size start steps)) (hplace : place < size) :
    used place := by
  obtain ⟨steps, hsteps, rfl⟩ := exists_after hstart hplace
  exact h steps hsteps

theorem FirstFree.lt {found : Nat} (h : FirstFree size used start found) :
    found < size ∧ ¬ used found := by
  obtain ⟨steps, hsteps, rfl, hfree, -⟩ := h
  exact ⟨after_lt (by omega) start steps, hfree⟩

end Vortice.Foundation.Ring
