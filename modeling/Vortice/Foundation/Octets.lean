import Mathlib.Algebra.Group.Nat.Defs
import Mathlib.Data.List.Basic
import Mathlib.Data.List.TakeWhile

/-!
# Octet strings

Buffers, payloads and string literals are lists of octets.  A text is carried
as the octets of its UTF-8 encoding, and cutting a buffer at the first
occurrence of an octet is described by the two halves it leaves.
-/

namespace Vortice.Foundation

abbrev Octets := List UInt8

/-! A check on the members looks at those there are, and does not search through all
octets or all characters. -/

instance (priority := 1100) decidableForallMem {α : Type} (p : α → Prop) [DecidablePred p]
    (members : List α) : Decidable (∀ member ∈ members, p member) :=
  List.decidableBAll p members

instance (priority := 1100) decidableExistsMem {α : Type} (p : α → Prop) [DecidablePred p]
    (members : List α) : Decidable (∃ member ∈ members, p member) :=
  List.decidableBEx p members

instance (priority := 1100) decidableForallPresent {α : Type} (p : α → Prop) [DecidablePred p]
    (present : Option α) : Decidable (∀ member ∈ present, p member) :=
  Option.decidableForallMem present

/-- The octets of a text in UTF-8, which for a literal is its byte string. -/
def octets (text : String) : Octets := text.toByteArray.data.toList

@[simp] theorem octets_append (first second : String) :
    octets (first ++ second) = octets first ++ octets second := by
  simp [octets]

@[simp] theorem octets_empty : octets "" = [] := rfl

/-- The index of the first `needle`. -/
def find (haystack : Octets) (needle : UInt8) : Option Nat :=
  haystack.idxOf? needle

theorem find_eq_none {haystack : Octets} {needle : UInt8} :
    find haystack needle = none ↔ needle ∉ haystack := by
  simp only [find, List.idxOf?_eq_none_iff]

theorem find_eq_some {haystack : Octets} {needle : UInt8} {i : Nat} :
    find haystack needle = some i ↔
      ∃ before after, haystack = before ++ needle :: after ∧
        needle ∉ before ∧ before.length = i := by
  rw [find, List.idxOf?_eq_some_iff]
  constructor
  · rintro ⟨hi, hget, hfirst⟩
    refine ⟨haystack.take i, haystack.drop (i + 1), ?_, ?_, ?_⟩
    · rw [← hget, List.getElem_cons_drop, List.take_append_drop]
    · intro hmem
      obtain ⟨j, hj, heq⟩ := List.getElem_of_mem hmem
      rw [List.length_take] at hj
      exact hfirst j (by omega) (by simpa using heq)
    · simp
      omega
  · rintro ⟨before, after, rfl, hnot, rfl⟩
    refine ⟨by simp, by simp, ?_⟩
    intro j hj heq
    rw [List.getElem_append_left hj] at heq
    exact hnot (heq ▸ List.getElem_mem hj)

theorem find_append_cons {before after : Octets} {needle : UInt8}
    (h : needle ∉ before) :
    find (before ++ needle :: after) needle = some before.length :=
  find_eq_some.mpr ⟨before, after, rfl, h, rfl⟩

/-- An octet found in a buffer is found there whatever is appended to it. -/
theorem find_append {haystack more : Octets} {needle : UInt8} {i : Nat}
    (h : find haystack needle = some i) :
    find (haystack ++ more) needle = some i := by
  obtain ⟨before, after, rfl, hnot, rfl⟩ := find_eq_some.mp h
  rw [List.append_assoc, List.cons_append]
  exact find_append_cons hnot

end Vortice.Foundation
