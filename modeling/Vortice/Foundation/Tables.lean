import Mathlib.Data.List.AList
import Mathlib.Data.List.Perm.Basic

/-!
# Tables

A map with its entries in some order, and the values kept in it: what an insertion adds to
them, and what an erasure takes away.
-/

namespace Vortice.Foundation

/-- A map with its entries in some order. -/
abbrev Table (κ α : Type) := AList fun _ : κ => α

namespace Table

variable {κ α : Type} {key : κ} {table : Table κ α}

/-- What is kept in a table. -/
def values (table : Table κ α) : List α := table.entries.map Sigma.snd

@[simp] theorem values_empty : values (∅ : Table κ α) = [] := rfl

variable [DecidableEq κ]

/-- An insertion puts a value in the place of what was kept under its key. -/
@[simp] theorem values_insert (key : κ) (value : α) (table : Table κ α) :
    values (table.insert key value) = value :: values (table.erase key) := by
  rw [values, AList.entries_insert]
  rfl

theorem erase_of_lookup_none (h : table.lookup key = none) : table.erase key = table :=
  AList.ext (List.kerase_of_notMem_keys (AList.lookup_eq_none.mp h))

/-- An erasure takes one entry away, or none. -/
theorem entries_erase (key : κ) (table : Table κ α) :
    List.Perm table.entries
      ((table.lookup key).toList.map (Sigma.mk key) ++ (table.erase key).entries) := by
  cases hlookup : table.lookup key with
  | none =>
      rw [erase_of_lookup_none hlookup]
      exact List.Perm.refl _
  | some value =>
      have hmem : key ∈ table.entries.keys :=
        AList.lookup_isSome.mp (by rw [hlookup]; rfl)
      obtain ⟨found, first, last, -, hentries, herase⟩ := List.exists_of_kerase hmem
      have hfound : found = value := by
        have hentry : (⟨key, found⟩ : Sigma fun _ : κ => α) ∈ table.entries := by
          rw [hentries]
          simp
        have := AList.mem_lookup_iff.mpr hentry
        rw [hlookup] at this
        exact (Option.some.inj this).symm
      subst hfound
      change List.Perm table.entries (⟨key, found⟩ :: List.kerase key table.entries)
      rw [herase, hentries]
      exact List.perm_middle

theorem values_erase (key : κ) (table : Table κ α) :
    List.Perm (values table) ((table.lookup key).toList ++ values (table.erase key)) := by
  have h := (entries_erase key table).map Sigma.snd
  rwa [List.map_append, List.map_map, Function.comp_def, List.map_id'] at h

end Table

end Vortice.Foundation
