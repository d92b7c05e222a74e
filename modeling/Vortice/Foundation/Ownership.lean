import Mathlib.Data.List.Nodup
import Mathlib.Logic.Function.Basic

/-!
# Things with one holder

Things are known by a name and lie in a table under keys, or in the hands of holders.
As long as each name is in one place only, moving a thing from one place to another
keeps it so, and what holds of every thing needs to be shown of new ones only.
-/

namespace Vortice.Foundation

universe u v w

variable {κ : Type u} {ι : Type v} {α : Type w}

/-- Every thing is in one place, in the table or in the list of those held. -/
structure Owned (table : κ → Option (ι × α)) (held : List (ι × α)) : Prop where
  nodup : (held.map Prod.fst).Nodup
  keyed : ∀ {key key' thing thing'}, table key = some thing → table key' = some thing' →
    thing.1 = thing'.1 → key = key'
  apart : ∀ {key thing other}, table key = some thing → other ∈ held → other.1 ≠ thing.1

/-- The thing lies somewhere. -/
def Kept (table : κ → Option (ι × α)) (held : List (ι × α)) (thing : ι × α) : Prop :=
  (∃ key, table key = some thing) ∨ thing ∈ held

section Kept

variable {table : κ → Option (ι × α)} {held held' : List (ι × α)} {key : κ}
  {thing other : ι × α}

theorem kept_none : ¬ Kept (fun _ : κ => none) [] thing := by
  rintro (⟨key, h⟩ | h) <;> cases h

theorem Kept.perm (hperm : held'.Perm held) (h : Kept table held' thing) :
    Kept table held thing :=
  h.imp_right hperm.mem_iff.mp

theorem Kept.of_release (h : Kept table held thing) : Kept table (other :: held) thing :=
  h.imp_right (List.mem_cons_of_mem other)

variable [DecidableEq κ]

theorem Kept.of_clear (h : Kept (Function.update table key none) held thing) :
    Kept table held thing := by
  refine h.imp_left ?_
  rintro ⟨found, hfound⟩
  by_cases heq : found = key
  · subst heq
    rw [Function.update_self] at hfound
    cases hfound
  · rw [Function.update_of_ne heq] at hfound
    exact ⟨found, hfound⟩

theorem Kept.of_take (htaken : table key = some other)
    (h : Kept (Function.update table key none) (other :: held) thing) :
    Kept table held thing := by
  rcases h.of_clear with h | h
  · exact .inl h
  · rcases List.mem_cons.mp h with rfl | h
    · exact .inl ⟨key, htaken⟩
    · exact .inr h

theorem Kept.of_set (h : Kept (Function.update table key (some other)) held thing) :
    thing = other ∨ Kept table held thing := by
  rcases h with ⟨found, hfound⟩ | h
  · by_cases heq : found = key
    · subst heq
      rw [Function.update_self] at hfound
      exact .inl (Option.some.inj hfound).symm
    · rw [Function.update_of_ne heq] at hfound
      exact .inr (.inl ⟨found, hfound⟩)
  · exact .inr (.inr h)

end Kept

namespace Owned

variable {table : κ → Option (ι × α)} {held held' : List (ι × α)} {key : κ}
  {thing : ι × α} {name : ι} {a b : α}

theorem none : Owned (fun _ : κ => (none : Option (ι × α))) [] :=
  ⟨List.nodup_nil, nofun, nofun⟩

theorem perm (h : Owned table held) (hperm : held'.Perm held) : Owned table held' where
  nodup := (hperm.map Prod.fst).nodup_iff.mpr h.nodup
  keyed := h.keyed
  apart := fun htable hmem => h.apart htable (hperm.mem_iff.mp hmem)

/-- What is held by one holder is not held by another, nor in the table. -/
theorem ne_of_cons (h : Owned table (thing :: held)) {other : ι × α}
    (hother : Kept table held other) : other.1 ≠ thing.1 := by
  rcases hother with ⟨key, hkey⟩ | hmem
  · exact (h.apart hkey (List.mem_cons_self ..)).symm
  · intro heq
    have hnodup := h.nodup
    rw [List.map_cons, List.nodup_cons] at hnodup
    exact hnodup.1 (heq ▸ List.mem_map_of_mem hmem)

theorem release (h : Owned table (thing :: held)) : Owned table held where
  nodup := (List.nodup_cons.mp h.nodup).2
  keyed := h.keyed
  apart := fun htable hmem => h.apart htable (List.mem_cons_of_mem thing hmem)

theorem replace (h : Owned table ((name, a) :: held)) : Owned table ((name, b) :: held) where
  nodup := h.nodup
  keyed := h.keyed
  apart := fun htable hmem => by
    have hfirst := h.apart htable (List.mem_cons_self (a := (name, a)) (l := held))
    rcases List.mem_cons.mp hmem with rfl | hmem
    · exact hfirst
    · exact h.apart htable (List.mem_cons_of_mem _ hmem)

variable [DecidableEq κ]

theorem clear (h : Owned table held) : Owned (Function.update table key .none) held := by
  have hback : ∀ {found thing}, Function.update table key .none found = some thing →
      table found = some thing := by
    intro found thing hfound
    by_cases heq : found = key
    · subst heq
      rw [Function.update_self] at hfound
      cases hfound
    · rwa [Function.update_of_ne heq] at hfound
  exact ⟨h.nodup, fun hfirst hsecond => h.keyed (hback hfirst) (hback hsecond),
    fun htable => h.apart (hback htable)⟩

/-- A thing is taken out of the table. -/
theorem take (h : Owned table held) (htaken : table key = some thing) :
    Owned (Function.update table key .none) (thing :: held) where
  nodup := by
    rw [List.map_cons, List.nodup_cons]
    refine ⟨fun hmem => ?_, h.nodup⟩
    obtain ⟨other, hother, heq⟩ := List.mem_map.mp hmem
    exact h.apart htaken hother heq
  keyed := h.clear.keyed
  apart := fun {found other third} htable hmem => by
    by_cases heq : found = key
    · subst heq
      rw [Function.update_self] at htable
      cases htable
    · rw [Function.update_of_ne heq] at htable
      rcases List.mem_cons.mp hmem with rfl | hmem
      · exact fun hsame => heq (h.keyed htable htaken hsame.symm)
      · exact h.apart htable hmem

/-- A thing that lies nowhere is put into the table. -/
theorem add (h : Owned table held)
    (hnew : ∀ {other}, Kept table held other → other.1 ≠ thing.1) :
    Owned (Function.update table key (some thing)) held := by
  have hback : ∀ {found other}, Function.update table key (some thing) found = some other →
      found = key ∧ other = thing ∨ found ≠ key ∧ table found = some other := by
    intro found other hfound
    by_cases heq : found = key
    · subst heq
      rw [Function.update_self] at hfound
      exact .inl ⟨rfl, (Option.some.inj hfound).symm⟩
    · rw [Function.update_of_ne heq] at hfound
      exact .inr ⟨heq, hfound⟩
  refine ⟨h.nodup, fun hfirst hsecond hsame => ?_, fun htable hmem => ?_⟩
  · rcases hback hfirst with ⟨rfl, rfl⟩ | ⟨-, hold⟩
    · rcases hback hsecond with ⟨rfl, rfl⟩ | ⟨-, hold'⟩
      · rfl
      · exact absurd hsame.symm (hnew (.inl ⟨_, hold'⟩))
    · rcases hback hsecond with ⟨-, rfl⟩ | ⟨-, hold'⟩
      · exact absurd hsame (hnew (.inl ⟨_, hold⟩))
      · exact h.keyed hold hold' hsame
  · rcases hback htable with ⟨rfl, rfl⟩ | ⟨-, hold⟩
    · exact hnew (.inr hmem)
    · exact h.apart hold hmem

/-- A thing that was held is put into the table. -/
theorem put (h : Owned table (thing :: held)) :
    Owned (Function.update table key (some thing)) held :=
  h.release.add h.ne_of_cons

end Owned

end Vortice.Foundation
