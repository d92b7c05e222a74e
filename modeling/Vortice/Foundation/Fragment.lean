import Mathlib.Data.List.Basic

/-!
# Cutting messages into fragments and joining them again

A message is a tag and a payload.  A sender cuts it into fragments that carry
the tag and say whether more follows; a receiver joins fragments as long as
their tags agree.  `Continues` relates what a receiver holds to the messages a
sender still has to cut, the first of which may have been cut in part.
-/

namespace Vortice.Foundation

structure Fragment (τ α : Type*) where
  tag : τ
  more : Bool
  payload : List α

structure Whole (τ α : Type*) where
  tag : τ
  payload : List α
  deriving DecidableEq

namespace Fragment

variable {τ α : Type*} [DecidableEq τ]

/-- One fragment joined to what is held: what is held then, and what is complete. -/
def absorb (held : Option (Whole τ α)) (fragment : Fragment τ α) :
    Option (Option (Whole τ α) × Option (Whole τ α)) :=
  match held with
  | none =>
      if fragment.more then some (some ⟨fragment.tag, fragment.payload⟩, none)
      else some (none, some ⟨fragment.tag, fragment.payload⟩)
  | some whole =>
      if whole.tag = fragment.tag then
        if fragment.more then
          some (some ⟨whole.tag, whole.payload ++ fragment.payload⟩, none)
        else some (none, some ⟨whole.tag, whole.payload ++ fragment.payload⟩)
      else none

/-- Fragments joined in order, unless one interrupts a message. -/
def assemble (held : Option (Whole τ α)) : List (Fragment τ α) →
    Option (Option (Whole τ α) × List (Whole τ α))
  | [] => some (held, [])
  | fragment :: fragments =>
      match absorb held fragment with
      | none => none
      | some (held, whole) =>
          match assemble held fragments with
          | none => none
          | some (held, wholes) => some (held, whole.toList ++ wholes)

@[simp] theorem assemble_nil (held : Option (Whole τ α)) :
    assemble held [] = some (held, []) := rfl

theorem assemble_append {held held' : Option (Whole τ α)}
    {first second : List (Fragment τ α)} {wholes : List (Whole τ α)}
    (h : assemble held first = some (held', wholes)) :
    assemble held (first ++ second) =
      match assemble held' second with
      | none => none
      | some (held'', more) => some (held'', wholes ++ more) := by
  induction first generalizing held wholes with
  | nil =>
      cases h
      rw [List.nil_append]
      cases hsecond : assemble held' second <;> simp
  | cons fragment first ih =>
      rw [List.cons_append, assemble]
      rw [assemble] at h
      cases habsorb : absorb held fragment with
      | none =>
          rw [habsorb] at h
          cases h
      | some step =>
          obtain ⟨held₁, whole⟩ := step
          simp only [habsorb] at h ⊢
          cases hrest : assemble held₁ first with
          | none =>
              rw [hrest] at h
              cases h
          | some rest =>
              obtain ⟨held₂, wholes'⟩ := rest
              rw [hrest] at h
              cases h
              rw [ih hrest]
              rcases assemble held' second with _ | ⟨held'', more⟩
              · rfl
              · simp only [List.append_assoc]

theorem assemble_append_some {held held' held'' : Option (Whole τ α)}
    {first second : List (Fragment τ α)} {wholes more : List (Whole τ α)}
    (hfirst : assemble held first = some (held', wholes))
    (hsecond : assemble held' second = some (held'', more)) :
    assemble held (first ++ second) = some (held'', wholes ++ more) := by
  rw [assemble_append hfirst, hsecond]

/-- The first fragment of a run that joins up, and what it leaves to the others. -/
theorem assemble_cons {held held' : Option (Whole τ α)} {fragment : Fragment τ α}
    {fragments : List (Fragment τ α)} {wholes : List (Whole τ α)}
    (h : assemble held (fragment :: fragments) = some (held', wholes)) :
    ∃ next whole rest, absorb held fragment = some (next, whole) ∧
      assemble next fragments = some (held', rest) ∧
      wholes = whole.toList ++ rest := by
  rw [assemble] at h
  cases habsorb : absorb held fragment with
  | none =>
      rw [habsorb] at h
      cases h
  | some step =>
      obtain ⟨next, whole⟩ := step
      simp only [habsorb] at h
      cases hrest : assemble next fragments with
      | none =>
          rw [hrest] at h
          cases h
      | some rest =>
          obtain ⟨held₂, rest⟩ := rest
          rw [hrest] at h
          cases h
          exact ⟨next, whole, rest, rfl, hrest, rfl⟩

/-- Fragments that join up do so in two goes. -/
theorem assemble_split {held held' : Option (Whole τ α)}
    {first second : List (Fragment τ α)} {wholes : List (Whole τ α)}
    (h : assemble held (first ++ second) = some (held', wholes)) :
    ∃ middle done more, assemble held first = some (middle, done) ∧
      assemble middle second = some (held', more) ∧ wholes = done ++ more := by
  induction first generalizing held wholes with
  | nil => exact ⟨held, [], wholes, rfl, h, rfl⟩
  | cons fragment first ih =>
      obtain ⟨next, whole, rest, habsorb, hrest, rfl⟩ := assemble_cons h
      obtain ⟨middle, done, more, hfirst, hsecond, rfl⟩ := ih hrest
      refine ⟨middle, whole.toList ++ done, more, ?_, hsecond, ?_⟩
      · rw [assemble, habsorb]
        simp only [hfirst]
      · rw [List.append_assoc]

/-- A payload cut into fragments, the last of which says whether more follows. -/
inductive Cut (tag : τ) (more : Bool) : List α → List (Fragment τ α) → Prop where
  | last (payload : List α) : Cut tag more payload [⟨tag, more, payload⟩]
  | cons {payload : List α} {fragments : List (Fragment τ α)} (chunk : List α) :
      Cut tag more payload fragments →
      Cut tag more (chunk ++ payload) (⟨tag, true, chunk⟩ :: fragments)

/-- What is held of a message, in front of a further part of it. -/
def gathered (held : Option (Whole τ α)) (payload : List α) : List α :=
  match held with
  | none => payload
  | some whole => whole.payload ++ payload

theorem Cut.assemble {tag : τ} {more : Bool} {payload : List α}
    {fragments : List (Fragment τ α)} {held : Option (Whole τ α)}
    (h : Cut tag more payload fragments) (hheld : ∀ whole ∈ held, whole.tag = tag) :
    assemble held fragments =
      if more then some (some ⟨tag, gathered held payload⟩, [])
      else some (none, [⟨tag, gathered held payload⟩]) := by
  induction h generalizing held with
  | last payload =>
      cases held with
      | none => cases more <;> rfl
      | some whole =>
          have htag := hheld whole rfl
          cases more <;> simp [Fragment.assemble, absorb, htag, gathered]
  | @cons payload fragments chunk _ ih =>
      cases held with
      | none =>
          have hnext := @ih (some ⟨tag, chunk⟩) (by rintro _ ⟨⟩; rfl)
          cases more <;>
            simp_all [Fragment.assemble, absorb, gathered]
      | some whole =>
          have htag := hheld whole rfl
          have hnext := @ih (some ⟨tag, whole.payload ++ chunk⟩)
            (by rintro _ ⟨⟩; rfl)
          cases more <;>
            simp_all [Fragment.assemble, absorb, gathered]

omit [DecidableEq τ] in
/-- The fragments of a payload are its parts, in order. -/
theorem Cut.flatMap_payload {tag : τ} {more : Bool} {payload : List α}
    {fragments : List (Fragment τ α)} (h : Cut tag more payload fragments) :
    fragments.flatMap Fragment.payload = payload := by
  induction h with
  | last payload => simp
  | cons chunk _ ih => rw [List.flatMap_cons, ih]

omit [DecidableEq τ] in
theorem Cut.tag_eq {tag : τ} {more : Bool} {payload : List α}
    {fragments : List (Fragment τ α)} (h : Cut tag more payload fragments) :
    ∀ fragment ∈ fragments, fragment.tag = tag := by
  induction h with
  | last payload => simp
  | cons chunk _ ih =>
      intro fragment hmem
      rcases List.mem_cons.mp hmem with rfl | hmem
      · rfl
      · exact ih fragment hmem

omit [DecidableEq τ] in
/-- All fragments but the last say that more follows. -/
theorem Cut.more_eq {tag : τ} {more : Bool} {payload : List α}
    {fragments : List (Fragment τ α)} (h : Cut tag more payload fragments) :
    ∃ front last, fragments = front ++ [last] ∧ last.more = more ∧
      ∀ fragment ∈ front, fragment.more = true := by
  induction h with
  | last payload => exact ⟨[], _, rfl, rfl, nofun⟩
  | @cons payload fragments chunk _ ih =>
      obtain ⟨front, last, rfl, hlast, hfront⟩ := ih
      refine ⟨⟨tag, true, chunk⟩ :: front, last, rfl, hlast, fun fragment hmem => ?_⟩
      rcases List.mem_cons.mp hmem with rfl | hmem
      · rfl
      · exact hfront fragment hmem

/-- What a sender still has to cut completes what a receiver holds. -/
inductive Continues : Option (Whole τ α) → List (Whole τ α) →
    List (Whole τ α) → Prop where
  | fresh (queue : List (Whole τ α)) : Continues none queue queue
  | resumed (whole : Whole τ α) {rest : List α} (queue : List (Whole τ α)) :
      rest ≠ [] →
      Continues (some whole) (⟨whole.tag, rest⟩ :: queue)
        (⟨whole.tag, whole.payload ++ rest⟩ :: queue)

omit [DecidableEq τ] in
theorem Continues.append {held : Option (Whole τ α)}
    {queue pending : List (Whole τ α)} (h : Continues held queue pending)
    (more : List (Whole τ α)) :
    Continues held (queue ++ more) (pending ++ more) := by
  cases h with
  | fresh => exact .fresh _
  | resumed whole queue hrest => exact .resumed whole (queue ++ more) hrest

omit [DecidableEq τ] in
/-- Nothing left to cut means that nothing is held. -/
theorem Continues.of_nil {held : Option (Whole τ α)} {pending : List (Whole τ α)}
    (h : Continues held [] pending) : held = none ∧ pending = [] := by
  cases h
  exact ⟨rfl, rfl⟩

omit [DecidableEq τ] in
theorem Continues.of_pending_nil {held : Option (Whole τ α)}
    {queue : List (Whole τ α)} (h : Continues held queue []) : queue = [] := by
  cases h
  rfl

/-- Cutting the first message up to its end completes it at the receiver. -/
theorem Continues.finish {held : Option (Whole τ α)} {tag : τ} {payload : List α}
    {queue pending : List (Whole τ α)} {fragments : List (Fragment τ α)}
    (h : Continues held (⟨tag, payload⟩ :: queue) pending)
    (hcut : Cut tag false payload fragments) :
    ∃ whole, Fragment.assemble held fragments = some (none, [whole]) ∧
      pending = whole :: queue := by
  cases h with
  | fresh =>
      exact ⟨⟨tag, payload⟩, hcut.assemble (by simp), rfl⟩
  | resumed whole queue hrest =>
      exact ⟨⟨whole.tag, whole.payload ++ payload⟩,
        hcut.assemble (by rintro _ ⟨⟩; rfl), rfl⟩

/-- Cutting a part of the first message leaves it to be continued. -/
theorem Continues.interrupt {held : Option (Whole τ α)} {tag : τ}
    {payload rest : List α} {queue pending : List (Whole τ α)}
    {fragments : List (Fragment τ α)}
    (h : Continues held (⟨tag, payload ++ rest⟩ :: queue) pending)
    (hcut : Cut tag true payload fragments) (hrest : rest ≠ []) :
    ∃ held', Fragment.assemble held fragments = some (held', []) ∧
      Continues held' (⟨tag, rest⟩ :: queue) pending := by
  generalize hfirst : (⟨tag, payload ++ rest⟩ : Whole τ α) :: queue = all at h
  cases h with
  | fresh =>
      subst hfirst
      exact ⟨some ⟨tag, payload⟩, hcut.assemble (by simp),
        .resumed ⟨tag, payload⟩ queue hrest⟩
  | @resumed whole _ queue' hne =>
      cases hfirst
      refine ⟨some ⟨whole.tag, whole.payload ++ payload⟩,
        hcut.assemble (by rintro _ ⟨⟩; rfl), ?_⟩
      rw [← List.append_assoc]
      exact .resumed ⟨whole.tag, whole.payload ++ payload⟩ queue hrest

end Fragment

end Vortice.Foundation
