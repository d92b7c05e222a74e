import Mathlib.Data.List.Induction
import Mathlib.Logic.Function.Basic

/-!
# Requests and their answers

A log of requests, each under a key, and of answers that name a key.  Keys are
used again once their request has been answered.  In a `Paired` log every answer
finds its key taken by the request it answers, and every request finds its key
free, so the answer belongs to exactly one request and the request has no other.
-/

namespace Vortice.Foundation

/-- A request under a key, or the answer to the request its key stands for. -/
inductive Exchange (κ ρ α : Type*) where
  | asked (key : κ) (request : ρ)
  | answered (key : κ) (request : ρ) (answer : α)

namespace Exchange

variable {κ ρ α : Type*}

def key : Exchange κ ρ α → κ
  | .asked key _ => key
  | .answered key _ _ => key

/-- The request that the key stands for after the exchange. -/
def left : Exchange κ ρ α → Option ρ
  | .asked _ request => some request
  | .answered _ _ _ => none

/-- The request that the key stands for before the exchange. -/
def found : Exchange κ ρ α → Option ρ
  | .asked _ _ => none
  | .answered _ request _ => some request

variable [DecidableEq κ]

/-- The requests that have not been answered. -/
def underWay (log : List (Exchange κ ρ α)) : κ → Option ρ :=
  log.foldl (fun requests exchange =>
    Function.update requests exchange.key exchange.left) fun _ => none

/-- Every exchange finds under its key what it should. -/
def Paired (log : List (Exchange κ ρ α)) : Prop :=
  ∀ before exchange after, log = before ++ exchange :: after →
    underWay before exchange.key = exchange.found

variable {log : List (Exchange κ ρ α)} {exchange : Exchange κ ρ α}

theorem underWay_snoc : underWay (log ++ [exchange]) =
    Function.update (underWay log) exchange.key exchange.left := by
  rw [underWay, List.foldl_append]
  rfl

theorem Paired.nil : Paired ([] : List (Exchange κ ρ α)) := by
  intro before exchange after heq
  cases before <;> cases heq

theorem Paired.snoc (h : Paired log)
    (hfound : underWay log exchange.key = exchange.found) :
    Paired (log ++ [exchange]) := by
  intro before other after heq
  cases after using List.reverseRecOn with
  | nil =>
      obtain ⟨rfl, hlast⟩ := List.append_inj' heq rfl
      cases hlast
      exact hfound
  | append_singleton after last _ =>
      rw [← List.cons_append, ← List.append_assoc] at heq
      obtain ⟨hlog, -⟩ := List.append_inj' heq rfl
      exact h before other after hlog

/-- A key stands for the request that was the last exchange under it. -/
theorem underWay_eq_some {key : κ} {request : ρ} (h : underWay log key = some request) :
    ∃ earlier later, log = earlier ++ .asked key request :: later ∧
      ∀ other ∈ later, other.key ≠ key := by
  induction log using List.reverseRecOn with
  | nil => cases h
  | append_singleton log exchange ih =>
      rw [underWay_snoc] at h
      by_cases hkey : key = exchange.key
      · subst hkey
        rw [Function.update_self] at h
        cases exchange with
        | asked key found =>
            cases h
            exact ⟨log, [], rfl, nofun⟩
        | answered => cases h
      · rw [Function.update_of_ne hkey] at h
        obtain ⟨earlier, later, rfl, hlater⟩ := ih h
        refine ⟨earlier, later ++ [exchange], by simp, fun other hmem => ?_⟩
        rcases List.mem_append.mp hmem with hmem | hmem
        · exact hlater other hmem
        · rw [List.mem_singleton.mp hmem]
          exact Ne.symm hkey

/-- An answer belongs to the last request under its key, which has no other answer. -/
theorem Paired.answered (h : Paired log) {before after : List (Exchange κ ρ α)} {key : κ}
    {request : ρ} {answer : α} (heq : log = before ++ .answered key request answer :: after) :
    ∃ earlier between, before = earlier ++ .asked key request :: between ∧
      ∀ other ∈ between, other.key ≠ key :=
  underWay_eq_some (h before _ after heq)

end Exchange

end Vortice.Foundation
