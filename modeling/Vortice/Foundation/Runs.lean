import Mathlib.Data.List.Induction
import Mathlib.Logic.Basic

/-!
# Runs of a machine

A machine acts on its state, and a run is a sequence of acts each of which meets a
condition on the state it finds.  What every such act preserves holds all along.
-/

namespace Vortice.Foundation

universe u v

variable {σ : Type u} {α : Type v}

/-- A run of acts that meet a condition on the state they find. -/
inductive Run (act : σ → α → σ) (meets : σ → α → Prop) (first : σ) : σ → Prop where
  | refl : Run act meets first first
  | act {last : σ} (label : α) :
      Run act meets first last → meets last label →
      Run act meets first (act last label)

namespace Run

variable {act : σ → α → σ} {meets meets' : σ → α → Prop} {first mid last : σ}

/-- What every act of the run preserves holds at its end. -/
theorem preserves {I : σ → Prop}
    (hact : ∀ {s label}, meets s label → I s → I (act s label))
    (hrun : Run act meets first last) (h : I first) : I last := by
  induction hrun with
  | refl => exact h
  | act _ _ hmeets ih => exact hact hmeets ih

theorem trans (hfirst : Run act meets first mid) (hlast : Run act meets mid last) :
    Run act meets first last := by
  induction hlast with
  | refl => exact hfirst
  | act label _ hmeets ih => exact ih.act label hmeets

theorem mono (hle : ∀ {s label}, meets s label → meets' s label)
    (hrun : Run act meets first last) : Run act meets' first last := by
  induction hrun with
  | refl => exact .refl
  | act label _ hmeets ih => exact ih.act label (hle hmeets)

/-- Whether each act of a list meets a condition where it is done. -/
def checks (act : σ → α → σ) (check : σ → α → Bool) : σ → List α → Bool
  | _, [] => true
  | s, label :: rest => check s label && checks act check (act s label) rest

/-- The acts of a list are a run when each meets the condition in its turn. -/
theorem of_checks (check : σ → α → Bool)
    (hcheck : ∀ {s label}, check s label → meets s label)
    {labels : List α} (h : checks act check first labels) :
    Run act meets first (labels.foldl act first) := by
  induction labels generalizing first with
  | nil => exact .refl
  | cons label rest ih =>
      rw [checks, Bool.and_eq_true] at h
      exact (Run.refl.act label (hcheck h.1)).trans (ih h.2)

/-- The acts of a list, whatever they are. -/
theorem of_list (act : σ → α → σ) (first : σ) (labels : List α) :
    Run act (fun _ _ => True) first (labels.foldl act first) := by
  induction labels generalizing first with
  | nil => exact .refl
  | cons label rest ih => exact (Run.refl.act label trivial).trans (ih (act first label))

end Run

end Vortice.Foundation
