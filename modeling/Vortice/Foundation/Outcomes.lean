import Vortice.Foundation.Computation

/-!
# What a call ends with

A call that is started in a state ends with a result or with an error, and leaves a state
either way.  The rules follow the text of the call from its first step on.
-/

namespace Vortice.Foundation

universe u

variable {ε σ α β : Type u}

/-- Started in `s`, the call ends with a result as in `post` or with an error as in `fails`. -/
def Ends (m : EStateM ε σ α) (s : σ) (post : α → σ → Prop) (fails : ε → σ → Prop) : Prop :=
  match m s with
  | .ok a t => post a t
  | .error e t => fails e t

namespace Ends

variable {m : EStateM ε σ α} {k : α → EStateM ε σ β} {s t : σ} {a : α} {e : ε}
variable {post post' : α → σ → Prop} {later : β → σ → Prop} {fails fails' : ε → σ → Prop}

theorem of_ok (hrun : m s = .ok a t) (h : post a t) : Ends m s post fails := by
  rw [Ends, hrun]
  exact h

theorem of_error (hrun : m s = .error e t) (h : fails e t) : Ends m s post fails := by
  rw [Ends, hrun]
  exact h

theorem ok (h : Ends m s post fails) (hrun : m s = .ok a t) : post a t := by
  rw [Ends, hrun] at h
  exact h

theorem error (h : Ends m s post fails) (hrun : m s = .error e t) : fails e t := by
  rw [Ends, hrun] at h
  exact h

protected theorem pure (h : post a s) : Ends (pure a) s post fails := h

protected theorem throw (h : fails e s) : Ends (throw e : EStateM ε σ α) s post fails := h

theorem mono (h : Ends m s post fails) (hpost : ∀ a t, post a t → post' a t)
    (hfails : ∀ e t, fails e t → fails' e t) : Ends m s post' fails' := by
  cases hrun : m s with
  | ok a t => exact .of_ok hrun (hpost _ _ (h.ok hrun))
  | error e t => exact .of_error hrun (hfails _ _ (h.error hrun))

protected theorem bind (h : Ends m s (fun a t => Ends (k a) t later fails) fails) :
    Ends (m >>= k) s later fails := by
  cases hrun : m s with
  | ok a t =>
      have hlater := h.ok hrun
      rw [Ends, Computation.bind_of_ok hrun]
      exact hlater
  | error e t => exact .of_error (Computation.bind_of_error hrun k) (h.error hrun)

theorem get_bind {k : σ → EStateM ε σ β} (h : Ends (k s) s later fails) :
    Ends (get >>= k) s later fails := h

protected theorem modify {f : σ → σ} {post : PUnit → σ → Prop} (h : post ⟨⟩ (f s)) :
    Ends (modify f) s post fails := h

theorem set_bind {k : PUnit → EStateM ε σ β} (h : Ends (k ⟨⟩) t later fails) :
    Ends (set t >>= k) s later fails := h

theorem modify_bind {f : σ → σ} {k : PUnit → EStateM ε σ β}
    (h : Ends (k ⟨⟩) (f s) later fails) : Ends (modify f >>= k) s later fails := h

theorem ite {c : Prop} [Decidable c] {m' : EStateM ε σ α}
    (h : c → Ends m s post fails) (h' : ¬ c → Ends m' s post fails) :
    Ends (if c then m else m') s post fails := by
  by_cases hc : c
  · rw [if_pos hc]
    exact h hc
  · rw [if_neg hc]
    exact h' hc

/-- What holds of the state that is left, whichever way. -/
theorem final {P : σ → Prop} (h : Ends m s (fun _ => P) (fun _ => P)) :
    P (Computation.final m s) := by
  cases hrun : m s with
  | ok a t =>
      rw [Computation.final_of_ok hrun]
      exact h.ok hrun
  | error e t =>
      rw [Computation.final_of_error hrun]
      exact h.error hrun

end Ends

end Vortice.Foundation
