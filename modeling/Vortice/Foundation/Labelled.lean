import Vortice.Foundation.Computation

/-!
# Labelled steps

A step relation whose steps carry labels, and paths of steps whose labels are of
an allowed kind.  A computation `Makes` steps of a kind when every call, however
it ends, is such a path; these rules derive it for a composed computation, and
`Walk.preserves` is the induction over a path, done once.
-/

namespace Vortice.Foundation

universe u

variable {ε σ α β : Type u} {ℓ : Type*}

/-- A sequence of steps with labels of the allowed kind. -/
def Walk (step : σ → ℓ → σ → Prop) (allowed : ℓ → Prop) : σ → σ → Prop :=
  Relation.ReflTransGen fun s s' => ∃ label, allowed label ∧ step s label s'

namespace Walk

variable {step : σ → ℓ → σ → Prop} {allowed allowed' : ℓ → Prop} {s t u : σ}

theorem refl {s : σ} : Walk step allowed s s := Relation.ReflTransGen.refl

theorem trans (first : Walk step allowed s t) (second : Walk step allowed t u) :
    Walk step allowed s u :=
  Relation.ReflTransGen.trans first second

theorem single {label : ℓ} (hallowed : allowed label) (h : step s label t) :
    Walk step allowed s t :=
  Relation.ReflTransGen.single ⟨label, hallowed, h⟩

theorem mono (hle : ∀ label, allowed label → allowed' label)
    (h : Walk step allowed s t) : Walk step allowed' s t := by
  induction h with
  | refl => exact refl
  | tail _ hstep ih =>
      obtain ⟨label, hallowed, hstep⟩ := hstep
      exact ih.trans (single (hle label hallowed) hstep)

/-- What every allowed step preserves holds at the end of a path. -/
theorem preserves {I : σ → Prop}
    (hstep : ∀ {s s' label}, allowed label → step s label s' → I s → I s')
    (h : Walk step allowed s t) (hs : I s) : I t := by
  induction h with
  | refl => exact hs
  | tail _ hlast ih =>
      obtain ⟨label, hallowed, hlast⟩ := hlast
      exact hstep hallowed hlast ih

end Walk

/-- Every call is a path of allowed steps, also when it fails. -/
def Makes (step : σ → ℓ → σ → Prop) (allowed : ℓ → Prop)
    (m : EStateM ε σ α) : Prop :=
  Computation.Relates (Walk step allowed) m

namespace Makes

variable {step : σ → ℓ → σ → Prop} {allowed allowed' : ℓ → Prop}

theorem pure (a : α) : Makes step allowed (pure a : EStateM ε σ α) :=
  Computation.relates_pure (fun _ => Walk.refl) a

theorem throw (e : ε) : Makes step allowed (throw e : EStateM ε σ α) :=
  Computation.relates_throw (fun _ => Walk.refl) e

theorem bind {m : EStateM ε σ α} {f : α → EStateM ε σ β}
    (hm : Makes step allowed m) (hf : ∀ a, Makes step allowed (f a)) :
    Makes step allowed (m >>= f) :=
  Computation.relates_bind (fun _ _ _ => Walk.trans) hm hf

theorem get_bind {f : σ → EStateM ε σ β}
    (hf : ∀ s, Walk step allowed s (Computation.final (f s) s)) :
    Makes step allowed (get >>= f) :=
  fun s => hf s

theorem ite {c : Prop} [Decidable c] {m n : EStateM ε σ α}
    (hm : c → Makes step allowed m) (hn : ¬ c → Makes step allowed n) :
    Makes step allowed (if c then m else n) :=
  Computation.relates_ite hm hn

theorem mono {m : EStateM ε σ α} (hle : ∀ label, allowed label → allowed' label)
    (hm : Makes step allowed m) : Makes step allowed' m :=
  fun s => (hm s).mono hle

/-- A call that fails at once, or goes on from the state its first part leaves. -/
theorem path_bind {m : EStateM ε σ α} {f : α → EStateM ε σ β} {s : σ}
    (hm : Walk step allowed s (Computation.final m s))
    (hf : ∀ a s', m s = .ok a s' →
      Walk step allowed s' (Computation.final (f a) s')) :
    Walk step allowed s (Computation.final (m >>= f) s) := by
  cases hrun : m s with
  | ok a s' =>
      rw [Computation.final_of_ok hrun] at hm
      have hbind := Computation.bind_of_ok hrun f
      have hfinal : Computation.final (m >>= f) s = Computation.final (f a) s' := by
        rw [Computation.final, Computation.final, hbind]
      rw [hfinal]
      exact hm.trans (hf a s' hrun)
  | error e s' =>
      rw [Computation.final_of_error hrun] at hm
      rwa [Computation.final_of_error (Computation.bind_of_error hrun f)]

theorem path_get_bind {f : σ → EStateM ε σ β} {s : σ}
    (h : Walk step allowed s (Computation.final (f s) s)) :
    Walk step allowed s (Computation.final (get >>= f) s) :=
  h

/-- A change of the state that is a path, and what goes on from it. -/
theorem path_modify_bind {g : σ → σ} {f : PUnit → EStateM ε σ β} {s : σ}
    (hg : Walk step allowed s (g s))
    (hf : Walk step allowed (g s) (Computation.final (f PUnit.unit) (g s))) :
    Walk step allowed s (Computation.final (modify g >>= f) s) :=
  hg.trans hf

end Makes

end Vortice.Foundation
