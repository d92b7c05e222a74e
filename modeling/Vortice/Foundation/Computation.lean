import Mathlib.Logic.Relation

/-!
# Fallible computations on a state

A method that takes its receiver by mutable reference and returns a result is an
`EStateM`: on an error the state is kept as the method left it.  `Relates` says
what every call does to the state, whichever way it returns.
-/

namespace Vortice.Foundation

universe u

variable {ε σ α β : Type u}

namespace Computation

/-- The state a call leaves, on success and on failure. -/
def final (m : EStateM ε σ α) (s : σ) : σ :=
  match m s with
  | .ok _ s' => s'
  | .error _ s' => s'

/-- A call as a pair of the state it leaves and its result. -/
def outcome (m : EStateM ε σ α) (s : σ) : σ × Except ε α :=
  match m s with
  | .ok a s' => (s', .ok a)
  | .error e s' => (s', .error e)

theorem final_of_ok {m : EStateM ε σ α} {s s' : σ} {a : α}
    (h : m s = .ok a s') : final m s = s' := by
  rw [final, h]

theorem final_of_error {m : EStateM ε σ α} {s s' : σ} {e : ε}
    (h : m s = .error e s') : final m s = s' := by
  rw [final, h]

theorem final_congr {m m' : EStateM ε σ α} {s s' : σ} (h : m s = m' s') :
    final m s = final m' s' := by
  rw [final, h, final]

theorem outcome_congr {m m' : EStateM ε σ α} {s s' : σ} (h : m s = m' s') :
    outcome m s = outcome m' s' := by
  rw [outcome, h, outcome]

theorem outcome_fst (m : EStateM ε σ α) (s : σ) :
    (outcome m s).1 = final m s := by
  unfold outcome final
  cases m s <;> rfl

theorem ok_of_outcome {m : EStateM ε σ α} {s s' : σ} {a : α}
    (h : outcome m s = (s', .ok a)) : m s = .ok a s' := by
  unfold outcome at h
  split at h <;> cases h
  assumption

theorem error_of_outcome {m : EStateM ε σ α} {s s' : σ} {e : ε}
    (h : outcome m s = (s', .error e)) : m s = .error e s' := by
  unfold outcome at h
  split at h <;> cases h
  assumption

theorem exists_ok {m : EStateM ε σ α} {s : σ} {a : α}
    (h : (outcome m s).2.toOption = some a) : ∃ t, m s = .ok a t := by
  unfold outcome at h
  cases hrun : m s with
  | ok b t =>
      rw [hrun] at h
      cases h
      exact ⟨t, rfl⟩
  | error e t =>
      rw [hrun] at h
      cases h

theorem bind_of_ok {m : EStateM ε σ α} {s s' : σ} {a : α}
    (h : m s = .ok a s') (f : α → EStateM ε σ β) :
    (m >>= f) s = f a s' := by
  change EStateM.bind m f s = f a s'
  rw [EStateM.bind, h]

theorem bind_of_error {m : EStateM ε σ α} {s s' : σ} {e : ε}
    (h : m s = .error e s') (f : α → EStateM ε σ β) :
    (m >>= f) s = .error e s' := by
  change EStateM.bind m f s = .error e s'
  rw [EStateM.bind, h]

/-- A composed call that succeeds has parts that succeed. -/
theorem ok_of_bind {m : EStateM ε σ α} {f : α → EStateM ε σ β} {s t : σ} {b : β}
    (h : (m >>= f) s = .ok b t) : ∃ a u, m s = .ok a u ∧ f a u = .ok b t := by
  cases hrun : m s with
  | ok a u => exact ⟨a, u, rfl, by rwa [bind_of_ok hrun] at h⟩
  | error e u =>
      rw [bind_of_error hrun] at h
      cases h

/-- The call ends with an error. -/
def Fails (m : EStateM ε σ α) (s : σ) : Prop := ∃ e t, m s = .error e t

theorem error_of_not_ok {m : EStateM ε σ α} {s : σ} (h : (outcome m s).2.isOk = false) :
    ∃ e, m s = .error e (final m s) := by
  unfold outcome at h
  unfold final
  cases hrun : m s with
  | ok a t =>
      rw [hrun] at h
      cases h
  | error e t => exact ⟨e, rfl⟩

theorem Fails.bind_of_ok {m : EStateM ε σ α} {f : α → EStateM ε σ β} {s t : σ}
    {a : α} (hok : m s = .ok a t) (h : Fails (f a) t) : Fails (m >>= f) s := by
  obtain ⟨e, u, hrun⟩ := h
  exact ⟨e, u, by rw [Computation.bind_of_ok hok, hrun]⟩

/-- Dropping the result of a call does not change what it does. -/
theorem final_drop (m : EStateM ε σ α) (b : β) (s : σ) :
    final (m >>= fun _ => pure b) s = final m s := by
  cases hrun : m s with
  | ok a s' =>
      rw [final, bind_of_ok hrun, final_of_ok hrun]
      rfl
  | error e s' => rw [final_of_error hrun, final_of_error (bind_of_error hrun _)]

/-- What `f` changes of the state makes no difference to the call, nor does the call
make any to that. -/
def Ignores (f : σ → σ) (m : EStateM ε σ α) : Prop :=
  ∀ s, outcome m (f s) = Prod.map f id (outcome m s)

section Ignores

variable {f : σ → σ}

theorem ignores_pure (f : σ → σ) (a : α) : Ignores f (pure a : EStateM ε σ α) :=
  fun _ => rfl

theorem ignores_throw (f : σ → σ) (e : ε) : Ignores f (throw e : EStateM ε σ α) :=
  fun _ => rfl

theorem ignores_modify {g : σ → σ} (h : ∀ s, g (f s) = f (g s)) :
    Ignores f (modify g : EStateM ε σ PUnit) :=
  fun s => congrArg (fun t => (t, Except.ok PUnit.unit)) (h s)

/-- A call that looks at the state only where `f` leaves it alone. -/
theorem ignores_get_bind {k : σ → EStateM ε σ β}
    (h : ∀ s, outcome (k (f s)) (f s) = Prod.map f id (outcome (k s) s)) :
    Ignores f (get >>= k) :=
  h

theorem Ignores.ok {m : EStateM ε σ α} (h : Ignores f m) {s t : σ} {a : α}
    (hrun : m s = .ok a t) : m (f s) = .ok a (f t) := by
  have := h s
  rw [outcome, outcome, hrun] at this
  exact ok_of_outcome this

theorem Ignores.error {m : EStateM ε σ α} (h : Ignores f m) {s t : σ} {e : ε}
    (hrun : m s = .error e t) : m (f s) = .error e (f t) := by
  have := h s
  rw [outcome, outcome, hrun] at this
  exact error_of_outcome this

theorem ignores_bind {m : EStateM ε σ α} {k : α → EStateM ε σ β} (hm : Ignores f m)
    (hk : ∀ a, Ignores f (k a)) : Ignores f (m >>= k) := by
  intro s
  cases hrun : m s with
  | ok a t =>
      rw [outcome, outcome, bind_of_ok hrun, bind_of_ok (hm.ok hrun), ← outcome, ← outcome]
      exact hk a t
  | error e t =>
      rw [outcome, outcome, bind_of_error hrun, bind_of_error (hm.error hrun)]
      rfl

theorem ignores_ite {c : Prop} [Decidable c] {m n : EStateM ε σ α}
    (hm : Ignores f m) (hn : Ignores f n) : Ignores f (if c then m else n) := by
  by_cases h : c
  · rwa [if_pos h]
  · rwa [if_neg h]

/-- The call fails whatever `f` changes. -/
theorem Ignores.fails {m : EStateM ε σ α} (h : Ignores f m) {s : σ} (hfails : Fails m s) :
    Fails m (f s) := by
  obtain ⟨e, t, hrun⟩ := hfails
  exact ⟨e, f t, h.error hrun⟩

end Ignores

/-- Every call moves the state along `R`, also when it fails. -/
def Relates (R : σ → σ → Prop) (m : EStateM ε σ α) : Prop :=
  ∀ s, R s (final m s)

section Relates

variable {R : σ → σ → Prop}

theorem Relates.of_ok {m : EStateM ε σ α} (h : Relates R m) {s s' : σ} {a : α}
    (hrun : m s = .ok a s') : R s s' := by
  have := h s
  rwa [final_of_ok hrun] at this

theorem Relates.of_error {m : EStateM ε σ α} (h : Relates R m) {s s' : σ} {e : ε}
    (hrun : m s = .error e s') : R s s' := by
  have := h s
  rwa [final_of_error hrun] at this

theorem relates_pure (hrefl : ∀ s, R s s) (a : α) :
    Relates R (pure a : EStateM ε σ α) :=
  fun s => hrefl s

theorem relates_throw (hrefl : ∀ s, R s s) (e : ε) :
    Relates R (throw e : EStateM ε σ α) :=
  fun s => hrefl s

theorem relates_modify {f : σ → σ} (h : ∀ s, R s (f s)) :
    Relates R (modify f : EStateM ε σ PUnit) := h

/-- A call that begins by looking at the state. -/
theorem relates_get_bind {k : σ → EStateM ε σ β} (h : ∀ s, R s (final (k s) s)) :
    Relates R (get >>= k) := h

theorem relates_bind (htrans : ∀ s t u, R s t → R t u → R s u)
    {m : EStateM ε σ α} {f : α → EStateM ε σ β} (hm : Relates R m)
    (hf : ∀ a, Relates R (f a)) : Relates R (m >>= f) := by
  intro s
  cases hrun : m s with
  | ok a s' =>
      have hbind := bind_of_ok hrun f
      have hfinal : final (m >>= f) s = final (f a) s' := by
        rw [final, final, hbind]
      rw [hfinal]
      exact htrans s s' _ (hm.of_ok hrun) (hf a s')
  | error e s' =>
      rw [final_of_error (bind_of_error hrun f)]
      exact hm.of_error hrun

theorem relates_ite {c : Prop} [Decidable c] {m n : EStateM ε σ α}
    (hm : c → Relates R m) (hn : ¬ c → Relates R n) :
    Relates R (if c then m else n) := by
  by_cases h : c
  · rw [if_pos h]
    exact hm h
  · rw [if_neg h]
    exact hn h

end Relates

end Computation

end Vortice.Foundation
