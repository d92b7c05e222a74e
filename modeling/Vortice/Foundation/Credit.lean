import Mathlib.Data.List.Basic

/-!
# Credit-based flow control

Both ends of a stream count its elements from the start.  The sender stays
within the window it was last granted; the receiver grants a fresh one whenever
`threshold` elements have arrived since the last grant, and may widen what it
offers at any time.  Grants travel in order and may arrive late.  In unbounded
counters the sender never leaves the window the receiver offers, and never waits
for a grant that is not on its way.
-/

namespace Vortice.Foundation

structure Credit where
  base : Nat
  size : Nat
  sent : Nat
  received : Nat
  acked : Nat
  /-- What the receiver offers from `acked` on. -/
  window : Nat
  /-- What was granted and has not arrived, a base and a size each time. -/
  grants : List (Nat × Nat)

namespace Credit

/-- Grants on their way lead from what the sender was granted to what the receiver offers,
and none of them takes anything back. -/
def Leads : Nat × Nat → List (Nat × Nat) → Nat × Nat → Prop
  | held, [], offer => held.1 = offer.1 ∧ held.2 ≤ offer.2
  | held, grant :: grants, offer =>
      held.1 ≤ grant.1 ∧ held.2 ≤ grant.2 ∧ Leads grant grants offer

theorem Leads.le {held offer : Nat × Nat} {grants : List (Nat × Nat)}
    (h : Leads held grants offer) : held.1 ≤ offer.1 ∧ held.2 ≤ offer.2 := by
  induction grants generalizing held with
  | nil => exact ⟨Nat.le_of_eq h.1, h.2⟩
  | cons grant grants ih =>
      have hrest := ih h.2.2
      exact ⟨Nat.le_trans h.1 hrest.1, Nat.le_trans h.2.1 hrest.2⟩

theorem Leads.append {held : Nat × Nat} {acked next size : Nat} {grants : List (Nat × Nat)}
    (h : Leads held grants (acked, size)) (hle : acked ≤ next) :
    Leads held (grants ++ [(next, size)]) (next, size) := by
  induction grants generalizing held with
  | nil => exact ⟨Nat.le_trans (Nat.le_of_eq h.1) hle, h.2, rfl, Nat.le_refl _⟩
  | cons grant grants ih => exact ⟨h.1, h.2.1, ih h.2.2⟩

theorem Leads.widen {held : Nat × Nat} {acked size size' : Nat} {grants : List (Nat × Nat)}
    (h : Leads held grants (acked, size)) (hle : size ≤ size') :
    Leads held grants (acked, size') := by
  induction grants generalizing held with
  | nil => exact ⟨h.1, Nat.le_trans h.2 hle⟩
  | cons grant grants ih => exact ⟨h.1, h.2.1, ih h.2.2⟩

/-- What both ends rely on, for an initial window and a threshold. -/
structure Sound (initial threshold : Nat) (c : Credit) : Prop where
  sent_le : c.sent ≤ c.base + c.size
  received_le : c.received ≤ c.sent
  acked_le : c.acked ≤ c.received
  unacked_lt : c.received < c.acked + threshold
  initial_le : initial ≤ c.size
  leads : Leads (c.base, c.size) c.grants (c.acked, c.window)

/-- Nothing sent, and the initial window granted. -/
def start (initial window : Nat) : Credit := ⟨0, initial, 0, 0, 0, window, []⟩

def emit (c : Credit) (count : Nat) : Credit := { c with sent := c.sent + count }

def receive (c : Credit) (count : Nat) : Credit :=
  { c with received := c.received + count }

def acknowledge (c : Credit) : Credit :=
  { c with
    acked := c.received
    grants := c.grants ++ [(c.received, c.window)] }

def advertise (c : Credit) : Credit := { c with grants := c.grants ++ [(c.acked, c.window)] }

def widen (c : Credit) (window : Nat) : Credit := { c with window }

def grant (c : Credit) (base size : Nat) (grants : List (Nat × Nat)) : Credit :=
  { c with base, size, grants }

namespace Sound

variable {initial threshold : Nat} {c : Credit}

theorem start {window : Nat} (hpos : 0 < threshold) (hle : initial ≤ window) :
    Sound initial threshold (.start initial window) := by
  constructor <;> simp [Credit.start, Leads, hpos, hle]

theorem emit {count : Nat} (h : Sound initial threshold c)
    (hroom : c.sent + count ≤ c.base + c.size) : Sound initial threshold (c.emit count) :=
  { h with
    sent_le := hroom
    received_le := Nat.le_trans h.received_le (Nat.le_add_right _ _) }

theorem receive {count : Nat} (h : Sound initial threshold c)
    (hsent : c.received + count ≤ c.sent)
    (hlt : c.received + count < c.acked + threshold) :
    Sound initial threshold (c.receive count) :=
  { h with
    received_le := hsent
    acked_le := Nat.le_trans h.acked_le (Nat.le_add_right _ _)
    unacked_lt := hlt }

/-- Taking elements in and granting a fresh window for all of them. -/
theorem receive_acknowledge {count : Nat} (h : Sound initial threshold c)
    (hsent : c.received + count ≤ c.sent) (hpos : 0 < threshold) :
    Sound initial threshold (c.receive count).acknowledge := by
  have hacked := h.acked_le
  refine { h with
    received_le := hsent, acked_le := Nat.le_refl _, unacked_lt := ?_, leads := ?_ }
  · change c.received + count < c.received + count + threshold
    omega
  · exact h.leads.append (by change c.acked ≤ c.received + count; omega)

theorem advertise (h : Sound initial threshold c) : Sound initial threshold c.advertise :=
  { h with leads := h.leads.append (Nat.le_refl _) }

theorem widen {window : Nat} (h : Sound initial threshold c) (hle : c.window ≤ window) :
    Sound initial threshold (c.widen window) :=
  { h with leads := h.leads.widen hle }

/-- A grant that arrives widens what the sender may send. -/
theorem grant {base size : Nat} {grants : List (Nat × Nat)} (h : Sound initial threshold c)
    (hgrants : c.grants = (base, size) :: grants) :
    Sound initial threshold (c.grant base size grants) := by
  have hleads := h.leads
  have hsent := h.sent_le
  have hinitial := h.initial_le
  rw [hgrants] at hleads
  obtain ⟨hbase, hsize, hrest⟩ := hleads
  refine { h with sent_le := ?_, initial_le := Nat.le_trans hinitial hsize, leads := hrest }
  change c.sent ≤ base + size
  exact Nat.le_trans hsent (Nat.add_le_add hbase hsize)

/-- Nothing that was granted lies before what the receiver has acknowledged, or after what it
takes. -/
theorem bounds (h : Sound initial threshold c) :
    c.base ≤ c.sent ∧ c.size ≤ c.window := by
  have hle := h.leads.le
  have := h.acked_le
  have := h.received_le
  exact ⟨by have := hle.1; omega, hle.2⟩

/-- Whatever the sender has sent fits the window the receiver holds. -/
theorem fits {count : Nat} (h : Sound initial threshold c)
    (hsent : c.received + count ≤ c.sent) :
    c.received - c.acked + count ≤ c.window := by
  obtain ⟨hbase, hsize⟩ := h.leads.le
  have := h.sent_le
  have := h.acked_le
  omega

/-- With nothing on its way in either direction the sender has room. -/
theorem room (h : Sound initial threshold c) (hle : threshold ≤ initial)
    (hgrants : c.grants = []) (hreceived : c.received = c.sent) :
    c.sent < c.base + c.size := by
  have hleads := h.leads
  rw [hgrants] at hleads
  have hbase : c.base = c.acked := hleads.1
  have := h.unacked_lt
  have := h.initial_le
  omega

end Sound

end Credit

end Vortice.Foundation
