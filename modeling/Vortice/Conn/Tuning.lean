import Vortice.Conn.Writing

/-!
# Replacing the transport

From the moment a channel is accepted for a profile that replaces the transport until a
handler asks for the replacement, nothing is read from the transport and nothing is written
to it.
-/

namespace Vortice.Conn

open Vortice.Foundation Vortice.Proto

/-- Anything that happens to a session but octets from its peer. -/
def inward : Proto.Act → Bool
  | .input _ => false
  | _ => true

namespace Driver

variable {H : Type} {router : Router H} {act : Act} {d d' : Driver H}

/-- A driver that serves a profile which replaces the transport waits for the replacement. -/
def Guarded (router : Router H) (d : Driver H) : Prop :=
  d.stage.running → ∀ channel handler, d.served.lookup channel = some handler →
    router.upgradesTransport handler → d.awaitingUpgrade

theorem Guarded.of_same (h : d.Guarded router)
    (hstage : d'.stage.running → d.stage.running)
    (hserved : ∀ channel handler, d'.served.lookup channel = some handler →
      d.served.lookup channel = some handler)
    (hawaiting : d.awaitingUpgrade → d'.awaitingUpgrade) : d'.Guarded router :=
  fun hrunning channel handler hlookup hupgrades =>
    hawaiting (h (hstage hrunning) channel handler (hserved channel handler hlookup) hupgrades)

theorem lookup_of_erase {κ α : Type} [DecidableEq κ] {table : Table κ α} {key other : κ} {value : α}
    (h : (table.erase key).lookup other = some value) : table.lookup other = some value := by
  by_cases hother : other = key
  · subst hother
    rw [AList.lookup_erase] at h
    cases h
  · rwa [AList.lookup_erase_ne hother] at h

theorem served_of_completes {event : Event} (h : completes event) {channel : UInt32} {handler : H}
    (hlookup : (d.handleEvent router event).served.lookup channel = some handler) :
    d.served.lookup channel = some handler := by
  cases event with
  | startRequested | closeRequested | messageReceived => cases h
  | channelClosed other =>
      simp only [handleEvent, answerAny_eq] at hlookup
      exact lookup_of_erase hlookup
  | _ =>
      simp only [handleEvent, channelOpened, answerAny_eq] at hlookup
      exact hlookup

theorem Guarded.step (hstep : Step router act d d') (h : d.Guarded router) :
    d'.Guarded router := by
  cases hstep with
  | awaitOpen | awaitClose | awaitReply | awaitEnd =>
      simp only [awaitOpen, awaitClose, awaitReply, awaitEnd, answerAny_eq]
      exact h.of_same id (fun _ _ => id) id
  | complete hcompletes =>
      obtain ⟨ready, routes, served, pipes, answered, hevent⟩ :=
        handleEvent_of_completes router d hcompletes
      refine h.of_same ?_ (fun _ _ => served_of_completes hcompletes) ?_ <;> rw [hevent] <;>
        exact id
  | @reply channel message pending =>
      obtain ⟨requests, answered, hreply⟩ := answerRequest_eq (d.note (.received channel message))
        (channel, message.msgno) pending message.kind (bodyOf message.payload)
      rw [hreply]
      exact h.of_same id (fun _ _ => id) id
  | spill | abandon => exact fun hrunning => absurd hrunning Bool.false_ne_true
  | replace =>
      unfold Driver.replace
      split
      · exact fun hrunning => absurd hrunning Bool.false_ne_true
      · intro _ channel handler hlookup
        simp at hlookup
  | heed asked tasks hawaiting hserved =>
      intro hrunning channel handler hlookup hupgrades
      rcases hserved channel handler hlookup with hbefore | hafter
      · exact hawaiting (h hrunning channel handler hbefore hupgrades)
      · exact hafter hupgrades
  | turn hrunning => exact h.of_same (fun _ => hrunning) (fun _ _ => id) id
  | finish hstage =>
      rw [tick_of_returned hstage]
      exact fun hrunning => absurd hrunning Bool.false_ne_true
  | _ => exact h.of_same id (fun _ _ => id) id

/-- Since `first`, the session has had nothing from its peer and the transport nothing from
the session. -/
structure Paused (first d : Driver H) : Prop where
  awaiting : d.awaitingUpgrade
  written : d.written = first.written
  quiet : Trace.Run (fun _ done => inward done) first.trace d.trace

theorem Paused.of_same {first : Driver H} (h : Paused first d) (htrace : d'.trace = d.trace)
    (hwritten : d'.written = d.written) (hawaiting : d.awaitingUpgrade → d'.awaitingUpgrade) :
    Paused first d' where
  awaiting := hawaiting h.awaiting
  written := hwritten.trans h.written
  quiet := htrace ▸ h.quiet

theorem Paused.of_act {first : Driver H} (h : Paused first d) {done : Proto.Act}
    (hinward : inward done) : Paused first { d with trace := d.trace.act done } where
  awaiting := h.awaiting
  written := h.written
  quiet := .act done h.quiet hinward

theorem Paused.step {first : Driver H} (hact : act.upgrades = false)
    (hstep : Step router act d d') (h : Paused first d) : Paused first d' := by
  have hnever : ∀ {P : Prop}, act.upgrades → P := fun hupgrades => by
    rw [hact] at hupgrades
    cases hupgrades
  have hnoted : ∀ entry : Note, Paused first (d.note entry) := fun _ => h.of_same rfl rfl id
  cases hstep with
  | call => exact h.of_act rfl
  | input chunk hawaiting =>
      rw [h.awaiting] at hawaiting
      cases hawaiting
  | pollEvent => exact h.of_act rfl
  | drainTransmit => exact ⟨h.awaiting, h.written, .act .pollTransmit h.quiet rfl⟩
  | settle => exact (hnoted _).of_act rfl
  | neglect => exact (hnoted _).of_act rfl
  | awaitOpen | awaitClose | awaitReply | awaitEnd =>
      have hcalled : ∀ call : Call, Paused first (d.call call) := fun _ => h.of_act rfl
      simp only [awaitOpen, awaitClose, awaitReply, awaitEnd, answerAny_eq]
      exact (hcalled _).of_same rfl rfl id
  | complete hcompletes =>
      obtain ⟨ready, routes, served, pipes, answered, hevent⟩ :=
        handleEvent_of_completes router d hcompletes
      rw [hevent]
      exact h.of_same rfl rfl id
  | @reply channel message pending =>
      obtain ⟨requests, answered, hreply⟩ := answerRequest_eq (d.note (.received channel message))
        (channel, message.msgno) pending message.kind (bodyOf message.payload)
      rw [hreply]
      exact h.of_same rfl rfl id
  | write count _ hupgrades => exact hnever (hupgrades h.awaiting)
  | spill count failure _ hupgrades => exact hnever hupgrades
  | replace hcommand =>
      subst hcommand
      cases hact
  | abandon hupgrades => exact hnever hupgrades
  | heed asked tasks hawaiting => exact h.of_same rfl rfl hawaiting
  | finish hstage =>
      rw [tick_of_returned hstage, answerAny_eq]
      exact h.of_same rfl rfl id
  | _ => exact h.of_same rfl rfl id

/-- While a driver serves a profile that replaces the transport, nothing is read or written until
the replacement is asked for. -/
theorem nothing_passes_before_upgrade {session : Session} {ready : Ticket}
    {first last : Driver H} {channel : UInt32} {handler : H}
    (hrun : Run (Driver.act router) (fun _ _ => True) (Driver.new session ready) first)
    (hrunning : first.stage.running) (hserved : first.served.lookup channel = some handler)
    (hupgrades : router.upgradesTransport handler)
    (hrest : Run (Driver.act router) (fun _ act => act.upgrades = false) first last) :
    last.awaitingUpgrade ∧ last.written = first.written ∧
      Trace.Run (fun _ done => inward done) first.trace last.trace := by
  have hguarded : first.Guarded router :=
    preserves_of_steps (fun _ => Guarded.step) hrun fun _ _ _ hlookup => by
      simp [Driver.new] at hlookup
  have hpaused : Paused first last :=
    preserves_of_steps (fun hact => Paused.step hact) hrest
      ⟨hguarded hrunning channel handler hserved hupgrades, rfl, .refl _⟩
  exact ⟨hpaused.awaiting, hpaused.written, hpaused.quiet⟩

/-- A peer starts a channel for a profile that replaces the transport, and the answer is not
written. -/
theorem answer_waits_for_upgrade :
    ∃ session first last, Session.new (Config.new .listener) = .ok session ∧
      first = replay (.agreeing true) session
        (greeted ++ .read (startRequest 1 0 52) :: idle) ∧
      last = [Act.wrote 10 (.ok ()), .read (startRequest 3 1 148), .tick].foldl
        (Driver.act (.agreeing true)) first ∧
      first.out.length = 173 ∧ last.awaitingUpgrade ∧ last.written = [] := by
  have hrun : (Session.new (Config.new .listener)).toOption.any fun session =>
      let first := replay (.agreeing true) session
        (greeted ++ .read (startRequest 1 0 52) :: idle)
      first.stage.running ∧ first.served.lookup 1 = some () ∧ first.written = [] ∧
        first.out.length = 173 := by
    decide +kernel
  obtain ⟨session, hnew⟩ := Session.new_ok (Config.new .listener)
  rw [hnew] at hrun
  obtain ⟨hrunning, hserved, hwritten, hout⟩ := of_decide_eq_true hrun
  obtain ⟨first, hfirst⟩ : ∃ first, first = replay (.agreeing true) session
    (greeted ++ .read (startRequest 1 0 52) :: idle) := ⟨_, rfl⟩
  rw [← hfirst] at hrunning hserved hwritten hout
  have hrest : Run (Driver.act (.agreeing true)) (fun _ act => act.upgrades = false) first
      ([Act.wrote 10 (.ok ()), .read (startRequest 3 1 148), .tick].foldl
        (Driver.act (.agreeing true)) first) :=
    .of_checks (fun _ act => !act.upgrades) (by simp) rfl
  have hquiet :=
    nothing_passes_before_upgrade (replay_run _ hfirst) hrunning hserved rfl hrest
  exact ⟨session, first, _, hnew, hfirst, rfl, hout, hquiet.1, hquiet.2.1.trans hwritten⟩

end Driver

end Vortice.Conn
