import Vortice.Conn.Steps

/-!
# What the peer asks for is answered once

A start or a close that the peer asks for comes out of the session as an event, and the
driver answers it while it turns it into whatever the handles are waiting for.  On channel 0
the driver hands over its greeting and these answers, each with the number of its request
and in the order of the requests.  A start stays unanswered only where a handler agrees to
a channel that the session does not open.
-/

namespace Vortice.Conn

open Vortice.Foundation Vortice.Proto
open SessionCore

/-- The requests to answer on the transport in use. -/
def wanted (numbers : List UInt32) : Note → List UInt32
  | .swapped _ _ => []
  | .wanted msgno true => numbers ++ [msgno]
  | _ => numbers

def wantedOf (journal : List Note) : List UInt32 := journal.foldl wanted []

theorem wantedOf_append (journal : List Note) (entry : Note) :
    wantedOf (journal ++ [entry]) = wanted (wantedOf journal) entry := by
  rw [wantedOf, List.foldl_append]
  rfl

/-- An act that sends nothing on channel 0 in the name of a handle. -/
def Act.addressed (act : Act) : Bool := act.call.all Call.silent

namespace Driver

variable {H : Type} {router : Router H} {act : Act} {d d' : Driver H}

/-- What was handed over on channel 0 is the greeting and the answers. -/
def Answering (d : Driver H) : Prop :=
  answersHanded d.trace.core.history = 0 :: wantedOf d.journal

theorem Answering.of_same (h : d.Answering)
    (hhistory : d'.trace.core.history = d.trace.core.history)
    (hjournal : wantedOf d'.journal = wantedOf d.journal) : d'.Answering := by
  rw [Answering, hhistory, hjournal]
  exact h

theorem Answering.note (h : d.Answering) {entry : Note}
    (hentry : wanted (wantedOf d.journal) entry = wantedOf d.journal) :
    (d.note entry).Answering :=
  h.of_same rfl ((wantedOf_append _ _).trans hentry)

theorem Answering.call (h : d.Answering) {call : Call} (hsilent : call.silent) :
    (d.call call).Answering :=
  (answersHanded_call hsilent d.trace.core).trans h

theorem silent_of_addressed {call : Call} (haddressed : act.addressed)
    (hcall : act.call = some call) : call.silent := by
  rw [Act.addressed, hcall] at haddressed
  exact haddressed

theorem Answering.settle (h : d.Answering) {call : Call} {msgno : UInt32}
    (hsettles : Settles d.trace.core call msgno) :
    ((d.note (.wanted msgno true)).call call).Answering := by
  have hanswered : answersHanded (Computation.final call.run d.trace.core).history =
      answersHanded d.trace.core.history ++ [msgno] := answersHanded_settles hsettles
  have hwanted : wantedOf (d.note (.wanted msgno true)).journal =
      wantedOf d.journal ++ [msgno] := wantedOf_append _ _
  refine hanswered.trans ?_
  rw [show answersHanded d.trace.core.history = _ from h]
  exact congrArg (0 :: ·) hwanted.symm

theorem Answering.neglect (h : d.Answering) {channel msgno : UInt32}
    (profile : Management.Profile) (hopens : d.trace.core.opensAt channel = false) :
    ((d.note (.wanted msgno false)).call (.acceptStart channel msgno profile)).Answering := by
  have hnoted : (d.note (.wanted msgno false)).Answering := h.note rfl
  refine hnoted.of_same ?_ rfl
  exact congrArg SessionCore.history (acceptStart_refused msgno profile hopens)

theorem Answering.replace (h : d.Answering) (config : Config) (ticket : Ticket) :
    (d.replace config ticket).Answering := by
  unfold Driver.replace
  split
  · exact h
  · rename_i session hnew
    have hgreeted : answersHanded session.core.history = [0] := answersHanded_fresh (.new hnew)
    have hnamed : answersHanded (d.trace.core.serverName.elim session.core fun name =>
        Computation.final (SessionCore.setServerName name) session.core).history = [0] := by
      cases d.trace.core.serverName with
      | none => exact hgreeted
      | some name =>
          have hsilent : (Call.setServerName name).silent := rfl
          exact (answersHanded_call hsilent session.core).trans hgreeted
    refine hnamed.trans ?_
    dsimp only [Driver.note]
    rw [wantedOf_append]
    rfl

theorem Answering.step (haddressed : act.addressed) (hstep : Step router act d d')
    (h : d.Answering) : d'.Answering := by
  cases hstep with
  | call hcall => exact h.call (silent_of_addressed haddressed hcall)
  | input chunk => exact (answersHanded_input d.trace.session chunk).trans h
  | pollEvent =>
      have hpolled := congrArg SessionCore.history (Trace.final_pollEvent d.trace.core)
      exact h.of_same hpolled rfl
  | drainTransmit =>
      rw [Driver.drainTransmit, Trace.act_pollTransmit]
      exact h
  | settle hsettles => exact h.settle hsettles
  | neglect profile hopens => exact h.neglect profile hopens
  | awaitOpen | awaitClose | awaitEnd =>
      simp only [awaitOpen, awaitClose, awaitEnd, answerAny_eq]
      exact h.call rfl
  | awaitReply _ hact =>
      have hcalled := h.call (silent_of_addressed haddressed (by rw [hact]; rfl))
      simp only [awaitReply, answerAny_eq]
      exact hcalled.of_same rfl (wantedOf_append _ _)
  | complete hcompletes =>
      obtain ⟨ready, routes, served, pipes, answered, hevent⟩ :=
        handleEvent_of_completes router d hcompletes
      rw [hevent]
      exact h
  | @reply channel message pending =>
      obtain ⟨requests, answered, hreply⟩ := answerRequest_eq (d.note (.received channel message))
        (channel, message.msgno) pending message.kind (bodyOf message.payload)
      rw [hreply]
      exact h.of_same rfl (wantedOf_append _ _)
  | spawn | push => exact h.of_same rfl (wantedOf_append _ _)
  | replace => exact Answering.replace (d := d.hear _) h _ _
  | @finish result hstage =>
      rw [tick_of_returned hstage, answerAny_eq]
      exact h
  | _ => exact h

theorem answering_new {config : Config} {session : Session}
    (hnew : Session.new config = .ok session) (ready : Ticket) :
    (Driver.new (H := H) session ready).Answering :=
  answersHanded_fresh (.new hnew)

/-- While no handle is used to send on channel 0, the replies handed over there are the greeting
and, in their order, one for each start and each close that the peer asked for, but for the
starts that a handler agrees to and the session does not open. -/
theorem every_request_is_answered_once {config : Config} {session : Session} {ready : Ticket}
    {last : Driver H} (hnew : Session.new config = .ok session)
    (hrun : Run (Driver.act router) (fun _ act => act.addressed) (Driver.new session ready) last) :
    answersHanded last.trace.core.history = 0 :: wantedOf last.journal :=
  preserves_of_steps Answering.step hrun (answering_new hnew ready)

/-- A peer starts a channel twice and then closes it. -/
def threeRequests : List Act :=
  greeted ++ .read (startRequest 1 0 52 ++ startRequest 1 1 148) :: idle ++
    .read (closeRequest 1 2 244) :: idle

/-- The start of a channel that is open already is left unanswered. -/
theorem second_start_unanswered :
    ∃ session last, Session.new (Config.new .listener) = .ok session ∧
      last = replay (.agreeing false) session threeRequests ∧
      answersHanded last.trace.core.history = [0, 0, 2] := by
  have hrun : (Session.new (Config.new .listener)).toOption.any fun session =>
      Run.checks (Driver.act (.agreeing false)) (fun _ => Act.addressed) (Driver.new session 0)
          threeRequests &&
        wantedOf (replay (.agreeing false) session threeRequests).journal = [0, 2] := by
    decide +kernel
  obtain ⟨session, hnew⟩ := Session.new_ok (Config.new .listener)
  rw [hnew] at hrun
  simp only [Except.toOption, Option.any_some, Bool.and_eq_true, decide_eq_true_eq] at hrun
  obtain ⟨haddressed, hwanted⟩ := hrun
  have hanswered := every_request_is_answered_once hnew
    (Run.of_checks (fun _ => Act.addressed) id haddressed)
  exact ⟨session, _, hnew, rfl, hanswered.trans (congrArg (0 :: ·) hwanted)⟩

end Driver

end Vortice.Conn
