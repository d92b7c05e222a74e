import Vortice.Conn.Machine

/-!
# What a driver does, step by step

Every act of a driver is a path of steps.  A step calls one method of the session, completes
or enters one caller, hands one message on or moves some octets to the transport, so an
invariant of runs has to be checked for one step of each kind.
-/

namespace Vortice.Conn

open Vortice.Foundation Vortice.Proto
open SessionCore (Settles)

/-- The method of the session that a command calls. -/
def Command.call : Command → Option Call
  | .openChannel profile => some (.startChannel profile)
  | .closeChannel number => some (.closeChannel number)
  | .request channel payload => some (.sendMsg channel (withMime payload))
  | .send channel kind msgno ansno payload =>
      some (.send channel kind msgno ansno (withMime payload))
  | .closeSession => some (.closeChannel greetingChannel)
  | .serverName | .authenticated => none
  | .authenticate identity => some (.setAuthenticated identity)
  | .setWindowSize channel size => some (.setWindowSize channel size)
  | .upgrade lastReply _ _ => lastReply.map fun last =>
      .send last.1 .rpy last.2.1 none (withMime last.2.2)

def Act.call : Act → Option Call
  | .command _ asked => asked.call
  | _ => none

def Act.upgrades : Act → Bool
  | .command _ (.upgrade _ _ _) => true
  | _ => false

/-- Whether the loop has not come to its end. -/
def Stage.running : Stage → Bool
  | .transmitting _ | .handling _ | .waiting => true
  | .returned _ | .ended => false

/-- An answer that no reply of the peer was waited for. -/
def Answer.prompt : Answer → Bool
  | .reply (.ok _) => false
  | _ => true

namespace Driver

variable {H : Type} {router : Router H} {act : Act} {d d' : Driver H}

def call (d : Driver H) (call : Call) : Driver H := { d with trace := d.trace.act (.call call) }

/-- A caller is heard. -/
def hear (d : Driver H) (ticket : Ticket) : Driver H := { d with callers := d.callers ++ [ticket] }

/-- The message of an event, as it is handed on. -/
def delivered (message : Message) : Message := { message with payload := bodyOf message.payload }

/-- An event that only completes a caller. -/
def completes : Event → Bool
  | .startRequested _ _ _ | .closeRequested _ _ _ | .messageReceived _ _ => false
  | _ => true

/-- Nobody is waiting for a message as the reply to a request. -/
def Unasked (d : Driver H) (channel : UInt32) (message : Message) : Prop :=
  message.kind = .msg ∨ d.routes.requests.lookup (channel, message.msgno) = none

/-- One step of a driver, and the act it is part of. -/
inductive Step (router : Router H) (act : Act) (d : Driver H) : Driver H → Prop where
  | call {call : Call} : act.call = some call → Step router act d (d.call call)
  | input (chunk : Octets) : d.awaitingUpgrade = false →
      Step router act d { d with trace := d.trace.act (.input chunk) }
  | pollEvent : Step router act d { d with trace := d.trace.act .pollEvent }
  | drainTransmit : Step router act d d.drainTransmit
  | settle {call : Call} {msgno : UInt32} : Settles d.trace.core call msgno →
      Step router act d ((d.note (.wanted msgno true)).call call)
  | neglect {channel msgno : UInt32} (profile : Management.Profile) :
      d.trace.core.opensAt channel = false →
      Step router act d
        ((d.note (.wanted msgno false)).call (.acceptStart channel msgno profile))
  | answer {ticket : Ticket} {asked : Command} {answer : Answer} :
      act = .command ticket asked → answer.prompt →
      Step router act d ((d.hear ticket).answer ticket answer)
  | awaitOpen {ticket : Ticket} {profile : Management.Profile} {number : UInt32}
      {core : SessionCore} : d.stage.running → act = .command ticket (.openChannel profile) →
      SessionCore.startChannel profile d.trace.core = .ok number core →
      Step router act d (((d.call (.startChannel profile)).hear ticket).awaitOpen number ticket)
  | awaitClose {ticket : Ticket} {number : UInt32} {core : SessionCore} :
      d.stage.running →
      act = .command ticket (.closeChannel number) →
      SessionCore.closeChannel number d.trace.core = .ok () core →
      Step router act d (((d.call (.closeChannel number)).hear ticket).awaitClose number ticket)
  | awaitReply {ticket : Ticket} {channel msgno : UInt32} {payload : Octets}
      {core : SessionCore} : d.stage.running →
      act = .command ticket (.request channel payload) →
      SessionCore.sendMsg channel (withMime payload) d.trace.core = .ok msgno core →
      Step router act d
        ((((d.call (.sendMsg channel (withMime payload))).hear ticket).awaitReply channel msgno
          ticket).note (.requested ticket channel msgno))
  | awaitEnd {ticket : Ticket} {core : SessionCore} : d.stage.running →
      act = .command ticket .closeSession →
      SessionCore.closeChannel greetingChannel d.trace.core = .ok () core →
      Step router act d (((d.call (.closeChannel greetingChannel)).hear ticket).awaitEnd ticket)
  | complete {event : Event} : completes event → Step router act d (d.handleEvent router event)
  | reply {channel : UInt32} {message : Message} {pending : PendingRequest} :
      message.kind ≠ .msg → d.routes.requests.lookup (channel, message.msgno) = some pending →
      Step router act d
        ((d.note (.received channel message)).answerRequest (channel, message.msgno) pending
          message.kind (bodyOf message.payload))
  | spawn {channel : UInt32} {message : Message} (tasks : List Task) :
      d.Unasked channel message →
      Step router act d { d.note (.received channel message) with tasks }
  | push {channel : UInt32} {message : Message} {pipe : Pipe} :
      d.Unasked channel message → d.routes.inbound.lookup channel = some pipe →
      Step router act d ((d.note (.received channel message)).push pipe (delivered message))
  | write (count : Nat) : d.stage.running → (d.awaitingUpgrade → act.upgrades) →
      Step router act d
        { d with out := d.out.drop count, written := d.written ++ d.out.take count }
  /-- The transport fails, and what it took before is all it takes. -/
  | spill (count : Nat) (failure : Failure) : d.stage.running → act.upgrades →
      Step router act d
        { d with
          written := d.written ++ d.out.take count
          stage := .returned (.error failure) }
  | replace {ticket : Ticket} {lastReply : Option (UInt32 × UInt32 × Octets)} {swap : Swap}
      {config : Config} : act = .command ticket (.upgrade lastReply swap config) →
      d.out = [] → d.trace.core.outbound = [] → d.stage.running →
      Step router act d ((d.hear ticket).replace config ticket)
  | abandon : act.upgrades → d.stage.running →
      Step router act d { d with awaitingUpgrade := false, stage := .returned (.error .closed) }
  | heed {served : Table UInt32 H} {awaitingUpgrade : Bool} (asked : Nat) (tasks : List Task) :
      (d.awaitingUpgrade → awaitingUpgrade) →
      (∀ channel handler, served.lookup channel = some handler →
        d.served.lookup channel = some handler ∨
          (router.upgradesTransport handler → awaitingUpgrade)) →
      Step router act d { d with served, awaitingUpgrade, asked, tasks }
  | turn {stage : Stage} : d.stage.running → Step router act d { d with stage }
  | finish {result : Except Failure Unit} : d.stage = .returned result →
      Step router act d (d.tick router)
  | dropHandles : Step router act d { d with routes := { d.routes with commands := false } }
  | receive (pipe : Pipe) : Step router act d (d.act router (.receive pipe))
  | dropReader (pipe : Pipe) : Step router act d (d.act router (.dropReader pipe))

theorem answerAny_eq (d : Driver H) (ticket : Option Ticket) (answer : Answer) :
    d.answerAny ticket answer =
      { d with answered := d.answered ++ ticket.toList.map (·, answer) } := by
  cases ticket with
  | none => simp [answerAny]
  | some ticket => rfl

theorem handleEvent_of_completes (router : Router H) (d : Driver H) {event : Event}
    (h : completes event) :
    ∃ ready routes served pipes answered,
      d.handleEvent router event = { d with ready, routes, served, pipes, answered } := by
  cases event with
  | startRequested | closeRequested | messageReceived => cases h
  | _ =>
      simp only [handleEvent, channelOpened, answerAny_eq]
      exact ⟨_, _, _, _, _, rfl⟩

theorem answerRequest_eq (d : Driver H) (key : UInt32 × UInt32) (pending : PendingRequest)
    (kind : FrameKind) (body : Octets) :
    ∃ requests answered, d.answerRequest key pending kind body =
      { d with routes := { d.routes with requests }, answered } := by
  cases kind <;> exact ⟨_, _, rfl⟩

theorem tick_of_returned {result : Except Failure Unit} (h : d.stage = .returned result) :
    d.tick router =
      { (Driver.answerAny { d with ready := none } d.ready
          (.greeting (.error (Failure.ofEnd result)))).shutdown with stage := .ended } := by
  unfold tick
  split <;> rename_i hstage <;> cases hstage.symm.trans h
  rfl

/-- Some steps, one after the other. -/
abbrev Steps (router : Router H) (act : Act) : Driver H → Driver H → Prop :=
  Relation.ReflTransGen (Step router act)

theorem Step.steps (h : Step router act d d') : Steps router act d d' :=
  Relation.ReflTransGen.single h

/-! ## Every act is a path of steps -/

/-- A session that went on to a state of its own. -/
def moveTo (d : Driver H) (core : SessionCore) : Driver H :=
  { d with trace := { d.trace with session := { d.trace.session with core } } }

theorem session_of_call {α : Type} (method : SessionM α) (call : Call)
    (h : Computation.final call.run d.trace.core = Computation.final method d.trace.core) :
    (d.session method).1 = d.call call := by
  change d.moveTo (Computation.outcome method d.trace.core).1 =
    d.moveTo (Computation.final call.run d.trace.core)
  rw [Computation.outcome_fst, h]

theorem final_drop_startChannel (profile : Management.Profile) (s : SessionCore) :
    Computation.final (Call.startChannel profile).run s =
      Computation.final (SessionCore.startChannel profile) s :=
  Computation.final_drop _ () s

theorem final_drop_sendMsg (channel : UInt32) (payload : Octets) (s : SessionCore) :
    Computation.final (Call.sendMsg channel payload).run s =
      Computation.final (SessionCore.sendMsg channel payload) s :=
  Computation.final_drop _ () s

theorem eq_of_session {α : Type} {method : SessionM α} (call : Call) {ticket : Ticket}
    {result : Except Fault α}
    (h : Computation.final call.run d.trace.core = Computation.final method d.trace.core)
    (hsession : (d.hear ticket).session method = (d', result)) :
    d' = (d.call call).hear ticket := by
  have hcall : ((d.hear ticket).session method).1 = (d.hear ticket).call call :=
    session_of_call method call h
  rw [hsession] at hcall
  exact hcall

theorem ok_of_session {α : Type} {method : SessionM α} {ticket : Ticket} {value : α}
    (hsession : (d.hear ticket).session method = (d', .ok value)) :
    ∃ core, method d.trace.core = .ok value core := by
  have hresult : (Computation.outcome method d.trace.core).2 = .ok value :=
    congrArg Prod.snd hsession
  exact ⟨_, Computation.ok_of_outcome (Prod.ext rfl hresult)⟩

section Commands

variable {ticket : Ticket}

theorem called_steps {asked : Command} {call : Call} {answer : Answer}
    (hcall : asked.call = some call) (h : answer.prompt) :
    Steps router (.command ticket asked) d
      (((d.call call).hear ticket).answer ticket answer) := by
  have hstep : Step router (.command ticket asked) d (d.call call) := .call hcall
  exact hstep.steps.tail (.answer rfl h)

theorem apply_steps (asked : Command) (hrunning : d.stage.running) :
    Steps router (.command ticket asked) d ((d.hear ticket).apply ticket asked) := by
  cases asked with
  | openChannel profile =>
      rcases hsession : (d.hear ticket).session (SessionCore.startChannel profile) with
        ⟨d', fault | number⟩ <;>
      obtain rfl := eq_of_session (.startChannel profile) (final_drop_startChannel profile _)
        hsession <;>
      simp only [apply, hsession]
      · exact called_steps rfl rfl
      · obtain ⟨core, hok⟩ := ok_of_session hsession
        exact (Step.awaitOpen hrunning rfl hok).steps
  | closeChannel number =>
      rcases hsession : (d.hear ticket).session (SessionCore.closeChannel number) with
        ⟨d', fault | ⟨⟩⟩ <;>
      obtain rfl := eq_of_session (.closeChannel number) rfl hsession <;>
      simp only [apply, hsession]
      · exact called_steps rfl rfl
      · obtain ⟨core, hok⟩ := ok_of_session hsession
        exact (Step.awaitClose hrunning rfl hok).steps
  | request channel payload =>
      rcases hsession : (d.hear ticket).session
          (SessionCore.sendMsg channel (withMime payload)) with ⟨d', fault | msgno⟩ <;>
      obtain rfl := eq_of_session (.sendMsg channel _) (final_drop_sendMsg channel _ _)
        hsession <;>
      simp only [apply, hsession]
      · exact called_steps rfl rfl
      · obtain ⟨core, hok⟩ := ok_of_session hsession
        exact (Step.awaitReply hrunning rfl hok).steps
  | send channel kind msgno ansno payload =>
      rcases hsession : (d.hear ticket).session
          (SessionCore.send channel kind msgno ansno (withMime payload)) with ⟨d', result⟩
      obtain rfl := eq_of_session (.send channel kind msgno ansno _) rfl hsession
      simp only [apply, hsession]
      exact called_steps rfl rfl
  | closeSession =>
      rcases hsession : (d.hear ticket).session (SessionCore.closeChannel greetingChannel) with
        ⟨d', fault | ⟨⟩⟩ <;>
      obtain rfl := eq_of_session (.closeChannel greetingChannel) rfl hsession <;>
      simp only [apply, hsession]
      · exact called_steps rfl rfl
      · obtain ⟨core, hok⟩ := ok_of_session hsession
        exact (Step.awaitEnd hrunning rfl hok).steps
  | serverName => exact (Step.answer rfl rfl).steps
  | authenticated => exact (Step.answer rfl rfl).steps
  | authenticate identity =>
      rcases hsession : (d.hear ticket).session (SessionCore.setAuthenticated identity) with
        ⟨d', result⟩
      obtain rfl := eq_of_session (.setAuthenticated identity) rfl hsession
      simp only [apply, hsession]
      exact called_steps rfl rfl
  | setWindowSize channel size =>
      rcases hsession : (d.hear ticket).session (SessionCore.setWindowSize channel size) with
        ⟨d', result⟩
      obtain rfl := eq_of_session (.setWindowSize channel size) rfl hsession
      simp only [apply, hsession]
      exact called_steps rfl rfl
  | upgrade lastReply swap config => exact (Step.answer rfl rfl).steps

section Upgrade

variable {lastReply : Option (UInt32 × UInt32 × Octets)} {swap : Swap} {config : Config}

theorem swapOut_steps (houtbound : d.trace.core.outbound = []) (hrunning : d.stage.running) :
    Steps router (.command ticket (.upgrade lastReply swap config)) d
      ((d.hear ticket).swapOut ticket swap config) := by
  unfold swapOut
  cases swap.written with
  | error failure =>
      exact (Step.answer rfl rfl).steps.tail (.spill swap.count failure hrunning rfl)
  | ok =>
      have hwrite : Step router (.command ticket (.upgrade lastReply swap config)) d
          { d with out := [], written := d.written ++ d.out } := by
        have h : Step router (.command ticket (.upgrade lastReply swap config)) d { d with
            out := d.out.drop d.out.length
            written := d.written ++ d.out.take d.out.length } :=
          .write d.out.length hrunning fun _ => rfl
        rwa [List.drop_length, List.take_length] at h
      cases swap.swapped with
      | error failure =>
          exact (hwrite.steps.tail (.answer rfl rfl)).tail (.abandon rfl hrunning)
      | ok => exact hwrite.steps.tail (.replace rfl rfl houtbound hrunning)

theorem upgrade_steps (hrunning : d.stage.running) :
    Steps router (.command ticket (.upgrade lastReply swap config)) d
      ((d.hear ticket).upgrade ticket lastReply swap config) := by
  have hdrained : ∀ d : Driver H, d.drainTransmit.trace.core.outbound = [] := by
    intro d
    rw [drainTransmit, Trace.act_pollTransmit]
    rfl
  rcases lastReply with _ | ⟨channel, msgno, payload⟩
  · exact Step.drainTransmit.steps.trans (swapOut_steps (hdrained d) hrunning)
  · rcases hsession : (d.hear ticket).session
        (SessionCore.send channel .rpy msgno none (withMime payload)) with ⟨d', fault | ⟨⟩⟩ <;>
    obtain rfl := eq_of_session (.send channel .rpy msgno none _) rfl hsession <;>
    simp only [upgrade, hsession]
    · exact (called_steps rfl rfl).tail (.turn hrunning)
    · exact ((Step.call rfl).steps.tail .drainTransmit).trans
        (swapOut_steps (hdrained _) hrunning)

end Upgrade

theorem moveTo_of_session {α : Type} {method : SessionM α} {result : Except Fault α}
    (h : d.session method = (d', result)) : ∃ core, d' = d.moveTo core :=
  ⟨_, (congrArg Prod.fst h).symm⟩

theorem apply_eq (asked : Command) : ∃ core routes answered journal,
    d.apply ticket asked = { d.moveTo core with routes, answered, journal } := by
  cases asked with
  | openChannel | closeChannel | request | closeSession =>
      rw [apply]
      split <;> rename_i hsession <;> obtain ⟨core, rfl⟩ := moveTo_of_session hsession <;>
        simp only [awaitOpen, awaitClose, awaitReply, awaitEnd, answerAny_eq]
      all_goals exact ⟨core, _, _, _, rfl⟩
  | _ => exact ⟨_, _, _, _, rfl⟩

theorem dispatch_steps (asked : Command) (hrunning : d.stage.running) :
    Steps router (.command ticket asked) d (d.dispatch ticket asked) := by
  have hturn : ((d.hear ticket).apply ticket asked).stage.running := by
    obtain ⟨core, routes, answered, journal, happly⟩ :=
      apply_eq (d := d.hear ticket) asked
    rwa [happly]
  cases asked with
  | upgrade lastReply swap config => exact upgrade_steps hrunning
  | _ => exact (apply_steps _ hrunning).tail (.turn hturn)

end Commands

section Events

theorem session_settles {method : SessionM Unit} {call : Call} {msgno : UInt32}
    (h : Settles d.trace.core call msgno)
    (hcall : ∀ s, Computation.final call.run s = Computation.final method s) :
    Steps router act d ((d.note (.wanted msgno true)).session method).1 := by
  rw [session_of_call method call (hcall _)]
  exact (Step.settle h).steps

/-- A start is answered, or a handler agreed to one that the session does not take. -/
theorem startRequested_steps (channel msgno : UInt32) (start : Management.Start) :
    Steps router act d
      ((d.note (.wanted msgno (d.answers router channel start))).startRequested router channel
        msgno start) := by
  unfold startRequested answers
  rcases router.choose start with _ | ⟨uri, handler⟩
  · exact session_settles (.refuse msgno notSupported) fun _ => rfl
  · dsimp only
    let heeded : Driver H := { d with asked := d.asked + 1 }
    have hheed : Step router act d heeded := .heed _ _ id fun _ _ h => .inl h
    rcases hverdict : router.accept handler d.asked d.trace.core.serverName uri start with
      error | profile
    · have hsettle : Steps router act heeded ((heeded.note (.wanted msgno true)).session
          (SessionCore.refuseStart msgno error)).1 :=
        session_settles (.refuse msgno error) fun _ => rfl
      simp only [note, hverdict]
      exact hheed.steps.trans hsettle
    · let noted := heeded.note (.wanted msgno (d.trace.core.opensAt channel))
      have haccept : Step router act heeded
          (noted.call (.acceptStart channel msgno profile)) := by
        unfold noted
        cases hopens : d.trace.core.opensAt channel with
        | true => exact .settle (.accept msgno profile hopens)
        | false => exact .neglect profile hopens
      rw [← session_of_call (SessionCore.acceptStart channel msgno profile) _ rfl] at haccept
      have hsteps := hheed.steps.tail haccept
      simp only [note, hverdict]
      split <;> rename_i hsession
      · rw [show noted.session _ = _ from hsession] at hsteps
        exact hsteps
      · rw [show noted.session _ = _ from hsession] at hsteps
        refine hsteps.tail (.heed _ _ (fun h => ?_) fun other found hfound => ?_)
        · rw [Bool.or_eq_true]
          exact .inl h
        · by_cases hother : other = channel
          · subst hother
            rw [AList.lookup_insert] at hfound
            cases hfound
            exact .inr fun h => by rw [h, Bool.or_true]
          · rw [AList.lookup_insert_ne hother] at hfound
            exact .inl hfound

/-- A message answers a request, or goes to a handler, to a reader or to nobody. -/
theorem deliver_cases (d : Driver H) (channel : UInt32) (message : Message) :
    (∃ pending, message.kind ≠ .msg ∧
      d.routes.requests.lookup (channel, message.msgno) = some pending ∧
      d.deliver channel message = d.answerRequest (channel, message.msgno) pending message.kind
        (bodyOf message.payload)) ∨
    (d.Unasked channel message ∧
      ((∃ tasks, d.deliver channel message = { d with tasks }) ∨
        ∃ pipe, d.routes.inbound.lookup channel = some pipe ∧
          d.deliver channel message = d.push pipe (delivered message))) := by
  unfold deliver
  dsimp only
  split
  · rename_i pending hpending
    split_ifs at hpending with hkind
    exact .inl ⟨pending, hkind, hpending, rfl⟩
  · rename_i hpending
    refine .inr ⟨?_, ?_⟩
    · by_cases hkind : message.kind = .msg
      · exact .inl hkind
      · rw [if_neg hkind] at hpending
        exact .inr hpending
    · split_ifs
      · exact .inl ⟨_, rfl⟩
      · split
        · rename_i pipe hpipe
          exact .inr ⟨pipe, hpipe, rfl⟩
        · exact .inl ⟨d.tasks, rfl⟩

theorem deliver_steps (channel : UInt32) (message : Message) :
    Steps router act d ((d.note (.received channel message)).deliver channel message) := by
  rcases (d.note (.received channel message)).deliver_cases channel message with
    ⟨pending, hkind, hpending, hdeliver⟩ |
      ⟨hunasked, ⟨tasks, hdeliver⟩ | ⟨pipe, hpipe, hdeliver⟩⟩ <;>
  rw [hdeliver]
  · exact (Step.reply (d := d) hkind hpending).steps
  · exact (Step.spawn (d := d) tasks hunasked).steps
  · exact (Step.push (d := d) hunasked hpipe).steps

theorem handleEvent_steps (event : Event) :
    Steps router act d (d.handleEvent router event) := by
  cases event with
  | startRequested channel msgno start => exact startRequested_steps channel msgno start
  | closeRequested channel msgno close =>
      exact session_settles (.close channel msgno) fun _ => rfl
  | messageReceived channel message => exact deliver_steps channel message
  | _ => exact (Step.complete rfl).steps

theorem startRequested_eq (channel msgno : UInt32) (start : Management.Start) :
    ∃ core served awaitingUpgrade asked tasks,
      d.startRequested router channel msgno start =
        { d.moveTo core with served, awaitingUpgrade, asked, tasks } := by
  unfold startRequested
  split
  · exact ⟨_, _, _, _, _, rfl⟩
  · dsimp only
    split
    · exact ⟨_, _, _, _, _, rfl⟩
    · split <;> rename_i hsession <;> obtain ⟨core, rfl⟩ := moveTo_of_session hsession <;>
        exact ⟨core, _, _, _, _, rfl⟩

theorem handleEvent_stage (event : Event) : (d.handleEvent router event).stage = d.stage := by
  cases event with
  | startRequested channel msgno start =>
      obtain ⟨core, served, awaitingUpgrade, asked, tasks, hstart⟩ :=
        startRequested_eq (d := d.note (.wanted msgno (d.answers router channel start))) channel
          msgno start
      rw [handleEvent, hstart]
      rfl
  | messageReceived channel message =>
      rw [handleEvent]
      rcases (d.note (.received channel message)).deliver_cases channel message with
        ⟨pending, -, -, hdeliver⟩ | ⟨-, ⟨tasks, hdeliver⟩ | ⟨pipe, -, hdeliver⟩⟩ <;>
      rw [hdeliver]
      · cases message.kind <;> rfl
      · rfl
      · rfl
  | closeRequested => rfl
  | _ => simp only [handleEvent, channelOpened, answerAny_eq]

end Events

/-! ## Acts -/

theorem tick_steps (d : Driver H) : Steps router act d (d.tick router) := by
  unfold tick
  split <;> rename_i hstage
  · have hrunning : d.stage.running := by rw [hstage]; rfl
    split_ifs
    · exact (Step.turn hrunning).steps
    · exact Step.drainTransmit.steps.tail (.turn hrunning)
  · have hrunning : d.stage.running := by rw [hstage]; rfl
    split
    · refine (Step.pollEvent.steps.trans (handleEvent_steps _)).tail (.turn ?_)
      rwa [handleEvent_stage]
    · split_ifs <;> exact (Step.turn hrunning).steps
  · have hfinish : Step router act d (d.tick router) := .finish hstage
    unfold tick at hfinish
    simpa only [hstage] using hfinish.steps
  · exact .refl
  · exact .refl

theorem read_steps (chunk : Octets) (hrunning : d.stage.running)
    (hawaiting : d.awaitingUpgrade = false) :
    Steps router act d (d.read chunk) := by
  have hinput : Step router act d { d with trace := d.trace.act (.input chunk) } :=
    .input chunk hawaiting
  unfold read
  split <;> rename_i hrun <;> simp only [Trace.act, hrun] at hinput
  · exact hinput.steps.tail (.turn hrunning)
  · exact hinput.steps.tail (.turn hrunning)

theorem wrote_steps (count : Nat) (flushed : Except Failure Unit) (hrunning : d.stage.running)
    (hawaiting : d.awaitingUpgrade = false) :
    Steps router act d (d.wrote count flushed) := by
  have hwrote : Steps router act d { d with
      out := d.out.drop count
      written := d.written ++ d.out.take count
      stage := .transmitting false } :=
    (Step.write count hrunning fun h => by simp [hawaiting] at h).steps.tail (.turn hrunning)
  unfold wrote
  cases flushed with
  | ok => exact hwrote
  | error failure =>
      dsimp only
      split_ifs
      · exact hwrote.tail (.turn rfl)
      · exact hwrote

theorem wait_steps (act : Act) (hrunning : d.stage.running) :
    Steps router act d (d.wait act) := by
  cases act with
  | command ticket asked => exact dispatch_steps asked hrunning
  | noCommands =>
      simp only [wait]
      split_ifs
      · exact .refl
      · exact (Step.turn hrunning).steps
  | read chunk =>
      simp only [wait]
      split_ifs with hawaiting
      · exact .refl
      · exact (Step.turn hrunning).steps
      · exact read_steps chunk hrunning (Bool.not_eq_true _ ▸ hawaiting)
  | failed failure =>
      simp only [wait]
      split_ifs
      · exact .refl
      · exact (Step.turn hrunning).steps
  | wrote count flushed =>
      simp only [wait]
      split_ifs with hawaiting
      · exact .refl
      · exact wrote_steps count flushed hrunning
          (Bool.not_eq_true _ ▸ (not_or.mp hawaiting).1)
  | _ => exact .refl

theorem attend_steps (d : Driver H) (act : Act) : Steps router act d (d.attend act) := by
  unfold attend
  split
  · rename_i hstage
    exact wait_steps act (by rw [hstage]; rfl)
  · exact .refl

theorem act_steps (d : Driver H) (act : Act) : Steps router act d (d.act router act) := by
  cases act with
  | tick => exact tick_steps d
  | dropHandles => exact Step.dropHandles.steps
  | receive pipe => exact (Step.receive pipe).steps
  | dropReader pipe => exact (Step.dropReader pipe).steps
  | _ => exact attend_steps d _

theorem preserves_of_steps {meets : Driver H → Act → Prop} {I : Driver H → Prop}
    (hstep : ∀ {d d' e : Driver H} {act : Act}, meets e act → Step router act d d' →
      I d → I d')
    {first last : Driver H} (hrun : Run (Driver.act router) meets first last) (h : I first) :
    I last := by
  refine hrun.preserves (fun hmeets hI => ?_) h
  rename_i e act
  have hsteps : Steps router act e (e.act router act) := act_steps e act
  generalize e.act router act = e' at hsteps ⊢
  induction hsteps with
  | refl => exact hI
  | tail _ hlast ih => exact hstep hmeets hlast ih

/-- What a new driver comes to by some acts. -/
def replay (router : Router H) (session : Session) (acts : List Act) : Driver H :=
  acts.foldl (Driver.act router) (Driver.new session 0)

theorem replay_run (router : Router H) {session : Session} {acts : List Act} {last : Driver H}
    (h : last = replay router session acts) :
    Run (Driver.act router) (fun _ _ => True) (Driver.new session 0) last :=
  h ▸ .of_list _ _ _

end Driver

/-- Serves every profile, and agrees to every start. -/
def Router.agreeing (upgrades : Bool) : Router Unit where
  profiles _ := some ()
  accept _ _ _ uri _ := .ok (.new uri)
  upgradesTransport _ := upgrades

/-- Steps of the loop, more than it takes to come to wait. -/
def idle : List Act := .replicate 12 .tick

/-- The greeting of a peer is read. -/
def greeted : List Act :=
  idle ++ .read (peerFrame .rpy 0 0 0 Greeting.new.toPayload) :: idle

/-- A channel is opened, and the peer agrees. -/
def opened : List Act :=
  greeted ++ .command 1 (.openChannel (.new "urn:x")) :: idle ++
    .read (peerFrame .rpy 0 0 52 (Management.Message.toPayload (.profile (.new "urn:x")))) :: idle

end Vortice.Conn
