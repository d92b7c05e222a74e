import Vortice.Conn.Steps

/-!
# What a driver writes

The session a driver owns does what a session can do, and the octets it produces reach the
transport in order: what is written is a beginning of them, and nothing is lost between the
session, the buffer and the transport until the transport fails.  A transport that is
replaced has had all of them.
-/

namespace Vortice.Conn

open Vortice.Foundation Vortice.Proto

/-- A state that a session can come to. -/
def Reached (trace : Proto.Trace) : Prop :=
  ∃ config first, Trace.Fresh config first ∧ Trace.Run (fun _ _ => True) first trace

theorem Reached.act {trace : Proto.Trace} (h : Reached trace) (act : Proto.Act) :
    Reached (trace.act act) := by
  obtain ⟨config, first, hfresh, hrun⟩ := h
  exact ⟨config, first, hfresh, .act act hrun trivial⟩

theorem reached_of_new {config : Config} {session : Session}
    (h : Session.new config = .ok session) : Reached ⟨session, []⟩ :=
  ⟨config, _, .new h, .refl _⟩

theorem Reached.faithful {trace : Proto.Trace} (h : Reached trace) : trace.Faithful := by
  obtain ⟨config, first, hfresh, hrun⟩ := h
  exact hrun.faithful hfresh.faithful

/-- The octets of the frames that a session has written. -/
def produced (trace : Proto.Trace) : Octets := encodeAll (written trace.core.history)

/-- Whether the transport has not failed. -/
def Stage.intact : Stage → Bool
  | .returned (.error _) | .ended => false
  | _ => true

theorem Stage.intact_of_running {stage : Stage} (h : stage.running) : stage.intact := by
  cases stage with
  | returned => cases h
  | ended => cases h
  | _ => rfl

namespace Driver

variable {H : Type} {router : Router H} {act : Act} {d d' : Driver H}

/-- The octets of the session are written, in the buffer or still in the session. -/
structure Wire (d : Driver H) : Prop where
  reached : Reached d.trace
  starts : d.written <+: d.trace.transmitted
  whole : d.stage.intact → d.written ++ d.out = d.trace.transmitted
  swapped : ∀ trace octets, .swapped trace octets ∈ d.journal →
    Reached trace ∧ octets = trace.transmitted ∧ trace.core.outbound = []

theorem Wire.of_same (h : d.Wire) (htrace : d'.trace = d.trace) (hout : d'.out = d.out)
    (hwritten : d'.written = d.written) (hstage : d'.stage.intact → d.stage.intact)
    (hjournal : ∀ trace octets, .swapped trace octets ∈ d'.journal →
      Note.swapped trace octets ∈ d.journal) : d'.Wire where
  reached := htrace ▸ h.reached
  starts := by rw [hwritten, htrace]; exact h.starts
  whole hintact := by rw [hwritten, hout, htrace]; exact h.whole (hstage hintact)
  swapped trace octets hmem := h.swapped trace octets (hjournal trace octets hmem)

/-- A caller, a route or a queue changes, and the journal says nothing of a transport. -/
theorem Wire.of_routed (h : d.Wire) {routes : Routes} {served : Table UInt32 H}
    {awaitingUpgrade : Bool} {ready : Option Ticket} {asked : Nat} {pipes : List Inbound}
    {tasks : List Task} {answered : List (Ticket × Answer)} {callers : List Ticket}
    {journal : List Note}
    (hjournal : ∀ trace octets, .swapped trace octets ∈ journal →
      Note.swapped trace octets ∈ d.journal) :
    Wire { d with
      routes, served, awaitingUpgrade, ready, asked, pipes, tasks, answered, callers, journal } :=
  h.of_same rfl rfl rfl id hjournal

theorem Wire.of_act (h : d.Wire) {done : Proto.Act}
    (htransmitted : (d.trace.act done).transmitted = d.trace.transmitted) :
    Wire { d with trace := d.trace.act done } where
  reached := h.reached.act done
  starts := htransmitted ▸ h.starts
  whole hintact := htransmitted ▸ h.whole hintact
  swapped := h.swapped

theorem mem_of_noted {entry : Note} (hentry : ∀ trace octets, entry ≠ .swapped trace octets)
    {trace : Proto.Trace} {octets : Octets}
    (hmem : .swapped trace octets ∈ d.journal ++ [entry]) :
    .swapped trace octets ∈ d.journal := by
  rcases List.mem_append.mp hmem with hmem | hmem
  · exact hmem
  · exact absurd (List.mem_singleton.mp hmem).symm (hentry trace octets)

theorem Wire.drainTransmit (h : d.Wire) : d.drainTransmit.Wire where
  reached := h.reached.act .pollTransmit
  starts := by
    rw [Driver.drainTransmit, Trace.act_pollTransmit]
    exact h.starts.trans (List.prefix_append _ _)
  whole hintact := by
    rw [Driver.drainTransmit, Trace.act_pollTransmit]
    change d.written ++ (d.out ++ d.trace.core.outbound) = _ ++ _
    rw [← List.append_assoc, h.whole hintact]
  swapped := h.swapped

theorem Wire.write (h : d.Wire) (count : Nat) (hintact : d.stage.intact) :
    Wire { d with out := d.out.drop count, written := d.written ++ d.out.take count } where
  reached := h.reached
  starts := by
    refine ⟨d.out.drop count, ?_⟩
    rw [List.append_assoc, List.take_append_drop, h.whole hintact]
  whole _ := by
    rw [List.append_assoc, List.take_append_drop, h.whole hintact]
  swapped := h.swapped

theorem Wire.of_broken {written : Octets} {stage : Stage} (h : d.Wire)
    (hstarts : written <+: d.trace.transmitted) (hbroken : stage.intact = false) :
    Wire { d with written, stage } where
  reached := h.reached
  starts := hstarts
  whole hintact := absurd hintact (by rw [hbroken]; exact Bool.false_ne_true)
  swapped := h.swapped

theorem Wire.replace (h : d.Wire) (config : Config) (ticket : Ticket) (hout : d.out = [])
    (houtbound : d.trace.core.outbound = []) (hrunning : d.stage.running) :
    (d.replace config ticket).Wire := by
  unfold Driver.replace
  split
  · rename_i fault hnew
    exact h.of_routed (fun _ _ => id) |>.of_broken h.starts rfl
  · rename_i session hnew
    have hwhole := h.whole (Stage.intact_of_running hrunning)
    rw [hout, List.append_nil] at hwhole
    refine ⟨?_, List.nil_prefix, fun _ => by rw [answerAny_eq]; exact hout,
      fun trace octets hmem => ?_⟩
    · cases d.trace.core.serverName with
      | none => exact reached_of_new hnew
      | some name => exact (reached_of_new hnew).act (.call (.setServerName name))
    · rw [answerAny_eq] at hmem
      rcases List.mem_append.mp hmem with hmem | hmem
      · exact h.swapped trace octets hmem
      · cases List.mem_singleton.mp hmem
        exact ⟨h.reached, hwhole, houtbound⟩

theorem Wire.step (hstep : Step router act d d') (h : d.Wire) : d'.Wire := by
  have hnoted : ∀ {entry : Note}, (∀ trace octets, entry ≠ .swapped trace octets) →
      (d.note entry).Wire := fun hentry =>
    h.of_routed fun trace octets => mem_of_noted hentry
  have hcalled : ∀ call : Call, (d.call call).Wire := fun _ => h.of_act rfl
  cases hstep with
  | call => exact hcalled _
  | input => exact h.of_act rfl
  | pollEvent => exact h.of_act rfl
  | drainTransmit => exact h.drainTransmit
  | settle => exact (hnoted (by simp)).of_act rfl
  | neglect => exact (hnoted (by simp)).of_act rfl
  | answer => exact h.of_routed fun _ _ => id
  | awaitOpen | awaitClose | awaitEnd =>
      simp only [awaitOpen, awaitClose, awaitEnd, answerAny_eq]
      exact (hcalled _).of_routed fun _ _ => id
  | awaitReply =>
      simp only [awaitReply, answerAny_eq]
      refine (hcalled _).of_routed fun trace octets hmem => mem_of_noted ?_ hmem
      rintro _ _ ⟨⟩
  | complete hcompletes =>
      obtain ⟨ready, routes, served, pipes, answered, hevent⟩ :=
        handleEvent_of_completes router d hcompletes
      rw [hevent]
      exact h.of_routed fun _ _ => id
  | @reply channel message pending =>
      obtain ⟨requests, answered, hreply⟩ := answerRequest_eq (d.note (.received channel message))
        (channel, message.msgno) pending message.kind (bodyOf message.payload)
      rw [hreply]
      exact (hnoted (by simp)).of_routed fun _ _ => id
  | spawn => exact (hnoted (by simp)).of_routed fun _ _ => id
  | push => exact (hnoted (by simp)).of_routed fun _ _ => id
  | write count hrunning _ => exact h.write count (Stage.intact_of_running hrunning)
  | spill count failure hrunning _ =>
      refine h.of_broken ?_ rfl
      refine ⟨d.out.drop count, ?_⟩
      rw [List.append_assoc, List.take_append_drop, h.whole (Stage.intact_of_running hrunning)]
  | replace _ hout houtbound hrunning =>
      exact (h.of_routed fun _ _ => id).replace _ _ hout houtbound hrunning
  | abandon =>
      have hcleared : Wire { d with awaitingUpgrade := false } := h.of_routed fun _ _ => id
      exact hcleared.of_broken h.starts rfl
  | heed => exact h.of_routed fun _ _ => id
  | turn hrunning =>
      exact h.of_same rfl rfl rfl (fun _ => Stage.intact_of_running hrunning) fun _ _ => id
  | @finish result hstage =>
      rw [tick_of_returned hstage, answerAny_eq]
      exact (h.of_routed fun _ _ => id).of_broken h.starts rfl
  | dropHandles => exact h.of_routed fun _ _ => id
  | receive => exact h.of_routed fun _ _ => id
  | dropReader => exact h.of_routed fun _ _ => id

theorem wire_new {config : Config} {session : Session} (hnew : Session.new config = .ok session)
    (ready : Ticket) : (Driver.new (H := H) session ready).Wire where
  reached := reached_of_new hnew
  starts := List.nil_prefix
  whole _ := rfl
  swapped := by simp [Driver.new]

/-- On every transport, what is written, what waits in the buffer and what waits in the session
is what the frames of its session encode to, and a transport is not replaced before it has had
all of them. -/
theorem writes_what_sessions_produce {config : Config} {session : Session} {ready : Ticket}
    {last : Driver H} (hnew : Session.new config = .ok session)
    (hrun : Run (Driver.act router) (fun _ _ => True) (Driver.new session ready) last) :
    last.written <+: produced last.trace ∧
      (last.stage.intact →
        last.written ++ last.out ++ last.trace.core.outbound = produced last.trace) ∧
      ∀ trace octets, .swapped trace octets ∈ last.journal →
        Reached trace ∧ octets = produced trace := by
  have hwire : last.Wire :=
    preserves_of_steps (fun _ => Wire.step) hrun (wire_new hnew ready)
  have hproduced : last.trace.transmitted ++ last.trace.core.outbound = produced last.trace :=
    hwire.reached.faithful
  refine ⟨?_, fun hintact => ?_, fun trace octets hmem => ?_⟩
  · rw [← hproduced]
    exact hwire.starts.trans (List.prefix_append _ _)
  · rw [hwire.whole hintact, hproduced]
  · obtain ⟨hreached, hoctets, houtbound⟩ := hwire.swapped trace octets hmem
    have hfaithful : trace.transmitted ++ trace.core.outbound = produced trace :=
      hreached.faithful
    rw [houtbound, List.append_nil] at hfaithful
    exact ⟨hreached, hoctets.trans hfaithful⟩

/-- A part of the greeting is written. -/
theorem writes_part_of_greeting :
    ∃ session last, Session.new (Config.new .listener) = .ok session ∧
      last = replay (.agreeing false) session (idle ++ [.wrote 10 (.ok ())]) ∧
      last.written.length = 10 ∧ last.written <+: produced last.trace := by
  have hrun : (Session.new (Config.new .listener)).toOption.any fun session =>
      (replay (.agreeing false) session (idle ++ [.wrote 10 (.ok ())])).written.length = 10 := by
    decide +kernel
  obtain ⟨session, hnew⟩ := Session.new_ok (Config.new .listener)
  rw [hnew] at hrun
  exact ⟨session, _, hnew, rfl, of_decide_eq_true hrun,
    (writes_what_sessions_produce hnew (replay_run _ rfl)).1⟩

end Driver

end Vortice.Conn
