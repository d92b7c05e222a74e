import Vortice.Foundation.Runs
import Vortice.Proto.Calls

/-!
# Two sessions connected to each other

Each end of a connection has a session, what it has read of the octets that the other end
transmitted, and what it has told its application.  Octets arrive in order and in chunks of
any size, as late as may be, and an end whose input has failed reads no more.

`read`, `met`, `told` and `failure` are history variables: no method reads them.
-/

namespace Vortice.Link

open Vortice.Foundation Vortice.Proto

/-- The frames that the loop of `handle_input` meets, and where it fails: at a frame, or at
octets that are none. -/
def meetFrames : Nat → Session → List Frame × Option (Option Frame × Fault)
  | 0, _ => ([], some (none, .exhausted))
  | fuel + 1, session =>
      match session.decoder.decode session.inbound with
      | (_, _, .error error) => ([], some (none, .error error))
      | (_, _, .ok none) => ([], none)
      | (decoder, inbound, .ok (some frame)) =>
          match SessionCore.handleFrame frame session.core with
          | .error fault _ => ([frame], some (some frame, fault))
          | .ok () core =>
              let (frames, failure) := meetFrames fuel ⟨core, decoder, inbound⟩
              (frame :: frames, failure)

theorem meetFrames_result {fuel : Nat} {session : Session} :
    (session.handleFrames fuel).2 =
      match (meetFrames fuel session).2 with
      | none => .ok ()
      | some (_, fault) => .error fault := by
  induction fuel generalizing session with
  | zero => rfl
  | succ fuel ih =>
      rcases hdecode : session.decoder.decode session.inbound with
        ⟨decoder, inbound, error | _ | frame⟩
      · simp only [Session.handleFrames, meetFrames, hdecode]
      · simp only [Session.handleFrames, meetFrames, hdecode]
      · cases hrun : SessionCore.handleFrame frame session.core with
        | error fault core => simp only [Session.handleFrames, meetFrames, hdecode, hrun]
        | ok _ core =>
            simp only [Session.handleFrames, meetFrames, hdecode, hrun]
            exact ih

structure End where
  trace : Proto.Trace
  read : Octets
  met : List Frame
  told : List Event
  failure : Option (Option Frame × Fault)

inductive Act where
  | call (call : Call)
  | pollTransmit
  | pollEvent
  /-- So many of the octets on their way arrive, if there are so many. -/
  | arrive (count : Nat)

namespace End

def new (session : Session) : End := ⟨⟨session, []⟩, [], [], [], none⟩

def core (e : End) : SessionCore := e.trace.core

def call (e : End) (call : Call) : End := { e with trace := e.trace.act (.call call) }

def pollTransmit (e : End) : End := { e with trace := e.trace.act .pollTransmit }

def pollEvent (e : End) : End :=
  { e with
    trace := e.trace.act .pollEvent
    told := e.told ++ e.core.events.head?.toList }

/-- What the application has been told, or is going to be. -/
def reported (e : End) : List Event := e.told ++ e.core.events

def receive (e : End) (chunk : Octets) : End :=
  if e.failure.isSome then e
  else
    let session := { e.trace.session with inbound := e.trace.session.inbound ++ chunk }
    let (met, failure) := meetFrames (session.inbound.length + 1) session
    { e with
      trace := e.trace.act (.input chunk)
      read := e.read ++ chunk
      met := e.met ++ met
      failure }

/-- The next octets on their way from the other end. -/
def next (far near : End) (count : Nat) : Octets :=
  (far.trace.transmitted.drop near.read.length).take count

def act (far near : End) : Act → End
  | .call call => near.call call
  | .pollTransmit => near.pollTransmit
  | .pollEvent => near.pollEvent
  | .arrive count => near.receive (far.next near count)

/-- The calls of an end are allowed in the state they are made in. -/
def meets (allowed : End → Call → Prop) (e : End) : Act → Prop
  | .call call => allowed e call
  | _ => True

end End

/-- Two ends of one connection. -/
structure Pair where
  near : End
  far : End

namespace Pair

def new (near far : Session) : Pair := ⟨.new near, .new far⟩

/-- An act of the near end, or of the far end. -/
def act (pair : Pair) : Bool × Act → Pair
  | (true, act) => { pair with near := pair.far.act pair.near act }
  | (false, act) => { pair with far := pair.near.act pair.far act }

def meets (allowed : End → Call → Prop) (pair : Pair) : Bool × Act → Prop
  | (true, act) => pair.near.meets allowed act
  | (false, act) => pair.far.meets allowed act

end Pair

/-! ## Step by step -/

namespace End

variable {allowed : End → Call → Prop} {far near near' : End}

/-- The session of an end goes on with what is left to read. -/
def goOn (e : End) (core : SessionCore) (decoder : Decoder) (inbound : Octets) : End :=
  { e with trace := { e.trace with session := ⟨core, decoder, inbound⟩ } }

/-- A frame is met, and handled with this result. -/
def meet (e : End) (frame : Frame) (decoder : Decoder) (inbound : Octets) : End :=
  { e.goOn (Computation.final (SessionCore.handleFrame frame) e.core) decoder inbound with
    met := e.met ++ [frame]
    failure := match Computation.outcome (SessionCore.handleFrame frame) e.core with
      | (_, .ok ()) => none
      | (_, .error fault) => some (some frame, fault) }

/-- One step of an end: a call, a poll, or the loop of `handle_input` in the octets read. -/
inductive Step (allowed : End → Call → Prop) (far near : End) : End → Prop where
  | call (call : Call) : allowed near call → Step allowed far near (near.call call)
  | pollTransmit : Step allowed far near near.pollTransmit
  | pollEvent : Step allowed far near near.pollEvent
  | arrive (count : Nat) : near.failure = none →
      Step allowed far near
        { near.goOn near.core near.trace.session.decoder
            (near.trace.session.inbound ++ far.next near count) with
          read := near.read ++ far.next near count }
  | meet {frame : Frame} {decoder : Decoder} {inbound : Octets} : near.failure = none →
      near.trace.session.decoder.decode near.trace.session.inbound =
        (decoder, inbound, .ok (some frame)) →
      Step allowed far near (near.meet frame decoder inbound)
  | rest {decoder : Decoder} {inbound : Octets} : near.failure = none →
      near.trace.session.decoder.decode near.trace.session.inbound = (decoder, inbound, .ok none) →
      Step allowed far near (near.goOn near.core decoder inbound)
  | garble {error : Error} {decoder : Decoder} {inbound : Octets} : near.failure = none →
      near.trace.session.decoder.decode near.trace.session.inbound =
        (decoder, inbound, .error error) →
      Step allowed far near
        { near.goOn near.core decoder inbound with failure := some (none, .error error) }

abbrev Steps (allowed : End → Call → Prop) (far : End) : End → End → Prop :=
  Relation.ReflTransGen (Step allowed far)

theorem Step.steps (h : Step allowed far near near') : Steps allowed far near near' :=
  Relation.ReflTransGen.single h

/-- What an end has once the loop of `handle_input` has come to its end. -/
def handle (e : End) (fuel : Nat) : End :=
  { e with
    trace := { e.trace with session := (e.trace.session.handleFrames fuel).1 }
    met := e.met ++ (meetFrames fuel e.trace.session).1
    failure := (meetFrames fuel e.trace.session).2 }

theorem handle_steps {fuel : Nat} (hfuel : near.trace.session.inbound.length < fuel)
    (hfailure : near.failure = none) : Steps allowed far near (near.handle fuel) := by
  induction fuel generalizing near with
  | zero => omega
  | succ fuel ih =>
      rcases hdecode : near.trace.session.decoder.decode near.trace.session.inbound with
        ⟨decoder, inbound, error | _ | frame⟩
      · have hhandle : near.handle (fuel + 1) =
            { near.goOn near.core decoder inbound with failure := some (none, .error error) } := by
          simp only [handle, Session.handleFrames, meetFrames, hdecode, List.append_nil]
          rfl
        rw [hhandle]
        exact (Step.garble hfailure hdecode).steps
      · have hhandle : near.handle (fuel + 1) = near.goOn near.core decoder inbound := by
          simp only [handle, Session.handleFrames, meetFrames, hdecode, List.append_nil]
          rw [← hfailure]
          rfl
        rw [hhandle]
        exact (Step.rest hfailure hdecode).steps
      · have hmeet : Steps allowed far near (near.meet frame decoder inbound) :=
          (Step.meet hfailure hdecode).steps
        have hlt := Decoder.decode_shortens hdecode
        cases hrun : SessionCore.handleFrame frame near.core with
        | error fault core =>
            have hhandle : near.handle (fuel + 1) = near.meet frame decoder inbound := by
              have hcore : SessionCore.handleFrame frame near.trace.session.core = _ := hrun
              simp only [handle, Session.handleFrames, meetFrames, hdecode, hcore, meet, goOn,
                Computation.final, Computation.outcome, hrun]
            rwa [hhandle]
        | ok _ core =>
            have hfailure : (near.meet frame decoder inbound).failure = none := by
              simp only [meet, Computation.outcome, hrun]
            have hhandle : near.handle (fuel + 1) =
                (near.meet frame decoder inbound).handle fuel := by
              have hcore : SessionCore.handleFrame frame near.trace.session.core = _ := hrun
              simp only [handle, Session.handleFrames, meetFrames, hdecode, hcore, meet, goOn,
                Computation.final, hrun, List.append_assoc, List.cons_append, List.nil_append]
            rw [hhandle]
            apply hmeet.trans
            apply ih _ hfailure
            change inbound.length < fuel
            omega

theorem receive_steps (count : Nat) :
    Steps allowed far near (near.receive (far.next near count)) := by
  unfold receive
  cases hfailure : near.failure with
  | some => exact .refl
  | none =>
      have harrive : Step allowed far near _ := .arrive count hfailure
      exact harrive.steps.trans (handle_steps (Nat.lt_succ_self _) hfailure)

theorem act_steps {act : Act} (hmeets : near.meets allowed act) :
    Steps allowed far near (far.act near act) := by
  cases act with
  | call call => exact (Step.call call hmeets).steps
  | pollTransmit => exact Step.pollTransmit.steps
  | pollEvent => exact Step.pollEvent.steps
  | arrive count => exact receive_steps count

end End

theorem Pair.preserves {allowed : End → Call → Prop} {I : End → End → Prop}
    (hsymm : ∀ {near far}, I near far → I far near)
    (hstep : ∀ {near far near'}, End.Step allowed far near near' → I near far → I near' far)
    {first last : Pair} (hrun : Run Pair.act (Pair.meets allowed) first last)
    (h : I first.near first.far) : I last.near last.far := by
  have hsteps : ∀ {near far near' : End}, End.Steps allowed far near near' → I near far →
      I near' far := by
    intro near far near' hsteps hI
    induction hsteps with
    | refl => exact hI
    | tail _ hlast ih => exact hstep hlast ih
  refine hrun.preserves (I := fun pair => I pair.near pair.far) (fun {pair label} hmeets hI => ?_) h
  obtain ⟨side, act⟩ := label
  cases side with
  | true => exact hsteps (End.act_steps hmeets) hI
  | false => exact hsymm (hsteps (End.act_steps hmeets) (hsymm hI))

end Vortice.Link
