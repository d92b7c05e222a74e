import Vortice.Foundation.Runs
import Vortice.Sasl.Blob
import Vortice.Sasl.Exchange

/-!
# The profile that carries a mechanism

A channel's exchange is begun when its start is accepted, and kept in a table between
the messages of the channel.  Each message has a task of its own, and so has what is
to be done once the channel is open; they take turns in any order, and the driver
carries out their commands in the order sent.
-/

namespace Vortice.Sasl

open Vortice.Foundation
open Vortice.Proto (FrameKind)
open Vortice.Proto.Management (ErrorReply Start)

def profileUri (mechanism : String) : String := "http://iana.org/beep/SASL/" ++ mechanism

def authenticationFailure : UInt32 := 535

def refusal (text : String) : ErrorReply := ⟨authenticationFailure, none, some text⟩

def escapeXml (text : String) : String :=
  let text := replace (replace (replace text "&" "&amp;") "<" "&lt;") ">" "&gt;"
  replace (replace text "'" "&apos;") "\"" "&quot;"

def errorPayload (text : String) : String :=
  "<error code='" ++ toString authenticationFailure.toNat ++ "'>" ++ escapeXml text ++
    "</error>"

example : errorPayload "a < b" = "<error code='535'>a &lt; b</error>" := rfl

def initialBlob (uri : String) (start : Start) : Except ErrorReply Octets :=
  match (start.profiles.find? (·.uri = uri)).bind (·.content) with
  | none | some "" => .ok []
  | some content =>
      match Blob.fromXml content with
      | some blob => .ok blob.data
      | none => .error (refusal "the piggybacked content is not a SASL blob")

inductive State where
  | inFlight (exchange : Exchange)
  | settled (identity : Identity)
  deriving DecidableEq

structure SaslProfile where
  mechanism : Mechanism
  authenticator : Authenticator
  digests : Digests

/-- The session and the channel an exchange belongs to. -/
abbrev Key := Nat × UInt32

namespace SaslProfile

variable (profile : SaslProfile)

def begin (serverName : Option String) (randomness : Randomness) (blob : Octets) :
    Step × Exchange :=
  (profile.mechanism.begin ⟨serverName⟩).step profile.authenticator profile.digests
    randomness blob

/-- What is kept of an exchange after its first step, and sent with the acceptance. -/
def verdict : Step × Exchange → Except ErrorReply (State × Blob)
  | (.complete identity, _) => .ok (.settled identity, .ofStatus .complete)
  | (.completeWith identity data, _) => .ok (.settled identity, ⟨.complete, data⟩)
  | (.continues challenge, exchange) => .ok (.inFlight exchange, ⟨.continues, challenge⟩)
  | (.failed reason, _) => .error (refusal reason)

/-- Decides whether to accept a channel, with what the table is to hold for it. -/
def accept (serverName : Option String) (uri : String) (start : Start)
    (randomness : Randomness) :
    Except ErrorReply (State × Proto.Management.Profile) := do
  let initial ← initialBlob uri start
  let (state, content) ← verdict (profile.begin serverName randomness initial)
  return (state, { Proto.Management.Profile.new uri with content := some content.toXml })

end SaslProfile

/-! ## Tasks -/

/-- What a task asks the driver for.  An identity is recorded for an exchange, which is
known by the number of the start that began it. -/
inductive Command where
  | authenticate (id : Nat) (key : Key) (identity : String)
  | send (key : Key) (kind : FrameKind) (msgno : UInt32) (payload : Octets)
  deriving DecidableEq

inductive Task where
  /-- `on_open`, not looked at the table yet. -/
  | opening (key : Key)
  /-- `on_open`, with the identity it has taken. -/
  | recording (id : Nat) (key : Key) (identity : Identity)
  /-- `handle`, not looked at the table yet. -/
  | handling (key : Key) (msgno : UInt32) (payload : Octets)
  /-- `handle`, with the exchange it has taken. -/
  | holding (id : Nat) (key : Key) (exchange : Exchange) (msgno : UInt32)
      (payload : Octets)
  /-- `handle`, about to put the exchange back. -/
  | continuing (id : Nat) (key : Key) (exchange : Exchange) (msgno : UInt32)
      (challenge : Octets)
  /-- `handle`, about to record the identity of an exchange that is over. -/
  | completing (id : Nat) (key : Key) (identity : Identity) (msgno : UInt32)
      (data : Octets)
  /-- `handle`, waiting until the identity is recorded. -/
  | awaiting (id : Nat) (key : Key) (identity : Identity) (msgno : UInt32)
      (data : Octets)
  | answering (key : Key) (kind : FrameKind) (msgno : UInt32) (payload : String)
  deriving DecidableEq

structure Stepped where
  id : Nat
  starts : Bool
  key : Key
  blob : Octets
  exchange : Exchange
  step : Step
  left : Exchange
  deriving DecidableEq

structure World where
  table : Key → Option (Nat × State)
  tasks : List Task
  queue : List Command
  next : Nat
  applied : List (Nat × Key × String)
  told : List (Nat × Key × Identity)
  steps : List Stepped

def World.idle : World := ⟨fun _ => none, [], [], 0, [], [], []⟩

/-- What happens to a profile: the driver asks whether to accept a start, and answers it
when the session opens the channel; it hands over a message; a task takes its turn; or the
driver carries out the next command. -/
inductive Act where
  | start (key : Key) (serverName : Option String) (uri : String) (start : Start)
      (randomness : Randomness) (opens : Bool)
  | message (key : Key) (msgno : UInt32) (payload : Octets)
  | turn (index : Nat) (randomness : Randomness)
  | drive

namespace World

variable (profile : SaslProfile) (w : World)

/-- The first step of the exchange that a start begins is noted under its number. -/
def begun (key : Key) (serverName : Option String) (uri : String) (start : Start)
    (randomness : Randomness) : World :=
  match initialBlob uri start with
  | .error _ => w
  | .ok blob =>
      let outcome := profile.begin serverName randomness blob
      { w with
        next := w.next + 1
        steps := w.steps ++ [{
          id := w.next, starts := true, key, blob
          exchange := profile.mechanism.begin ⟨serverName⟩
          step := outcome.1, left := outcome.2 }] }

def begin (key : Key) (serverName : Option String) (uri : String) (start : Start)
    (randomness : Randomness) (opens : Bool) : World :=
  let begun := w.begun profile key serverName uri start randomness
  match profile.accept serverName uri start randomness with
  | .error _ => begun
  | .ok (state, _) =>
      { begun with
        table := Function.update w.table key (some (w.next, state))
        tasks := if opens then w.tasks ++ [.opening key] else w.tasks
        told := match state with
          | .settled identity =>
              if opens then w.told ++ [(w.next, key, identity)] else w.told
          | .inFlight _ => w.told }

def respond (id : Nat) (key : Key) (exchange : Exchange) (msgno : UInt32)
    (payload : Octets) (randomness : Randomness) : World × Task :=
  match Blob.fromXml (fromUtf8Lossy payload) with
  | none => (w, .answering key .err msgno (errorPayload "not a SASL blob"))
  | some blob =>
      if blob.status = .abort then
        (w, .answering key .rpy msgno (Blob.ofStatus .abort).toXml)
      else
        let (step, exchange') :=
          exchange.step profile.authenticator profile.digests randomness blob.data
        let w := { w with
          steps := w.steps ++ [{
            id, starts := false, key, blob := blob.data, exchange, step
            left := exchange' }] }
        (w, match step with
          | .complete identity => .completing id key identity msgno []
          | .completeWith identity data => .completing id key identity msgno data
          | .continues challenge => .continuing id key exchange' msgno challenge
          | .failed reason => .answering key .err msgno (errorPayload reason))

def turn (randomness : Randomness) : Task → World × List Task
  | .opening key =>
      match w.table key with
      | some (id, .settled identity) =>
          ({ w with table := Function.update w.table key none },
            [.recording id key identity])
      | _ => (w, [])
  | .recording id key identity =>
      ({ w with queue := w.queue ++ [.authenticate id key identity.effective] }, [])
  | .handling key msgno payload =>
      -- the entry is taken out whatever it is
      ({ w with table := Function.update w.table key none },
        match w.table key with
        | some (id, .inFlight exchange) => [.holding id key exchange msgno payload]
        | _ => [.answering key .err msgno (errorPayload "no exchange is in progress")])
  | .holding id key exchange msgno payload =>
      let (w, task) := respond profile w id key exchange msgno payload randomness
      (w, [task])
  | .continuing id key exchange msgno challenge =>
      ({ w with table := Function.update w.table key (some (id, .inFlight exchange)) },
        [.answering key .rpy msgno (Blob.toXml ⟨.continues, challenge⟩)])
  | .completing id key identity msgno data =>
      ({ w with queue := w.queue ++ [.authenticate id key identity.effective] },
        [.awaiting id key identity msgno data])
  | .awaiting id key identity msgno data =>
      if (id, key, identity.effective) ∈ w.applied then
        ({ w with told := w.told ++ [(id, key, identity)] },
          [.answering key .rpy msgno (Blob.toXml ⟨.complete, data⟩)])
      else (w, [.awaiting id key identity msgno data])
  | .answering key kind msgno payload =>
      ({ w with queue := w.queue ++ [.send key kind msgno (octets payload)] }, [])

def drive : World :=
  match w.queue with
  | [] => w
  | .authenticate id key identity :: queue =>
      { w with queue, applied := w.applied ++ [(id, key, identity)] }
  | .send .. :: queue => { w with queue }

def act (w : World) : Act → World
  | .start key serverName uri start randomness opens =>
      w.begin profile key serverName uri start randomness opens
  | .message key msgno payload =>
      { w with tasks := w.tasks ++ [.handling key msgno payload] }
  | .turn index randomness =>
      match w.tasks[index]? with
      | none => w
      | some task =>
          let (next, left) := w.turn profile randomness task
          { next with
            tasks := w.tasks.take index ++ left ++ w.tasks.drop (index + 1) }
  | .drive => w.drive

end World

/-! ## A small profile -/

def SaslProfile.sample (mechanism : Mechanism) : SaslProfile :=
  ⟨mechanism, .knowing "u" "s", .zero⟩

def Act.sampleStart (mechanism : Mechanism) (content : Option String) : Act :=
  let uri := profileUri mechanism.name
  .start (0, 1) none uri ⟨1, none, [⟨uri, .none, content⟩]⟩ ⟨[], 0⟩ true

def Act.sampleMessage (data : String) : Act :=
  .message (0, 1) 0 (octets (Blob.toXml ⟨.none, octets data⟩))

def Act.sampleTurn (index : Nat) : Act := .turn index ⟨[], 0⟩

def World.after (profile : SaslProfile) (acts : List Act) : World :=
  acts.foldl (World.act profile) .idle

end Vortice.Sasl
