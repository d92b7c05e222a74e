import Vortice.Proto.RoundTrip
import Vortice.Proto.Session

/-!
# Input cut into chunks

The decoder and the session are consumers of a resumable decoder, so how a
transport cuts the octets it hands over makes no difference to either.
-/

namespace Vortice.Proto

open Vortice.Foundation

namespace Decoder

/-- Append chunks to an empty buffer one at a time, draining after each. -/
def drainChunks (limit : UInt32) (chunks : List Octets) :
    Fed (List Frame) Decoder UInt8 × List Octets × Except Error Unit :=
  resumable.feedAll id collect ⟨[], withMaxFrameSize limit, []⟩ chunks

theorem decode_nil (limit : UInt32) :
    (withMaxFrameSize limit).decode [] = (withMaxFrameSize limit, [], .ok none) :=
  rfl

theorem drain_flatten (limit : UInt32) (chunks : List Octets) :
    (withMaxFrameSize limit).drain chunks.flatten =
      match drainChunks limit chunks with
      | (fed, unread, result) =>
          ({ fed with buffer := fed.buffer ++ unread.flatten }, result) := by
  have hidle : resumable.decode (withMaxFrameSize limit) [] =
      (withMaxFrameSize limit, [], .ok none) := decode_nil limit
  exact resumable.feedAll_eq id collect ⟨[], withMaxFrameSize limit, []⟩ hidle
    chunks

end Decoder

namespace Session

def handle (core : SessionCore) (frame : Frame) :
    SessionCore × Except Fault Unit :=
  Computation.outcome (SessionCore.handleFrame frame) core

def toFed (session : Session) : Fed SessionCore Decoder UInt8 :=
  ⟨session.core, session.decoder, session.inbound⟩

def ofFed (fed : Fed SessionCore Decoder UInt8) : Session :=
  ⟨fed.state, fed.decoder, fed.buffer⟩

theorem handleFrames_eq_pump {fuel : Nat} {session : Session}
    (h : session.inbound.length < fuel) :
    session.handleFrames fuel =
      match Decoder.resumable.pump .error handle fuel session.toFed with
      | (fed, result) => (ofFed fed, result) := by
  induction fuel generalizing session with
  | zero => omega
  | succ fuel ih =>
      rw [handleFrames, Resumable.pump]
      have hdecode : Decoder.resumable.decode session.toFed.decoder
          session.toFed.buffer = session.decoder.decode session.inbound := rfl
      rw [hdecode]
      rcases hresult : session.decoder.decode session.inbound with
        ⟨decoder, inbound, error | _ | frame⟩
      · rfl
      · rfl
      · have hlt := Decoder.decode_shortens hresult
        simp only [handle, toFed, Computation.outcome]
        cases hframe : SessionCore.handleFrame frame session.core with
        | error fault core => rfl
        | ok _ core => exact ih (by simp only; omega)

theorem handleInput_eq_feed (session : Session) (input : Octets) :
    session.handleInput input =
      match Decoder.resumable.feed .error handle session.toFed input with
      | (fed, result) => (ofFed fed, result) :=
  handleFrames_eq_pump (Nat.lt_succ_self _)

/-- Chunks handed over in order up to the first error, and those left over. -/
def handleInputs : Session → List Octets →
    Session × List Octets × Except Fault Unit
  | session, [] => (session, [], .ok ())
  | session, chunk :: chunks =>
      match session.handleInput chunk with
      | (session, .error fault) => (session, chunks, .error fault)
      | (session, .ok ()) => handleInputs session chunks

theorem handleInputs_eq_feedAll (session : Session) (chunks : List Octets) :
    session.handleInputs chunks =
      match Decoder.resumable.feedAll .error handle session.toFed chunks with
      | (fed, unread, result) => (ofFed fed, unread, result) := by
  induction chunks generalizing session with
  | nil => rfl
  | cons chunk chunks ih =>
      rw [handleInputs, Resumable.feedAll, handleInput_eq_feed]
      rcases hfeed : Decoder.resumable.feed .error handle session.toFed chunk
        with ⟨fed, fault | _⟩ <;> simp only [hfeed]
      exact ih (ofFed fed)

/-- The session has handled all the frames its input holds. -/
def Idle (session : Session) : Prop :=
  session.decoder.decode session.inbound =
    (session.decoder, session.inbound, .ok none)

theorem handleInput_flatten {session : Session} {chunks : List Octets}
    (h : chunks ≠ [] ∨ session.Idle) :
    session.handleInput chunks.flatten =
      match session.handleInputs chunks with
      | (session, unread, result) =>
          ({ session with inbound := session.inbound ++ unread.flatten },
            result) := by
  rw [handleInput_eq_feed, handleInputs_eq_feedAll]
  cases chunks with
  | nil =>
      have hidle : session.Idle := by
        rcases h with h | h
        · exact absurd rfl h
        · exact h
      rw [Decoder.resumable.feedAll_eq .error handle session.toFed hidle]
      rfl
  | cons chunk chunks =>
      rw [List.flatten_cons, Decoder.resumable.feedAll_cons .error handle]
      rfl

theorem idle_of_handleInput {session session' : Session} {input : Octets}
    (h : session.handleInput input = (session', .ok ())) : session'.Idle := by
  rw [handleInput_eq_feed] at h
  rcases hfeed : Decoder.resumable.feed .error handle session.toFed input with
    ⟨fed, fault | _⟩
  · rw [hfeed] at h
    cases h
  · rw [hfeed] at h
    cases h
    exact Decoder.resumable.idle_of_feed .error handle hfeed

end Session

/--
How the input is cut into chunks is invisible.  A decoder drained after every
chunk yields the frames, the error and the decoder that it yields on the whole
string, and leaves the same octets; a session handed the chunks reaches the
state, the events, the outbound octets and the result it reaches on the whole
string.  Chunks behind an error are the ones the whole string leaves unread.
-/
theorem chunks_are_invisible :
    (∀ (limit : UInt32) (chunks : List Octets),
      ∃ fed unread result,
        Decoder.drainChunks limit chunks = (fed, unread, result) ∧
        (Decoder.withMaxFrameSize limit).drain chunks.flatten =
          (⟨fed.state, fed.decoder, fed.buffer ++ unread.flatten⟩, result) ∧
        (result = .ok () → unread = [])) ∧
    (∀ (session : Session) (chunks : List Octets),
      chunks ≠ [] ∨ session.Idle →
      ∃ session' unread result,
        session.handleInputs chunks = (session', unread, result) ∧
        session.handleInput chunks.flatten =
          (⟨session'.core, session'.decoder,
            session'.inbound ++ unread.flatten⟩, result) ∧
        (result = .ok () → unread = [])) := by
  constructor
  · intro limit chunks
    refine ⟨_, _, _, rfl, Decoder.drain_flatten limit chunks, ?_⟩
    exact Decoder.resumable.unread_of_feedAll id Decoder.collect
  · intro session chunks h
    refine ⟨_, _, _, rfl, Session.handleInput_flatten h, ?_⟩
    rw [Session.handleInputs_eq_feedAll]
    exact Decoder.resumable.unread_of_feedAll .error Session.handle

end Vortice.Proto
