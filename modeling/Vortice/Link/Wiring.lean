import Vortice.Foundation.Streams
import Vortice.Link.Pair
import Vortice.Proto.RoundTrip

/-!
# Frames on their way

However the octets between two ends are cut, the frames that one end meets are a beginning of
the frames that the other has written.  Its input fails at a frame if it fails at all, and an
end that has read everything has met everything.
-/

namespace Vortice.Link

open Vortice.Foundation Vortice.Proto

/-- Frames and their encodings, as a decoder takes them. -/
def coding : Coding Decoder.resumable where
  start := Decoder.new
  encode := Frame.encode
  decode_nil := rfl
  decode_encode frame rest := Decoder.decode_encode frame.fits_maxFrameSize rest

namespace End

variable {allowed : End → Call → Prop} {far far' near near' : End}

/-- The near end reads what the far end transmits. -/
structure Synced (far near : End) : Prop where
  faithful : far.trace.Faithful
  read : near.read <+: far.trace.transmitted
  met : near.met <+: written far.core.history
  holds : near.failure = none →
    coding.Holds near.trace.session.decoder near.trace.session.inbound near.read near.met
  atFrame : ∀ fault, near.failure ≠ some (none, fault)

/-- An end has written and transmitted more. -/
structure Grows (far far' : End) : Prop where
  faithful : far.trace.Faithful → far'.trace.Faithful
  transmitted : far.trace.transmitted <+: far'.trace.transmitted
  history : far.core.history <+: far'.core.history

theorem Grows.of_same (hcore : far'.core = far.core)
    (htransmitted : far'.trace.transmitted = far.trace.transmitted) : Grows far far' := by
  constructor
  · intro hfaithful
    rw [Trace.Faithful, Trace.octetsOut, htransmitted]
    change _ ++ far'.core.outbound = encodeAll (Proto.written far'.core.history)
    rw [hcore]
    exact hfaithful
  · rw [htransmitted]
  · rw [hcore]

theorem Grows.written (h : Grows far far') :
    written far.core.history <+: written far'.core.history := by
  obtain ⟨more, hmore⟩ := h.history
  exact ⟨Proto.written more, by rw [← hmore, written_append]⟩

theorem grows_of_path {allowed : SessionCore.Effect → Prop} {session : Session}
    (hpath : Walk SessionCore.Move allowed far.core session.core)
    (htrace : far'.trace = { far.trace with session }) : Grows far far' := by
  obtain ⟨actions, hlogs⟩ := SessionCore.logs_of_path hpath
  have hcore : far'.core = session.core := by rw [core, htrace]; rfl
  constructor
  · intro hfaithful
    have hout : far.trace.transmitted ++ far.core.outbound =
      encodeAll (Proto.written _) := hfaithful
    rw [htrace, Trace.Faithful, Trace.octetsOut]
    change far.trace.transmitted ++ session.core.outbound =
      encodeAll (Proto.written session.core.history)
    rw [hlogs.outbound, hlogs.history, written_append, encodeAll_append, ← List.append_assoc, hout]
    rfl
  · rw [htrace]
  · rw [hcore, hlogs.history]
    exact List.prefix_append _ _

theorem Step.grows (h : Step allowed far near near') : Grows near near' := by
  cases h with
  | call call _ => exact grows_of_path (SessionCore.path_call call near.core) rfl
  | pollTransmit =>
      have hpolled := Trace.act_pollTransmit near.trace
      constructor
      · exact fun hfaithful => hfaithful.act .pollTransmit
      · rw [End.pollTransmit, hpolled]
        exact List.prefix_append _ _
      · rw [End.pollTransmit, hpolled]
        exact List.prefix_rfl
  | pollEvent =>
      have hpolled := congrArg SessionCore.history (Trace.final_pollEvent near.core)
      constructor
      · exact fun hfaithful => hfaithful.act .pollEvent
      · exact List.prefix_rfl
      · exact hpolled ▸ List.prefix_rfl
  | meet => exact grows_of_path (SessionCore.path_handleFrame _ near.core) rfl
  | arrive | rest | garble => exact .of_same rfl rfl

theorem Synced.sender (h : Synced far near) (hgrows : Grows far far') : Synced far' near where
  faithful := hgrows.faithful h.faithful
  read := h.read.trans hgrows.transmitted
  met := h.met.trans hgrows.written
  holds := h.holds
  atFrame := h.atFrame

theorem Synced.next (h : Synced far near) (hfailure : near.failure = none) :
    (∃ decoder inbound, near.trace.session.decoder.decode near.trace.session.inbound =
        (decoder, inbound, .ok none) ∧
      (near.read = far.trace.transmitted → far.core.outbound = [] →
        near.met = written far.core.history)) ∨
    ∃ frame inbound, near.trace.session.decoder.decode near.trace.session.inbound =
        (Decoder.new, inbound, .ok (some frame)) ∧
      near.met ++ [frame] <+: written far.core.history ∧
      coding.Holds Decoder.new inbound near.read (near.met ++ [frame]) := by
  obtain ⟨unread, hunread⟩ := h.read
  have hsent : near.read ++ (unread ++ far.core.outbound) =
      encodeAll (written far.core.history) := by
    rw [← List.append_assoc, hunread]
    exact h.faithful
  rcases (h.holds hfailure).next hsent h.met with ⟨decoder, inbound, hdecode, hall⟩ | htaken
  · refine .inl ⟨decoder, inbound, hdecode, fun hread houtbound => hall ?_⟩
    rw [hread, List.append_right_eq_self] at hunread
    rw [hunread, houtbound, List.append_nil]
  · exact .inr htaken

theorem Synced.step (h : Synced far near) (hstep : Step allowed far near near') :
    Synced far near' := by
  cases hstep with
  | call | pollEvent => exact ⟨h.faithful, h.read, h.met, h.holds, h.atFrame⟩
  | pollTransmit =>
      have hpolled := Trace.act_pollTransmit near.trace
      refine ⟨h.faithful, h.read, h.met, fun hfailure => ?_, h.atFrame⟩
      simpa [pollTransmit, hpolled] using h.holds hfailure
  | arrive count hfailure =>
      refine ⟨h.faithful, ?_, h.met, fun _ => (h.holds hfailure).arrive _, h.atFrame⟩
      obtain ⟨unread, hunread⟩ := h.read
      rw [End.next, ← hunread, List.drop_left]
      exact (List.prefix_append_right_inj _).mpr (List.take_prefix _ _)
  | @meet frame decoder inbound hfailure hdecode =>
      rcases h.next hfailure with ⟨_, _, hnone, -⟩ | ⟨found, left, hfound, hmet, hholds⟩
      · rw [hdecode] at hnone
        cases hnone
      · rw [hdecode] at hfound
        cases hfound
        refine ⟨h.faithful, h.read, hmet, fun _ => hholds, fun fault => ?_⟩
        dsimp only [End.meet]
        split <;> simp
  | rest hfailure hdecode =>
      exact ⟨h.faithful, h.read, h.met, fun _ => (h.holds hfailure).pause hdecode, h.atFrame⟩
  | garble hfailure hdecode =>
      rcases h.next hfailure with ⟨_, _, hnone, -⟩ | ⟨_, _, hfound, -⟩
      · rw [hdecode] at hnone
        cases hnone
      · rw [hdecode] at hfound
        cases hfound

theorem synced_new {near far : Session} {nearConfig farConfig : Config}
    (hnear : Session.new nearConfig = .ok near) (hfar : Session.new farConfig = .ok far) :
    Synced (.new far) (.new near) where
  faithful := (Trace.Fresh.new hfar).faithful
  read := List.nil_prefix
  met := List.nil_prefix
  holds _ := by
    unfold Session.new at hnear
    split at hnear
    · cases hnear
      exact Coding.holds_start
    · cases hnear
  atFrame _ := by simp [End.new]

end End

end Vortice.Link
