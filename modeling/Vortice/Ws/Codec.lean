import Vortice.Ws.Frame

/-!
# WebSocket frames

A frame is its header and its payload, masked by the end that opened the connection.  The
decoder takes one frame off a growing buffer, and waits while it is not whole.
-/

namespace Vortice.Ws

open Vortice.Foundation

/-- What a decoded frame asks the transport to do. -/
inductive Event where
  | data (payload : Octets)
  | ping (payload : Octets)
  | pong (payload : Octets)
  | close (code : Option Nat) (reason : Octets)
  deriving DecidableEq

/-- A payload with its masking applied or taken away. -/
def masking (mask : Option Mask) (payload : Octets) : Octets :=
  match mask with
  | some mask => applyMask payload mask 0
  | none => payload

namespace Decoder

/-- What a frame is reported as. -/
def event (opcode : OpCode) (payload : Octets) : Event :=
  match opcode with
  | .ping => .ping payload
  | .pong => .pong payload
  | .close =>
      if payload.length ≥ 2 then .close (some (ofBigEndian (payload.take 2))) (payload.drop 2)
      else .close none []
  | .text | .binary | .continuation => .data payload

/-- Takes the next frame out of the buffer, which is left alone unless all of it is there. -/
def poll (buffer : Octets) : Except ProtocolError (Option Event × Octets) :=
  match decodeHeader buffer with
  | .error error => .error error
  | .ok none => .ok (none, buffer)
  | .ok (some header) =>
      if buffer.length < header.headerLen + header.payloadLen then .ok (none, buffer)
      else
        let payload := (buffer.drop header.headerLen).take header.payloadLen
        .ok (some (event header.opcode (masking header.mask payload)),
          buffer.drop (header.headerLen + header.payloadLen))

end Decoder

/-- A frame on its way. -/
structure Framed where
  opcode : OpCode
  fin : Bool
  mask : Option Mask
  payload : Octets
  deriving DecidableEq

namespace Framed

def header (frame : Framed) : Octets :=
  encodeHeader frame.opcode frame.fin frame.payload.length frame.mask

def encode (frame : Framed) : Octets := frame.header ++ masking frame.mask frame.payload

/-- The frame is one that a peer may send. -/
def Valid (frame : Framed) : Prop := Allowed frame.opcode frame.fin frame.payload.length

instance (frame : Framed) : Decidable frame.Valid :=
  inferInstanceAs (Decidable (frame.payload.length ≤ maxPayload ∧
    (frame.opcode.isControl → frame.fin ∧ frame.payload.length ≤ 125)))

def event (frame : Framed) : Event := Decoder.event frame.opcode frame.payload

end Framed

/-! ## Reading what was written -/

@[simp] theorem length_masking (mask : Option Mask) (payload : Octets) :
    (masking mask payload).length = payload.length := by
  cases mask with
  | none => rfl
  | some mask => exact length_applyMask payload mask 0

@[simp] theorem masking_masking (mask : Option Mask) (payload : Octets) :
    masking mask (masking mask payload) = payload := by
  cases mask with
  | none => rfl
  | some mask => exact applyMask_applyMask payload mask 0

namespace Framed

variable {frame : Framed}

theorem length_encode (frame : Framed) :
    frame.encode.length = frame.header.length + frame.payload.length := by
  rw [encode, List.length_append, length_masking]

theorem length_encode_pos (frame : Framed) : 0 < frame.encode.length := by
  rw [length_encode, header, encodeHeader_eq, List.length_cons]
  omega

theorem Valid.poll (h : frame.Valid) (rest : Octets) :
    Decoder.poll (frame.encode ++ rest) = .ok (some frame.event, rest) := by
  have hread := decodeHeader_encodeHeader h frame.mask (masking frame.mask frame.payload ++ rest)
  rw [← Framed.header] at hread
  have hlong : ¬ (frame.encode ++ rest).length < frame.header.length + frame.payload.length := by
    rw [List.length_append, length_encode]
    omega
  have hpayload : ((frame.encode ++ rest).drop frame.header.length).take frame.payload.length =
      masking frame.mask frame.payload := by
    rw [encode, List.append_assoc, List.drop_left]
    exact List.take_left' (length_masking _ _)
  have hrest : (frame.encode ++ rest).drop (frame.header.length + frame.payload.length) =
      rest := List.drop_left' frame.length_encode
  rw [← List.append_assoc, ← encode] at hread
  rw [Decoder.poll, hread]
  dsimp only [writtenHeader]
  rw [← Framed.header, if_neg hlong, hpayload, hrest, masking_masking]
  rfl

theorem Valid.poll_short (h : frame.Valid) {front back : Octets}
    (hsplit : frame.encode = front ++ back) (hback : back ≠ []) :
    Decoder.poll front = .ok (none, front) := by
  by_cases hnone : decodeHeader front = .ok none
  · rw [Decoder.poll, hnone]
  · have hread := decodeHeader_encodeHeader h frame.mask (masking frame.mask frame.payload)
    rw [← Framed.header, ← encode, hsplit, decodeHeader_append hnone] at hread
    have hlength := frame.length_encode
    have hpos := List.length_pos_iff.mpr hback
    rw [hsplit, List.length_append] at hlength
    rw [Decoder.poll, hread]
    dsimp only [writtenHeader]
    rw [← Framed.header, if_pos (by omega)]

theorem event_cases (frame : Framed) :
    frame.opcode.isControl = false ∧ frame.event = .data frame.payload ∨
    frame.opcode = .ping ∧ frame.event = .ping frame.payload ∨
    frame.opcode = .pong ∧ frame.event = .pong frame.payload ∨
    frame.opcode = .close ∧ ∃ code reason, frame.event = .close code reason := by
  rw [event]
  cases frame.opcode with
  | text => exact .inl ⟨rfl, rfl⟩
  | binary => exact .inl ⟨rfl, rfl⟩
  | continuation => exact .inl ⟨rfl, rfl⟩
  | ping => exact .inr (.inl ⟨rfl, rfl⟩)
  | pong => exact .inr (.inr (.inl ⟨rfl, rfl⟩))
  | close =>
      refine .inr (.inr (.inr ⟨rfl, ?_⟩))
      rw [Decoder.event]
      split
      · exact ⟨_, _, rfl⟩
      · exact ⟨_, _, rfl⟩

end Framed

theorem Decoder.exists_of_poll {buffer rest : Octets} {found : Event}
    (h : poll buffer = .ok (some found, rest)) : ∃ frame : Framed, frame.Valid ∧
      frame.event = found := by
  rw [poll] at h
  split at h
  · cases h
  · cases h
  · rename_i header hheader
    obtain ⟨hallowed, -⟩ := exists_of_decodeHeader hheader
    split at h
    · cases h
    · rename_i hlong
      cases h
      refine ⟨⟨header.opcode, header.fin, none,
        masking header.mask ((buffer.drop header.headerLen).take header.payloadLen)⟩, ?_, rfl⟩
      have hlength : (masking header.mask
          ((buffer.drop header.headerLen).take header.payloadLen)).length =
          header.payloadLen := by
        rw [length_masking, List.length_take, List.length_drop]
        omega
      rw [Framed.Valid]
      dsimp only
      rw [hlength]
      exact hallowed

namespace Framed

variable {frame : Framed}

theorem Valid.answer {data : Octets} (h : frame.Valid) (hping : frame.event = .ping data)
    (mask : Option Mask) : Valid ⟨.pong, true, mask, data⟩ := by
  obtain ⟨-, hevent⟩ | ⟨hopcode, hevent⟩ | ⟨-, hevent⟩ | ⟨-, _, _, hevent⟩ := frame.event_cases
  · rw [hevent] at hping
    cases hping
  · rw [hevent] at hping
    cases hping
    have hshort := (h.2 (by rw [hopcode]; rfl)).2
    exact ⟨h.1, fun _ => ⟨rfl, hshort⟩⟩
  · rw [hevent] at hping
    cases hping
  · rw [hevent] at hping
    cases hping

/-- The other end reads the frame as what it carries. -/
def Accepted (frame : Framed) : Prop :=
  ∀ rest, Decoder.poll (frame.encode ++ rest) = .ok (some frame.event, rest)

theorem accepted_iff (hcontrol : frame.opcode.isControl → frame.Valid) :
    frame.Accepted ↔ frame.payload.length ≤ maxPayload := by
  constructor
  · intro haccepted
    obtain ⟨found, hvalid, hevent⟩ := Decoder.exists_of_poll (haccepted [])
    obtain ⟨hdata, hcarried⟩ | ⟨hopcode, -⟩ | ⟨hopcode, -⟩ | ⟨hopcode, -⟩ := frame.event_cases
    · rw [hcarried] at hevent
      obtain ⟨-, hfound⟩ | ⟨-, hfound⟩ | ⟨-, hfound⟩ | ⟨-, _, _, hfound⟩ := found.event_cases
      · rw [hfound] at hevent
        rw [← Event.data.inj hevent]
        exact hvalid.1
      all_goals
        rw [hfound] at hevent
        cases hevent
    all_goals exact (hcontrol (by rw [hopcode]; rfl)).1
  · intro hfits rest
    refine Valid.poll ⟨hfits, fun h => (hcontrol h).2 h⟩ rest

end Framed

end Vortice.Ws
