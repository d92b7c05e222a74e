import Vortice.Foundation.BigEndian

/-!
# WebSocket frame headers

The headers of RFC 6455 §5.2 as the source reads and writes them.  A length is a
natural number; the source counts it in a `usize`, which never exceeds the `u64`
of the longest form.
-/

namespace Vortice.Ws

open Vortice.Foundation

/-- Largest frame payload accepted from a peer. -/
def maxPayload : Nat := 16 * 1024 * 1024

/-- How much payload one write puts into frames before it returns. -/
def maxSendBatch : Nat := 64 * 1024

/-- A frame type, from the four-bit opcode of RFC 6455 §5.2. -/
inductive OpCode where
  | continuation
  | text
  | binary
  | close
  | ping
  | pong
  deriving DecidableEq, Repr

namespace OpCode

def fromBits (value : UInt8) : Option OpCode :=
  if value = 0x0 then some .continuation
  else if value = 0x1 then some .text
  else if value = 0x2 then some .binary
  else if value = 0x8 then some .close
  else if value = 0x9 then some .ping
  else if value = 0xa then some .pong
  else none

def bits : OpCode → UInt8
  | .continuation => 0x0
  | .text => 0x1
  | .binary => 0x2
  | .close => 0x8
  | .ping => 0x9
  | .pong => 0xa

def isControl : OpCode → Bool
  | .close | .ping | .pong => true
  | .continuation | .text | .binary => false

end OpCode

/-- The four octets of a masking key. -/
structure Mask where
  key : Octets
  length_key : key.length = 4
  deriving DecidableEq

/-- A decoded frame header. -/
structure Header where
  fin : Bool
  opcode : OpCode
  mask : Option Mask
  payloadLen : Nat
  headerLen : Nat
  deriving DecidableEq

/-- A peer's framing that RFC 6455 does not allow. -/
inductive ProtocolError where
  | reservedBits
  | unknownOpCode (code : UInt8)
  | controlFrameTooLarge (len : Nat)
  | fragmentedControlFrame
  | payloadTooLarge (len : Nat)
  | nonMinimalLength
  deriving DecidableEq

/-- The payload length and the octets it takes behind the first two, if they are there. -/
def decodeLength (buffer : Octets) (second : UInt8) :
    Except ProtocolError (Option (Nat × Nat)) :=
  if second &&& 0x7f = 126 then
    if buffer.length < 4 then .ok none
    else
      let len := ofBigEndian ((buffer.drop 2).take 2)
      if len < 126 then .error .nonMinimalLength else .ok (some (len, 2))
  else if second &&& 0x7f = 127 then
    if buffer.length < 10 then .ok none
    else
      let len := ofBigEndian ((buffer.drop 2).take 8)
      if len ≤ 0xffff then .error .nonMinimalLength else .ok (some (len, 8))
  else .ok (some ((second &&& 0x7f).toNat, 0))

/-- The masking key at `maskAt`, if it is there. -/
def maskAt (buffer : Octets) (maskAt : Nat) : Option Mask :=
  if h : ((buffer.drop maskAt).take 4).length = 4 then some ⟨_, h⟩ else none

/-- Reads a header from the front of `buffer`; `none` when it is not yet complete. -/
def decodeHeader (buffer : Octets) : Except ProtocolError (Option Header) :=
  match buffer with
  | first :: second :: _ =>
      if first &&& 0x70 ≠ 0 then .error .reservedBits
      else
        let fin := first &&& 0x80 ≠ 0
        match OpCode.fromBits (first &&& 0x0f) with
        | none => .error (.unknownOpCode (first &&& 0x0f))
        | some opcode =>
            let masked := second &&& 0x80 ≠ 0
            match decodeLength buffer second with
            | .error error => .error error
            | .ok none => .ok none
            | .ok (some (payloadLen, lenOctets)) =>
                if payloadLen > maxPayload then .error (.payloadTooLarge payloadLen)
                else if opcode.isControl ∧ payloadLen > 125 then
                  .error (.controlFrameTooLarge payloadLen)
                else if opcode.isControl ∧ ¬ fin then .error .fragmentedControlFrame
                else if masked then
                  match maskAt buffer (2 + lenOctets) with
                  | none => .ok none
                  | some mask => .ok (some { fin, opcode, mask := some mask, payloadLen
                                             headerLen := 2 + lenOctets + 4 })
                else .ok (some { fin, opcode, mask := none, payloadLen
                                 headerLen := 2 + lenOctets })
  | _ => .ok none

/-- The first octet of a header. -/
def firstOctet (opcode : OpCode) (fin : Bool) : UInt8 :=
  (if fin then 0x80 else 0) ||| opcode.bits

/-- The octets that give the length and say whether a masking key follows. -/
def lengthOctets (payloadLen : Nat) (masked : UInt8) : Octets :=
  if payloadLen < 126 then [masked ||| UInt8.ofNat payloadLen]
  else if payloadLen < 2 ^ 16 then (masked ||| 126) :: bigEndian 2 payloadLen
  else (masked ||| 127) :: bigEndian 8 payloadLen

/-- What `encode_header` appends to its destination. -/
def encodeHeader (opcode : OpCode) (fin : Bool) (payloadLen : Nat) (mask : Option Mask) :
    Octets :=
  let masked : UInt8 := if mask.isSome then 0x80 else 0
  firstOctet opcode fin :: lengthOctets payloadLen masked ++
    match mask with
    | some mask => mask.key
    | none => []

/-- Applies a masking key to a payload, starting `offset` octets into the message. -/
def applyMask (payload : Octets) (mask : Mask) (offset : Nat) : Octets :=
  payload.mapIdx fun index octet => octet ^^^ mask.key.getD ((index + offset) % 4) 0

/-! ## Masking -/

@[simp] theorem length_applyMask (payload : Octets) (mask : Mask) (offset : Nat) :
    (applyMask payload mask offset).length = payload.length := List.length_mapIdx

theorem applyMask_applyMask (payload : Octets) (mask : Mask) (offset : Nat) :
    applyMask (applyMask payload mask offset) mask offset = payload := by
  rw [applyMask, applyMask, List.mapIdx_mapIdx]
  apply List.ext_getElem
  · rw [List.length_mapIdx]
  · intro i hi hi'
    rw [List.getElem_mapIdx, Function.comp_apply, UInt8.xor_assoc, UInt8.xor_self, UInt8.xor_zero]

/-! ## The first two octets -/

theorem firstOctet_bits (opcode : OpCode) (fin : Bool) :
    firstOctet opcode fin &&& 0x70 = 0 ∧
      (decide (firstOctet opcode fin &&& 0x80 ≠ 0) = fin) ∧
      OpCode.fromBits (firstOctet opcode fin &&& 0x0f) = some opcode := by
  cases opcode <;> cases fin <;> decide

theorem firstOctet_eq {first : UInt8} {opcode : OpCode} (hreserved : first &&& 0x70 = 0)
    (hopcode : OpCode.fromBits (first &&& 0x0f) = some opcode) :
    first = firstOctet opcode (decide (first &&& 0x80 ≠ 0)) := by
  have hall : ∀ n : Fin 256, (UInt8.ofNat n.val) &&& 0x70 = 0 →
      ∀ opcode ∈ OpCode.fromBits (UInt8.ofNat n.val &&& 0x0f),
        UInt8.ofNat n.val = firstOctet opcode (decide (UInt8.ofNat n.val &&& 0x80 ≠ 0)) := by
    decide +kernel
  have h := hall ⟨first.toNat, first.toNat_lt⟩
  rw [UInt8.ofNat_toNat] at h
  exact h hreserved opcode hopcode

theorem secondOctet_bits (masked : Bool) {low : Nat} (hlow : low < 128) :
    ((if masked then 0x80 else 0) ||| UInt8.ofNat low) &&& 0x7f = UInt8.ofNat low ∧
      decide (((if masked then 0x80 else 0) ||| UInt8.ofNat low) &&& 0x80 ≠ 0) = masked := by
  have hall : ∀ (masked : Bool) (n : Fin 128),
      ((if masked then 0x80 else 0) ||| UInt8.ofNat n.val) &&& 0x7f = UInt8.ofNat n.val ∧
      decide (((if masked then 0x80 else 0) ||| UInt8.ofNat n.val) &&& 0x80 ≠ 0) = masked := by
    decide +kernel
  exact hall masked ⟨low, hlow⟩

theorem secondOctet_eq (second : UInt8) :
    second = (if second &&& 0x80 ≠ 0 then 0x80 else 0) ||| (second &&& 0x7f) ∧
      (second &&& 0x7f).toNat < 128 := by
  have hall : ∀ n : Fin 256, UInt8.ofNat n.val =
      (if UInt8.ofNat n.val &&& 0x80 ≠ 0 then 0x80 else 0) ||| (UInt8.ofNat n.val &&& 0x7f) ∧
      (UInt8.ofNat n.val &&& 0x7f).toNat < 128 := by
    decide +kernel
  have h := hall ⟨second.toNat, second.toNat_lt⟩
  rwa [UInt8.ofNat_toNat] at h

/-! ## The length -/

theorem decodeLength_lengthOctets (masked : Bool) {len : Nat} (hlen : len < 2 ^ 64)
    (first : UInt8) (rest : Octets) :
    ∃ second more, lengthOctets len (if masked then 0x80 else 0) = second :: more ∧
      decide (second &&& 0x80 ≠ 0) = masked ∧
      decodeLength (first :: second :: (more ++ rest)) second =
        .ok (some (len, more.length)) := by
  rw [lengthOctets]
  split
  · rename_i hshort
    obtain ⟨hlow, hmasked⟩ := secondOctet_bits masked (show len < 128 by omega)
    have hnat : (UInt8.ofNat len).toNat = len := by
      rw [UInt8.toNat_ofNat']
      omega
    have hne : UInt8.ofNat len ≠ 126 ∧ UInt8.ofNat len ≠ 127 := by
      constructor <;> intro h <;> rw [h] at hnat <;> simp at hnat <;> omega
    refine ⟨_, [], rfl, hmasked, ?_⟩
    rw [decodeLength, hlow, if_neg hne.1, if_neg hne.2, hnat]
    rfl
  split
  · rename_i hlong hmedium
    obtain ⟨hlow, hmasked⟩ := secondOctet_bits masked (show 126 < 128 by omega)
    refine ⟨_, bigEndian 2 len, rfl, hmasked, ?_⟩
    have hlow' : ((if masked then 0x80 else 0) ||| 126 : UInt8) &&& 0x7f = 126 := hlow
    have hlength : ¬ (first :: ((if masked then 0x80 else 0) ||| 126) ::
        (bigEndian 2 len ++ rest)).length < 4 := by
      simp
    have htake : ((first :: ((if masked then 0x80 else 0) ||| 126) ::
        (bigEndian 2 len ++ rest)).drop 2).take 2 = bigEndian 2 len :=
      List.take_left' (length_bigEndian 2 len)
    rw [decodeLength, if_pos hlow', if_neg hlength, htake, ofBigEndian_bigEndian hmedium]
    dsimp only
    rw [if_neg hlong, length_bigEndian]
  · rename_i hlong hmedium
    obtain ⟨hlow, hmasked⟩ := secondOctet_bits masked (show 127 < 128 by omega)
    refine ⟨_, bigEndian 8 len, rfl, hmasked, ?_⟩
    have hlow' : ((if masked then 0x80 else 0) ||| 127 : UInt8) &&& 0x7f = 127 := hlow
    have hlength : ¬ (first :: ((if masked then 0x80 else 0) ||| 127) ::
        (bigEndian 8 len ++ rest)).length < 10 := by
      simp
    have htake : ((first :: ((if masked then 0x80 else 0) ||| 127) ::
        (bigEndian 8 len ++ rest)).drop 2).take 8 = bigEndian 8 len :=
      List.take_left' (length_bigEndian 8 len)
    rw [decodeLength, if_neg (by rw [hlow']; decide), if_pos hlow', if_neg hlength, htake,
      ofBigEndian_bigEndian hlen]
    dsimp only
    rw [if_neg (by omega), length_bigEndian]

theorem lengthOctets_of_decodeLength {first second : UInt8} {tail : Octets} {len count : Nat}
    (h : decodeLength (first :: second :: tail) second = .ok (some (len, count))) :
    ∃ more rest, tail = more ++ rest ∧ more.length = count ∧
      lengthOctets len (if second &&& 0x80 ≠ 0 then 0x80 else 0) = second :: more := by
  obtain ⟨hsecond, hlow⟩ := secondOctet_eq second
  rw [decodeLength] at h
  split at h
  · rename_i hmedium
    split at h
    · cases h
    rename_i hlength
    dsimp only at h
    split at h
    · cases h
    rename_i hminimal
    cases h
    simp only [List.length_cons] at hlength
    have htake : (tail.take 2).length = 2 := by
      rw [List.length_take]
      omega
    have hbound : ofBigEndian (tail.take 2) < 2 ^ 16 := by
      simpa [htake] using ofBigEndian_lt (tail.take 2)
    have hback := bigEndian_ofBigEndian (tail.take 2)
    rw [htake] at hback
    refine ⟨tail.take 2, tail.drop 2, (List.take_append_drop 2 tail).symm, htake, ?_⟩
    change ¬ ofBigEndian (tail.take 2) < 126 at hminimal
    change lengthOctets (ofBigEndian (tail.take 2)) _ = _
    rw [lengthOctets, if_neg hminimal, if_pos hbound, hback, ← hmedium, ← hsecond]
  split at h
  · rename_i hlong
    split at h
    · cases h
    rename_i hlength
    dsimp only at h
    split at h
    · cases h
    rename_i hminimal
    cases h
    simp only [List.length_cons] at hlength
    have htake : (tail.take 8).length = 8 := by
      rw [List.length_take]
      omega
    have hback := bigEndian_ofBigEndian (tail.take 8)
    rw [htake] at hback
    refine ⟨tail.take 8, tail.drop 8, (List.take_append_drop 8 tail).symm, htake, ?_⟩
    change ¬ ofBigEndian (tail.take 8) ≤ 0xffff at hminimal
    change lengthOctets (ofBigEndian (tail.take 8)) _ = _
    rw [lengthOctets, if_neg (by omega), if_neg (by omega), hback, ← hlong, ← hsecond]
  · rename_i hmedium hlong
    cases h
    refine ⟨[], tail, rfl, rfl, ?_⟩
    have hshort : (second &&& 0x7f).toNat < 126 := by
      by_contra hge
      obtain hcase | hcase : (second &&& 0x7f).toNat = 126 ∨ (second &&& 0x7f).toNat = 127 := by
        omega
      · exact hmedium (UInt8.toNat_inj.mp hcase)
      · exact hlong (UInt8.toNat_inj.mp hcase)
    rw [lengthOctets, if_pos hshort, UInt8.ofNat_toNat, ← hsecond]

theorem decodeLength_append {buffer : Octets} {second : UInt8}
    (h : decodeLength buffer second ≠ .ok none) (more : Octets) :
    decodeLength (buffer ++ more) second = decodeLength buffer second := by
  have hcut {count : Nat} (hlength : ¬ buffer.length < 2 + count) :
      ¬ (buffer ++ more).length < 2 + count ∧
        ((buffer ++ more).drop 2).take count = (buffer.drop 2).take count := by
    refine ⟨by rw [List.length_append]; omega, ?_⟩
    rw [List.drop_append_of_le_length (by omega), List.take_append_of_le_length]
    rw [List.length_drop]
    omega
  rw [decodeLength] at h ⊢
  split
  · rename_i hmedium
    rw [if_pos hmedium] at h
    have hlength : ¬ buffer.length < 2 + 2 := fun hlt => h (if_pos hlt)
    obtain ⟨hlonger, hsame⟩ := hcut hlength
    rw [if_neg hlonger, hsame, decodeLength, if_pos hmedium, if_neg hlength]
  split
  · rename_i hmedium hlong
    rw [if_neg hmedium, if_pos hlong] at h
    have hlength : ¬ buffer.length < 2 + 8 := fun hlt => h (if_pos hlt)
    obtain ⟨hlonger, hsame⟩ := hcut hlength
    rw [if_neg hlonger, hsame, decodeLength, if_neg hmedium, if_pos hlong, if_neg hlength]
  · rename_i hmedium hlong
    rw [decodeLength, if_neg hmedium, if_neg hlong]

/-! ## The masking key -/

theorem maskAt_append {buffer : Octets} {at' : Nat} {mask : Mask}
    (h : maskAt buffer at' = some mask) (more : Octets) :
    maskAt (buffer ++ more) at' = some mask := by
  rw [maskAt] at h
  split at h
  · rename_i hlength
    rw [List.length_take, List.length_drop] at hlength
    have hsame : ((buffer ++ more).drop at').take 4 = (buffer.drop at').take 4 := by
      rw [List.drop_append_of_le_length (by omega), List.take_append_of_le_length]
      rw [List.length_drop]
      omega
    cases h
    have hlength' : (((buffer ++ more).drop at').take 4).length = 4 := by
      rw [hsame, List.length_take, List.length_drop]
      omega
    rw [maskAt, dif_pos hlength']
    simp only [hsame]
  · cases h

theorem maskAt_key (front : Octets) (mask : Mask) (rest : Octets) :
    maskAt (front ++ (mask.key ++ rest)) front.length = some mask := by
  have htake : ((front ++ (mask.key ++ rest)).drop front.length).take 4 = mask.key := by
    rw [List.drop_left]
    exact List.take_left' mask.length_key
  rw [maskAt, dif_pos (by rw [htake, mask.length_key])]
  simp only [htake]

theorem key_of_maskAt {front tail : Octets} {mask : Mask}
    (h : maskAt (front ++ tail) front.length = some mask) :
    ∃ rest, tail = mask.key ++ rest := by
  rw [maskAt, List.drop_left] at h
  split at h
  · cases h
    exact ⟨tail.drop 4, (List.take_append_drop 4 tail).symm⟩
  · cases h

/-! ## Headers -/

/-- What RFC 6455 allows a frame of this kind to announce, below the ceiling. -/
def Allowed (opcode : OpCode) (fin : Bool) (payloadLen : Nat) : Prop :=
  payloadLen ≤ maxPayload ∧ (opcode.isControl → fin ∧ payloadLen ≤ 125)

/-- The header that the octets of `encodeHeader` stand for. -/
def writtenHeader (opcode : OpCode) (fin : Bool) (payloadLen : Nat) (mask : Option Mask) :
    Header :=
  { fin, opcode, mask, payloadLen
    headerLen := (encodeHeader opcode fin payloadLen mask).length }

/-- The octets of a header that follow its length. -/
def keyOctets : Option Mask → Octets
  | some mask => mask.key
  | none => []

theorem encodeHeader_eq (opcode : OpCode) (fin : Bool) (payloadLen : Nat)
    (mask : Option Mask) : encodeHeader opcode fin payloadLen mask =
      firstOctet opcode fin ::
        (lengthOctets payloadLen (if mask.isSome then 0x80 else 0) ++ keyOctets mask) := by
  cases mask <;> rfl

theorem decodeHeader_encodeHeader {opcode : OpCode} {fin : Bool} {payloadLen : Nat}
    (h : Allowed opcode fin payloadLen) (mask : Option Mask) (rest : Octets) :
    decodeHeader (encodeHeader opcode fin payloadLen mask ++ rest) =
      .ok (some (writtenHeader opcode fin payloadLen mask)) := by
  obtain ⟨hceiling, hcontrol⟩ := h
  obtain ⟨hreserved, hfin, hopcode⟩ := firstOctet_bits opcode fin
  have hlen : payloadLen < 2 ^ 64 := by
    rw [maxPayload] at hceiling
    omega
  obtain ⟨second, more, hoctets, hmasked, hdecode⟩ := decodeLength_lengthOctets mask.isSome hlen
    (firstOctet opcode fin) (keyOctets mask ++ rest)
  have hencode : encodeHeader opcode fin payloadLen mask ++ rest =
      firstOctet opcode fin :: second :: (more ++ (keyOctets mask ++ rest)) := by
    rw [encodeHeader_eq, hoctets, List.cons_append, List.cons_append, List.cons_append,
      List.append_assoc]
  have hlarge : ¬ (opcode.isControl = true ∧ payloadLen > 125) := fun hboth =>
    absurd (hcontrol hboth.1).2 (Nat.not_le.mpr hboth.2)
  have hfragment : ¬ (opcode.isControl = true ∧ ¬ fin = true) := fun hboth =>
    hboth.2 (hcontrol hboth.1).1
  have hfin' := Bool.eq_iff_iff.mp hfin
  have hmasked' := Bool.eq_iff_iff.mp hmasked
  rw [decide_eq_true_iff] at hfin' hmasked'
  rw [hencode, decodeHeader, if_neg (not_not.mpr hreserved), hopcode, hdecode, writtenHeader,
    encodeHeader_eq, hoctets]
  dsimp only
  simp only [hfin', hmasked', if_neg (Nat.not_lt.mpr hceiling), if_neg hlarge, if_neg hfragment,
    Bool.decide_eq_true]
  cases mask with
  | none =>
      rw [if_neg (by simp)]
      simp only [keyOctets, List.append_nil, List.length_cons]
      rw [Nat.add_comm]
  | some mask =>
      have hkey := maskAt_key (firstOctet opcode fin :: second :: more) mask rest
      simp only [List.cons_append, List.length_cons] at hkey
      rw [if_pos (by simp), Nat.add_comm 2, keyOctets, hkey]
      simp only [List.length_cons, List.length_append, mask.length_key]

/-- A header that was read is there as it would be written, and is one that is allowed. -/
theorem exists_of_decodeHeader {buffer : Octets} {header : Header}
    (h : decodeHeader buffer = .ok (some header)) :
    Allowed header.opcode header.fin header.payloadLen ∧
      header = writtenHeader header.opcode header.fin header.payloadLen header.mask ∧
      ∃ rest, buffer =
        encodeHeader header.opcode header.fin header.payloadLen header.mask ++ rest := by
  match buffer, h with
  | [], h => cases h
  | [_], h => cases h
  | first :: second :: tail, h =>
    rw [decodeHeader] at h
    split at h
    · cases h
    rename_i hreserved
    rw [not_not] at hreserved
    dsimp only at h
    split at h
    · cases h
    rename_i opcode hopcode
    split at h
    · cases h
    · cases h
    rename_i payloadLen lenOctets hlength
    obtain ⟨more, rest, rfl, rfl, hoctets⟩ := lengthOctets_of_decodeLength hlength
    have hfirst := firstOctet_eq hreserved hopcode
    split at h
    · cases h
    rename_i hceiling
    split at h
    · cases h
    rename_i hlarge
    split at h
    · cases h
    rename_i hfragment
    have hallowed : Allowed opcode (decide (first &&& 0x80 ≠ 0)) payloadLen := by
      refine ⟨Nat.not_lt.mp hceiling, fun hcontrol => ⟨?_, ?_⟩⟩
      · by_contra hfin
        exact hfragment ⟨hcontrol, by simpa using hfin⟩
      · exact Nat.not_lt.mp fun hlt => hlarge ⟨hcontrol, hlt⟩
    split at h
    · rename_i hmasked
      rw [if_pos hmasked] at hoctets
      split at h
      · cases h
      rename_i mask hmask
      cases h
      have hfront : first :: second :: (more ++ rest) =
          (first :: second :: more) ++ rest := rfl
      have hindex : 2 + more.length = (first :: second :: more).length := by
        rw [List.length_cons, List.length_cons]
        omega
      rw [hfront, hindex] at hmask
      obtain ⟨later, rfl⟩ := key_of_maskAt hmask
      have hencode : encodeHeader opcode (decide (first &&& 0x80 ≠ 0)) payloadLen (some mask) =
          first :: second :: (more ++ mask.key) := by
        rw [encodeHeader_eq, ← hfirst]
        exact congrArg (first :: ·) (congrArg (· ++ mask.key) hoctets)
      refine ⟨hallowed, ?_, later, ?_⟩
      · rw [writtenHeader, hencode]
        simp only [List.length_cons, List.length_append, mask.length_key]
        congr 1
        omega
      · rw [hencode, List.cons_append, List.cons_append, List.append_assoc]
    · rename_i hmasked
      rw [if_neg hmasked] at hoctets
      cases h
      have hencode : encodeHeader opcode (decide (first &&& 0x80 ≠ 0)) payloadLen none =
          first :: second :: more := by
        rw [encodeHeader_eq, ← hfirst, keyOctets, List.append_nil]
        exact congrArg (first :: ·) hoctets
      refine ⟨hallowed, ?_, rest, ?_⟩
      · rw [writtenHeader, hencode]
        simp only [List.length_cons]
        congr 1
        omega
      · rw [hencode, List.cons_append, List.cons_append]

theorem decodeHeader_append {buffer : Octets} (h : decodeHeader buffer ≠ .ok none)
    (more : Octets) : decodeHeader (buffer ++ more) = decodeHeader buffer := by
  cases buffer with
  | nil => exact absurd rfl h
  | cons first tail =>
      cases tail with
      | nil => exact absurd rfl h
      | cons second tail =>
          rw [List.cons_append, List.cons_append]
          rw [decodeHeader] at h ⊢
          rw [decodeHeader]
          split
          · rfl
          rename_i hreserved
          rw [if_neg hreserved] at h
          dsimp only at h ⊢
          cases hopcode : OpCode.fromBits (first &&& 0x0f) with
          | none => rfl
          | some opcode =>
              rw [hopcode] at h
              dsimp only at h ⊢
              have hlength : decodeLength (first :: second :: tail) second ≠ .ok none := by
                intro hnone
                rw [hnone] at h
                exact h rfl
              have happend := decodeLength_append hlength more
              rw [List.cons_append, List.cons_append] at happend
              rw [happend]
              rcases hdecode : decodeLength (first :: second :: tail) second with
                error | _ | ⟨payloadLen, lenOctets⟩
              · rfl
              · rfl
              · rw [hdecode] at h
                dsimp only at h ⊢
                split
                · rfl
                rename_i hceiling
                rw [if_neg hceiling] at h
                split
                · rfl
                rename_i hlarge
                rw [if_neg hlarge] at h
                split
                · rfl
                rename_i hfragment
                rw [if_neg hfragment] at h
                split
                · rename_i hmasked
                  rw [if_pos hmasked] at h
                  cases hmask : maskAt (first :: second :: tail) (2 + lenOctets) with
                  | none =>
                      rw [hmask] at h
                      exact absurd rfl h
                  | some mask =>
                      have hkept := maskAt_append hmask more
                      rw [List.cons_append, List.cons_append] at hkept
                      rw [hkept]
                · rfl

/-- Headers come back from their octets and only from these, are not decided before they are
whole, and nothing that was decided is decided otherwise later. -/
theorem header_codec :
    (∀ (opcode : OpCode) (fin : Bool) (mask : Option Mask) (payloadLen : Nat),
      Allowed opcode fin payloadLen →
      (∀ rest, decodeHeader (encodeHeader opcode fin payloadLen mask ++ rest) =
        .ok (some { fin, opcode, mask, payloadLen
                    headerLen := (encodeHeader opcode fin payloadLen mask).length })) ∧
      ∀ front back, front ++ back = encodeHeader opcode fin payloadLen mask → back ≠ [] →
        decodeHeader front = .ok none) ∧
    (∀ (buffer : Octets) (header : Header), decodeHeader buffer = .ok (some header) →
      encodeHeader header.opcode header.fin header.payloadLen header.mask <+: buffer) ∧
    ∀ (buffer more : Octets), decodeHeader buffer ≠ .ok none →
      decodeHeader (buffer ++ more) = decodeHeader buffer := by
  refine ⟨fun opcode fin mask payloadLen hallowed =>
    ⟨decodeHeader_encodeHeader hallowed mask, fun front back hsplit hback => ?_⟩,
    fun buffer header h => ?_, fun buffer more h => decodeHeader_append h more⟩
  · by_contra hdecided
    have hwhole := decodeHeader_encodeHeader hallowed mask []
    rw [List.append_nil, ← hsplit, decodeHeader_append hdecided back] at hwhole
    obtain ⟨-, -, rest, hfront⟩ := exists_of_decodeHeader hwhole
    have hlength := congrArg List.length hfront
    rw [writtenHeader, ← hsplit, List.length_append, List.length_append] at hlength
    have := List.length_pos_of_ne_nil hback
    omega
  · obtain ⟨-, -, rest, hrest⟩ := exists_of_decodeHeader h
    exact ⟨rest, hrest.symm⟩

end Vortice.Ws
