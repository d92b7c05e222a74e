import Vortice.Foundation.Text
import Vortice.Proto.Mime

/-!
# Base64

RFC4648 §4 with padding, as the source writes it: decoding is strict except for
whitespace.
-/

namespace Vortice.Proto

open Vortice.Foundation

namespace Base64

/-- The alphabet of RFC4648 §4. -/
def alphabet : Octets :=
  octets "ABCDEFGHIJKLMNOPQRSTUVWXYZabcdefghijklmnopqrstuvwxyz0123456789+/"

def digit (bits : UInt32) : UInt8 := (alphabet[(bits &&& 0x3f).toNat]?).getD 61

/-- The four characters that three octets, or fewer, are written as. -/
def encodeChunk : Octets → Octets
  | [] => []
  | [first] =>
      let bits := first.toUInt32 <<< 16
      [digit (bits >>> 18), digit (bits >>> 12), 61, 61]
  | [first, second] =>
      let bits := first.toUInt32 <<< 16 ||| second.toUInt32 <<< 8
      [digit (bits >>> 18), digit (bits >>> 12), digit (bits >>> 6), 61]
  | first :: second :: third :: _ =>
      let bits := first.toUInt32 <<< 16 ||| second.toUInt32 <<< 8 ||| third.toUInt32
      [digit (bits >>> 18), digit (bits >>> 12), digit (bits >>> 6), digit bits]

def encodeOctets : Octets → Octets
  | first :: second :: third :: rest =>
      encodeChunk [first, second, third] ++ encodeOctets rest
  | chunk => encodeChunk chunk

def encode (data : Octets) : String := (text (encodeOctets data)).getD ""

/-- The six bits a character stands for. -/
def value (octet : UInt8) : Option UInt32 :=
  if 65 ≤ octet ∧ octet ≤ 90 then some (octet - 65).toUInt32
  else if 97 ≤ octet ∧ octet ≤ 122 then some (octet - 97 + 26).toUInt32
  else if 48 ≤ octet ∧ octet ≤ 57 then some (octet - 48 + 52).toUInt32
  else if octet = 43 then some 62
  else if octet = 47 then some 63
  else none

/-- How many characters of the final quad are padding. -/
def padding (last : Bool) (third fourth : UInt8) : Nat :=
  if last then (if fourth = 61 then 1 else 0) + (if third = 61 then 1 else 0) else 0

def decodeQuad (last : Bool) (first second third fourth : UInt8) : Option Octets :=
  let padding := padding last third fourth
  if padding = 2 ∧ third ≠ 61 then none
  else do
    let sextet (index : Nat) (octet : UInt8) : Option UInt32 :=
      if last ∧ index ≥ 4 - padding then some 0 else value octet
    let first ← sextet 0 first
    let second ← sextet 1 second
    let third ← sextet 2 third
    let fourth ← sextet 3 fourth
    let bits := ((first <<< 6 ||| second) <<< 6 ||| third) <<< 6 ||| fourth
    let decoded := (bits >>> 16).toUInt8 ::
      ((if padding < 2 then [(bits >>> 8).toUInt8] else []) ++
        if padding < 1 then [bits.toUInt8] else [])
    -- the padded characters stand for bits that are not there
    if padding > 0 ∧ bits &&& ((1 <<< (padding * 8).toUInt32) - 1) ≠ 0 then none
    else return decoded

def decodeOctets : Octets → Option Octets
  | [] => some []
  | first :: second :: third :: fourth :: rest => do
      let decoded ← decodeQuad rest.isEmpty first second third fourth
      return decoded ++ (← decodeOctets rest)
  | _ => none

def decode (source : String) : Option Octets :=
  decodeOctets ((octets source).filter fun octet => !Mime.isAsciiWhitespace octet)

example : (encode (octets "foobar"), encode (octets "fo")) = ("Zm9vYmFy", "Zm8=") :=
  rfl

example : (decode "Zm9vYmFy", decode "Zm8=", decode "Zm9=", decode "Zm9vYmFy=") =
    (some (octets "foobar"), some (octets "fo"), none, none) :=
  rfl

end Base64

end Vortice.Proto
