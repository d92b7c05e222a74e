import Vortice.Proto.Base64
import Vortice.Proto.Management
import Vortice.Foundation.Cutting

/-!
# The `<blob>` element

Everything a mechanism has to say travels inside this element, Base64 encoded, and
its `status` says what the exchange is doing.
-/

namespace Vortice.Sasl

open Vortice.Foundation
open Vortice.Proto.Management (isWhitespace)

/-! ## Reading text that may not be text -/

/-- How many octets may follow the first one of a character. -/
def following (first : UInt8) : Option Nat :=
  if first < 0x80 then some 0
  else if 0xC2 ≤ first ∧ first ≤ 0xDF then some 1
  else if 0xE0 ≤ first ∧ first ≤ 0xEF then some 2
  else if 0xF0 ≤ first ∧ first ≤ 0xF4 then some 3
  else none

/-- Whether `octet` may stand `index` places behind the octet after the first one. -/
def mayFollow (first : UInt8) (octet : UInt8) (index : Nat) : Bool :=
  let (low, high) : UInt8 × UInt8 :=
    if index ≠ 0 then (0x80, 0xBF)
    else if first = 0xE0 then (0xA0, 0xBF)
    else if first = 0xED then (0x80, 0x9F)
    else if first = 0xF0 then (0x90, 0xBF)
    else if first = 0xF4 then (0x80, 0x8F)
    else (0x80, 0xBF)
  low ≤ octet && octet ≤ high

/-- Reads the characters, one replacement character for each broken piece. -/
def charsLossy : Nat → Octets → List Char
  | 0, _ | _, [] => []
  | fuel + 1, first :: rest =>
      match following first with
      | none => '\uFFFD' :: charsLossy fuel rest
      | some count =>
          let taken := (((rest.take count).zipIdx.takeWhile fun (octet, index) =>
            mayFollow first octet index).length)
          let read := match text (first :: rest.take taken) with
            | some read => if taken = count then read.toList else ['\uFFFD']
            | none => ['\uFFFD']
          read ++ charsLossy fuel (rest.drop taken)

def fromUtf8Lossy (source : Octets) : String :=
  String.ofList (charsLossy source.length source)

/-! ## The element -/

inductive Status where
  | none
  | continues
  | complete
  | abort
  deriving DecidableEq

namespace Status

def attributeValue : Status → Option String
  | .none => .none
  | .continues => some "continue"
  | .complete => some "complete"
  | .abort => some "abort"

def parse (value : String) : Option Status :=
  if value = "continue" then some .continues
  else if value = "complete" then some .complete
  else if value = "abort" then some .abort
  else .none

end Status

structure Blob where
  status : Status
  data : Octets
  deriving DecidableEq

namespace Blob

/-- A blob carrying a status and nothing else. -/
def ofStatus (status : Status) : Blob := ⟨status, []⟩

def toXml (blob : Blob) : String :=
  "<blob" ++
    (match blob.status.attributeValue with
    | some status => " status='" ++ status ++ "'"
    | none => "") ++
    (if blob.data = [] then " />"
    else ">" ++ Proto.Base64.encode blob.data ++ "</blob>")

/-- The value of `name` in an open tag, accepting either kind of quote. -/
def attributeOf (head : List Char) (name : String) : Option String := do
  let (_, rest) ← cutFirst name.toList head
  match rest.dropWhile isWhitespace with
  | '=' :: rest =>
      match rest.dropWhile isWhitespace with
      | quote :: rest =>
          if quote ≠ '\'' ∧ quote ≠ '"' then none
          else
            let (value, _) ← cutFirst [quote] rest
            return String.ofList value
      | [] => none
  | _ => none

/-- Reads an element a peer sent. -/
def fromXml (source : String) : Option Blob := do
  let source := (source.toList.dropWhile isWhitespace).rdropWhile isWhitespace
  let rest ← "<blob".toList.isPrefixOf? source
  let (head, body) ← cutFirst ['>'] rest
  let head := head.rdropWhile isWhitespace
  let selfClosing := head.getLast? = some '/'
  let head := head.rdropWhile (· = '/')
  let status ← match attributeOf head "status" with
    | some value => Status.parse value
    | none => some .none
  if selfClosing then
    if body.dropWhile isWhitespace ≠ [] then none else return ofStatus status
  else
    let content ← "</blob>".toList.isSuffixOf? body
    let content := (content.dropWhile isWhitespace).rdropWhile isWhitespace
    return ⟨status, ← Proto.Base64.decode (String.ofList content)⟩

example : [fromXml "<blob status=\"complete\"/>", fromXml "  <blob>Zm9v</blob>\r\n",
      fromXml "<blob status = 'continue' >Zm9v</blob>", fromXml "<blob />trailing"] =
    [some (ofStatus .complete), some ⟨.none, octets "foo"⟩,
      some ⟨.continues, octets "foo"⟩, none] :=
  rfl

end Blob

end Vortice.Sasl
