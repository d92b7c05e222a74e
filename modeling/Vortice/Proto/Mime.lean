import Vortice.Foundation.Octets
import Mathlib.Data.List.DropRight

/-!
# Splitting a payload into MIME headers and body

Only what channel management needs: the two halves of a payload, and a header
looked up by name.
-/

namespace Vortice.Proto.Mime

open Vortice.Foundation

def contentTypeHeader : String := "Content-Type"
def beepXml : String := "application/beep+xml"

def findSubslice (haystack needle : Octets) : Option Nat :=
  if needle.length > haystack.length then none
  else
    (List.range (haystack.length - needle.length + 1)).find? fun i =>
      (haystack.drop i).take needle.length == needle

def split (payload : Octets) : Octets × Octets :=
  match (octets "\r\n").isPrefixOf? payload with
  | some body => ([], body)
  | none =>
      match findSubslice payload (octets "\r\n\r\n") with
      | some i => (payload.take i, payload.drop (i + 4))
      | none => ([], payload)

/-- `line` without one trailing carriage return. -/
def stripCarriageReturn (line : Octets) : Octets :=
  if line.getLast? = some 13 then line.dropLast else line

def splitLines (headers : Octets) : List Octets :=
  ((headers.splitOn 10).map stripCarriageReturn).filter (· ≠ [])

def isAsciiWhitespace (octet : UInt8) : Bool :=
  octet == 32 || octet == 9 || octet == 10 || octet == 12 || octet == 13

def trim (value : Octets) : Octets :=
  (value.dropWhile isAsciiWhitespace).rdropWhile isAsciiWhitespace

def toAsciiLowercase (octet : UInt8) : UInt8 :=
  if 65 ≤ octet && octet ≤ 90 then octet + 32 else octet

def eqIgnoreAsciiCase (first second : Octets) : Bool :=
  first.map toAsciiLowercase == second.map toAsciiLowercase

/-- The value behind the first line that carries the header, if there is one. -/
def header (headers : Octets) (name : String) : Option Octets :=
  (splitLines headers).findSome? fun line =>
    match find line 58 with
    | none => none
    | some colon =>
        if eqIgnoreAsciiCase (line.take colon) (octets name) then
          some (trim (line.drop (colon + 1)))
        else none

/-- A needle is found where it first occurs. -/
theorem findSubslice_eq_some {before needle after : Octets}
    (h : ∀ i < before.length,
      ((before ++ needle).drop i).take needle.length ≠ needle) :
    findSubslice (before ++ needle ++ after) needle = some before.length := by
  have hlen : ¬ needle.length > (before ++ needle ++ after).length := by
    simp
    omega
  rw [findSubslice, if_neg hlen, List.find?_range_eq_some]
  refine ⟨?_, ?_, ?_⟩
  · simp
  · simp
    omega
  · intro i hi
    have htake : ((before ++ needle ++ after).drop i).take needle.length =
        ((before ++ needle).drop i).take needle.length := by
      rw [List.drop_append_of_le_length (by simp; omega),
        List.take_append_of_le_length (by simp; omega)]
    rw [htake, Bool.not_eq_true', beq_eq_false_iff_ne]
    exact h i hi

/-- The entity header in front of every channel management message. -/
def beepXmlHeader : String := contentTypeHeader ++ ": " ++ beepXml

theorem split_beepXml (body : Octets) :
    split (octets (beepXmlHeader ++ "\r\n\r\n") ++ body) =
      (octets beepXmlHeader, body) := by
  have hfind : findSubslice (octets (beepXmlHeader ++ "\r\n\r\n") ++ body)
      (octets "\r\n\r\n") = some (octets beepXmlHeader).length := by
    rw [octets_append]
    exact findSubslice_eq_some (by decide)
  have hstart : (octets "\r\n").isPrefixOf?
      (octets (beepXmlHeader ++ "\r\n\r\n") ++ body) = none := rfl
  have hlen : (octets beepXmlHeader).length + 4 =
      (octets (beepXmlHeader ++ "\r\n\r\n")).length := rfl
  rw [split, hstart]
  simp only [hfind]
  rw [hlen, List.drop_left, octets_append, List.append_assoc, List.take_left]

theorem header_beepXml :
    header (octets beepXmlHeader) contentTypeHeader = some (octets beepXml) :=
  rfl

end Vortice.Proto.Mime
