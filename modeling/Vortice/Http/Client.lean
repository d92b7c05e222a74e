import Vortice.Foundation.Decimal
import Vortice.Foundation.Lines
import Vortice.Http.Head
import Vortice.Proto.Management

/-!
# Asking an HTTP server to upgrade

How the answer is read: its status must be 101, and its `Upgrade` header must name
BEEP.
-/

namespace Vortice.Http.Client

open Vortice.Foundation
open Vortice.Proto.Management (isWhitespace trim)

/-- The token naming BEEP in an `Upgrade` header. -/
def upgradeToken : String := "BEEP"

/-- Why the upgrade failed; what the transport itself failed with is not kept. -/
inductive Error where
  | io
  | notUpgraded (status : Option UInt16)
  | malformedResponse (reason : String)
  | wrongProtocol
  deriving DecidableEq

/-- The largest response head accepted. -/
def maxHead : Nat := 16 * 1024

/-- A number of sixteen bits, as the standard library reads one. -/
def parseU16 (code : String) : Option UInt16 :=
  let digits := (stripPrefix code "+").getD code
  if digits = "" ∨ ¬ (octets digits).all Decimal.isDigit then none
  else
    let value := Decimal.value (octets digits)
    if value < 65536 then some (UInt16.ofNat value) else none

def status (statusLine : String) : Option UInt16 :=
  (words isWhitespace statusLine)[1]?.bind parseU16

def namesBeep (lines : List String) : Bool :=
  (((lines.filterMap fun line => splitOnce line ':').filter fun (name, _) =>
    eqIgnoreAsciiCase (trim name) "upgrade").flatMap fun (_, value) => split value ',').any
      fun token => eqIgnoreAsciiCase (trim token) upgradeToken

def checkResponse (head : Octets) : Except Error Unit :=
  match text head with
  | none => .error (.malformedResponse "the response head is not text")
  | some text =>
      match lines text with
      | [] => .error (.malformedResponse "empty response")
      | statusLine :: lines =>
          if status statusLine ≠ some 101 then .error (.notUpgraded (status statusLine))
          else if ¬ namesBeep lines then .error .wrongProtocol
          else .ok ()

def responseReader : Reader Error Unit where
  maxHead := maxHead
  tooLong := .malformedResponse "no blank line ending the response head"
  closed := .malformedResponse "connection closed before the response head was complete"
  io := .io
  check := checkResponse

/-- What was read past the head. -/
def readSwitchingProtocols (transport : Transport) : Except Error (Unit × Left) :=
  responseReader.read [] transport

end Vortice.Http.Client
