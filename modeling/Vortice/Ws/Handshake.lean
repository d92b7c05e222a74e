import Vortice.Foundation.Lines
import Vortice.Http.Head
import Vortice.Proto.Base64
import Vortice.Proto.Management

/-!
# The WebSocket handshake

The opening exchange of RFC6455 §4: the request of a client, how a head is read and
how a server reads the request.
-/

namespace Vortice.Ws.Handshake

open Vortice.Foundation
open Vortice.Http
open Vortice.Proto.Management (isWhitespace trim)

/-- Why the exchange failed; what the transport itself failed with is not kept. -/
inductive Error where
  | io
  | handshake (reason : String)
  deriving DecidableEq

/-- The largest handshake head accepted. -/
def maxHead : Nat := 16 * 1024

/-- What is sent for `Sec-WebSocket-Key` when the system gave these sixteen octets. -/
def clientKey (nonce : Octets) : String := Proto.Base64.encode nonce

/-- What a peer asked for. -/
structure Request where
  key : String
  deriving DecidableEq

def request (path host key : String) : String :=
  "GET " ++ path ++ " HTTP/1.1" ++ "\r\n" ++
  "Host: " ++ host ++ "\r\n" ++
  "Upgrade: websocket" ++ "\r\n" ++
  "Connection: Upgrade" ++ "\r\n" ++
  "Sec-WebSocket-Key: " ++ key ++ "\r\n" ++
  "Sec-WebSocket-Version: 13" ++ "\r\n" ++
  "\r\n"

/-- Whether a header's comma separated value contains a token. -/
def names (headers : List (String × String)) (header token : String) : Bool :=
  ((headers.filter fun (name, _) => eqIgnoreAsciiCase name header).flatMap fun (_, value) =>
    split value ',').any fun candidate => eqIgnoreAsciiCase (trim candidate) token

/-- The headers in the lines behind the first; a line without a colon is none. -/
def headersOf (lines : List String) : List (String × String) :=
  (lines.filterMap fun line => splitOnce line ':').map fun (name, value) =>
    (trim name, trim value)

def isKey (header : String × String) : Bool :=
  eqIgnoreAsciiCase header.1 "sec-websocket-key"

def parseRequest (head : String) : Except Error Request :=
  let requestLine := (lines head).head?.getD ""
  if (words isWhitespace requestLine).head? ≠ some "GET" then
    .error (.handshake "a websocket handshake must be a GET")
  else
    let headers := headersOf (lines head).tail
    if ¬ names headers "upgrade" "websocket" then
      .error (.handshake "the request does not ask to upgrade to websocket")
    else if ¬ names headers "connection" "upgrade" then
      .error (.handshake "the request is missing Connection: Upgrade")
    else if ¬ names headers "sec-websocket-version" "13" then
      .error (.handshake "only websocket version 13 is supported")
    else
      match headers.find? isKey with
      | none => .error (.handshake "the request is missing Sec-WebSocket-Key")
      | some (_, value) => .ok { key := value }

/-! ## Reading a head -/

def headText (head : Octets) : Except Error String :=
  match text head with
  | none => .error (.handshake "the handshake head is not text")
  | some head => .ok head

def headReader : Reader Error String where
  maxHead := maxHead
  tooLong := .handshake "no blank line ending the handshake head"
  closed := .handshake "the connection closed before the handshake head was complete"
  io := .io
  check := headText

/-- The head as text, and what was read past it. -/
def readHead (seed : Octets) (transport : Transport) : Except Error (String × Left) :=
  headReader.read seed transport

theorem octets_of_headText {head : Octets} {value : String} (h : headText head = .ok value) :
    octets value = head := by
  rw [headText] at h
  cases htext : text head with
  | none => rw [htext] at h; cases h
  | some value =>
      rw [htext] at h
      cases h
      exact octets_of_text htext

theorem headText_ne_tooLong (head : Octets) : headText head ≠ .error headReader.tooLong := by
  rw [headText]
  cases text head with
  | none => simp [headReader]
  | some value => exact nofun

/-! ## What a shared port has read already -/

end Vortice.Ws.Handshake
