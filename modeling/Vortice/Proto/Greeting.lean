import Vortice.Proto.Frame
import Vortice.Proto.Mime
import Vortice.Proto.Xml

/-!
# The greeting exchanged on channel 0
-/

namespace Vortice.Proto

open Vortice.Foundation

def greetingChannel : UInt32 := 0

/-- The profiles a peer advertises, and the optional negotiation attributes. -/
structure Greeting where
  profiles : List String
  features : Option String
  localize : Option String
  deriving DecidableEq

/-- The body of a payload that declares channel management content. -/
def beepXmlBody (payload : Octets) : Except Fault Octets :=
  match Mime.header (Mime.split payload).1 Mime.contentTypeHeader with
  | none => .error (.error .notBeepXml)
  | some contentType =>
      if Mime.eqIgnoreAsciiCase contentType (octets Mime.beepXml) then
        .ok (Mime.split payload).2
      else .error (.error .notBeepXml)

namespace Greeting

def new : Greeting := ⟨[], none, none⟩

def pushAttr (name value : String) : String :=
  " " ++ name ++ "='" ++ Xml.escape value ++ "'"

def pushOptional (name : String) : Option String → String
  | some value => pushAttr name value
  | none => ""

def profileLine (uri : String) : String :=
  "   <profile uri='" ++ Xml.escape uri ++ "' />\r\n"

/-- What `to_payload` writes behind the MIME header. -/
def document (greeting : Greeting) : String :=
  "<greeting" ++ pushOptional "features" greeting.features ++
    pushOptional "localize" greeting.localize ++
    (if greeting.profiles = [] then " />\r\n"
      else ">\r\n" ++ String.join (greeting.profiles.map profileLine) ++
        "</greeting>\r\n")

def toPayload (greeting : Greeting) : Octets :=
  octets (Mime.beepXmlHeader ++ "\r\n\r\n" ++ greeting.document)

def fromXml (body : Octets) : Except Fault Greeting := do
  let root ← Xml.parse body
  if root.name ≠ "greeting" then .error (.error .unexpectedElement)
  else
    .ok { profiles := (root.childrenNamed "profile").filterMap (·.attr "uri")
          features := root.attr "features"
          localize := root.attr "localize" }

def fromPayload (payload : Octets) : Except Fault Greeting := do
  let body ← beepXmlBody payload
  fromXml body

def notAGreeting (reason : String) : Fault := .error (.notAGreeting reason)

def fromFrame (frame : DataFrame) : Except Fault Greeting :=
  if frame.kind ≠ .rpy then .error (notAGreeting "expected an RPY frame")
  else if frame.channel ≠ greetingChannel then
    .error (notAGreeting "expected channel 0")
  else if frame.msgno ≠ 0 then
    .error (notAGreeting "expected message number 0")
  else if frame.seqno ≠ 0 then
    .error (notAGreeting "expected sequence number 0")
  else if frame.more then .error (notAGreeting "expected a complete frame")
  else fromPayload frame.payload

end Greeting

end Vortice.Proto
