import Vortice.Proto.Greeting

/-!
# Channel management messages

The `<start>`, `<close>`, `<profile>`, `<ok>` and `<error>` elements of
channel 0, rendered and read as the source does.
-/

namespace Vortice.Proto

open Vortice.Foundation

namespace Management

def success : UInt32 := 200

inductive Encoding where
  | none
  | base64
  deriving DecidableEq, Repr

def Encoding.parse : Option String → Except Fault Encoding
  | .none => .ok .none
  | some value =>
      if value = "none" then .ok .none
      else if value = "base64" then .ok .base64
      else .error (Xml.malformed "encoding must be 'none' or 'base64'")

/-- A profile offered in a `<start>`, or confirmed in the reply to one. -/
structure Profile where
  uri : String
  encoding : Encoding
  content : Option String
  deriving DecidableEq

structure Start where
  number : UInt32
  serverName : Option String
  profiles : List Profile
  deriving DecidableEq

structure Close where
  number : UInt32
  code : UInt32
  lang : Option String
  text : Option String
  deriving DecidableEq

structure ErrorReply where
  code : UInt32
  lang : Option String
  text : Option String
  deriving DecidableEq

/-- Any channel management message. -/
inductive Message where
  | start (start : Start)
  | close (close : Close)
  | profile (profile : Profile)
  | ok
  | error (error : ErrorReply)
  deriving DecidableEq

def Profile.new (uri : String) : Profile := ⟨uri, .none, none⟩

def Start.new (number : UInt32) (profile : Profile) : Start :=
  ⟨number, none, [profile]⟩

def Close.new (number : UInt32) : Close := ⟨number, success, none, none⟩

/-! ## Reading -/

def Profile.parse (element : Xml.Element) : Except Fault Profile :=
  match element.attr "uri" with
  | none => .error (Xml.malformed "profile element without a uri attribute")
  | some uri => do
      let encoding ← Encoding.parse (element.attr "encoding")
      return { uri, encoding
               content := if element.text = "" then none else some element.text }

/-- The characters of Unicode's `White_Space` property. -/
def isWhitespace (ch : Char) : Bool :=
  (9 ≤ ch.toNat && ch.toNat ≤ 13) || ch.toNat == 0x20 || ch.toNat == 0x85 ||
    ch.toNat == 0xA0 || ch.toNat == 0x1680 ||
    (0x2000 ≤ ch.toNat && ch.toNat ≤ 0x200A) || ch.toNat == 0x2028 ||
    ch.toNat == 0x2029 || ch.toNat == 0x202F || ch.toNat == 0x205F ||
    ch.toNat == 0x3000

def trim (value : String) : String :=
  String.ofList ((value.toList.dropWhile isWhitespace).rdropWhile isWhitespace)

/-- A text without white space is trimmed already. -/
theorem trim_of_forall {value : String} (h : ∀ ch ∈ value.toList, isWhitespace ch = false) :
    trim value = value := by
  have hstart : value.toList.dropWhile isWhitespace = value.toList :=
    List.dropWhile_eq_self_iff.mpr fun hpos => by
      rw [h _ (List.getElem_mem hpos)]
      exact Bool.false_ne_true
  have hend : value.toList.rdropWhile isWhitespace = value.toList :=
    List.rdropWhile_eq_self_iff.mpr fun hne => by
      rw [h _ (List.getLast_mem hne)]
      exact Bool.false_ne_true
  rw [trim, hstart, hend, String.ofList_toList]

def textOf (element : Xml.Element) : Option String :=
  let trimmed := trim element.text
  if trimmed = "" then none else some trimmed

def attrU32 (element : Xml.Element) (name : String) : Except Fault UInt32 :=
  match element.attr name with
  | none => .error (.error (.missingField name))
  | some raw =>
      if raw = "" ∨ ¬ (octets raw).all Decimal.isDigit then
        .error (.error (.invalidDigit name))
      else
        match Xml.fromStrRadix raw.toList 10 with
        | some value => .ok (UInt32.ofNat value)
        | none => .error (.error (.valueOutOfRange name 4294967295))

namespace Message

def fromXml (body : Octets) : Except Fault Message := do
  let root ← Xml.parse body
  if root.name = "start" then
    let number ← attrU32 root "number"
    let profiles ← (root.childrenNamed "profile").mapM Profile.parse
    return .start { number, serverName := root.attr "serverName", profiles }
  else if root.name = "close" then
    let number ← attrU32 root "number"
    let code ← attrU32 root "code"
    return .close { number, code, lang := root.attr "xml:lang", text := textOf root }
  else if root.name = "profile" then
    let profile ← Profile.parse root
    return .profile profile
  else if root.name = "ok" then return .ok
  else if root.name = "error" then
    let code ← attrU32 root "code"
    return .error { code, lang := root.attr "xml:lang", text := textOf root }
  else .error (.error .unexpectedElement)

def fromPayload (payload : Octets) : Except Fault Message := do
  let body ← beepXmlBody payload
  fromXml body

end Message

/-! ## Rendering -/

/-- The decimal digits of a number, filled in from the back as `put_u32` does. -/
def pushU32 (value : UInt32) : String := (text (putU32 value)).getD "0"

def Profile.render (profile : Profile) : String :=
  "<profile uri='" ++ Xml.escape profile.uri ++ "'" ++
    (if profile.encoding = .base64 then " encoding='base64'" else "") ++
    match profile.content with
    | none => " />"
    | some content => "><![CDATA[" ++ content ++ "]]></profile>"

def renderLangAndText (lang text : Option String) (tag : String) : String :=
  (match lang with
    | some lang => " xml:lang='" ++ Xml.escape lang ++ "'"
    | none => "") ++
  match text with
  | none => " />\r\n"
  | some text => ">" ++ Xml.escape text ++ "</" ++ tag ++ ">\r\n"

namespace Message

def render : Message → String
  | .start request =>
      "<start number='" ++ pushU32 request.number ++ "'" ++
        (match request.serverName with
          | some name => " serverName='" ++ Xml.escape name ++ "'"
          | none => "") ++
        ">\r\n" ++
        String.join (request.profiles.map fun profile =>
          "   " ++ profile.render ++ "\r\n") ++
        "</start>\r\n"
  | .close request =>
      "<close number='" ++ pushU32 request.number ++ "' code='" ++
        pushU32 request.code ++ "'" ++
        renderLangAndText request.lang request.text "close"
  | .profile reply => reply.render ++ "\r\n"
  | .ok => "<ok />"
  | .error reply =>
      "<error code='" ++ pushU32 reply.code ++ "'" ++
        renderLangAndText reply.lang reply.text "error"

def toPayload (message : Message) : Octets :=
  octets (Mime.beepXmlHeader ++ "\r\n\r\n" ++ message.render)

end Message

end Management

end Vortice.Proto
