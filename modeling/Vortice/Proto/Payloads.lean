import Vortice.Proto.Management
import Vortice.Proto.Markup

/-!
# Payloads that come back

A greeting and a channel management message are rendered to a payload and read from it
again.  What is escaped comes back whatever it is; what a profile carries stands in a
character data section as it is, and comes back when it does not end that section.
-/

namespace Vortice.Proto

open Vortice.Foundation

/-- What is behind the MIME header of a payload that is written here. -/
theorem beepXmlBody_written (body : String) :
    beepXmlBody (octets (Mime.beepXmlHeader ++ "\r\n\r\n" ++ body)) = .ok (octets body) := by
  rw [octets_append, beepXmlBody, Mime.split_beepXml, Mime.header_beepXml]
  rfl

/-! ## Greetings -/

namespace Greeting

/-- An attribute that may be missing. -/
def optional (name : String) : Option String → List (String × String)
  | some value => [(name, value)]
  | none => []

theorem pushAttr_eq (name value : String) : pushAttr name value =
    Xml.writeAttrs [(name, value)] := by
  have hequals : "='" = "=" ++ "'" := by decide
  simp [pushAttr, Xml.writeAttrs, hequals, String.append_assoc]

theorem pushOptional_eq (name : String) (value : Option String) :
    pushOptional name value = Xml.writeAttrs (optional name value) := by
  cases value with
  | none => rfl
  | some value => exact pushAttr_eq name value

/-- The attributes of a greeting. -/
def attrs (greeting : Greeting) : List (String × String) :=
  optional "features" greeting.features ++ optional "localize" greeting.localize

/-- The element of a profile, as it is written and as it is read. -/
def profileElement (uri : String) : String × Xml.Element :=
  ("<" ++ ("profile" ++ (Xml.writeAttrs [("uri", uri)] ++ " />")),
    { name := "profile", attrs := [("uri", uri)], children := [], text := "" })

theorem profileLine_eq (uri : String) :
    profileLine uri = "   " ++ (profileElement uri).1 ++ "\r\n" := by
  have hstart : "   <profile uri='" =
      "   " ++ ("<" ++ ("profile" ++ (" " ++ ("uri" ++ "='")))) := rfl
  have hend : "' />\r\n" = "'" ++ (" />" ++ "\r\n") := rfl
  have hequals : "='" = "=" ++ "'" := rfl
  change "   <profile uri='" ++ Xml.escape uri ++ "' />\r\n" = _
  rw [profileElement, hstart, hend]
  simp only [Xml.writeAttrs, String.append_assoc, String.empty_append, hequals]

theorem isTag_greeting : Xml.IsTag "greeting" := ⟨⟨by decide, by decide⟩, by decide⟩

theorem isTag_profile : Xml.IsTag "profile" := ⟨⟨by decide, by decide⟩, by decide⟩

theorem isName_uri : Xml.IsName "uri" := ⟨by decide, by decide⟩

theorem isName_optional {name : String} (hname : Xml.IsName name) (value : Option String) :
    ∀ attr ∈ optional name value, Xml.IsName attr.1 := by
  cases value with
  | none => exact nofun
  | some value => exact List.forall_mem_singleton.mpr hname

theorem isName_attrs (greeting : Greeting) : ∀ attr ∈ greeting.attrs, Xml.IsName attr.1 :=
  List.forall_mem_append.mpr ⟨isName_optional ⟨by decide, by decide⟩ _,
    isName_optional ⟨by decide, by decide⟩ _⟩

theorem written_profile (uri : String) :
    Xml.Written 0 (profileElement uri).1 (profileElement uri).2 :=
  Xml.written_empty isTag_profile (List.forall_mem_singleton.mpr isName_uri)

/-- The element of a greeting as it is read. -/
def element (greeting : Greeting) : Xml.Element where
  name := "greeting"
  attrs := greeting.attrs
  children := greeting.profiles.map fun uri => (profileElement uri).2
  text := if greeting.profiles = [] then "" else Xml.aroundLines greeting.profiles.length

theorem parse_document (greeting : Greeting) :
    Xml.parse (octets greeting.document) = .ok greeting.element := by
  have hattrs : Xml.writeAttrs greeting.attrs =
      pushOptional "features" greeting.features ++ pushOptional "localize" greeting.localize := by
    rw [attrs, Xml.writeAttrs_append, pushOptional_eq, pushOptional_eq]
  have hstart : "<greeting" = "<" ++ "greeting" := rfl
  by_cases hnone : greeting.profiles = []
  · have hparse := Xml.parse_written
      (Xml.written_empty isTag_greeting greeting.isName_attrs) "\r\n" (by decide) (by decide)
    have hend : " />\r\n" = " />" ++ "\r\n" := rfl
    rw [document, element, hnone, if_pos rfl, if_pos rfl, hstart, hend, List.map_nil]
    simpa only [hattrs, String.append_assoc] using hparse
  · have hlines : ∀ line ∈ greeting.profiles.map profileElement,
        Xml.Written 0 line.1 line.2 := by
      rintro _ hline
      obtain ⟨uri, -, rfl⟩ := List.mem_map.mp hline
      exact written_profile uri
    have hparse := Xml.parse_written
      (Xml.written_lines isTag_greeting greeting.isName_attrs hlines) "\r\n" (by decide) (by decide)
    have hjoin : greeting.profiles.map profileLine =
        ((greeting.profiles.map profileElement).map Prod.fst).map fun piece =>
          "   " ++ piece ++ "\r\n" := by
      rw [List.map_map, List.map_map]
      exact List.map_congr_left fun uri _ => profileLine_eq uri
    have hopen : ">\r\n" = ">" ++ "\r\n" := rfl
    have hclose : "</greeting>\r\n" = "</" ++ ("greeting" ++ (">" ++ "\r\n")) := rfl
    have hwritten (rest : String) := congrArg (· ++ rest)
      (Xml.writeLines_eq ((greeting.profiles.map profileElement).map Prod.fst))
    rw [document, element, if_neg hnone, if_neg hnone, hstart, hopen, hclose, hjoin]
    have hchildren : (greeting.profiles.map profileElement).map Prod.snd =
        greeting.profiles.map fun uri => (profileElement uri).2 := List.map_map
    rw [hchildren, List.length_map] at hparse
    simp only [hattrs, String.append_assoc] at hparse hwritten ⊢
    rwa [hwritten]

theorem attr_element (greeting : Greeting) :
    greeting.element.attr "features" = greeting.features ∧
      greeting.element.attr "localize" = greeting.localize := by
  cases hfeatures : greeting.features <;> cases hlocalize : greeting.localize <;>
    simp [element, Xml.Element.attr, attrs, optional, hfeatures, hlocalize]

theorem profiles_element (greeting : Greeting) :
    (greeting.element.childrenNamed "profile").filterMap (·.attr "uri") = greeting.profiles := by
  have hname (uri : String) : ((profileElement uri).2.name == "profile") = true := rfl
  have huri (uri : String) : (profileElement uri).2.attr "uri" = some uri := rfl
  rw [Xml.Element.childrenNamed, element, List.filter_map, List.filterMap_map]
  simp [Function.comp_def, hname, huri]

/-- Every greeting comes back from its payload. -/
theorem fromPayload_toPayload (greeting : Greeting) :
    fromPayload greeting.toPayload = .ok greeting := by
  rw [fromPayload, toPayload, beepXmlBody_written]
  have hname : ¬ greeting.element.name ≠ "greeting" := fun h => h rfl
  change fromXml _ = _
  rw [fromXml, parse_document]
  simp only [bind, Except.bind, if_neg hname, attr_element, profiles_element]

end Greeting

/-! ## Numbers -/

namespace Management

open Xml

theorem toDigit_octet {octet : UInt8} (h : Decimal.isDigit octet) :
    toDigit 10 (Char.ofNat octet.toNat) = some (octet.toNat - 48) := by
  obtain ⟨hlow, hhigh⟩ := Decimal.isDigit_iff.mp h
  have hch : (Char.ofNat octet.toNat).toNat = octet.toNat := toNat_ofNat (by omega)
  have hdigit : '0' ≤ Char.ofNat octet.toNat ∧ Char.ofNat octet.toNat ≤ '9' := by
    constructor
    · change '0'.toNat ≤ (Char.ofNat octet.toNat).toNat
      rw [hch]
      exact hlow
    · change (Char.ofNat octet.toNat).toNat ≤ '9'.toNat
      rw [hch]
      exact hhigh
  have hlt : octet.toNat - 48 < 10 := by omega
  rw [toDigit, if_pos hdigit, hch]
  simp [hlt]

theorem accumulate_digits {numeral : Octets} (hdigits : ∀ octet ∈ numeral, Decimal.isDigit octet)
    {total : Nat} (hbound : Decimal.valueFrom total numeral < 2 ^ 32) :
    accumulate 10 (numeral.map fun octet => Char.ofNat octet.toNat) total =
      some (Decimal.valueFrom total numeral) := by
  induction numeral generalizing total with
  | nil => rfl
  | cons octet numeral ih =>
      obtain ⟨hoctet, hdigits⟩ := List.forall_mem_cons.mp hdigits
      have hlater := Decimal.le_valueFrom (total * 10 + (octet.toNat - 48)) numeral
      have hvalue : Decimal.valueFrom total (octet :: numeral) =
          Decimal.valueFrom (total * 10 + (octet.toNat - 48)) numeral := rfl
      rw [hvalue] at hbound ⊢
      rw [List.map_cons, accumulate, toDigit_octet hoctet]
      dsimp only
      rw [if_pos (by omega), ih hdigits hbound]

/-- The digits of a number as the text they are. -/
theorem pushU32_eq (value : UInt32) :
    pushU32 value =
      String.ofList ((Decimal.render value.toNat).map fun octet => Char.ofNat octet.toNat) := by
  have hascii : ∀ octet ∈ Decimal.render value.toNat, octet.toNat < 128 := by
    intro octet hmem
    have := Decimal.isDigit_iff.mp (Decimal.isDigit_of_mem_render hmem)
    omega
  rw [pushU32, putU32_eq]
  conv_lhs => rw [← octets_ascii hascii]
  rw [text_octets, Option.getD_some]

theorem octets_pushU32 (value : UInt32) :
    octets (pushU32 value) = Decimal.render value.toNat := by
  rw [pushU32_eq, octets_ascii]
  intro octet hmem
  have := Decimal.isDigit_iff.mp (Decimal.isDigit_of_mem_render hmem)
  omega

theorem isDigit_of_mem_pushU32 {value : UInt32} {ch : Char} (h : ch ∈ (pushU32 value).toList) :
    48 ≤ ch.toNat ∧ ch.toNat ≤ 57 := by
  rw [pushU32_eq, String.toList_ofList] at h
  obtain ⟨octet, hmem, rfl⟩ := List.mem_map.mp h
  have hdigit := Decimal.isDigit_iff.mp (Decimal.isDigit_of_mem_render hmem)
  rwa [toNat_ofNat (by omega)]

theorem escape_pushU32 (value : UInt32) : escape (pushU32 value) = pushU32 value := by
  have hplain : ∀ ch ∈ (pushU32 value).toList, ch ∉ special := by
    intro ch hmem hspecial
    have hdigit := isDigit_of_mem_pushU32 hmem
    simp only [special, List.mem_cons, List.not_mem_nil, or_false] at hspecial
    obtain rfl | rfl | rfl | rfl | rfl := hspecial <;> exact absurd hdigit (by decide)
  rw [escape, flatMap_escapeChar hplain, String.ofList_toList]

theorem fromStrRadix_pushU32 (value : UInt32) :
    fromStrRadix (pushU32 value).toList 10 = some value.toNat := by
  have hbound : Decimal.valueFrom 0 (Decimal.render value.toNat) < 2 ^ 32 := by
    rw [Decimal.valueFrom_zero, Decimal.value_render]
    exact value.toNat_lt
  have hread := accumulate_digits
    (fun octet hmem => Decimal.isDigit_of_mem_render hmem) hbound
  rw [Decimal.valueFrom_zero, Decimal.value_render, ← String.toList_ofList (l := List.map _ _),
    ← pushU32_eq] at hread
  have hplus : '+' ∉ (pushU32 value).toList := fun hmem =>
    absurd (isDigit_of_mem_pushU32 hmem) (by decide)
  unfold fromStrRadix
  split
  · rename_i hnil
    have hempty := octets_pushU32 value
    rw [String.toList_eq_nil_iff.mp hnil] at hempty
    exact absurd hempty.symm (Decimal.render_ne_nil _)
  · rename_i heq
    exact absurd (heq ▸ List.mem_cons_self) hplus
  · rename_i heq
    exact absurd (heq ▸ List.mem_cons_self) hplus
  · exact hread

/-- A number is read as it was written. -/
theorem attrU32_pushU32 {element : Element} {name : String} {value : UInt32}
    (h : element.attr name = some (pushU32 value)) : attrU32 element name = .ok value := by
  have hdigits : (octets (pushU32 value)).all Decimal.isDigit := by
    rw [octets_pushU32, List.all_eq_true]
    exact fun octet hmem => Decimal.isDigit_of_mem_render hmem
  have hempty : pushU32 value ≠ "" := by
    intro hempty
    have hoctets := octets_pushU32 value
    rw [hempty] at hoctets
    exact Decimal.render_ne_nil _ hoctets.symm
  rw [attrU32, h]
  dsimp only
  rw [if_neg (by simp [hempty, hdigits]), fromStrRadix_pushU32]
  simp

/-! ## Profiles -/

namespace Profile

variable (profile : Profile)

/-- An empty content reads back as none. -/
def normal : Profile := { profile with content := profile.content.filter (· ≠ "") }

def attrs : List (String × String) :=
  ("uri", profile.uri) ::
    if profile.encoding = .base64 then [("encoding", "base64")] else []

/-- The element of a profile as it is read. -/
def element : Element where
  name := "profile"
  attrs := profile.attrs
  children := []
  text := profile.content.getD ""

theorem isName_attrs : ∀ attr ∈ profile.attrs, IsName attr.1 := by
  refine List.forall_mem_cons.mpr ⟨Greeting.isName_uri, ?_⟩
  split
  · exact List.forall_mem_singleton.mpr ⟨by decide, by decide⟩
  · exact nofun

theorem render_eq : profile.render = "<" ++ ("profile" ++ (writeAttrs profile.attrs ++
    match profile.content with
    | none => " />"
    | some content =>
        ">" ++ ("<![CDATA[" ++ (content ++ (sectionEnd ++ ("</" ++ ("profile" ++ ">"))))))) := by
  have hstart : "<profile uri='" = "<" ++ ("profile" ++ (" " ++ ("uri" ++ "='"))) := rfl
  have hencoding : " encoding='base64'" =
      " " ++ ("encoding" ++ ("='" ++ ("base64" ++ "'"))) := rfl
  have hescape : escape "base64" = "base64" := by decide
  have hopen : "><![CDATA[" = ">" ++ "<![CDATA[" := rfl
  have hclose : "]]></profile>" = sectionEnd ++ ("</" ++ ("profile" ++ ">")) := rfl
  have hattrs : writeAttrs profile.attrs = " " ++ ("uri" ++ ("='" ++ (escape profile.uri ++
      ("'" ++ if profile.encoding = .base64 then " encoding='base64'" else "")))) := by
    rw [attrs, writeAttrs, hencoding]
    split
    · simp only [writeAttrs, hescape, String.append_empty]
    · rfl
  rw [hattrs]
  change "<profile uri='" ++ escape profile.uri ++ "'" ++ _ ++ _ = _
  rw [hstart]
  cases profile.content with
  | none => simp only [String.append_assoc]
  | some content => simp only [hopen, hclose, String.append_assoc]

/-- A profile is read back with the content it carries. -/
theorem written_render (hcontent : ∀ content ∈ profile.content, Inert content) :
    Written 0 profile.render profile.element := by
  rw [render_eq, element]
  cases h : profile.content with
  | none => exact written_empty Greeting.isTag_profile profile.isName_attrs
  | some content =>
      exact written_section Greeting.isTag_profile profile.isName_attrs (hcontent content h)

theorem parse_element : Profile.parse profile.element = .ok profile.normal := by
  have huri : profile.element.attr "uri" = some profile.uri := rfl
  have hencoding : Encoding.parse (profile.element.attr "encoding") = .ok profile.encoding := by
    cases h : profile.encoding <;> simp [element, attrs, h, Element.attr, Encoding.parse]
  rw [parse, huri]
  dsimp only
  rw [hencoding]
  have htext : (if profile.element.text = "" then none else some profile.element.text) =
      profile.normal.content := by
    cases h : profile.content with
    | none => simp [element, normal, h]
    | some content =>
        by_cases hempty : content = "" <;> simp [element, normal, h, hempty, Option.filter]
  simp only [bind, Except.bind, htext]
  rfl

end Profile

/-! ## Messages -/

/-- The text of a diagnostic as it reads back. -/
def normalText (text : Option String) : Option String := (text.map trim).filter (· ≠ "")

namespace Message

/-- What a message reads back as: an empty content as none, a text trimmed. -/
def normal : Message → Message
  | .start request =>
      .start { request with profiles := request.profiles.map Profile.normal }
  | .close request => .close { request with text := normalText request.text }
  | .profile reply => .profile reply.normal
  | .ok => .ok
  | .error reply => .error { reply with text := normalText reply.text }

/-- The contents that the profiles of a message carry. -/
def contents : Message → List String
  | .start request => request.profiles.filterMap Profile.content
  | .profile reply => reply.content.toList
  | .close _ | .ok | .error _ => []

/-- The message comes back from its payload. -/
def RoundTrips (message : Message) : Prop :=
  fromPayload message.toPayload = .ok message.normal

theorem fromPayload_toPayload_eq (message : Message) :
    fromPayload message.toPayload = fromXml (octets message.render) := by
  rw [fromPayload, toPayload, beepXmlBody_written]
  rfl

end Message

theorem writeAttrs_optional (name : String) (value : Option String) :
    writeAttrs (Greeting.optional name value) =
      match value with
      | some value => " " ++ (name ++ ("='" ++ (escape value ++ "'")))
      | none => "" := by
  cases value with
  | none => rfl
  | some value => simp only [Greeting.optional, writeAttrs, String.append_empty]

theorem isName_number : IsName "number" := ⟨by decide, by decide⟩
theorem isName_code : IsName "code" := ⟨by decide, by decide⟩
theorem isTag_start : IsTag "start" := ⟨⟨by decide, by decide⟩, by decide⟩
theorem isTag_close : IsTag "close" := ⟨⟨by decide, by decide⟩, by decide⟩
theorem isTag_error : IsTag "error" := ⟨⟨by decide, by decide⟩, by decide⟩
theorem isTag_ok : IsTag "ok" := ⟨⟨by decide, by decide⟩, by decide⟩

/-! ### Starting a channel -/

namespace Start

variable (request : Start)

def attrs : List (String × String) :=
  ("number", pushU32 request.number) :: Greeting.optional "serverName" request.serverName

theorem isName_attrs : ∀ attr ∈ request.attrs, IsName attr.1 :=
  List.forall_mem_cons.mpr ⟨isName_number,
    Greeting.isName_optional ⟨by decide, by decide⟩ _⟩

/-- The element of a request as it is read. -/
def element : Element where
  name := "start"
  attrs := request.attrs
  children := request.profiles.map Profile.element
  text := aroundLines request.profiles.length

theorem render_eq : Message.render (.start request) =
    "<" ++ ("start" ++ (writeAttrs request.attrs ++
      (">" ++ (writeLines (request.profiles.map Profile.render) ++
        ("\r\n" ++ ("</" ++ ("start" ++ ">"))))))) ++ "\r\n" := by
  have hattrs : writeAttrs request.attrs = " " ++ ("number" ++ ("='" ++
      (pushU32 request.number ++ ("'" ++
        writeAttrs (Greeting.optional "serverName" request.serverName))))) := by
    rw [attrs, writeAttrs, escape_pushU32]
  have hstart : "<start number='" = "<" ++ ("start" ++ (" " ++ ("number" ++ "='"))) := rfl
  have hserver : " serverName='" = " " ++ ("serverName" ++ "='") := rfl
  have hopen : ">\r\n" = ">" ++ "\r\n" := rfl
  have hclose : "</start>\r\n" = "</" ++ ("start" ++ (">" ++ "\r\n")) := rfl
  have hlines (rest : String) := congrArg (· ++ rest)
    (writeLines_eq (request.profiles.map Profile.render))
  simp only [List.map_map, Function.comp_def, String.append_assoc] at hlines
  rw [hattrs, writeAttrs_optional]
  change "<start number='" ++ pushU32 request.number ++ "'" ++ _ ++ ">\r\n" ++ _ ++
    "</start>\r\n" = _
  rw [hstart, hopen, hclose]
  cases request.serverName with
  | none => simp only [String.append_assoc, String.empty_append, ← hlines]
  | some name => simp only [hserver, String.append_assoc, ← hlines]

theorem parse_render
    (hcontents : ∀ content ∈ (Message.start request).contents, Inert content) :
    Xml.parse (octets (Message.render (.start request))) = .ok request.element := by
  have hlines : ∀ line ∈ request.profiles.map fun profile => (profile.render, profile.element),
      Written 0 line.1 line.2 := by
    rintro _ hline
    obtain ⟨profile, hmem, rfl⟩ := List.mem_map.mp hline
    exact profile.written_render fun content hcontent => hcontents content
      (List.mem_filterMap.mpr ⟨profile, hmem, hcontent⟩)
  have hparse := parse_written
    (written_lines isTag_start request.isName_attrs hlines) "\r\n" (by decide) (by decide)
  rw [List.map_map, List.map_map, List.length_map] at hparse
  rw [render_eq]
  exact hparse

theorem childrenNamed_element :
    request.element.childrenNamed "profile" = request.profiles.map Profile.element := by
  rw [Element.childrenNamed, element, List.filter_eq_self]
  rintro _ hmem
  obtain ⟨profile, -, rfl⟩ := List.mem_map.mp hmem
  rfl

theorem mapM_parse (profiles : List Profile) :
    (profiles.map Profile.element).mapM Profile.parse =
      (.ok (profiles.map Profile.normal) : Except Fault (List Profile)) := by
  induction profiles with
  | nil => rfl
  | cons profile later ih =>
      rw [List.map_cons, List.mapM_cons, Profile.parse_element, ih]
      rfl

theorem roundTrips (hcontents : ∀ content ∈ (Message.start request).contents, Inert content) :
    (Message.start request).RoundTrips := by
  have hnumber : attrU32 request.element "number" = .ok request.number :=
    attrU32_pushU32 rfl
  have hserver : request.element.attr "serverName" = request.serverName := by
    cases h : request.serverName <;> simp [element, attrs, Greeting.optional, Element.attr, h]
  have hprofiles : (request.element.childrenNamed "profile").mapM Profile.parse =
      (.ok (request.profiles.map Profile.normal) : Except Fault (List Profile)) := by
    rw [childrenNamed_element, mapM_parse]
  have hname : request.element.name = "start" := rfl
  rw [Message.RoundTrips, Message.fromPayload_toPayload_eq, Message.fromXml,
    request.parse_render hcontents]
  simp only [bind, Except.bind, hname, if_true, hnumber, hprofiles, hserver]
  rfl

end Start

/-! ### Diagnostics -/

/-- What closes the element of a diagnostic. -/
def written (attrs : List (String × String)) (tag : String) : Option String → String
  | none => "<" ++ (tag ++ (writeAttrs attrs ++ " />"))
  | some text =>
      "<" ++ (tag ++ (writeAttrs attrs ++ (">" ++ (escape text ++ ("</" ++ (tag ++ ">"))))))

/-- The element of a diagnostic as it is read. -/
def diagnostic (attrs : List (String × String)) (tag : String) (text : Option String) :
    Element :=
  { name := tag, attrs, children := [], text := text.getD "" }

theorem written_diagnostic {tag : String} (htag : IsTag tag)
    {attrs : List (String × String)} (hnames : ∀ attr ∈ attrs, IsName attr.1)
    (text : Option String) : Written 0 (written attrs tag text) (diagnostic attrs tag text) := by
  cases text with
  | none => exact written_empty htag hnames
  | some text => exact written_text htag hnames text

theorem textOf_diagnostic (attrs : List (String × String)) (tag : String)
    (text : Option String) : textOf (diagnostic attrs tag text) = normalText text := by
  cases text with
  | none => rfl
  | some text =>
      by_cases hblank : trim text = "" <;>
        simp [textOf, diagnostic, normalText, hblank, Option.filter]

theorem renderLangAndText_eq (start tag : String) (attrs : List (String × String))
    (lang text : Option String) (hstart : start = "<" ++ (tag ++ writeAttrs attrs)) :
    start ++ renderLangAndText lang text tag =
      written (attrs ++ Greeting.optional "xml:lang" lang) tag text ++ "\r\n" := by
  have hlang : " xml:lang='" = " " ++ ("xml:lang" ++ "='") := rfl
  have hempty : " />\r\n" = " />" ++ "\r\n" := rfl
  have hclose : ">\r\n" = ">" ++ "\r\n" := rfl
  have hrender : renderLangAndText lang text tag =
      (match lang with
        | some lang => " xml:lang='" ++ escape lang ++ "'"
        | none => "") ++
      (match text with
        | none => " />\r\n"
        | some text => ">" ++ escape text ++ "</" ++ tag ++ ">\r\n") := by
    cases lang <;> cases text <;> rfl
  rw [hstart, hrender, hlang, hempty, hclose]
  cases lang <;> cases text <;>
    simp only [written, writeAttrs_append, writeAttrs_optional, String.append_assoc,
      String.empty_append, String.append_empty]

/-- A diagnostic is read for its attributes and its trimmed text. -/
theorem parse_diagnostic {tag : String} (htag : IsTag tag) {attrs : List (String × String)}
    (hnames : ∀ attr ∈ attrs, IsName attr.1) (text : Option String) :
    Xml.parse (octets (written attrs tag text ++ "\r\n")) =
      .ok (diagnostic attrs tag text) :=
  parse_written (written_diagnostic htag hnames text) _ (by decide) (by decide)

theorem isName_lang : IsName "xml:lang" := ⟨by decide, by decide⟩

namespace Close

variable (request : Close)

def attrs : List (String × String) :=
  [("number", pushU32 request.number), ("code", pushU32 request.code)] ++
    Greeting.optional "xml:lang" request.lang

theorem isName_attrs : ∀ attr ∈ request.attrs, IsName attr.1 :=
  List.forall_mem_append.mpr
    ⟨List.forall_mem_cons.mpr ⟨isName_number, List.forall_mem_singleton.mpr isName_code⟩,
      Greeting.isName_optional isName_lang _⟩

theorem render_eq : Message.render (.close request) =
    written request.attrs "close" request.text ++ "\r\n" := by
  have hstart : "<close number='" = "<" ++ ("close" ++ (" " ++ ("number" ++ "='"))) := rfl
  have hcode : "' code='" = "'" ++ (" " ++ ("code" ++ "='")) := rfl
  refine renderLangAndText_eq _ _ _ _ _ ?_
  simp only [writeAttrs, escape_pushU32, hstart, hcode, String.append_assoc,
    String.append_empty]

theorem roundTrips : (Message.close request).RoundTrips := by
  have hnumber : attrU32 (diagnostic request.attrs "close" request.text) "number" =
      .ok request.number := attrU32_pushU32 rfl
  have hcode : attrU32 (diagnostic request.attrs "close" request.text) "code" =
      .ok request.code := attrU32_pushU32 rfl
  have hlang : (diagnostic request.attrs "close" request.text).attr "xml:lang" =
      request.lang := by
    cases h : request.lang <;> simp [diagnostic, attrs, Greeting.optional, Element.attr, h]
  have hname : (diagnostic request.attrs "close" request.text).name = "close" ∧
      "close" ≠ "start" := ⟨rfl, by decide⟩
  rw [Message.RoundTrips, Message.fromPayload_toPayload_eq, Message.fromXml, render_eq,
    parse_diagnostic isTag_close request.isName_attrs]
  simp only [bind, Except.bind, hname, if_true, if_false, hnumber, hcode, hlang,
    textOf_diagnostic]
  rfl

end Close

namespace ErrorReply

variable (reply : ErrorReply)

def attrs : List (String × String) :=
  [("code", pushU32 reply.code)] ++ Greeting.optional "xml:lang" reply.lang

theorem isName_attrs : ∀ attr ∈ reply.attrs, IsName attr.1 :=
  List.forall_mem_append.mpr ⟨List.forall_mem_singleton.mpr isName_code,
    Greeting.isName_optional isName_lang _⟩

theorem render_eq : Message.render (.error reply) =
    written reply.attrs "error" reply.text ++ "\r\n" := by
  have hstart : "<error code='" = "<" ++ ("error" ++ (" " ++ ("code" ++ "='"))) := rfl
  refine renderLangAndText_eq _ _ _ _ _ ?_
  simp only [writeAttrs, escape_pushU32, hstart, String.append_assoc, String.append_empty]

theorem roundTrips : (Message.error reply).RoundTrips := by
  have hcode : attrU32 (diagnostic reply.attrs "error" reply.text) "code" =
      .ok reply.code := attrU32_pushU32 rfl
  have hlang : (diagnostic reply.attrs "error" reply.text).attr "xml:lang" = reply.lang := by
    cases h : reply.lang <;> simp [diagnostic, attrs, Greeting.optional, Element.attr, h]
  have hname : (diagnostic reply.attrs "error" reply.text).name = "error" ∧
      "error" ≠ "start" ∧ "error" ≠ "close" ∧ "error" ≠ "profile" ∧ "error" ≠ "ok" := by
    refine ⟨rfl, ?_⟩
    decide
  rw [Message.RoundTrips, Message.fromPayload_toPayload_eq, Message.fromXml, render_eq,
    parse_diagnostic isTag_error reply.isName_attrs]
  simp only [bind, Except.bind, hname, if_true, if_false, hcode, hlang, textOf_diagnostic]
  rfl

end ErrorReply

/-! ### The other replies -/

theorem Profile.roundTrips (reply : Profile)
    (hcontent : ∀ content ∈ (Message.profile reply).contents, Inert content) :
    (Message.profile reply).RoundTrips := by
  have hwritten := reply.written_render fun content hmem =>
    hcontent content (Option.mem_toList.mpr hmem)
  have hparse := parse_written hwritten "\r\n" (by decide) (by decide)
  have hname : reply.element.name = "profile" ∧ "profile" ≠ "start" ∧ "profile" ≠ "close" := by
    refine ⟨rfl, ?_⟩
    decide
  rw [Message.RoundTrips, Message.fromPayload_toPayload_eq, Message.fromXml]
  change (Xml.parse (octets (reply.render ++ "\r\n")) >>= _) = _
  rw [hparse]
  simp only [bind, Except.bind, hname, if_true, if_false, Profile.parse_element]
  rfl

theorem Message.ok_roundTrips : Message.ok.RoundTrips := by
  have hparse := parse_written (written_empty isTag_ok
    (by nofun : ∀ attr ∈ ([] : List (String × String)), IsName attr.1)) "" (by decide) nofun
  have hrender : "<ok />" = "<" ++ ("ok" ++ (writeAttrs [] ++ " />")) ++ "" := rfl
  rw [Message.RoundTrips, Message.fromPayload_toPayload_eq, Message.fromXml]
  change (Xml.parse (octets "<ok />") >>= _) = _
  rw [hrender, hparse]
  rfl

/-- A message whose contents end no section comes back from its payload. -/
theorem Message.roundTrips_of_inert (message : Message)
    (hcontents : ∀ content ∈ message.contents, Inert content) : message.RoundTrips := by
  cases message with
  | start request => exact request.roundTrips hcontents
  | close request => exact request.roundTrips
  | profile reply => exact reply.roundTrips hcontents
  | ok => exact Message.ok_roundTrips
  | error reply => exact reply.roundTrips

end Management

end Vortice.Proto
