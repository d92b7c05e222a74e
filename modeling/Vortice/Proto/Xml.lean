import Vortice.Foundation.Text
import Vortice.Proto.Error

/-!
# The XML reader of channel management

The parser of the source, one definition per function, over the octets of the
input and an index into them.  Indexing past the end and slicing off a character
boundary are panics of the source and end in `Fault.panic` here.

The loops that only scan forward are `advanceWhile`.  The others take fuel, and
`parse` gives them one unit per octet.  The recursion of `parse_element` counts
the levels it may still descend instead of those it has descended.
-/

namespace Vortice.Proto.Xml

open Vortice.Foundation

def maxDepth : Nat := 32
def maxEntityLen : Nat := 12
def cdataOpen : Octets := octets "<![CDATA["
def cdataClose : Octets := octets "]]>"

structure Element where
  name : String
  attrs : List (String × String)
  children : List Element
  text : String

namespace Element

def attr (element : Element) (name : String) : Option String :=
  (element.attrs.find? fun entry => entry.1 == name).map Prod.snd

def childrenNamed (element : Element) (name : String) : List Element :=
  element.children.filter fun child => child.name == name

end Element

def escapeChar : Char → List Char
  | '&' => "&amp;".toList
  | '<' => "&lt;".toList
  | '>' => "&gt;".toList
  | '\'' => "&apos;".toList
  | '"' => "&quot;".toList
  | ch => [ch]

def escape (value : String) : String :=
  String.ofList (value.toList.flatMap escapeChar)

/-! ## Entities -/

def malformed (reason : String) : Fault := .error (.xml reason)

/-- A piece of a string, or the panic of slicing one off a boundary. -/
def cut (source : Octets) (first last : Nat) : Except Fault String :=
  match slice source first last with
  | some piece => .ok piece
  | none => .error .panic

def toDigit (radix : Nat) (ch : Char) : Option Nat :=
  let value :=
    if '0' ≤ ch ∧ ch ≤ '9' then some (ch.toNat - '0'.toNat)
    else if 'a' ≤ ch ∧ ch ≤ 'z' then some (ch.toNat - 'a'.toNat + 10)
    else if 'A' ≤ ch ∧ ch ≤ 'Z' then some (ch.toNat - 'A'.toNat + 10)
    else none
  value.filter (· < radix)

/-- Digits accumulated the way `u32::from_str_radix` does, failing on overflow. -/
def accumulate (radix : Nat) : List Char → Nat → Option Nat
  | [], value => some value
  | ch :: digits, value =>
      match toDigit radix ch with
      | none => none
      | some digit =>
          let value := value * radix + digit
          if value < 2 ^ 32 then accumulate radix digits value else none

/-- `u32::from_str_radix`, which allows one leading plus sign. -/
def fromStrRadix (digits : List Char) (radix : Nat) : Option Nat :=
  match digits with
  | [] => none
  | ['+'] => none
  | '+' :: digits => accumulate radix digits 0
  | digits => accumulate radix digits 0

def charFromU32 (value : Nat) : Option Char :=
  if value.isValidChar then some (Char.ofNat value) else none

def decodeNumericReference (name : String) : Except Fault Char :=
  let invalid := malformed "unsupported entity reference"
  match name.toList with
  | '#' :: digits =>
      let value :=
        match digits with
        | 'x' :: hex => fromStrRadix hex 16
        | 'X' :: hex => fromStrRadix hex 16
        | digits => fromStrRadix digits 10
      match value.bind charFromU32 with
      | some ch => .ok ch
      | none => .error invalid
  | _ => .error invalid

def decodeEntity (name : String) : Except Fault Char :=
  if name = "amp" then .ok '&'
  else if name = "lt" then .ok '<'
  else if name = "gt" then .ok '>'
  else if name = "quot" then .ok '"'
  else if name = "apos" then .ok '\''
  else decodeNumericReference name

def decodeEntitiesLoop : Nat → String → String → Except Fault String
  | 0, _, _ => .error .exhausted
  | fuel + 1, rest, out =>
      match find (octets rest) 38 with
      | none => .ok (out ++ rest)
      | some at' => do
          let before ← cut (octets rest) 0 at'
          let tail ← cut (octets rest) (at' + 1) (octets rest).length
          match find ((octets tail).take maxEntityLen) 59 with
          | none => .error (malformed "unterminated entity reference")
          | some end' => do
              let name ← cut (octets tail) 0 end'
              let ch ← decodeEntity name
              let rest ← cut (octets tail) (end' + 1) (octets tail).length
              decodeEntitiesLoop fuel rest (out ++ before ++ ch.toString)

def decodeEntities (raw : String) : Except Fault String :=
  if find (octets raw) 38 = none then .ok raw
  else decodeEntitiesLoop ((octets raw).length + 1) raw ""

/-! ## The parser -/

structure Parser where
  src : Octets
  i : Nat
  deriving DecidableEq

abbrev ParserM := EStateM Fault Parser

def fail {α : Type} (reason : String) : ParserM α := throw (malformed reason)

/-- The outcome of a computation that does not touch the parser. -/
def lift {α : Type} (result : Except Fault α) : ParserM α :=
  match result with
  | .ok value => pure value
  | .error fault => throw fault

def peek : ParserM (Option UInt8) := do
  let parser ← get
  return parser.src[parser.i]?

def advance (count : Nat) : ParserM Unit :=
  modify fun parser => { parser with i := parser.i + count }

/-- A loop that steps forward as long as there is an octet that satisfies `p`. -/
def advanceWhile (p : UInt8 → Bool) : ParserM Unit :=
  modify fun parser =>
    { parser with i := parser.i + ((parser.src.drop parser.i).takeWhile p).length }

/-- The octets from the index on, which may not lie past the end. -/
def remaining : ParserM Octets := do
  let parser ← get
  if parser.i ≤ parser.src.length then return parser.src.drop parser.i
  else throw .panic

def startsWith (pat : Octets) : ParserM Bool := do
  let rest ← remaining
  return pat.isPrefixOf rest

def cutFrom (first : Nat) : ParserM String := do
  let parser ← get
  lift (cut parser.src first parser.i)

def isWs (octet : UInt8) : Bool :=
  octet == 32 || octet == 9 || octet == 13 || octet == 10

def skipWs : ParserM Unit := advanceWhile isWs

def skipPast (pat : Octets) : ParserM Unit := do
  let rest ← remaining
  match (List.range (rest.length - (pat.length - 1))).find? fun i =>
      pat.isPrefixOf (rest.drop i) with
  | none => fail "unterminated declaration or comment"
  | some at' => advance (at' + pat.length)

def skipProlog : Nat → ParserM Unit
  | 0 => throw .exhausted
  | fuel + 1 => do
      skipWs
      if ← startsWith (octets "<?") then
        skipPast (octets "?>")
        skipProlog fuel
      else if ← startsWith (octets "<!--") then
        skipPast (octets "-->")
        skipProlog fuel
      else if ← startsWith (octets "<!") then
        skipPast (octets ">")
        skipProlog fuel
      else return ()

def expect (octet : UInt8) (reason : String) : ParserM Unit := do
  if (← peek) = some octet then advance 1
  else fail reason

def endsName (octet : UInt8) : Bool :=
  isWs octet || octet == 47 || octet == 62 || octet == 61 || octet == 60

def readName : ParserM String := do
  let start := (← get).i
  advanceWhile (!endsName ·)
  if start = (← get).i then fail "expected an element or attribute name"
  else cutFrom start

def readAttrValue : ParserM String := do
  match ← peek with
  | some quote =>
      if quote = 34 ∨ quote = 39 then
        advance 1
        let start := (← get).i
        advanceWhile (· ≠ quote)
        if (← peek) = some quote then
          let raw ← cutFrom start
          advance 1
          lift (decodeEntities raw)
        else fail "unterminated attribute value"
      else fail "attribute value must be quoted"
  | none => fail "attribute value must be quoted"

/-- The loop over the attributes; `true` behind the `/>` of an empty element. -/
def parseAttrs : Nat → List (String × String) →
    ParserM (List (String × String) × Bool)
  | 0, _ => throw .exhausted
  | fuel + 1, attrs => do
      skipWs
      match ← peek with
      | some 47 =>
          advance 1
          expect 62 "expected '>' closing an empty element"
          return (attrs, true)
      | some 62 =>
          advance 1
          return (attrs, false)
      | some _ =>
          let key ← readName
          skipWs
          expect 61 "expected '=' after an attribute name"
          skipWs
          let value ← readAttrValue
          parseAttrs fuel (attrs ++ [(key, value)])
      | none => fail "unterminated start tag"

/-- The loop over the content of an element, whose children are read by `child`. -/
def parseContent (child : ParserM Element) : Nat → Element → ParserM Element
  | 0, _ => throw .exhausted
  | fuel + 1, element => do
      if ← startsWith (octets "</") then
        advance 2
        let closing ← readName
        skipWs
        expect 62 "expected '>' closing an end tag"
        if closing ≠ element.name then
          fail "end tag does not match its start tag"
        else return element
      else if ← startsWith (octets "<!--") then
        skipPast (octets "-->")
        parseContent child fuel element
      else if ← startsWith cdataOpen then
        advance cdataOpen.length
        let start := (← get).i
        skipPast cdataClose
        let parser ← get
        let text ← lift (cut parser.src start (parser.i - cdataClose.length))
        parseContent child fuel { element with text := element.text ++ text }
      else
        match ← peek with
        | some 60 =>
            let found ← child
            parseContent child fuel
              { element with children := element.children ++ [found] }
        | some _ =>
            let start := (← get).i
            advanceWhile (· ≠ 60)
            let raw ← cutFrom start
            let text ← lift (decodeEntities raw)
            parseContent child fuel { element with text := element.text ++ text }
        | none => fail "unterminated element content"

def parseElement (fuel : Nat) : Nat → ParserM Element
  | 0 => fail "element nesting too deep"
  | levels + 1 => do
      expect 60 "expected an element"
      let name ← readName
      let (attrs, empty) ← parseAttrs fuel []
      let element : Element := { name, attrs, children := [], text := "" }
      if empty then return element
      else parseContent (parseElement fuel levels) fuel element

def parseDocument (fuel : Nat) : ParserM Element := do
  skipProlog fuel
  let root ← parseElement fuel (maxDepth + 1)
  skipProlog fuel
  let parser ← get
  if parser.i < parser.src.length then
    fail "trailing content after the root element"
  else return root

/-- A document with exactly one root element. -/
def parse (input : Octets) : Except Fault Element :=
  match text input with
  | none => .error (.error .notUtf8)
  | some _ =>
      match parseDocument (input.length + 1) ⟨input, 0⟩ with
      | .ok root _ => .ok root
      | .error fault _ => .error fault

end Vortice.Proto.Xml
