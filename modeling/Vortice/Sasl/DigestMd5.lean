import Vortice.Proto.Base64
import Vortice.Proto.Management
import Vortice.Sasl.Mechanism

/-!
# `DIGEST-MD5`

RFC2831: a challenge, a response, and a response to the response that the peer
acknowledges with nothing.
-/

namespace Vortice.Sasl

open Vortice.Foundation

/-! ## Directives -/

namespace Directives

def trimStart (value : List Char) : List Char :=
  value.dropWhile Proto.Management.isWhitespace

/-- The octets of a character, each taken for a character of its own. -/
def charsFrom (ch : Char) : List Char :=
  (String.utf8EncodeChar ch).map fun octet => Char.ofNat octet.toNat

/-- A quoted value, and what is behind its closing quote. -/
def readQuoted : Bool → List Char → List Char × List Char
  | _, [] => ([], [])
  | escaped, ch :: rest =>
      if escaped then
        let (value, after) := readQuoted false rest
        (charsFrom ch ++ value, after)
      else if ch = '\\' then readQuoted true rest
      else if ch = '"' then ([], rest)
      else
        let (value, after) := readQuoted false rest
        (charsFrom ch ++ value, after)

/-- The value of a directive, and what is behind it. -/
def readValue : List Char → List Char × List Char
  | '"' :: rest => readQuoted false rest
  | rest =>
      let (value, after) := rest.span (· ≠ ',')
      (value.flatMap charsFrom, after)

/-- The loop of `directives`, which every `=` ends one round of.  The source puts the names
into the lower case of Unicode, here it is that of ASCII: they differ on capitals outside
ASCII, such as the Kelvin sign, of which Unicode makes a `k`.  No name that is looked up has a
`k`, so the same fields are found. -/
def readAll : Nat → List Char → List (String × String)
  | 0, _ => []
  | fuel + 1, rest =>
      match rest.span (· ≠ '=') with
      | (_, []) => []
      | (name, _ :: behind) =>
          let (value, after) := readValue behind
          let after := trimStart after
          let next := match after with
            | ',' :: after => trimStart after
            | after => after
          ((Proto.Management.trim (String.ofList name)).toLower,
            Proto.Management.trim (String.ofList value)) :: readAll fuel next

end Directives

/-- Splits a challenge or response into its directives. -/
def directives (text : String) : List (String × String) :=
  Directives.readAll text.length (Proto.Management.trim text).toList

/-! ## Digests -/

section Digests

variable (digests : Digests)

/-- `A1` of RFC2831 §2.1.2.1, hashed. -/
def sessionKey (username realm secret nonce cnonce : String)
    (authorization : Option String) : String :=
  let inner := (digests.md5 (octets (username ++ ":" ++ realm ++ ":" ++ secret))).toList
  let outer := inner ++ octets (":" ++ nonce ++ ":" ++ cnonce) ++
    match authorization with
    | some authorization => octets (":" ++ authorization)
    | none => []
  hex (digests.md5 outer).toList

/-- The `response` or `rspauth` value of RFC2831 §2.1.2.1. -/
def responseDigest (sessionKey nonce nc cnonce qop digestUri : String)
    (fromClient : Bool) : String :=
  let a2 := if fromClient then "AUTHENTICATE:" ++ digestUri else ":" ++ digestUri
  let a2 := hex (digests.md5 (octets a2)).toList
  hex (digests.md5 (octets (sessionKey ++ ":" ++ nonce ++ ":" ++ nc ++ ":" ++ cnonce ++
    ":" ++ qop ++ ":" ++ a2))).toList

end Digests

/-! ## Exchanges -/

/-- Quotes what goes inside a quoted directive value. -/
def escapeValue (value : String) : String :=
  replace (replace value "\\" "\\\\") "\"" "\\\""

namespace DigestMd5Exchange

inductive Phase where
  | start
  | challenged (nonce : String)
  | confirmed (identity : Identity)
  deriving DecidableEq

end DigestMd5Exchange

structure DigestMd5Exchange where
  context : Context
  realm : String
  state : DigestMd5Exchange.Phase
  deriving DecidableEq

namespace DigestMd5Exchange

variable (authenticator : Authenticator) (digests : Digests)

/-- What the fields of a response must have. -/
structure Response where
  username : String
  nonce : String
  cnonce : String
  nc : String
  digestUri : String
  response : String
  qop : String
  realm : String
  authorization : Option String

/-- The fields of a response, if none is missing. -/
def Response.read (fields : List (String × String)) : Option Response := do
  let username ← lastOf fields "username"
  let nonce ← lastOf fields "nonce"
  let cnonce ← lastOf fields "cnonce"
  let nc ← lastOf fields "nc"
  let digestUri ← lastOf fields "digest-uri"
  let response ← lastOf fields "response"
  return { username, nonce, cnonce, nc, digestUri, response
           qop := (lastOf fields "qop").getD "auth"
           realm := (lastOf fields "realm").getD ""
           authorization := (lastOf fields "authzid").filter (· ≠ "") }

/-- The key of the digests over a response, when it fits the challenge. -/
def keyFor (exchange : DigestMd5Exchange) (nonce : String) (sent : Response) :
    Option String :=
  if sent.nonce ≠ nonce ∨ sent.nc ≠ "00000001" then none
  else if sent.qop ≠ "auth" then none
  else if sent.realm ≠ exchange.realm then none
  else
    (authenticator.secret exchange.context sent.username (some exchange.realm)).map
      fun secret => sessionKey digests sent.username sent.realm secret nonce sent.cnonce
        sent.authorization

/-- Checks the response and, if it holds, answers with `rspauth`. -/
def check (exchange : DigestMd5Exchange) (nonce : String) (response : Octets) :
    Step × DigestMd5Exchange :=
  let refused := (Step.denied, { exchange with state := .start })
  match text response with
  | none => refused
  | some text =>
      match Response.read (directives text) with
      | none => refused
      | some sent =>
          match exchange.keyFor authenticator digests nonce sent with
          | none => refused
          | some key =>
              let digest := responseDigest digests key nonce sent.nc sent.cnonce sent.qop
                sent.digestUri
              if digest true ≠ sent.response then refused
              else
                (.continues (octets ("rspauth=" ++ digest false)),
                  { exchange with
                    state := .confirmed ⟨sent.username, sent.authorization⟩ })

def step (exchange : DigestMd5Exchange) (randomness : Randomness) (blob : Octets) :
    Step × DigestMd5Exchange :=
  match exchange.state with
  | .start =>
      let nonce := Proto.Base64.encode randomness.octets
      let challenge := "realm=\"" ++ escapeValue exchange.realm ++ "\",nonce=\"" ++
        nonce ++ "\",qop=\"auth\",charset=utf-8,algorithm=md5-sess"
      (.continues (octets challenge), { exchange with state := .challenged nonce })
  | .challenged nonce => exchange.check authenticator digests nonce blob
  | .confirmed identity =>
      (if blob = [] then .complete identity else .denied, { exchange with state := .start })

end DigestMd5Exchange

end Vortice.Sasl
