import Vortice.Proto.Management
import Vortice.Sasl.Mechanism

/-!
# `CRAM-MD5`

RFC2195: the listener challenges, and the peer answers with a keyed digest.
-/

namespace Vortice.Sasl

open Vortice.Foundation

/-- A challenge to be used once: `<random.seconds@host>`. -/
def challenge (host : String) (randomness : Randomness) : String :=
  "<" ++ hex randomness.octets ++ "." ++ toString randomness.seconds ++ "@" ++ host ++ ">"

def trimEnd (value : String) : String :=
  String.ofList (value.toList.rdropWhile Proto.Management.isWhitespace)

structure CramMd5Exchange where
  context : Context
  host : String
  challenge : Option String
  deriving DecidableEq

namespace CramMd5Exchange

variable (authenticator : Authenticator) (digests : Digests)

/-- Checks a response against the challenge that was issued. -/
def verify (exchange : CramMd5Exchange) (challenge : String) (response : Octets) : Step :=
  match text response with
  | none => .denied
  | some response =>
      -- at the last space, for a username may contain one and the digest may not
      match rsplitOnce (trimEnd response) " " with
      | none => .denied
      | some (user, digest) =>
          match authenticator.secret exchange.context user none with
          | none => .denied
          | some secret =>
              let expected :=
                hex (digests.hmacMd5 (octets secret) (octets challenge)).toList
              if expected = digest then .complete (.new user) else .denied

def step (exchange : CramMd5Exchange) (randomness : Randomness) (blob : Octets) :
    Step × CramMd5Exchange :=
  match exchange.challenge with
  | none =>
      let challenge := Sasl.challenge exchange.host randomness
      (.continues (octets challenge), { exchange with challenge := some challenge })
  | some challenge =>
      (exchange.verify authenticator digests challenge blob,
        { exchange with challenge := none })

end CramMd5Exchange

end Vortice.Sasl
