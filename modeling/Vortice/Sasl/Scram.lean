import Vortice.Proto.Base64
import Vortice.Sasl.Mechanism

/-!
# `SCRAM-SHA-256`

RFC7677 over RFC5802: the peer names itself and draws a nonce, the listener extends
it, and the peer proves its key over both messages.
-/

namespace Vortice.Sasl

open Vortice.Foundation

/-- Splits `a=b,c=d` into its parts. -/
def attributes (text : String) : List (String × String) :=
  (split text ',').filterMap fun field => splitOnce field '='

/-- Undoes the `=2C` and `=3D` of RFC5802 §5.1. -/
def unescapeName (name : String) : String :=
  replace (replace name "=2C" ",") "=3D" "="

/-- What the first message of the peer says: its GS2 header and the rest. -/
structure ClientFirst where
  flag : String
  authzid : String
  bare : String
  user : String
  nonce : String
  deriving DecidableEq

namespace ClientFirst

/-- The authorization identity asked for, if any. -/
def authorization (message : ClientFirst) : Option String :=
  ((stripPrefix message.authzid "a=").filter (· ≠ "")).map unescapeName

/-- The GS2 header: the binding flag, a comma, the authorization identity and a comma. -/
def header (message : ClientFirst) : String :=
  message.flag ++ "," ++ message.authzid ++ ","

/-- Reads `client-first-message`, or gives the reason it is refused for. -/
def read (blob : Octets) : Except String ClientFirst :=
  let denied := "authentication failed"
  match text blob with
  | none => .error denied
  | some message =>
      match splitOnce message ',' with
      | none => .error denied
      | some (flag, rest) =>
          if (stripPrefix flag "p").isSome then
            .error "channel binding is not supported"
          else if flag ≠ "n" ∧ flag ≠ "y" then .error denied
          else
            match splitOnce rest ',' with
            | none => .error denied
            | some (authzid, bare) =>
                match lastOf (attributes bare) "n", lastOf (attributes bare) "r" with
                | some user, some nonce =>
                    .ok { flag, authzid, bare, user := unescapeName user, nonce }
                | _, _ => .error denied

end ClientFirst

/-- What the final message of the peer says. -/
structure ClientFinal where
  binding : String
  nonce : String
  proof : String
  withoutProof : String
  deriving DecidableEq

/-- Reads `client-final-message`. -/
def ClientFinal.read (blob : Octets) : Option ClientFinal := do
  let message ← text blob
  let fields := attributes message
  let binding ← lastOf fields "c"
  let nonce ← lastOf fields "r"
  let proof ← lastOf fields "p"
  let (withoutProof, _) ← rsplitOnce message ",p="
  return { binding, nonce, proof, withoutProof }

namespace ScramExchange

inductive Phase where
  | start
  | challenged (user : String) (authorization : Option String)
      (credentials : ScramCredentials) (nonce signed : String)
  deriving DecidableEq

end ScramExchange

structure ScramExchange where
  context : Context
  state : ScramExchange.Phase
  deriving DecidableEq

namespace ScramExchange

variable (authenticator : Authenticator) (digests : Digests)

/-- `server-first-message`. -/
def serverFirst (nonce : String) (credentials : ScramCredentials) : String :=
  "r=" ++ nonce ++ ",s=" ++ Proto.Base64.encode credentials.salt ++ ",i=" ++
    toString credentials.iterations.toNat

/-- Reads `client-first-message` and answers with `server-first-message`. -/
def first (exchange : ScramExchange) (randomness : Randomness) (blob : Octets) :
    Step × ScramExchange :=
  match ClientFirst.read blob with
  | .error reason => (.failed reason, exchange)
  | .ok message =>
      match authenticator.scram exchange.context message.user with
      | none => (.denied, exchange)
      | some credentials =>
          let nonce := message.nonce ++ Proto.Base64.encode randomness.octets
          let answer := serverFirst nonce credentials
          (.continues (octets answer),
            { exchange with
              state := .challenged message.user message.authorization credentials nonce
                (message.bare ++ "," ++ answer) })

/-- The proof of a final message gives back the key that was stored. -/
def proves (credentials : ScramCredentials) (message : String) (proof : Octets) : Bool :=
  let signature := digests.hmacSha256 credentials.storedKey.toList (octets message)
  let clientKey := List.zipWith (· ^^^ ·) proof signature.toList
  decide (digests.sha256 clientKey = credentials.storedKey)

/-- Checks `client-final-message` and answers with the server signature. -/
def finalMessage (user : String) (authorization : Option String)
    (credentials : ScramCredentials) (expectedNonce signed : String) (blob : Octets) :
    Step :=
  match ClientFinal.read blob with
  | none => .denied
  | some final =>
      if final.nonce ≠ expectedNonce then .denied
      else if (Proto.Base64.decode final.binding).isNone then .denied
      else
        match Proto.Base64.decode final.proof with
        | none => .denied
        | some proof =>
            let message := signed ++ "," ++ final.withoutProof
            if proof.length ≠ 32 then .denied
            else if ¬ proves digests credentials message proof then .denied
            else
              let signature := digests.hmacSha256 credentials.serverKey.toList
                (octets message)
              .completeWith ⟨user, authorization⟩
                (octets ("v=" ++ Proto.Base64.encode signature.toList))

def step (exchange : ScramExchange) (randomness : Randomness) (blob : Octets) :
    Step × ScramExchange :=
  match exchange.state with
  | .start => exchange.first authenticator randomness blob
  | .challenged user authorization credentials nonce signed =>
      (finalMessage digests user authorization credentials nonce signed blob,
        { exchange with state := .start })

end ScramExchange

end Vortice.Sasl
