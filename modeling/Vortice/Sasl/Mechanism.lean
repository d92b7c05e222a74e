import Vortice.Foundation.Cutting
import Vortice.Foundation.Text

/-!
# What a SASL mechanism is

The verdicts of a round, the identities they carry, and what an application is
asked.  The digests are those of other libraries, and taken as they come.
-/

namespace Vortice.Sasl

open Vortice.Foundation

structure Identity where
  authenticationId : String
  authorizationId : Option String
  deriving DecidableEq

def Identity.new (authenticationId : String) : Identity := ⟨authenticationId, none⟩

/-- The identity the session is recorded as running under. -/
def Identity.effective (identity : Identity) : String :=
  identity.authorizationId.getD identity.authenticationId

inductive Step where
  | continues (challenge : Octets)
  | complete (identity : Identity)
  | completeWith (identity : Identity) (data : Octets)
  | failed (reason : String)
  deriving DecidableEq

namespace Step

def denied : Step := .failed "authentication failed"

def identity : Step → Option Identity
  | .complete identity | .completeWith identity _ => some identity
  | .continues _ | .failed _ => none

def goesOn : Step → Bool
  | .continues _ => true
  | _ => false

theorem not_goesOn {step : Step} {identity : Identity} (h : step.identity = some identity) :
    ¬ step.goesOn := by
  cases step with
  | continues challenge => cases h
  | complete | completeWith | failed => exact Bool.false_ne_true

end Step

structure Context where
  serverName : Option String
  deriving DecidableEq

structure ScramCredentials where
  salt : Octets
  iterations : UInt32
  storedKey : Vector UInt8 32
  serverKey : Vector UInt8 32
  deriving DecidableEq

structure Authenticator where
  anonymous : Context → String → Bool
  external : Context → Option String → Bool
  plain : Context → String → Option String → String → Bool
  secret : Context → String → Option String → Option String
  scram : Context → String → Option ScramCredentials

/-- An application that decides nothing refuses everything. -/
def Authenticator.refusing : Authenticator where
  anonymous _ _ := false
  external _ _ := false
  plain _ _ _ _ := false
  secret _ _ _ := none
  scram _ _ := none

structure Digests where
  md5 : Octets → Vector UInt8 16
  hmacMd5 : Octets → Octets → Vector UInt8 16
  sha256 : Octets → Vector UInt8 32
  hmacSha256 : Octets → Octets → Vector UInt8 32

/-- An application with one user, whose keys are all zero. -/
def Authenticator.knowing (user password : String) : Authenticator where
  anonymous _ _ := true
  external _ _ := false
  plain _ name authorization secret :=
    name = user && secret = password && authorization.all (· = user)
  secret _ name _ := if name = user then some password else none
  scram _ name :=
    if name = user then some ⟨[], 4096, .replicate 32 0, .replicate 32 0⟩ else none

/-- Digests that are zero whatever is digested. -/
def Digests.zero : Digests where
  md5 _ := .replicate 16 0
  hmacMd5 _ _ := .replicate 16 0
  sha256 _ := .replicate 32 0
  hmacSha256 _ _ := .replicate 32 0

/-- What an exchange draws when it makes a challenge. -/
structure Randomness where
  octets : Octets
  seconds : Nat

def hexDigit (value : UInt8) : Char :=
  if value < 10 then Char.ofNat (48 + value.toNat) else Char.ofNat (87 + value.toNat)

def hex (data : Octets) : String :=
  String.ofList (data.flatMap fun octet => [hexDigit (octet / 16), hexDigit (octet % 16)])

def lastOf (fields : List (String × String)) (name : String) : Option String :=
  ((fields.filter fun field => field.1 = name).getLast?).map Prod.snd

end Vortice.Sasl
