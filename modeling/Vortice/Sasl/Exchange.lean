import Vortice.Sasl.CramMd5
import Vortice.Sasl.DigestMd5
import Vortice.Sasl.Mechanisms
import Vortice.Sasl.Scram

/-!
# Exchanges

The six mechanisms a listener can offer, and one conversation with one peer in any
of them.
-/

namespace Vortice.Sasl

open Vortice.Foundation

inductive Mechanism where
  | anonymous
  | external
  | plain
  | cramMd5 (host : String)
  | digestMd5 (realm : String)
  | scramSha256
  deriving DecidableEq

def Mechanism.name : Mechanism → String
  | .anonymous => "ANONYMOUS"
  | .external => "EXTERNAL"
  | .plain => "PLAIN"
  | .cramMd5 _ => "CRAM-MD5"
  | .digestMd5 _ => "DIGEST-MD5"
  | .scramSha256 => "SCRAM-SHA-256"

/-- One conversation with one peer. -/
inductive Exchange where
  | anonymous (context : Context)
  | external (context : Context)
  | plain (context : Context)
  | cramMd5 (exchange : CramMd5Exchange)
  | digestMd5 (exchange : DigestMd5Exchange)
  | scram (exchange : ScramExchange)
  deriving DecidableEq

/-- Begins a conversation with one peer. -/
def Mechanism.begin (context : Context) : Mechanism → Exchange
  | .anonymous => .anonymous context
  | .external => .external context
  | .plain => .plain context
  | .cramMd5 host => .cramMd5 ⟨context, host, none⟩
  | .digestMd5 realm => .digestMd5 ⟨context, realm, .start⟩
  | .scramSha256 => .scram ⟨context, .start⟩

namespace Exchange

variable (authenticator : Authenticator) (digests : Digests)

/-- Takes the peer's octets and says what happens next. -/
def step (randomness : Randomness) (blob : Octets) : Exchange → Sasl.Step × Exchange
  | .anonymous context => (anonymousStep authenticator context blob, .anonymous context)
  | .external context => (externalStep authenticator context blob, .external context)
  | .plain context => (plainStep authenticator context blob, .plain context)
  | .cramMd5 exchange =>
      let (step, exchange) := exchange.step authenticator digests randomness blob
      (step, .cramMd5 exchange)
  | .digestMd5 exchange =>
      let (step, exchange) := exchange.step authenticator digests randomness blob
      (step, .digestMd5 exchange)
  | .scram exchange =>
      let (step, exchange) := exchange.step authenticator digests randomness blob
      (step, .scram exchange)

end Exchange

end Vortice.Sasl
