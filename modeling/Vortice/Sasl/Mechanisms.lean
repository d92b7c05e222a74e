import Vortice.Sasl.Mechanism

/-!
# The mechanisms of one round

`ANONYMOUS`, `EXTERNAL` and `PLAIN`: the first blob of the peer carries
everything.
-/

namespace Vortice.Sasl

open Vortice.Foundation

variable (authenticator : Authenticator) (context : Context)

/-- RFC4505: the message is the trace token, and may be absent. -/
def anonymousStep (blob : Octets) : Step :=
  match text blob with
  | none => .denied
  | some token =>
      if authenticator.anonymous context token then .complete (.new token) else .denied

def askedFor (authorization : String) : Option String :=
  if authorization = "" then none else some authorization

/-- RFC4422: the message is an authorization identity or nothing at all. -/
def externalStep (blob : Octets) : Step :=
  match text blob with
  | none => .denied
  | some authorization =>
      if authenticator.external context (askedFor authorization) then
        .complete ⟨authorization, askedFor authorization⟩
      else .denied

/-- RFC4616: an authorization identity, an authentication identity and a password. -/
def plainStep (blob : Octets) : Step :=
  match blob.splitOn 0 with
  | [authorization, authentication, password] =>
      match text authorization, text authentication, text password with
      | some authorization, some authentication, some password =>
          if authenticator.plain context authentication (askedFor authorization)
              password then
            .complete ⟨authentication, askedFor authorization⟩
          else .denied
      | _, _, _ => .denied
  | _ => .denied

end Vortice.Sasl
