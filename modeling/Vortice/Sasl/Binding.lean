import Vortice.Sasl.Client

/-!
# What a SCRAM proof is bound to

The proof of the peer is computed over its first message without the GS2 header.  The
header is tied in by the `c=` of the final message alone, and of that nothing is asked
but that it is Base64.
-/

namespace Vortice.Sasl

open Vortice.Foundation

/-- A first message is its GS2 header and the rest of it, where the user and the nonce
stand. -/
theorem ClientFirst.read_ok {blob : Octets} {message : ClientFirst}
    (h : ClientFirst.read blob = .ok message) :
    text blob = some (message.header ++ message.bare) ∧
      (lastOf (attributes message.bare) "n").map unescapeName = some message.user ∧
      lastOf (attributes message.bare) "r" = some message.nonce := by
  unfold ClientFirst.read at h
  cases htext : text blob with
  | none =>
      rw [htext] at h
      cases h
  | some source =>
      rw [htext] at h
      dsimp only at h
      split at h
      · cases h
      · rename_i flag rest hflag
        split at h
        · cases h
        · split at h
          · cases h
          · split at h
            · cases h
            · rename_i authzid bare hauthzid
              split at h
              · rename_i user nonce huser hnonce
                cases h
                have hsource := (splitOnce_eq_some hflag).1
                have hrest := (splitOnce_eq_some hauthzid).1
                rw [hrest] at hsource
                refine ⟨?_, by simp [huser], hnonce⟩
                rw [Option.some.injEq]
                refine String.toList_injective ?_
                simp [ClientFirst.header, hsource]
              · cases h

namespace ScramExchange

def conversation (authenticator : Authenticator) (digests : Digests) (context : Context)
    (randomness : Randomness) (first final : Octets) : Step :=
  let start : ScramExchange := ⟨context, .start⟩
  let (step, exchange) := start.step authenticator digests randomness first
  match step with
  | .continues _ => (exchange.step authenticator digests randomness final).1
  | step => step

structure Proves (digests : Digests) (credentials : ScramCredentials)
    (nonce signed : String) (final : ClientFinal) : Prop where
  nonce : final.nonce = nonce
  binding : (Proto.Base64.decode final.binding).isSome
  proof : ∃ proof, Proto.Base64.decode final.proof = some proof ∧ proof.length = 32 ∧
    proves digests credentials (signed ++ "," ++ final.withoutProof) proof

/-- The final message proves the key of the user of the first one, over the first message
without its header. -/
def Proven (authenticator : Authenticator) (digests : Digests) (context : Context)
    (randomness : Randomness) (first final : Octets) : Prop :=
  ∃ message credentials last, ClientFirst.read first = .ok message ∧
    authenticator.scram context message.user = some credentials ∧
    ClientFinal.read final = some last ∧
    let nonce := message.nonce ++ Proto.Base64.encode randomness.octets
    Proves digests credentials nonce (message.bare ++ "," ++ serverFirst nonce credentials)
      last

def Bound (first final : Octets) : Prop :=
  ∃ message last, ClientFirst.read first = .ok message ∧
    ClientFinal.read final = some last ∧
    Proto.Base64.decode last.binding = some (octets message.header)

def DifferInHeader (first other : Octets) : Prop :=
  ∃ message message', ClientFirst.read first = .ok message ∧
    ClientFirst.read other = .ok message' ∧
    message.bare = message'.bare ∧ message.header ≠ message'.header

theorem finalMessage_identity {digests : Digests} {user : String}
    {authorization : Option String} {credentials : ScramCredentials}
    {nonce signed : String} {blob : Octets} :
    (finalMessage digests user authorization credentials nonce signed
        blob).identity.isSome ↔
      ∃ last, ClientFinal.read blob = some last ∧
        Proves digests credentials nonce signed last := by
  unfold finalMessage
  cases ClientFinal.read blob with
  | none =>
      refine ⟨nofun, ?_⟩
      rintro ⟨_, ⟨⟩, -⟩
  | some last =>
      simp only [Option.some.injEq, exists_eq_left']
      by_cases hnonce : last.nonce = nonce
      case neg =>
        rw [if_pos hnonce]
        exact ⟨nofun, fun hproven => absurd hproven.nonce hnonce⟩
      rw [if_neg (not_not_intro hnonce)]
      by_cases hbinding : (Proto.Base64.decode last.binding).isNone
      case pos =>
        rw [if_pos hbinding]
        refine ⟨nofun, fun hproven => ?_⟩
        rw [Option.isNone_iff_eq_none] at hbinding
        exact absurd hproven.binding (by simp [hbinding])
      rw [if_neg hbinding]
      have hsome : (Proto.Base64.decode last.binding).isSome := by
        simpa [← Option.isSome_iff_ne_none] using hbinding
      cases hproof : Proto.Base64.decode last.proof with
      | none =>
          refine ⟨nofun, fun hproven => ?_⟩
          obtain ⟨proof, hdecoded, -⟩ := hproven.proof
          rw [hproof] at hdecoded
          cases hdecoded
      | some proof =>
          dsimp only
          split
          · rename_i hlength
            refine ⟨nofun, fun hproven => ?_⟩
            obtain ⟨proof', hdecoded, hlength', -⟩ := hproven.proof
            cases hproof.symm.trans hdecoded
            exact absurd hlength' hlength
          · rename_i hlength
            split
            · rename_i hwrong
              refine ⟨nofun, fun hproven => ?_⟩
              obtain ⟨proof', hdecoded, -, hproves⟩ := hproven.proof
              cases hproof.symm.trans hdecoded
              exact absurd hproves hwrong
            · rename_i hproves
              exact ⟨fun _ => ⟨hnonce, hsome, proof, hproof, not_not.1 hlength,
                not_not.1 hproves⟩, fun _ => rfl⟩

theorem finalMessage_user {digests : Digests} {user : String}
    {authorization : Option String} {credentials : ScramCredentials}
    {nonce signed : String} {blob : Octets} {identity : Identity}
    (h : (finalMessage digests user authorization credentials nonce signed blob).identity =
      some identity) : identity = ⟨user, authorization⟩ := by
  unfold finalMessage at h
  split at h
  · cases h
  · split at h
    · cases h
    · split at h
      · cases h
      · split at h
        · cases h
        · dsimp only at h
          split at h
          · cases h
          · split at h <;> cases h
            rfl

section Conversation

variable {authenticator : Authenticator} {digests : Digests} {context : Context}
  {randomness : Randomness} {first final : Octets}

theorem conversation_identity :
    (conversation authenticator digests context randomness first final).identity.isSome ↔
      Proven authenticator digests context randomness first final := by
  unfold conversation ScramExchange.step ScramExchange.first Proven
  cases hread : ClientFirst.read first with
  | error reason => simp [Step.identity]
  | ok message =>
      cases hscram : authenticator.scram context message.user with
      | none => simp [hscram, Step.denied, Step.identity]
      | some credentials =>
          simp [hscram, finalMessage_identity]

/-- Nothing is proven of the header: the user, the nonce and what is signed are read from
the rest of the message. -/
theorem DifferInHeader.proven {other : Octets} (h : DifferInHeader first other) :
    Proven authenticator digests context randomness first final ↔
      Proven authenticator digests context randomness other final := by
  obtain ⟨message, message', hfirst, hother, hbare, -⟩ := h
  obtain ⟨-, huser, hnonce⟩ := ClientFirst.read_ok hfirst
  obtain ⟨-, huser', hnonce'⟩ := ClientFirst.read_ok hother
  have heq : message.user = message'.user := by
    rw [hbare, huser'] at huser
    exact (Option.some.inj huser).symm
  have hdrawn : message.nonce = message'.nonce := by
    rw [hbare, hnonce'] at hnonce
    exact (Option.some.inj hnonce).symm
  simp only [Proven, hfirst, hother, Except.ok.injEq, exists_and_left, exists_eq_left',
    hbare, heq, hdrawn]

/-- Whether a conversation ends well does not depend on the header. -/
theorem DifferInHeader.ends_alike {other : Octets} (h : DifferInHeader first other) :
    (conversation authenticator digests context randomness first final).identity.isSome ↔
      (conversation authenticator digests context randomness other final).identity.isSome := by
  rw [conversation_identity, conversation_identity, h.proven]

/-- Nor does it depend on what `c=` says: whoever has the key ends the conversation well
with any octets in it. -/
theorem completes_whatever_binding {message : ClientFirst} {credentials : ScramCredentials}
    {clientKey : Vector UInt8 32} (hfirst : ClientFirst.read first = .ok message)
    (hscram : authenticator.scram context message.user = some credentials)
    (hkey : digests.sha256 clientKey.toList = credentials.storedKey) (binding : Octets) :
    ∃ proof : Octets, (conversation authenticator digests context randomness first (octets
      ("c=" ++ Proto.Base64.encode binding ++ ",r=" ++
        (message.nonce ++ Proto.Base64.encode randomness.octets) ++ ",p=" ++
        Proto.Base64.encode proof))).identity.isSome := by
  obtain ⟨nonce, hnonce⟩ : ∃ nonce, nonce = message.nonce ++
    Proto.Base64.encode randomness.octets := ⟨_, rfl⟩
  have hcomma : ',' ∉ nonce.toList := by
    obtain ⟨-, -, hread⟩ := ClientFirst.read_ok hfirst
    simp [hnonce, comma_notMem_lastOf hread, comma_notMem_encode]
  obtain ⟨proof, hlength, hproves⟩ : ∃ proof : Octets, proof.length = 32 ∧
      proves digests credentials (message.bare ++ "," ++ serverFirst nonce credentials ++
        "," ++ ("c=" ++ Proto.Base64.encode binding ++ ",r=" ++ nonce)) proof :=
    ⟨_, by simp, proves_key hkey _⟩
  have hfinal := ClientFinal.read_fields (comma_notMem_encode binding) hcomma proof
  subst hnonce
  refine ⟨proof, conversation_identity.mpr ⟨message, credentials, _, hfirst, hscram, hfinal, ?_⟩⟩
  exact
    { nonce := rfl
      binding := by
        rw [Proto.Base64.decode_encode]
        rfl
      proof := ⟨proof, Proto.Base64.decode_encode proof, hlength, hproves⟩ }

/-- Of two conversations that differ in the header one is refused exactly when their final
message proves nothing, and a conversation that ends well is bound to the header exactly
when the final message repeats the header or is refused for another reason. -/
theorem binding_exact (authenticator : Authenticator) (digests : Digests)
    (context : Context) (randomness : Randomness) (first final : Octets) :
    let completes := fun message =>
      (conversation authenticator digests context randomness message final).identity.isSome
    (∀ other, DifferInHeader first other →
      (¬ (completes first ∧ completes other) ↔
        ¬ Proven authenticator digests context randomness first final)) ∧
    ((completes first → Bound first final) ↔
      (Bound first final ∨ ¬ Proven authenticator digests context randomness first final)) := by
  intro completes
  have hcompletes : completes first ↔
      Proven authenticator digests context randomness first final := conversation_identity
  refine ⟨fun other hdiffer => ?_, ?_⟩
  · have hother : completes first ↔ completes other := hdiffer.ends_alike
    rw [← hother, and_self, hcompletes]
  · rw [hcompletes, imp_iff_not_or, or_comm]

end Conversation

def sampleFinal (binding : String) : Octets :=
  octets ("c=" ++ binding ++ ",r=x,p=AAAAAAAAAAAAAAAAAAAAAAAAAAAAAAAAAAAAAAAAAAA=")

theorem binding_exact_sample :
    let completes := fun message =>
      (conversation (.knowing "u" "") .zero ⟨none⟩ ⟨[], 0⟩ (octets message)
        (sampleFinal "biws")).identity.isSome
    ¬ (completes "n,,n=u,r=x" ∧ completes "y,,n=u,r=x") ↔
      ¬ Proven (.knowing "u" "") .zero ⟨none⟩ ⟨[], 0⟩ (octets "n,,n=u,r=x")
        (sampleFinal "biws") :=
  (binding_exact (.knowing "u" "") .zero ⟨none⟩ ⟨[], 0⟩ (octets "n,,n=u,r=x")
    (sampleFinal "biws")).1 (octets "y,,n=u,r=x")
    ⟨⟨"n", "", "n=u,r=x", "u", "x"⟩, ⟨"y", "", "n=u,r=x", "u", "x"⟩, rfl, rfl, rfl, by decide⟩

/-- `c=` may be anything that is Base64: the header of the first message is `y,,`, and the
final message repeats `n,,`. -/
theorem binding_unchecked :
    ¬ ∀ authenticator digests context randomness first final,
      (conversation authenticator digests context randomness first final).identity.isSome →
        Bound first final := by
  intro h
  obtain ⟨message, last, hfirst, hlast, hbound⟩ :=
    h (.knowing "u" "") .zero ⟨none⟩ ⟨[], 0⟩ (octets "y,,n=u,r=x") (sampleFinal "biws")
      (by decide +kernel)
  have hread : ClientFirst.read (octets "y,,n=u,r=x") =
      .ok ⟨"y", "", "n=u,r=x", "u", "x"⟩ :=
    rfl
  have hfinal : ClientFinal.read (sampleFinal "biws") =
      some ⟨"biws", "x", "AAAAAAAAAAAAAAAAAAAAAAAAAAAAAAAAAAAAAAAAAAA=", "c=biws,r=x"⟩ :=
    rfl
  cases hread.symm.trans hfirst
  cases hfinal.symm.trans hlast
  revert hbound
  decide +kernel

end ScramExchange

end Vortice.Sasl
