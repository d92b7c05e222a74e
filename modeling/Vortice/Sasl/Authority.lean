import Vortice.Sasl.Binding
import Vortice.Sasl.Records

/-!
# Whose authority is granted

What a round verifies, and what the application is asked about in it.  `EXTERNAL` and
`PLAIN` ask whether the peer may act as the identity it names; `DIGEST-MD5` and
`SCRAM-SHA-256` take the peer's word for it.
-/

namespace Vortice.Sasl

open Vortice.Foundation

/-! ## What a round says -/

section Rounds

variable (profile : SaslProfile)

/-- The peer's first octets, cut up as `PLAIN` has it. -/
def plainFields (blob : Octets) : Option (String × String × String) :=
  match blob.splitOn 0 with
  | [authorization, authentication, password] => do
      return (← text authorization, ← text authentication, ← text password)
  | _ => none

example : [plainFields (octets "\x00u\x00s"), plainFields (octets "u\x00s")] =
    [some ("", "u", "s"), none] :=
  rfl

/-- A response is one to the challenge, under the key of its user. -/
structure DigestMd5Exchange.Responds (authenticator : Authenticator) (digests : Digests)
    (exchange : DigestMd5Exchange) (blob : Octets) (sent : Response) : Prop where
  read : ∃ response, text blob = some response ∧
    Response.read (directives response) = some sent
  digest : ∃ nonce key, exchange.state = .challenged nonce ∧
    exchange.keyFor authenticator digests nonce sent = some key ∧
    responseDigest digests key nonce sent.nc sent.cnonce sent.qop sent.digestUri true =
      sent.response

/-- The round has verified the credential of `who`. -/
def Stepped.Verifies (entry : Stepped) (who : String) : Prop :=
  match entry.exchange with
  | .anonymous context =>
      text entry.blob = some who ∧ profile.authenticator.anonymous context who
  | .external _ => False
  | .plain context => ∃ authorization password,
      plainFields entry.blob = some (authorization, who, password) ∧
        profile.authenticator.plain context who (askedFor authorization) password
  | .cramMd5 exchange => ∃ challenge response secret,
      exchange.challenge = some challenge ∧ text entry.blob = some response ∧
        profile.authenticator.secret exchange.context who none = some secret ∧
        rsplitOnce (trimEnd response) " " = some (who,
          hex (profile.digests.hmacMd5 (octets secret) (octets challenge)).toList)
  | .digestMd5 exchange => ∃ sent,
      exchange.Responds profile.authenticator profile.digests entry.blob sent ∧
        sent.username = who
  | .scram exchange => ∃ authorization credentials nonce signed final,
      exchange.state = .challenged who authorization credentials nonce signed ∧
        profile.authenticator.scram exchange.context who = some credentials ∧
        ClientFinal.read entry.blob = some final ∧
        ScramExchange.Proves profile.digests credentials nonce signed final

/-- The application was asked in the round whether the peer may act as `name`, and said
yes. -/
def Stepped.Approves (entry : Stepped) (name : String) : Prop :=
  match entry.exchange with
  | .external context =>
      text entry.blob = some name ∧ profile.authenticator.external context (askedFor name)
  | .plain context => ∃ who password,
      plainFields entry.blob = some (name, who, password) ∧ name ≠ "" ∧
        profile.authenticator.plain context who (some name) password
  | _ => False

/-- The peer ends an exchange in which it has named an authorization identity that is not
the identity it has proved. -/
def Stepped.Oversteps (entry : Stepped) : Prop :=
  match entry.exchange with
  | .digestMd5 exchange => ∃ identity, exchange.state = .confirmed identity ∧
      entry.blob = [] ∧ identity.effective ≠ identity.authenticationId
  | .scram exchange => ∃ user authorization credentials nonce signed final,
      exchange.state = .challenged user (some authorization) credentials nonce signed ∧
        authorization ≠ user ∧ ClientFinal.read entry.blob = some final ∧
        ScramExchange.Proves profile.digests credentials nonce signed final
  | _ => False

end Rounds

/-- A round of the exchange has verified the identity or asked about it. -/
def World.Granted (profile : SaslProfile) (w : World) (id : Nat) (name : String) : Prop :=
  ∃ entry ∈ w.steps, entry.id = id ∧
    (entry.Verifies profile name ∨ entry.Approves profile name)

/-! ## Rounds of one exchange -/

namespace World

variable {w w' : World} {profile : SaslProfile} {id : Nat} {key : Key}

/-- A round has left the exchange as it is. -/
def Left (w : World) (id : Nat) (exchange : Exchange) : Prop :=
  ∃ entry ∈ w.steps, entry.id = id ∧ entry.left = exchange

theorem Left.mono {exchange : Exchange} (h : w.Left id exchange)
    (hsteps : ∀ entry ∈ w.steps, entry ∈ w'.steps) : w'.Left id exchange := by
  obtain ⟨entry, hmem, hentry⟩ := h
  exact ⟨entry, hsteps entry hmem, hentry⟩

/-- Every round is one of the mechanism, and takes up an exchange where it begins or where
an earlier round has left it. -/
structure Chained (profile : SaslProfile) (w : World) : Prop where
  genuine : ∀ entry ∈ w.steps, ∃ randomness,
    entry.exchange.step profile.authenticator profile.digests randomness entry.blob =
      (entry.step, entry.left)
  rounds : ∀ entry ∈ w.steps, (∃ context, entry.exchange = profile.mechanism.begin context) ∨
    w.Left entry.id entry.exchange
  kept : ∀ {id exchange}, Kept w.table w.held (id, .inFlight exchange) → w.Left id exchange

theorem Chained.idle : World.idle.Chained profile where
  genuine := fun _ hmem => nomatch hmem
  rounds := fun _ hmem => nomatch hmem
  kept := fun h => absurd h kept_none

theorem Chained.congr (h : w.Chained profile) (hsteps : w'.steps = w.steps)
    (hkept : ∀ {id exchange}, Kept w'.table w'.held (id, .inFlight exchange) →
      Kept w.table w.held (id, .inFlight exchange)) : w'.Chained profile where
  genuine := hsteps ▸ h.genuine
  rounds := fun entry hmem => by
    rw [hsteps] at hmem
    exact (h.rounds entry hmem).imp_right fun hleft =>
      hleft.mono fun _ hmem => hsteps ▸ hmem
  kept := fun hthing => (h.kept (hkept hthing)).mono fun _ hmem => hsteps ▸ hmem

theorem Chained.noting (h : w.Chained profile) (next : Nat) {entry : Stepped}
    (hgenuine : ∃ randomness, entry.exchange.step profile.authenticator profile.digests
      randomness entry.blob = (entry.step, entry.left))
    (hround : (∃ context, entry.exchange = profile.mechanism.begin context) ∨
      w.Left entry.id entry.exchange) : (w.noting next entry).Chained profile := by
  have hmono : ∀ {id exchange}, w.Left id exchange →
      (w.noting next entry).Left id exchange :=
    fun hleft => hleft.mono fun _ hmem => List.mem_append_left _ hmem
  refine ⟨fun found hmem => ?_, fun found hmem => ?_, fun hkept => hmono (h.kept hkept)⟩
  · rcases List.mem_append.mp hmem with hmem | hmem
    · exact h.genuine found hmem
    · rw [List.mem_singleton.mp hmem]
      exact hgenuine
  · rcases List.mem_append.mp hmem with hmem | hmem
    · exact (h.rounds found hmem).imp_right hmono
    · rw [List.mem_singleton.mp hmem]
      exact hround.imp_right hmono

theorem Chained.begin (h : w.Chained profile) (key : Key) (serverName : Option String)
    (uri : String) (start : Proto.Management.Start) (randomness : Randomness)
    (opens : Bool) :
    (w.begin profile key serverName uri start randomness opens).Chained profile := by
  have hnoting : ∀ blob, (w.noting (w.next + 1)
      (w.firstRound profile key serverName randomness blob)).Chained profile :=
    fun blob => h.noting _ ⟨randomness, rfl⟩ (.inl ⟨_, rfl⟩)
  unfold World.begin
  cases haccept : profile.accept serverName uri start randomness with
  | error error =>
      cases hinitial : initialBlob uri start with
      | error error => simpa only [World.begun, hinitial] using h
      | ok blob =>
          dsimp only
          rw [begun_ok profile w key serverName randomness hinitial]
          exact hnoting blob
  | ok kept =>
      obtain ⟨state, content⟩ := kept
      obtain ⟨blob, hinitial, houtcome⟩ := SaslProfile.accept_ok haccept
      have hbegun := hnoting blob
      dsimp only
      rw [begun_ok profile w key serverName randomness hinitial]
      refine ⟨hbegun.genuine, hbegun.rounds, fun {id exchange} hkept => ?_⟩
      have hheld : (if opens then w.tasks ++ [.opening key] else w.tasks).filterMap
          Task.thing = w.held := by
        cases opens
        · rfl
        · exact (List.filterMap_append ..).trans (List.append_nil _)
      rw [World.held] at hkept
      dsimp only at hkept
      rw [hheld] at hkept
      rcases hkept.of_set with heq | hkept
      · cases heq
        rcases houtcome with ⟨-, hstate⟩ | ⟨identity, -, hstate⟩
        · cases hstate
          exact ⟨_, List.mem_append_right _ (List.mem_singleton_self _), rfl, rfl⟩
        · cases hstate
      · exact hbegun.kept hkept

theorem Chained.turned {task : Task} {left rest : List Task} {next : World}
    {randomness : Randomness} (h : w.Chained profile) (htasks : w.tasks.Perm (task :: rest))
    (hturned : Turned profile w randomness task next left) :
    ({ next with tasks := left ++ rest } : World).Chained profile := by
  have hperm := held_facing htasks
  have hkept : ∀ {id exchange},
      Kept w.table (task.thing.toList ++ rest.filterMap Task.thing)
        (id, .inFlight exchange) → w.Left id exchange :=
    fun hthing => h.kept (hthing.perm hperm.symm)
  have hround : ∀ {id key exchange msgno payload}, task = .holding id key exchange msgno payload →
      ∀ blob, (w.noting w.next
        (laterRound profile id key exchange randomness blob)).Chained profile := by
    rintro id key exchange msgno payload rfl blob
    exact h.noting _ ⟨randomness, rfl⟩ (.inr (hkept (.inr (List.mem_cons_self ..))))
  cases hturned with
  | collected htable =>
      exact ⟨h.genuine, h.rounds, fun hthing => hkept (hthing.of_take htable)⟩
  | opened => exact ⟨h.genuine, h.rounds, hkept⟩
  | recorded => exact ⟨h.genuine, h.rounds, fun hthing => hkept hthing.of_release⟩
  | took htable =>
      exact ⟨h.genuine, h.rounds, fun hthing => hkept (hthing.of_take htable)⟩
  | missed => exact ⟨h.genuine, h.rounds, fun hthing => hkept hthing.of_clear⟩
  | gaveUp => exact ⟨h.genuine, h.rounds, fun hthing => hkept hthing.of_release⟩
  | @goesOn id key exchange msgno payload blob challenge =>
      have hnoted := hround rfl blob
      refine ⟨hnoted.genuine, hnoted.rounds, fun hthing => ?_⟩
      rcases hthing with hthing | hthing
      · exact hnoted.kept (.inl hthing)
      · rcases List.mem_cons.mp hthing with heq | hthing
        · cases heq
          exact ⟨_, List.mem_append_right _ (List.mem_singleton_self _), rfl, rfl⟩
        · exact hnoted.kept ((Kept.perm hperm.symm) (.inr (List.mem_cons_of_mem _ hthing)))
  | @completes id key exchange msgno payload blob data identity =>
      have hnoted := hround rfl blob
      refine ⟨hnoted.genuine, hnoted.rounds, fun hthing => ?_⟩
      rcases hthing with hthing | hthing
      · exact hnoted.kept (.inl hthing)
      · rcases List.mem_cons.mp hthing with heq | hthing
        · cases heq
        · exact hnoted.kept ((Kept.perm hperm.symm) (.inr (List.mem_cons_of_mem _ hthing)))
  | @fails id key exchange msgno payload blob answer =>
      have hnoted := hround rfl blob
      refine ⟨hnoted.genuine, hnoted.rounds, fun hthing => ?_⟩
      exact hnoted.kept ((Kept.perm hperm.symm) hthing.of_release)
  | putBack =>
      refine ⟨h.genuine, h.rounds, fun hthing => ?_⟩
      rcases hthing.of_set with heq | hthing
      · cases heq
        exact hkept (.inr (List.mem_cons_self ..))
      · exact hkept hthing.of_release
  | asked | waits => exact ⟨h.genuine, h.rounds, hkept⟩
  | told => exact ⟨h.genuine, h.rounds, fun hthing => hkept hthing.of_release⟩
  | answered => exact ⟨h.genuine, h.rounds, hkept⟩

theorem Chained.act (h : w.Chained profile) (act : Act) :
    (w.act profile act).Chained profile := by
  cases act with
  | start key serverName uri start randomness opens =>
      exact h.begin key serverName uri start randomness opens
  | message key msgno payload =>
      refine h.congr rfl fun hthing => hthing.perm (List.Perm.of_eq ?_)
      exact (List.filterMap_append ..).trans (List.append_nil _)
  | turn index randomness =>
      cases htask : w.tasks[index]? with
      | none => simpa only [World.act, htask] using h
      | some task =>
          obtain ⟨rest, htasks, hleft, hact⟩ := act_turn profile randomness htask
          rw [hact]
          exact (h.turned htasks (World.turned profile w randomness task)).congr rfl
            fun hthing => hthing.perm (hleft.filterMap Task.thing)
  | drive =>
      change w.drive.Chained profile
      unfold World.drive
      split <;> exact h.congr rfl id

end World

/-! ## How a round ends well -/

section Mechanisms

variable {authenticator : Authenticator} {context : Context} {blob : Octets}
  {identity : Identity}

theorem anonymousStep_identity
    (h : (anonymousStep authenticator context blob).identity = some identity) :
    ∃ token, text blob = some token ∧ authenticator.anonymous context token ∧
      identity = .new token := by
  unfold anonymousStep at h
  cases htext : text blob with
  | none =>
      rw [htext] at h
      cases h
  | some token =>
      rw [htext] at h
      dsimp only at h
      split at h
      · rename_i hadmits
        cases h
        exact ⟨token, rfl, hadmits, rfl⟩
      · cases h

theorem externalStep_identity
    (h : (externalStep authenticator context blob).identity = some identity) :
    ∃ name, text blob = some name ∧ authenticator.external context (askedFor name) ∧
      identity = ⟨name, askedFor name⟩ := by
  unfold externalStep at h
  cases htext : text blob with
  | none =>
      rw [htext] at h
      cases h
  | some name =>
      rw [htext] at h
      dsimp only at h
      split at h
      · rename_i hadmits
        cases h
        exact ⟨name, rfl, hadmits, rfl⟩
      · cases h

theorem plainStep_identity
    (h : (plainStep authenticator context blob).identity = some identity) :
    ∃ authorization who password, plainFields blob = some (authorization, who, password) ∧
      authenticator.plain context who (askedFor authorization) password ∧
      identity = ⟨who, askedFor authorization⟩ := by
  unfold plainStep at h
  split at h
  · rename_i first second third hfields
    split at h
    · rename_i authorization who password hfirst hsecond hthird
      split at h
      · rename_i hadmits
        cases h
        refine ⟨authorization, who, password, ?_, hadmits, rfl⟩
        simp [plainFields, hfields, hfirst, hsecond, hthird]
      · cases h
    · cases h
  · cases h

theorem effective_askedFor (who name : String) :
    (name = "" ∧ (⟨who, askedFor name⟩ : Identity).effective = who) ∨
      (name ≠ "" ∧ askedFor name = some name ∧
        (⟨who, askedFor name⟩ : Identity).effective = name) := by
  by_cases hname : name = ""
  · exact .inl ⟨hname, by simp [Identity.effective, askedFor, hname]⟩
  · exact .inr ⟨hname, by simp [askedFor, hname], by simp [Identity.effective, askedFor, hname]⟩

theorem CramMd5Exchange.step_identity {digests : Digests} {exchange : CramMd5Exchange}
    {randomness : Randomness}
    (h : (exchange.step authenticator digests randomness blob).1.identity = some identity) :
    ∃ challenge response user secret, exchange.challenge = some challenge ∧
      text blob = some response ∧
      authenticator.secret exchange.context user none = some secret ∧
      rsplitOnce (trimEnd response) " " =
        some (user, hex (digests.hmacMd5 (octets secret) (octets challenge)).toList) ∧
      identity = .new user := by
  unfold step at h
  cases hchallenge : exchange.challenge with
  | none =>
      rw [hchallenge] at h
      cases h
  | some challenge =>
      rw [hchallenge] at h
      dsimp only at h
      unfold verify at h
      split at h
      · cases h
      · rename_i response htext
        split at h
        · cases h
        · rename_i user digest hsplit
          split at h
          · cases h
          · rename_i secret hsecret
            dsimp only at h
            split at h
            · rename_i hdigest
              cases h
              exact ⟨challenge, response, user, secret, rfl, htext, hsecret,
                hdigest ▸ hsplit, rfl⟩
            · cases h

theorem DigestMd5Exchange.step_identity {digests : Digests} {exchange : DigestMd5Exchange}
    {randomness : Randomness}
    (h : (exchange.step authenticator digests randomness blob).1.identity = some identity) :
    exchange.state = .confirmed identity ∧ blob = [] := by
  unfold step at h
  cases hstate : exchange.state with
  | start =>
      rw [hstate] at h
      cases h
  | challenged nonce =>
      rw [hstate] at h
      dsimp only at h
      unfold check at h
      split at h
      · cases h
      · split at h
        · cases h
        · split at h
          · cases h
          · dsimp only at h
            split at h <;> cases h
  | confirmed found =>
      rw [hstate] at h
      dsimp only at h
      split at h
      · rename_i hblob
        cases h
        exact ⟨rfl, hblob⟩
      · cases h

/-- The identity that is confirmed is the one that responded, with what it asked for. -/
theorem DigestMd5Exchange.step_confirmed {digests : Digests} {exchange : DigestMd5Exchange}
    {randomness : Randomness}
    (h : (exchange.step authenticator digests randomness blob).2.state =
      .confirmed identity) :
    ∃ sent, exchange.Responds authenticator digests blob sent ∧
      identity = ⟨sent.username, sent.authorization⟩ := by
  unfold step at h
  cases hstate : exchange.state with
  | start =>
      rw [hstate] at h
      cases h
  | challenged nonce =>
      rw [hstate] at h
      dsimp only at h
      unfold check at h
      split at h
      · cases h
      · rename_i response htext
        split at h
        · cases h
        · rename_i sent hread
          split at h
          · cases h
          · rename_i key hkey
            dsimp only at h
            split at h
            · cases h
            · rename_i hdigest
              cases h
              exact ⟨sent, ⟨⟨response, htext, hread⟩,
                nonce, key, hstate, hkey, not_not.mp hdigest⟩, rfl⟩
  | confirmed found =>
      rw [hstate] at h
      cases h

theorem ScramExchange.step_identity {digests : Digests} {exchange : ScramExchange}
    {randomness : Randomness}
    (h : (exchange.step authenticator digests randomness blob).1.identity = some identity) :
    ∃ user authorization credentials nonce signed final,
      exchange.state = .challenged user authorization credentials nonce signed ∧
      ClientFinal.read blob = some final ∧
      Proves digests credentials nonce signed final ∧ identity = ⟨user, authorization⟩ := by
  unfold step at h
  cases hstate : exchange.state with
  | start =>
      rw [hstate] at h
      dsimp only at h
      unfold first at h
      split at h
      · cases h
      · split at h <;> cases h
  | challenged user authorization credentials nonce signed =>
      rw [hstate] at h
      dsimp only at h
      obtain ⟨final, hread, hproves⟩ := finalMessage_identity.mp
        (Option.isSome_iff_exists.mpr ⟨identity, h⟩)
      refine ⟨user, authorization, credentials, nonce, signed, final, rfl, hread, hproves, ?_⟩
      exact finalMessage_user h

/-- The key that a proof is asked for is the one that is stored for the user. -/
theorem ScramExchange.step_challenged {digests : Digests} {exchange : ScramExchange}
    {randomness : Randomness} {user : String} {authorization : Option String}
    {credentials : ScramCredentials} {nonce signed : String}
    (h : (exchange.step authenticator digests randomness blob).2.state =
      .challenged user authorization credentials nonce signed) :
    authenticator.scram (exchange.step authenticator digests randomness blob).2.context user =
      some credentials := by
  unfold step at h ⊢
  cases hstate : exchange.state with
  | start =>
      rw [hstate] at h
      dsimp only at h ⊢
      unfold first at h ⊢
      split at h
      · rw [hstate] at h
        cases h
      · rename_i message hread
        split at h
        · rw [hstate] at h
          cases h
        · rename_i found hfound
          cases h
          exact hfound
  | challenged =>
      rw [hstate] at h
      cases h

theorem Exchange.step_digestMd5 {digests : Digests} {exchange : Exchange}
    {left : DigestMd5Exchange} {randomness : Randomness}
    (h : (exchange.step authenticator digests randomness blob).2 = .digestMd5 left) :
    ∃ taken, exchange = .digestMd5 taken ∧
      (taken.step authenticator digests randomness blob).2 = left := by
  cases exchange with
  | digestMd5 taken =>
      cases h
      exact ⟨taken, rfl, rfl⟩
  | anonymous | external | plain | cramMd5 | scram => cases h

theorem Exchange.step_scram {digests : Digests} {exchange : Exchange}
    {left : ScramExchange} {randomness : Randomness}
    (h : (exchange.step authenticator digests randomness blob).2 = .scram left) :
    ∃ taken, exchange = .scram taken ∧
      (taken.step authenticator digests randomness blob).2 = left := by
  cases exchange with
  | scram taken =>
      cases h
      exact ⟨taken, rfl, rfl⟩
  | anonymous | external | plain | cramMd5 | digestMd5 => cases h

end Mechanisms

namespace World

variable {w : World} {profile : SaslProfile} {entry : Stepped}

theorem Chained.source (h : w.Chained profile) (hmem : entry ∈ w.steps)
    (hstage : entry.exchange.stage ≠ 0) :
    ∃ earlier ∈ w.steps, earlier.id = entry.id ∧ ∃ randomness,
      earlier.exchange.step profile.authenticator profile.digests randomness earlier.blob =
        (earlier.step, entry.exchange) := by
  rcases h.rounds entry hmem with ⟨context, hbegin⟩ | ⟨earlier, hearlier, hid, hleft⟩
  · rw [hbegin, Exchange.stage_begin] at hstage
    exact absurd rfl hstage
  · obtain ⟨randomness, hgenuine⟩ := h.genuine earlier hearlier
    exact ⟨earlier, hearlier, hid, randomness, hleft ▸ hgenuine⟩

/-- The identity that a `DIGEST-MD5` exchange has confirmed is the one that responded. -/
theorem Chained.confirmed (h : w.Chained profile) (hmem : entry ∈ w.steps)
    {exchange : DigestMd5Exchange} {identity : Identity}
    (hexchange : entry.exchange = .digestMd5 exchange)
    (hstate : exchange.state = .confirmed identity) :
    ∃ earlier ∈ w.steps, earlier.id = entry.id ∧ ∃ taken sent,
      earlier.exchange = .digestMd5 taken ∧
      taken.Responds profile.authenticator profile.digests earlier.blob sent ∧
      sent.username = identity.authenticationId := by
  obtain ⟨earlier, hearlier, hid, randomness, hgenuine⟩ := h.source hmem (by
    simp [hexchange, Exchange.stage, hstate])
  rw [hexchange] at hgenuine
  obtain ⟨taken, htaken, hleft⟩ := Exchange.step_digestMd5 (congrArg Prod.snd hgenuine)
  rw [← hleft] at hstate
  obtain ⟨sent, hresponds, rfl⟩ := DigestMd5Exchange.step_confirmed hstate
  exact ⟨earlier, hearlier, hid, taken, sent, htaken, hresponds, rfl⟩

/-- An identity that an exchange ends with is granted, unless the peer oversteps. -/
theorem Chained.granted (h : w.Chained profile) (hmem : entry ∈ w.steps)
    {identity : Identity} (hidentity : entry.step.identity = some identity) :
    w.Granted profile entry.id identity.effective ∨ entry.Oversteps profile := by
  obtain ⟨randomness, hgenuine⟩ := h.genuine entry hmem
  have hstep : (entry.exchange.step profile.authenticator profile.digests randomness
      entry.blob).1 = entry.step := by rw [hgenuine]
  rw [← hstep] at hidentity
  cases hexchange : entry.exchange with
  | anonymous context =>
      rw [hexchange] at hidentity
      obtain ⟨token, htext, hadmits, rfl⟩ := anonymousStep_identity hidentity
      refine .inl ⟨entry, hmem, rfl, .inl ?_⟩
      rw [Stepped.Verifies, hexchange]
      exact ⟨htext, hadmits⟩
  | external context =>
      rw [hexchange] at hidentity
      obtain ⟨name, htext, hadmits, rfl⟩ := externalStep_identity hidentity
      refine .inl ⟨entry, hmem, rfl, .inr ?_⟩
      rw [Stepped.Approves, hexchange]
      rcases effective_askedFor name name with ⟨-, heffective⟩ | ⟨-, -, heffective⟩ <;>
        exact heffective.symm ▸ ⟨htext, hadmits⟩
  | plain context =>
      rw [hexchange] at hidentity
      obtain ⟨authorization, who, password, hfields, hadmits, rfl⟩ :=
        plainStep_identity hidentity
      refine .inl ⟨entry, hmem, rfl, ?_⟩
      rcases effective_askedFor who authorization with
        ⟨-, heffective⟩ | ⟨hname, hasked, heffective⟩
      · refine .inl ?_
        rw [Stepped.Verifies, hexchange, heffective]
        exact ⟨authorization, password, hfields, hadmits⟩
      · refine .inr ?_
        rw [Stepped.Approves, hexchange, heffective]
        exact ⟨who, password, hfields, hname, hasked ▸ hadmits⟩
  | cramMd5 exchange =>
      rw [hexchange] at hidentity
      obtain ⟨challenge, response, user, secret, hchallenge, htext, hsecret, hsplit, rfl⟩ :=
        CramMd5Exchange.step_identity hidentity
      refine .inl ⟨entry, hmem, rfl, .inl ?_⟩
      rw [Stepped.Verifies, hexchange]
      exact ⟨challenge, response, secret, hchallenge, htext, hsecret, hsplit⟩
  | digestMd5 exchange =>
      rw [hexchange] at hidentity
      obtain ⟨hstate, hblob⟩ := DigestMd5Exchange.step_identity hidentity
      by_cases heffective : identity.effective = identity.authenticationId
      · obtain ⟨earlier, hearlier, hid, taken, sent, htaken, hresponds, huser⟩ :=
          h.confirmed hmem hexchange hstate
        refine .inl ⟨earlier, hearlier, hid, .inl ?_⟩
        rw [Stepped.Verifies, htaken]
        exact ⟨sent, hresponds, huser.trans heffective.symm⟩
      · refine .inr ?_
        rw [Stepped.Oversteps, hexchange]
        exact ⟨identity, hstate, hblob, heffective⟩
  | scram exchange =>
      rw [hexchange] at hidentity
      obtain ⟨user, authorization, credentials, nonce, signed, final, hstate, hread,
        hproves, rfl⟩ := ScramExchange.step_identity hidentity
      by_cases heffective : (⟨user, authorization⟩ : Identity).effective = user
      · obtain ⟨earlier, -, -, randomness', hgenuine'⟩ := h.source hmem (by
          simp [hexchange, Exchange.stage, hstate])
        rw [hexchange] at hgenuine'
        obtain ⟨taken, -, hleft⟩ := Exchange.step_scram (congrArg Prod.snd hgenuine')
        have hcredentials := ScramExchange.step_challenged (hleft ▸ hstate)
        refine .inl ⟨entry, hmem, rfl, .inl ?_⟩
        rw [Stepped.Verifies, hexchange, heffective]
        exact ⟨authorization, credentials, nonce, signed, final, hstate,
          hleft ▸ hcredentials, hread, hproves⟩
      · refine .inr ?_
        rw [Stepped.Oversteps, hexchange]
        cases authorization with
        | none => exact absurd rfl heffective
        | some authorization =>
            exact ⟨user, authorization, credentials, nonce, signed, final, hstate,
              heffective, hread, hproves⟩

/-- A round that verifies or approves is the last, but for the response of `DIGEST-MD5`. -/
theorem Chained.over (h : w.Chained profile) (hmem : entry ∈ w.steps) {name : String}
    (hgrants : entry.Verifies profile name ∨ entry.Approves profile name) :
    (∃ exchange sent, entry.exchange = .digestMd5 exchange ∧
      exchange.Responds profile.authenticator profile.digests entry.blob sent ∧
      sent.username = name) ∨
      (¬ entry.step.goesOn ∧ ∀ exchange, entry.exchange ≠ .digestMd5 exchange) := by
  obtain ⟨randomness, hgenuine⟩ := h.genuine entry hmem
  have hstep : (entry.exchange.step profile.authenticator profile.digests randomness
      entry.blob).1 = entry.step := by rw [hgenuine]
  rw [← hstep]
  unfold Stepped.Verifies Stepped.Approves at hgrants
  cases hexchange : entry.exchange with
  | anonymous context =>
      have hover := anonymousStep_over profile.authenticator context entry.blob
      exact .inr ⟨by simp [Exchange.step, hover], by simp⟩
  | external context =>
      have hover := externalStep_over profile.authenticator context entry.blob
      exact .inr ⟨by simp [Exchange.step, hover], by simp⟩
  | plain context =>
      have hover := plainStep_over profile.authenticator context entry.blob
      exact .inr ⟨by simp [Exchange.step, hover], by simp⟩
  | cramMd5 exchange =>
      rw [hexchange] at hgrants
      obtain ⟨challenge, -, -, hchallenge, -⟩ | hgrants := hgrants
      · have hover := exchange.verify_over profile.authenticator profile.digests challenge
          entry.blob
        exact .inr ⟨by simp [Exchange.step, CramMd5Exchange.step, hchallenge, hover], by simp⟩
      · cases hgrants
  | digestMd5 exchange =>
      rw [hexchange] at hgrants
      obtain ⟨sent, hresponds, huser⟩ | hgrants := hgrants
      · exact .inl ⟨exchange, sent, rfl, hresponds, huser⟩
      · cases hgrants
  | scram exchange =>
      rw [hexchange] at hgrants
      obtain ⟨authorization, credentials, nonce, signed, -, hstate, -⟩ | hgrants := hgrants
      · have hover := ScramExchange.finalMessage_over profile.digests name authorization
          credentials nonce signed entry.blob
        exact .inr ⟨by simp [Exchange.step, ScramExchange.step, hstate, hover], by simp⟩
      · cases hgrants

end World

theorem DigestMd5Exchange.Responds.stage {authenticator : Authenticator} {digests : Digests}
    {exchange : DigestMd5Exchange} {blob : Octets}
    {sent : DigestMd5Exchange.Response}
    (h : exchange.Responds authenticator digests blob sent) :
    (Exchange.digestMd5 exchange).stage = 1 := by
  obtain ⟨nonce, key, hstate, -⟩ := h.digest
  simp [Exchange.stage, hstate]

theorem DigestMd5Exchange.Responds.sent {authenticator : Authenticator} {digests : Digests}
    {exchange : DigestMd5Exchange} {blob : Octets} {sent sent' : Response}
    (h : exchange.Responds authenticator digests blob sent)
    (h' : exchange.Responds authenticator digests blob sent') : sent = sent' := by
  obtain ⟨response, htext, hread⟩ := h.read
  obtain ⟨response', htext', hread'⟩ := h'.read
  cases htext.symm.trans htext'
  exact Option.some.inj (hread.symm.trans hread')

namespace World

variable {w : World} {profile : SaslProfile} {entry : Stepped}

theorem Chained.ungranted (h : w.Chained profile) (hinTurn : InTurn w.steps)
    (hmem : entry ∈ w.steps) (hoversteps : entry.Oversteps profile) {identity : Identity}
    (hidentity : entry.step.identity = some identity) :
    ¬ w.Granted profile entry.id identity.effective := by
  rintro ⟨found, hfound, hid, hgrants⟩
  have hlast : ¬ found.step.goesOn → found = entry := fun hover =>
    hinTurn.same hfound hmem hid (fun hlater => hover hlater.1)
      (fun hlater => Step.not_goesOn hidentity hlater.1)
  obtain ⟨randomness, hgenuine⟩ := h.genuine entry hmem
  have hstep : (entry.exchange.step profile.authenticator profile.digests randomness
      entry.blob).1 = entry.step := by rw [hgenuine]
  rw [← hstep] at hidentity
  unfold Stepped.Oversteps at hoversteps
  cases hexchange : entry.exchange with
  | anonymous | external | plain | cramMd5 =>
      rw [hexchange] at hoversteps
      exact hoversteps
  | digestMd5 exchange =>
      rw [hexchange] at hoversteps hidentity
      obtain ⟨confirmed, hstate, -, heffective⟩ := hoversteps
      obtain ⟨hstate', -⟩ := DigestMd5Exchange.step_identity hidentity
      cases hstate.symm.trans hstate'
      rcases h.over hfound hgrants with
        ⟨taken, sent, htaken, hresponds, huser⟩ | ⟨hover, hother⟩
      · obtain ⟨earlier, hearlier, hsame, response, sent', hresponse, hresponds', huser'⟩ :=
          h.confirmed hmem hexchange hstate
        have heq : found = earlier := by
          refine hinTurn.same hfound hearlier (hid.trans hsame.symm) ?_ ?_ <;>
            simp [htaken, hresponse, hresponds.stage, hresponds'.stage]
        subst heq
        cases htaken.symm.trans hresponse
        cases hresponds.sent hresponds'
        exact heffective (huser.symm.trans huser')
      · cases hlast hover
        exact hother exchange hexchange
  | scram exchange =>
      rw [hexchange] at hoversteps hidentity
      obtain ⟨user, authorization, credentials, nonce, signed, final, hstate, hne, -⟩ :=
        hoversteps
      obtain ⟨user', authorization', _, _, _, _, hstate', -, -, rfl⟩ :=
        ScramExchange.step_identity hidentity
      cases hstate.symm.trans hstate'
      rcases h.over hfound hgrants with
        ⟨taken, sent, htaken, hresponds, -⟩ | ⟨hover, hother⟩
      · have hone : (Exchange.scram exchange).stage = 1 := by simp [Exchange.stage, hstate]
        have heq : found = entry := by
          refine hinTurn.same hfound hmem hid ?_ ?_ <;>
            simp [htaken, hexchange, hresponds.stage, hone]
        subst heq
        cases hexchange.symm.trans htaken
      · cases hlast hover
        unfold Stepped.Verifies Stepped.Approves at hgrants
        rw [hexchange] at hgrants
        obtain ⟨_, _, _, _, _, hstate', -⟩ | hgrants := hgrants
        · have huser := (ScramExchange.Phase.challenged.inj (hstate.symm.trans hstate')).1
          exact hne huser.symm
        · exact hgrants

theorem Chained.oversteps_over (h : w.Chained profile) (hmem : entry ∈ w.steps)
    (hoversteps : entry.Oversteps profile) : ¬ entry.step.goesOn := by
  obtain ⟨randomness, hgenuine⟩ := h.genuine entry hmem
  have hstep : (entry.exchange.step profile.authenticator profile.digests randomness
      entry.blob).1 = entry.step := by rw [hgenuine]
  rw [← hstep]
  unfold Stepped.Oversteps at hoversteps
  cases hexchange : entry.exchange with
  | anonymous | external | plain | cramMd5 =>
      rw [hexchange] at hoversteps
      exact hoversteps.elim
  | digestMd5 exchange =>
      rw [hexchange] at hoversteps
      obtain ⟨identity, hstate, hblob, -⟩ := hoversteps
      simp [Exchange.step, DigestMd5Exchange.step, hstate, hblob, Step.goesOn]
  | scram exchange =>
      rw [hexchange] at hoversteps
      obtain ⟨user, authorization, credentials, nonce, signed, -, hstate, -⟩ := hoversteps
      have hover := ScramExchange.finalMessage_over profile.digests user (some authorization)
        credentials nonce signed entry.blob
      simp [Exchange.step, ScramExchange.step, hstate, hover]

/-- What is recorded is what was verified or approved, exactly as long as no peer whose
exchange it is recorded for has overstepped. -/
theorem run_granted (hrun : Run (World.act profile) (fun _ _ => True) .idle w) :
    (∀ id key name, (id, key, name) ∈ w.applied → w.Granted profile id name) ↔
      ∀ id key name, (id, key, name) ∈ w.applied →
        ∀ entry ∈ w.steps, entry.id = id → ¬ entry.Oversteps profile := by
  have hchained : w.Chained profile := hrun.preserves (fun _ h => h.act _) .idle
  have hearned : w.Earned := hrun.preserves (fun _ h => h.act _) .idle
  have hsingle : w.Single := hrun.preserves (fun _ h => h.act _) .idle
  constructor
  · intro hgranted id key name happlied entry hmem hid hoversteps
    obtain ⟨identity, ⟨last, hlast, hsame, -, hidentity⟩, rfl⟩ := hearned.applied happlied
    have heq : entry = last := hsingle.inTurn.same hmem hlast (hid.trans hsame.symm)
      (fun hlater => hchained.oversteps_over hmem hoversteps hlater.1)
      (fun hlater => Step.not_goesOn hidentity hlater.1)
    subst heq
    exact hchained.ungranted hsingle.inTurn hmem hoversteps hidentity
      (hid ▸ hgranted id key _ happlied)
  · intro hwithin id key name happlied
    obtain ⟨identity, ⟨last, hlast, hsame, -, hidentity⟩, rfl⟩ := hearned.applied happlied
    rcases hchained.granted hlast hidentity with hgranted | hoversteps
    · exact hsame ▸ hgranted
    · exact absurd hoversteps (hwithin id key _ happlied last hlast hsame)

/-! ## Two runs -/

end World

/-- The rounds of an exchange are those of `SCRAM-SHA-256` for one user, who asks to be taken
for the same or for another. -/
def Stepped.scramFor (entry : Stepped) (name wanted : String) : Bool :=
  match entry.exchange with
  | .scram exchange =>
      match exchange.state with
      | .start => true
      | .challenged user authorization .. => user = name && authorization = some wanted
  | _ => false

namespace World

variable {w : World} {profile : SaslProfile}

/-- The peer proves the key of `u` with the first message that is given, and
`c=biws,r=x,p=AAAAAAAAAAAAAAAAAAAAAAAAAAAAAAAAAAAAAAAAAAA=`. -/
def scramActs (first : String) : List Act :=
  [.sampleStart .scramSha256 (some ("<blob>" ++ first ++ "</blob>")),
    .message (0, 1) 0 (octets ("<blob>Yz1iaXdzLHI9eCxwPUFBQUFBQUFBQUFBQUFBQUFBQUFBQU" ++
      "FBQUFBQUFBQUFBQUFBQUFBQUFBQUE9</blob>")),
    .sampleTurn 1, .sampleTurn 1, .sampleTurn 1, .drive]

/-- The first message is `n,a=u,n=u,r=x`. -/
def sampleOwn : List Act := scramActs "bixhPXUsbj11LHI9eA=="

/-- The first message is `n,a=a,n=u,r=x`. -/
def sampleScram : List Act := scramActs "bixhPWEsbj11LHI9eA=="

/-- A peer that asks to be taken for the user whose password it has does not overstep. -/
theorem run_granted_own :
    let w := World.after (.sample .scramSha256) sampleOwn
    w.applied = [(0, (0, 1), "u")] ∧ w.Granted (.sample .scramSha256) 0 "u" := by
  have hrun : (World.after (.sample .scramSha256) sampleOwn).applied = [(0, (0, 1), "u")] ∧
      (World.after (.sample .scramSha256) sampleOwn).steps.all
        (Stepped.scramFor · "u" "u") := by
    decide +kernel
  refine ⟨hrun.1, (run_granted (Run.of_list _ _ sampleOwn)).mpr ?_ 0 (0, 1) "u" (by
    rw [← World.after, hrun.1]
    exact List.mem_singleton_self _)⟩
  intro id key name _ entry hmem _ hoversteps
  have hentry := List.all_eq_true.mp hrun.2 entry hmem
  unfold Stepped.scramFor at hentry
  unfold Stepped.Oversteps at hoversteps
  cases hexchange : entry.exchange with
  | scram exchange =>
      rw [hexchange] at hentry hoversteps
      obtain ⟨_, _, _, _, _, _, hstate, hother, -⟩ := hoversteps
      simp only [hstate, Bool.and_eq_true, decide_eq_true_eq, Option.some.injEq] at hentry
      exact hother (hentry.2.trans hentry.1.symm)
  | anonymous | external | plain | cramMd5 | digestMd5 =>
      rw [hexchange] at hentry
      cases hentry

/-- The peer has the password of `u` and is taken for `a`, which nobody was asked about. -/
theorem scram_ungranted :
    ¬ ∀ (profile : SaslProfile) (w : World),
      Run (World.act profile) (fun _ _ => True) .idle w →
        ∀ id key name, (id, key, name) ∈ w.applied → w.Granted profile id name := by
  intro h
  have hrun : (World.after (.sample .scramSha256) sampleScram).applied = [(0, (0, 1), "a")] ∧
      (World.after (.sample .scramSha256) sampleScram).steps.all
        (Stepped.scramFor · "u" "a") := by
    decide +kernel
  obtain ⟨entry, hmem, -, hgrants⟩ := h (.sample .scramSha256) _ (Run.of_list _ _ sampleScram)
    0 (0, 1) "a" (by
      rw [← World.after, hrun.1]
      exact List.mem_singleton_self _)
  have hentry := List.all_eq_true.mp hrun.2 entry hmem
  unfold Stepped.scramFor at hentry
  unfold Stepped.Verifies Stepped.Approves at hgrants
  cases hexchange : entry.exchange with
  | scram exchange =>
      rw [hexchange] at hentry hgrants
      obtain ⟨_, _, _, _, _, hstate, -⟩ | hgrants := hgrants
      · simp [hstate] at hentry
      · exact hgrants
  | anonymous | external | plain | cramMd5 | digestMd5 =>
      rw [hexchange] at hentry
      cases hentry

end World

end Vortice.Sasl
