import Vortice.Foundation.Ownership
import Vortice.Sasl.Turns

/-!
# One guess for each challenge

An exchange is in the table or in the hands of one task.  Every round it goes on from
takes it to a later stage, and a challenge is out at one stage only, so no challenge is
ever checked twice.
-/

namespace Vortice.Sasl

open Vortice.Foundation

/-! ## Stages of an exchange -/

namespace Exchange

variable (authenticator : Authenticator) (digests : Digests) (randomness : Randomness)
  (blob : Octets) (exchange : Exchange)

/-- How far an exchange has come. -/
def stage : Exchange → Nat
  | .anonymous _ | .external _ | .plain _ => 0
  | .cramMd5 exchange => if exchange.challenge.isSome then 1 else 0
  | .digestMd5 exchange =>
      match exchange.state with
      | .start => 0
      | .challenged _ => 1
      | .confirmed _ => 2
  | .scram exchange =>
      match exchange.state with
      | .start => 0
      | .challenged .. => 1

/-- The challenge or nonce that is out, to be used in the next round. -/
def issued : Exchange → Option String
  | .anonymous _ | .external _ | .plain _ => none
  | .cramMd5 exchange => exchange.challenge
  | .digestMd5 exchange =>
      match exchange.state with
      | .challenged nonce => some nonce
      | _ => none
  | .scram exchange =>
      match exchange.state with
      | .challenged _ _ _ nonce _ => some nonce
      | .start => none

theorem issued_isSome : exchange.issued.isSome ↔ exchange.stage = 1 := by
  cases exchange with
  | anonymous | external | plain => simp [issued, stage]
  | cramMd5 exchange =>
      cases hchallenge : exchange.challenge <;> simp [issued, stage, hchallenge]
  | digestMd5 exchange =>
      cases hstate : exchange.state <;> simp [issued, stage, hstate]
  | scram exchange =>
      cases hstate : exchange.state <;> simp [issued, stage, hstate]

theorem stage_begin (mechanism : Mechanism) (context : Context) :
    (mechanism.begin context).stage = 0 := by
  cases mechanism <;> rfl

end Exchange

theorem anonymousStep_over (authenticator : Authenticator) (context : Context)
    (blob : Octets) : (anonymousStep authenticator context blob).goesOn = false := by
  unfold anonymousStep
  split
  · rfl
  · split <;> rfl

theorem externalStep_over (authenticator : Authenticator) (context : Context)
    (blob : Octets) : (externalStep authenticator context blob).goesOn = false := by
  unfold externalStep
  split
  · rfl
  · split <;> rfl

theorem plainStep_over (authenticator : Authenticator) (context : Context)
    (blob : Octets) : (plainStep authenticator context blob).goesOn = false := by
  unfold plainStep
  split
  · split
    · split <;> rfl
    · rfl
  · rfl

theorem CramMd5Exchange.verify_over (authenticator : Authenticator) (digests : Digests)
    (exchange : CramMd5Exchange) (challenge : String) (response : Octets) :
    (exchange.verify authenticator digests challenge response).goesOn = false := by
  unfold verify
  split
  · rfl
  · split
    · rfl
    · split
      · rfl
      · dsimp only
        split <;> rfl

theorem ScramExchange.finalMessage_over (digests : Digests) (user : String)
    (authorization : Option String) (credentials : ScramCredentials)
    (nonce signed : String) (blob : Octets) :
    (finalMessage digests user authorization credentials nonce signed blob).goesOn =
      false := by
  unfold finalMessage
  split
  · rfl
  · split
    · rfl
    · split
      · rfl
      · split
        · rfl
        · dsimp only
          split
          · rfl
          · split <;> rfl

/-- A response that is checked takes the exchange to its last stage, or ends it. -/
theorem DigestMd5Exchange.check_confirms (authenticator : Authenticator)
    (digests : Digests) (exchange : DigestMd5Exchange) (nonce : String)
    (response : Octets)
    (h : (exchange.check authenticator digests nonce response).1.goesOn) :
    ∃ identity, (exchange.check authenticator digests nonce response).2.state =
      .confirmed identity := by
  unfold check at h ⊢
  dsimp only at h ⊢
  cases htext : text response with
  | none =>
      rw [htext] at h
      cases h
  | some source =>
      rw [htext] at h
      dsimp only at h ⊢
      cases hread : Response.read (directives source) with
      | none =>
          rw [hread] at h
          cases h
      | some sent =>
          rw [hread] at h
          dsimp only at h ⊢
          cases hkey : exchange.keyFor authenticator digests nonce sent with
          | none =>
              rw [hkey] at h
              cases h
          | some key =>
              rw [hkey] at h
              dsimp only at h ⊢
              split at h
              · cases h
              · rename_i hsame
                rw [if_neg hsame]
                exact ⟨_, rfl⟩

theorem Exchange.stage_lt (authenticator : Authenticator) (digests : Digests)
    (randomness : Randomness) (blob : Octets) (exchange : Exchange)
    (h : (exchange.step authenticator digests randomness blob).1.goesOn) :
    exchange.stage < (exchange.step authenticator digests randomness blob).2.stage := by
  cases exchange with
  | anonymous context =>
      have hover := anonymousStep_over authenticator context blob
      rw [step] at h
      rw [hover] at h
      cases h
  | external context =>
      have hover := externalStep_over authenticator context blob
      rw [step] at h
      rw [hover] at h
      cases h
  | plain context =>
      have hover := plainStep_over authenticator context blob
      rw [step] at h
      rw [hover] at h
      cases h
  | cramMd5 exchange =>
      simp only [step, CramMd5Exchange.step] at h ⊢
      cases hchallenge : exchange.challenge with
      | none => simp [stage, hchallenge]
      | some challenge =>
          rw [hchallenge] at h
          dsimp only at h
          rw [CramMd5Exchange.verify_over] at h
          cases h
  | digestMd5 exchange =>
      simp only [step, DigestMd5Exchange.step] at h ⊢
      cases hstate : exchange.state with
      | start => simp [stage, hstate]
      | challenged nonce =>
          rw [hstate] at h
          dsimp only at h ⊢
          obtain ⟨identity, hconfirmed⟩ := exchange.check_confirms _ _ _ _ h
          simp [stage, hstate, hconfirmed]
      | confirmed identity =>
          rw [hstate] at h
          dsimp only at h
          split at h <;> cases h
  | scram exchange =>
      simp only [step, ScramExchange.step] at h ⊢
      cases hstate : exchange.state with
      | start =>
          rw [hstate] at h
          dsimp only at h ⊢
          unfold ScramExchange.first at h ⊢
          cases hread : ClientFirst.read blob with
          | error reason =>
              rw [hread] at h
              cases h
          | ok message =>
              rw [hread] at h
              dsimp only at h ⊢
              cases hscram : authenticator.scram exchange.context message.user with
              | none =>
                  rw [hscram] at h
                  cases h
              | some credentials => simp [stage, hstate]
      | challenged user authorization credentials nonce signed =>
          rw [hstate] at h
          dsimp only at h
          rw [ScramExchange.finalMessage_over] at h
          cases h

/-! ## Where exchanges are -/

/-- The exchange, or the identity it has ended with, that a task has in its hands. -/
def Task.thing : Task → Option (Nat × State)
  | .recording id _ identity => some (id, .settled identity)
  | .holding id _ exchange _ _ => some (id, .inFlight exchange)
  | .continuing id _ exchange _ _ => some (id, .inFlight exchange)
  | .completing id _ identity _ _ => some (id, .settled identity)
  | .awaiting id _ identity _ _ => some (id, .settled identity)
  | .opening _ | .handling .. | .answering .. => none

/-- What the tasks have in their hands. -/
def World.held (w : World) : List (Nat × State) := w.tasks.filterMap Task.thing

/-- What has been done tells how a thing came about: the rounds of an exchange in flight
were all gone on from, at earlier stages than its own, the first one with a start, and
the challenge that is out was issued in one of them; an identity ended a round. -/
def Follows (steps : List Stepped) : Nat × State → Prop
  | (id, .inFlight exchange) =>
      (∀ entry ∈ steps, entry.id = id →
        entry.step.goesOn ∧ entry.exchange.stage < exchange.stage) ∧
      (∃ entry ∈ steps, entry.id = id ∧ entry.starts) ∧
      ∀ challenge, exchange.issued = some challenge →
        ∃ entry ∈ steps, entry.id = id ∧ entry.exchange.issued = none ∧
          entry.left.issued = some challenge
  | (id, .settled identity) =>
      ∃ entry ∈ steps, entry.id = id ∧ entry.step.identity = some identity

theorem Follows.mem {steps : List Stepped} {thing : Nat × State}
    (h : Follows steps thing) : ∃ entry ∈ steps, entry.id = thing.1 := by
  obtain ⟨id, state⟩ := thing
  cases state with
  | inFlight exchange =>
      obtain ⟨-, ⟨entry, hmem, hid, -⟩, -⟩ := h
      exact ⟨entry, hmem, hid⟩
  | settled identity =>
      obtain ⟨entry, hmem, hid, -⟩ := h
      exact ⟨entry, hmem, hid⟩

theorem Follows.snoc {steps : List Stepped} {thing : Nat × State} {entry : Stepped}
    (h : Follows steps thing) (hother : thing.1 ≠ entry.id) :
    Follows (steps ++ [entry]) thing := by
  obtain ⟨id, state⟩ := thing
  have hmore : ∀ {found}, found ∈ steps → found ∈ steps ++ [entry] :=
    fun hmem => List.mem_append_left _ hmem
  cases state with
  | inFlight exchange =>
      obtain ⟨hrounds, ⟨first, hfirst, hstarts⟩, hissued⟩ := h
      refine ⟨fun found hmem hid => ?_, ⟨first, hmore hfirst, hstarts⟩,
        fun challenge hchallenge => ?_⟩
      · rcases List.mem_append.mp hmem with hmem | hmem
        · exact hrounds found hmem hid
        · rw [List.mem_singleton.mp hmem] at hid
          exact absurd hid.symm hother
      · obtain ⟨found, hmem, hrest⟩ := hissued challenge hchallenge
        exact ⟨found, hmore hmem, hrest⟩
  | settled identity =>
      obtain ⟨found, hmem, hrest⟩ := h
      exact ⟨found, hmore hmem, hrest⟩

theorem Follows.round {steps : List Stepped} {id : Nat} {exchange : Exchange}
    (h : Follows steps (id, .inFlight exchange)) (entry : Stepped) (hid : entry.id = id)
    (hexchange : entry.exchange = exchange) (hgoesOn : entry.step.goesOn)
    (hstage : exchange.stage < entry.left.stage) :
    Follows (steps ++ [entry]) (id, .inFlight entry.left) := by
  obtain ⟨hrounds, ⟨first, hfirst, hstarts⟩, hissued⟩ := h
  refine ⟨fun found hmem hfound => ?_, ⟨first, List.mem_append_left _ hfirst, hstarts⟩,
    fun challenge hchallenge => ?_⟩
  · rcases List.mem_append.mp hmem with hmem | hmem
    · obtain ⟨hgone, hlt⟩ := hrounds found hmem hfound
      exact ⟨hgone, hlt.trans hstage⟩
    · rw [List.mem_singleton.mp hmem, hexchange]
      exact ⟨hgoesOn, hstage⟩
  · refine ⟨entry, List.mem_append_right _ (List.mem_singleton_self entry), hid, ?_,
      hchallenge⟩
    have hone : entry.left.stage = 1 := by
      rw [← Exchange.issued_isSome, hchallenge]
      rfl
    rw [hexchange, ← Option.not_isSome_iff_eq_none, Exchange.issued_isSome]
    omega

/-- Rounds of one exchange are at later and later stages, and every round of a challenge
comes after the one that issued it. -/
structure InTurn (steps : List Stepped) : Prop where
  later : steps.Pairwise fun a b =>
    a.id = b.id → a.step.goesOn ∧ a.exchange.stage < b.exchange.stage
  sourced : ∀ before entry after, steps = before ++ entry :: after →
    (entry.starts ∨ ∃ first ∈ before, first.id = entry.id ∧ first.starts) ∧
      ∀ challenge, entry.exchange.issued = some challenge →
        ∃ found ∈ before, found.id = entry.id ∧ found.exchange.issued = none ∧
          found.left.issued = some challenge

theorem InTurn.nil : InTurn [] := by
  refine ⟨.nil, fun before entry after heq => ?_⟩
  cases before <;> cases heq

theorem InTurn.snoc {steps : List Stepped} {entry : Stepped} (h : InTurn steps)
    (hlater : ∀ a ∈ steps, a.id = entry.id →
      a.step.goesOn ∧ a.exchange.stage < entry.exchange.stage)
    (hstarts : entry.starts ∨ ∃ first ∈ steps, first.id = entry.id ∧ first.starts)
    (hissued : ∀ challenge, entry.exchange.issued = some challenge →
      ∃ found ∈ steps, found.id = entry.id ∧ found.exchange.issued = none ∧
        found.left.issued = some challenge) : InTurn (steps ++ [entry]) := by
  refine ⟨?_, fun before found after heq => ?_⟩
  · rw [List.pairwise_append]
    refine ⟨h.later, List.pairwise_singleton _ entry, fun a ha b hb => ?_⟩
    rw [List.mem_singleton.mp hb]
    exact hlater a ha
  · cases after using List.reverseRecOn with
    | nil =>
        obtain ⟨rfl, hlast⟩ := List.append_inj' heq rfl
        cases hlast
        exact ⟨hstarts, hissued⟩
    | append_singleton after last _ =>
        rw [← List.cons_append, ← List.append_assoc] at heq
        obtain ⟨hsteps, -⟩ := List.append_inj' heq rfl
        exact h.sourced before found after hsteps

/-- Two rounds of one exchange neither of which comes after the other are the same. -/
theorem InTurn.same {steps : List Stepped} (h : InTurn steps) {a b : Stepped}
    (ha : a ∈ steps) (hb : b ∈ steps) (hid : a.id = b.id)
    (hab : ¬ (a.step.goesOn ∧ a.exchange.stage < b.exchange.stage))
    (hba : ¬ (b.step.goesOn ∧ b.exchange.stage < a.exchange.stage)) : a = b := by
  obtain ⟨i, hi, rfl⟩ := List.mem_iff_getElem.mp ha
  obtain ⟨j, hj, rfl⟩ := List.mem_iff_getElem.mp hb
  have hlater := List.pairwise_iff_getElem.mp h.later
  rcases Nat.lt_trichotomy i j with hlt | rfl | hlt
  · exact absurd (hlater i j hi hj hlt hid) hab
  · rfl
  · exact absurd (hlater j i hj hi hlt hid.symm) hba

namespace World

/-- Every exchange is in one place, and what has been done is in turn. -/
structure Single (w : World) : Prop where
  owned : Owned w.table w.held
  follows : ∀ {thing}, Kept w.table w.held thing → Follows w.steps thing
  below : ∀ entry ∈ w.steps, entry.id < w.next
  inTurn : InTurn w.steps

variable {w w' : World} {profile : SaslProfile}

theorem Single.idle : World.idle.Single where
  owned := .none
  follows := fun h => absurd h kept_none
  below := fun _ hmem => nomatch hmem
  inTurn := .nil

theorem Single.congr (h : w.Single) (htable : w'.table = w.table)
    (hheld : w'.held.Perm w.held) (hnext : w'.next = w.next) (hsteps : w'.steps = w.steps) :
    w'.Single where
  owned := by
    rw [htable]
    exact h.owned.perm hheld
  follows := fun hkept => by
    rw [hsteps]
    rw [htable] at hkept
    exact h.follows (hkept.perm hheld)
  below := by
    rw [hsteps, hnext]
    exact h.below
  inTurn := by
    rw [hsteps]
    exact h.inTurn

theorem Single.next_new (h : w.Single) {thing : Nat × State}
    (hkept : Kept w.table w.held thing) : thing.1 ≠ w.next := by
  obtain ⟨entry, hmem, hid⟩ := (h.follows hkept).mem
  have hlt := h.below entry hmem
  omega

theorem Single.starting (h : w.Single) {entry : Stepped} (hid : entry.id = w.next)
    (hstarts : entry.starts) (hstage : entry.exchange.stage = 0) :
    (w.noting (w.next + 1) entry).Single where
  owned := h.owned
  follows := fun hkept => (h.follows hkept).snoc (hid ▸ h.next_new hkept)
  below := fun found hmem => by
    change found.id < w.next + 1
    rcases List.mem_append.mp hmem with hmem | hmem
    · exact Nat.lt_succ_of_lt (h.below found hmem)
    · rw [List.mem_singleton.mp hmem, hid]
      exact Nat.lt_succ_self _
  inTurn := by
    refine h.inTurn.snoc (fun found hmem hsame => ?_) (.inl hstarts) ?_
    · have hlt := h.below found hmem
      omega
    · intro challenge hchallenge
      have hone : entry.exchange.stage = 1 := by
        rw [← Exchange.issued_isSome, hchallenge]
        rfl
      omega

theorem Single.follows_start (h : w.Single) (entry : Stepped) (hid : entry.id = w.next)
    (hstarts : entry.starts) (hstage : entry.exchange.stage = 0) {state : State}
    (hstate : (entry.step.goesOn ∧ entry.exchange.stage < entry.left.stage ∧
        state = .inFlight entry.left) ∨
      ∃ identity, entry.step.identity = some identity ∧ state = .settled identity) :
    Follows (w.steps ++ [entry]) (w.next, state) := by
  have hlast : entry ∈ w.steps ++ [entry] :=
    List.mem_append_right _ (List.mem_singleton_self entry)
  rcases hstate with ⟨hgoesOn, hlt, rfl⟩ | ⟨identity, hidentity, rfl⟩
  · have hunissued : entry.exchange.issued = none := by
      rw [← Option.not_isSome_iff_eq_none, Exchange.issued_isSome]
      omega
    refine ⟨fun found hmem hfound => ?_, ⟨entry, hlast, hid, hstarts⟩,
      fun challenge hchallenge => ⟨entry, hlast, hid, hunissued, hchallenge⟩⟩
    rcases List.mem_append.mp hmem with hmem | hmem
    · have hbelow := h.below found hmem
      omega
    · rw [List.mem_singleton.mp hmem]
      exact ⟨hgoesOn, hlt⟩
  · exact ⟨entry, hlast, hid, hidentity⟩

theorem Single.begun (h : w.Single) (profile : SaslProfile) (key : Key)
    (serverName : Option String) (uri : String) (start : Proto.Management.Start)
    (randomness : Randomness) :
    (w.begun profile key serverName uri start randomness).Single := by
  cases hinitial : initialBlob uri start with
  | error error => simpa only [World.begun, hinitial] using h
  | ok blob =>
      rw [begun_ok profile w key serverName randomness hinitial]
      exact h.starting rfl rfl (Exchange.stage_begin ..)

end World

namespace World

variable {w w' : World} {profile : SaslProfile}

theorem Single.begin (h : w.Single) (key : Key) (serverName : Option String)
    (uri : String) (start : Proto.Management.Start) (randomness : Randomness)
    (opens : Bool) : (w.begin profile key serverName uri start randomness opens).Single := by
  have hbegun := h.begun profile key serverName uri start randomness
  unfold World.begin
  cases haccept : profile.accept serverName uri start randomness with
  | error error => exact hbegun
  | ok kept =>
      obtain ⟨state, content⟩ := kept
      obtain ⟨blob, hinitial, houtcome⟩ := SaslProfile.accept_ok haccept
      have heq := begun_ok profile w key serverName randomness hinitial
      have hfollows := h.follows_start
        (w.firstRound profile key serverName randomness blob) rfl rfl
        (Exchange.stage_begin ..) (houtcome.imp_left fun hround =>
          ⟨hround.1, Exchange.stage_lt _ _ _ _ _ hround.1, hround.2⟩)
      simp only [heq] at hbegun ⊢
      have hheld : ∀ {tasks : List Task}, tasks = w.tasks ∨ tasks = w.tasks ++ [.opening key] →
          tasks.filterMap Task.thing = w.held := by
        rintro tasks (rfl | rfl)
        · rfl
        · exact (List.filterMap_append ..).trans (List.append_nil _)
      have htasks : (if opens then w.tasks ++ [.opening key] else w.tasks).filterMap
          Task.thing = w.held := by
        cases opens
        · exact hheld (.inl rfl)
        · exact hheld (.inr rfl)
      refine ⟨?_, fun hkept => ?_, hbegun.below, hbegun.inTurn⟩
      · rw [World.held]
        dsimp only
        rw [htasks]
        exact h.owned.add fun hkept => h.next_new hkept
      · rw [World.held] at hkept
        dsimp only at hkept
        rw [htasks] at hkept
        rcases hkept.of_set with rfl | hkept
        · exact hfollows
        · exact hbegun.follows hkept

theorem held_facing {task : Task} {rest : List Task} (h : w.tasks.Perm (task :: rest)) :
    w.held.Perm (task.thing.toList ++ rest.filterMap Task.thing) := by
  refine (h.filterMap Task.thing).trans ?_
  cases hthing : task.thing <;> simp [hthing]

theorem Single.rounds (h : w.Single) (entry : Stepped) {id : Nat} {exchange : Exchange}
    {rest : List (Nat × State)} (hheld : w.held.Perm ((id, .inFlight exchange) :: rest))
    (hid : entry.id = id) (hexchange : entry.exchange = exchange) :
    Owned w.table rest ∧
      (∀ {thing}, Kept w.table rest thing → Follows (w.steps ++ [entry]) thing) ∧
      (∀ found ∈ w.steps ++ [entry], found.id < w.next) ∧ InTurn (w.steps ++ [entry]) := by
  have howned := h.owned.perm hheld.symm
  have hfollows := h.follows ((Kept.perm hheld.symm) (.inr (List.mem_cons_self ..)))
  have hrounds := hfollows
  obtain ⟨hearlier, ⟨first, hfirst, hsame, hstarts⟩, hissued⟩ := hfollows
  refine ⟨howned.release, fun hkept => ?_, fun found hmem => ?_, ?_⟩
  · refine (h.follows (hkept.of_release.perm hheld.symm)).snoc ?_
    rw [hid]
    exact howned.ne_of_cons hkept
  · rcases List.mem_append.mp hmem with hmem | hmem
    · exact h.below found hmem
    · rw [List.mem_singleton.mp hmem, hid, ← hsame]
      exact h.below first hfirst
  · refine h.inTurn.snoc (fun a ha hsame' => ?_) (.inr ⟨first, hfirst, ?_, hstarts⟩) ?_
    · rw [hexchange]
      exact hearlier a ha (hsame'.trans hid)
    · rw [hsame, hid]
    · intro challenge hchallenge
      rw [hexchange] at hchallenge
      rw [hid]
      exact hissued challenge hchallenge

theorem Single.turned {task : Task} {left rest : List Task} {next : World}
    {randomness : Randomness} (h : w.Single) (htasks : w.tasks.Perm (task :: rest))
    (hturned : Turned profile w randomness task next left) :
    ({ next with tasks := left ++ rest } : World).Single := by
  have hperm := held_facing htasks
  have howned := h.owned.perm hperm.symm
  have hfollows : ∀ {thing},
      Kept w.table (task.thing.toList ++ rest.filterMap Task.thing) thing →
        Follows w.steps thing := fun hkept => h.follows (hkept.perm hperm.symm)
  cases hturned with
  | collected htable =>
      exact ⟨howned.take htable, fun hkept => hfollows (hkept.of_take htable), h.below,
        h.inTurn⟩
  | opened => exact ⟨howned, hfollows, h.below, h.inTurn⟩
  | recorded =>
      exact ⟨howned.release, fun hkept => hfollows hkept.of_release, h.below, h.inTurn⟩
  | took htable =>
      exact ⟨howned.take htable, fun hkept => hfollows (hkept.of_take htable), h.below,
        h.inTurn⟩
  | missed =>
      exact ⟨howned.clear, fun hkept => hfollows hkept.of_clear, h.below, h.inTurn⟩
  | gaveUp =>
      exact ⟨howned.release, fun hkept => hfollows hkept.of_release, h.below, h.inTurn⟩
  | @goesOn id key exchange msgno payload blob challenge hstep =>
      obtain ⟨-, hothers, hbelow, hinTurn⟩ := h.rounds
        (laterRound profile id key exchange randomness blob) hperm rfl rfl
      have hgoesOn : (laterRound profile id key exchange randomness blob).step.goesOn := by
        rw [hstep]
        rfl
      have hround := (hfollows (.inr (List.mem_cons_self ..))).round
        (laterRound profile id key exchange randomness blob) rfl rfl hgoesOn
        (Exchange.stage_lt _ _ _ _ _ hgoesOn)
      refine ⟨howned.replace, fun hkept => ?_, hbelow, hinTurn⟩
      rcases hkept with hkept | hkept
      · exact hothers (.inl hkept)
      · rcases List.mem_cons.mp hkept with rfl | hkept
        · exact hround
        · exact hothers (.inr hkept)
  | @completes id key exchange msgno payload blob data identity hidentity =>
      obtain ⟨-, hothers, hbelow, hinTurn⟩ := h.rounds
        (laterRound profile id key exchange randomness blob) hperm rfl rfl
      refine ⟨howned.replace, fun hkept => ?_, hbelow, hinTurn⟩
      rcases hkept with hkept | hkept
      · exact hothers (.inl hkept)
      · rcases List.mem_cons.mp hkept with rfl | hkept
        · exact ⟨_, List.mem_append_right _ (List.mem_singleton_self _), rfl, hidentity⟩
        · exact hothers (.inr hkept)
  | @fails id key exchange msgno payload blob answer =>
      obtain ⟨hrest, hothers, hbelow, hinTurn⟩ := h.rounds
        (laterRound profile id key exchange randomness blob) hperm rfl rfl
      exact ⟨hrest, hothers, hbelow, hinTurn⟩
  | putBack =>
      refine ⟨howned.put, fun hkept => ?_, h.below, h.inTurn⟩
      rcases hkept.of_set with rfl | hkept
      · exact hfollows (.inr (List.mem_cons_self ..))
      · exact hfollows hkept.of_release
  | asked => exact ⟨howned, hfollows, h.below, h.inTurn⟩
  | told =>
      exact ⟨howned.release, fun hkept => hfollows hkept.of_release, h.below, h.inTurn⟩
  | waits => exact ⟨howned, hfollows, h.below, h.inTurn⟩
  | answered => exact ⟨howned, hfollows, h.below, h.inTurn⟩

theorem Single.drive (h : w.Single) : w.drive.Single := by
  unfold World.drive
  split <;> exact h.congr rfl (List.Perm.refl _) rfl rfl

theorem Single.act (h : w.Single) (act : Act) : (w.act profile act).Single := by
  cases act with
  | start key serverName uri start randomness opens =>
      exact h.begin key serverName uri start randomness opens
  | message key msgno payload =>
      refine h.congr rfl (List.Perm.of_eq ?_) rfl rfl
      exact (List.filterMap_append ..).trans (List.append_nil _)
  | turn index randomness =>
      cases htask : w.tasks[index]? with
      | none => simpa only [World.act, htask] using h
      | some task =>
          obtain ⟨rest, htasks, hleft, hact⟩ := act_turn profile randomness htask
          rw [hact]
          exact (h.turned htasks (World.turned profile w randomness task)).congr rfl
            (hleft.filterMap Task.thing) rfl rfl
  | drive => exact h.drive

/-- An exchange is never in two places, no round follows on one that ended it, and no
challenge is checked twice or without having been issued in an earlier round of an
exchange that a start began. -/
theorem run_one_guess (hrun : Run (World.act profile) (fun _ _ => True) .idle w) :
    (w.held.map Prod.fst).Nodup ∧
    (∀ key id state, w.table key = some (id, state) → id ∉ w.held.map Prod.fst ∧
      ∀ key' state', w.table key' = some (id, state') → key' = key) ∧
    (∀ before a between b after, w.steps = before ++ a :: between ++ b :: after →
      a.id = b.id → a.step.goesOn ∧ ¬ (a.exchange.issued.isSome ∧ b.exchange.issued.isSome)) ∧
    ∀ before entry after, w.steps = before ++ entry :: after →
      (entry.starts ∨ ∃ first ∈ before, first.id = entry.id ∧ first.starts) ∧
      ∀ challenge, entry.exchange.issued = some challenge →
        ∃ found ∈ before, found.id = entry.id ∧ found.exchange.issued = none ∧
          found.left.issued = some challenge := by
  have hsingle : w.Single := hrun.preserves (fun _ h => h.act _) .idle
  refine ⟨hsingle.owned.nodup, fun key id state htable => ⟨fun hmem => ?_,
    fun key' state' htable' => ?_⟩, fun before a between b after heq hsame => ?_,
    hsingle.inTurn.sourced⟩
  · obtain ⟨thing, hthing, heq⟩ := List.mem_map.mp hmem
    exact hsingle.owned.apart htable hthing heq
  · exact hsingle.owned.keyed htable' htable rfl
  · have hlater := hsingle.inTurn.later
    rw [heq, List.pairwise_append] at hlater
    obtain ⟨hgoesOn, hlt⟩ := hlater.2.2 a (by simp) b (List.mem_cons_self ..) hsame
    refine ⟨hgoesOn, fun hissued => ?_⟩
    rw [Exchange.issued_isSome, Exchange.issued_isSome] at hissued
    omega

/-- A guess that misses takes the challenge with it. -/
def sampleGuess : List Act :=
  [.sampleStart (.cramMd5 "h") none, .sampleMessage "u 00", .sampleTurn 1, .sampleTurn 1]

theorem run_one_guess_sample :
    let w := World.after (.sample (.cramMd5 "h")) sampleGuess
    w.steps.map (fun entry => (entry.id, entry.step.goesOn, entry.exchange.issued)) =
        [(0, true, none), (0, false, some "<.0@h>")] ∧
      ∀ before a between b after, w.steps = before ++ a :: between ++ b :: after →
        a.id = b.id →
        a.step.goesOn ∧ ¬ (a.exchange.issued.isSome ∧ b.exchange.issued.isSome) :=
  ⟨by decide +kernel, (run_one_guess (Run.of_list _ _ sampleGuess)).2.2.1⟩

end World

end Vortice.Sasl
