import Vortice.Sasl.Profile

/-!
# What a turn of a task does

Every act of a profile, as one of the few things it can be, so that what they keep is
shown for each once.
-/

namespace Vortice.Sasl

open Vortice.Foundation
open Vortice.Proto (FrameKind)

theorem SaslProfile.accept_ok {profile : SaslProfile} {serverName : Option String}
    {uri : String} {start : Proto.Management.Start} {randomness : Randomness}
    {state : State} {content : Proto.Management.Profile}
    (h : profile.accept serverName uri start randomness = .ok (state, content)) :
    ∃ blob, initialBlob uri start = .ok blob ∧
      let outcome := profile.begin serverName randomness blob
      (outcome.1.goesOn ∧ state = .inFlight outcome.2) ∨
        ∃ identity, outcome.1.identity = some identity ∧ state = .settled identity := by
  unfold accept at h
  cases hinitial : initialBlob uri start with
  | error error =>
      rw [hinitial] at h
      cases h
  | ok blob =>
      refine ⟨blob, rfl, ?_⟩
      rw [hinitial] at h
      change (verdict (profile.begin serverName randomness blob) >>= _) = _ at h
      generalize profile.begin serverName randomness blob = outcome at h ⊢
      obtain ⟨step, exchange⟩ := outcome
      cases step with
      | continues challenge =>
          cases h
          exact .inl ⟨rfl, rfl⟩
      | complete identity =>
          cases h
          exact .inr ⟨identity, rfl, rfl⟩
      | completeWith identity data =>
          cases h
          exact .inr ⟨identity, rfl, rfl⟩
      | failed reason => cases h

namespace World

variable {w : World} {profile : SaslProfile}

/-- A round is noted. -/
def noting (w : World) (next : Nat) (entry : Stepped) : World :=
  { w with next, steps := w.steps ++ [entry] }

/-- The round that a start begins an exchange with. -/
def firstRound (w : World) (profile : SaslProfile) (key : Key)
    (serverName : Option String) (randomness : Randomness) (blob : Octets) : Stepped where
  id := w.next
  starts := true
  key := key
  blob := blob
  exchange := profile.mechanism.begin ⟨serverName⟩
  step := (profile.begin serverName randomness blob).1
  left := (profile.begin serverName randomness blob).2

theorem begun_ok (profile : SaslProfile) (w : World) (key : Key)
    (serverName : Option String) {uri : String} {start : Proto.Management.Start}
    (randomness : Randomness) {blob : Octets} (h : initialBlob uri start = .ok blob) :
    w.begun profile key serverName uri start randomness =
      w.noting (w.next + 1) (w.firstRound profile key serverName randomness blob) := by
  simp only [World.begun, h]
  rfl

/-- The round that a message takes an exchange through. -/
def laterRound (profile : SaslProfile) (id : Nat) (key : Key) (exchange : Exchange)
    (randomness : Randomness) (blob : Octets) : Stepped where
  id := id
  starts := false
  key := key
  blob := blob
  exchange := exchange
  step := (exchange.step profile.authenticator profile.digests randomness blob).1
  left := (exchange.step profile.authenticator profile.digests randomness blob).2

/-- What a turn of a task makes of the world, and what is left of the task. -/
inductive Turned (profile : SaslProfile) (w : World) (randomness : Randomness) :
    Task → World → List Task → Prop where
  | collected {key : Key} {id : Nat} {identity : Identity} :
      w.table key = some (id, .settled identity) →
      Turned profile w randomness (.opening key)
        { w with table := Function.update w.table key none } [.recording id key identity]
  | opened {key : Key} :
      (∀ id identity, w.table key ≠ some (id, .settled identity)) →
      Turned profile w randomness (.opening key) w []
  | recorded {id : Nat} {key : Key} {identity : Identity} :
      Turned profile w randomness (.recording id key identity)
        { w with queue := w.queue ++ [.authenticate id key identity.effective] } []
  | took {key : Key} {id : Nat} {exchange : Exchange} {msgno : UInt32}
      {payload : Octets} :
      w.table key = some (id, .inFlight exchange) →
      Turned profile w randomness (.handling key msgno payload)
        { w with table := Function.update w.table key none }
        [.holding id key exchange msgno payload]
  | missed {key : Key} {msgno : UInt32} {payload : Octets} {answer : String} :
      (∀ id exchange, w.table key ≠ some (id, .inFlight exchange)) →
      Turned profile w randomness (.handling key msgno payload)
        { w with table := Function.update w.table key none }
        [.answering key .err msgno answer]
  | gaveUp {id : Nat} {key : Key} {exchange : Exchange} {msgno : UInt32}
      {payload : Octets} {kind : FrameKind} {answer : String} :
      Turned profile w randomness (.holding id key exchange msgno payload) w
        [.answering key kind msgno answer]
  | goesOn {id : Nat} {key : Key} {exchange : Exchange} {msgno : UInt32}
      {payload blob challenge : Octets} :
      (laterRound profile id key exchange randomness blob).step = .continues challenge →
      Turned profile w randomness (.holding id key exchange msgno payload)
        (w.noting w.next (laterRound profile id key exchange randomness blob))
        [.continuing id key (laterRound profile id key exchange randomness blob).left
          msgno challenge]
  | completes {id : Nat} {key : Key} {exchange : Exchange} {msgno : UInt32}
      {payload blob data : Octets} {identity : Identity} :
      (laterRound profile id key exchange randomness blob).step.identity =
        some identity →
      Turned profile w randomness (.holding id key exchange msgno payload)
        (w.noting w.next (laterRound profile id key exchange randomness blob))
        [.completing id key identity msgno data]
  | fails {id : Nat} {key : Key} {exchange : Exchange} {msgno : UInt32}
      {payload blob : Octets} {answer : String} :
      Turned profile w randomness (.holding id key exchange msgno payload)
        (w.noting w.next (laterRound profile id key exchange randomness blob))
        [.answering key .err msgno answer]
  | putBack {id : Nat} {key : Key} {exchange : Exchange} {msgno : UInt32}
      {challenge : Octets} {answer : String} :
      Turned profile w randomness (.continuing id key exchange msgno challenge)
        { w with table := Function.update w.table key (some (id, .inFlight exchange)) }
        [.answering key .rpy msgno answer]
  | asked {id : Nat} {key : Key} {identity : Identity} {msgno : UInt32}
      {data : Octets} :
      Turned profile w randomness (.completing id key identity msgno data)
        { w with queue := w.queue ++ [.authenticate id key identity.effective] }
        [.awaiting id key identity msgno data]
  | told {id : Nat} {key : Key} {identity : Identity} {msgno : UInt32}
      {data : Octets} {answer : String} :
      (id, key, identity.effective) ∈ w.applied →
      Turned profile w randomness (.awaiting id key identity msgno data)
        { w with told := w.told ++ [(id, key, identity)] }
        [.answering key .rpy msgno answer]
  | waits {id : Nat} {key : Key} {identity : Identity} {msgno : UInt32}
      {data : Octets} :
      Turned profile w randomness (.awaiting id key identity msgno data) w
        [.awaiting id key identity msgno data]
  | answered {key : Key} {kind : FrameKind} {msgno : UInt32} {answer : String} :
      Turned profile w randomness (.answering key kind msgno answer)
        { w with queue := w.queue ++ [.send key kind msgno (octets answer)] } []

theorem respond_later (profile : SaslProfile) (w : World) (id : Nat) (key : Key)
    (exchange : Exchange) (msgno : UInt32) {payload : Octets} (randomness : Randomness)
    {blob : Blob} (hblob : Blob.fromXml (fromUtf8Lossy payload) = some blob)
    (habort : blob.status ≠ .abort) :
    respond profile w id key exchange msgno payload randomness =
      (w.noting w.next (laterRound profile id key exchange randomness blob.data),
        match (laterRound profile id key exchange randomness blob.data).step with
        | .complete identity => .completing id key identity msgno []
        | .completeWith identity data => .completing id key identity msgno data
        | .continues challenge => .continuing id key
            (laterRound profile id key exchange randomness blob.data).left msgno challenge
        | .failed reason => .answering key .err msgno (errorPayload reason)) := by
  unfold respond
  simp only [hblob, if_neg habort]
  rfl

theorem turned_holding (profile : SaslProfile) (w : World) (id : Nat) (key : Key)
    (exchange : Exchange) (msgno : UInt32) (payload : Octets) (randomness : Randomness) :
    Turned profile w randomness (.holding id key exchange msgno payload)
      (respond profile w id key exchange msgno payload randomness).1
      [(respond profile w id key exchange msgno payload randomness).2] := by
  cases hblob : Blob.fromXml (fromUtf8Lossy payload) with
  | none =>
      unfold respond
      simp only [hblob]
      exact .gaveUp
  | some blob =>
      by_cases habort : blob.status = .abort
      · unfold respond
        simp only [hblob, if_pos habort]
        exact .gaveUp
      · rw [respond_later profile w id key exchange msgno randomness hblob habort]
        dsimp only
        cases hstep : (laterRound profile id key exchange randomness blob.data).step with
        | complete identity => exact .completes (by rw [hstep]; rfl)
        | completeWith identity data => exact .completes (by rw [hstep]; rfl)
        | continues challenge => exact .goesOn hstep
        | failed reason => exact .fails

theorem turned_opening (key : Key) (randomness : Randomness) :
    Turned profile w randomness (.opening key)
      (w.turn profile randomness (.opening key)).1
      (w.turn profile randomness (.opening key)).2 := by
  rcases htable : w.table key with _ | ⟨id, exchange | identity⟩
  · simp only [World.turn, htable]
    exact .opened fun _ _ h => by
      rw [htable] at h
      cases h
  · simp only [World.turn, htable]
    exact .opened fun _ _ h => by
      rw [htable] at h
      cases h
  · simp only [World.turn, htable]
    exact .collected htable

theorem turned_handling (key : Key) (msgno : UInt32) (payload : Octets)
    (randomness : Randomness) :
    Turned profile w randomness (.handling key msgno payload)
      (w.turn profile randomness (.handling key msgno payload)).1
      (w.turn profile randomness (.handling key msgno payload)).2 := by
  rcases htable : w.table key with _ | ⟨id, exchange | identity⟩
  · simp only [World.turn, htable]
    exact .missed fun _ _ h => by
      rw [htable] at h
      cases h
  · simp only [World.turn, htable]
    exact .took htable
  · simp only [World.turn, htable]
    exact .missed fun _ _ h => by
      rw [htable] at h
      cases h

theorem turned (profile : SaslProfile) (w : World) (randomness : Randomness) (task : Task) :
    Turned profile w randomness task (w.turn profile randomness task).1
      (w.turn profile randomness task).2 := by
  cases task with
  | opening key => exact turned_opening key randomness
  | recording id key identity => exact .recorded
  | handling key msgno payload => exact turned_handling key msgno payload randomness
  | holding id key exchange msgno payload =>
      have hturned := turned_holding profile w id key exchange msgno payload randomness
      rw [World.turn]
      generalize respond profile w id key exchange msgno payload randomness = outcome
        at hturned ⊢
      exact hturned
  | continuing id key exchange msgno challenge => exact .putBack
  | completing id key identity msgno data => exact .asked
  | awaiting id key identity msgno data =>
      by_cases happlied : (id, key, identity.effective) ∈ w.applied
      · simp only [World.turn, happlied, if_true]
        exact .told happlied
      · simp only [World.turn, happlied, if_false]
        exact .waits
  | answering key kind msgno payload => exact .answered

theorem act_turn (profile : SaslProfile) {index : Nat} {task : Task} (randomness : Randomness)
    (h : w.tasks[index]? = some task) :
    ∃ rest, w.tasks.Perm (task :: rest) ∧
      (w.act profile (.turn index randomness)).tasks.Perm
        ((w.turn profile randomness task).2 ++ rest) ∧
      w.act profile (.turn index randomness) =
        { (w.turn profile randomness task).1 with
          tasks := (w.act profile (.turn index randomness)).tasks } := by
  have hact : w.act profile (.turn index randomness) =
      { (w.turn profile randomness task).1 with
        tasks := w.tasks.take index ++ (w.turn profile randomness task).2 ++
          w.tasks.drop (index + 1) } := by
    simp only [World.act, h]
  obtain ⟨hlt, htask⟩ := List.getElem?_eq_some_iff.mp h
  refine ⟨w.tasks.take index ++ w.tasks.drop (index + 1), ?_, ?_, ?_⟩
  · have hsplit : w.tasks = w.tasks.take index ++ task :: w.tasks.drop (index + 1) := by
      rw [← htask, List.getElem_cons_drop, List.take_append_drop]
    conv_lhs => rw [hsplit]
    exact List.perm_middle
  · rw [hact, ← List.append_assoc]
    exact List.Perm.append_right _ List.perm_append_comm
  · rw [hact]

end World

end Vortice.Sasl
