import Vortice.Sasl.Guesses

/-!
# What is told and what is recorded

An identity is recorded for an exchange that ended with it, and for no other.  A peer
that has been told that it is authenticated is, once the tasks have run, unless the
entry that its acceptance left was taken away before the task of the opening saw it.
-/

namespace Vortice.Sasl

open Vortice.Foundation

/-- The identity that a task has, with the exchange and the channel it is of. -/
def Task.found : Task → Option (Nat × Key × Identity)
  | .recording id key identity | .completing id key identity _ _
  | .awaiting id key identity _ _ => some (id, key, identity)
  | _ => none

namespace World

variable {w w' : World} {profile : SaslProfile} {id : Nat} {key : Key} {identity : Identity}

/-- A round of the exchange has ended it with the identity. -/
def Completed (w : World) (id : Nat) (key : Key) (identity : Identity) : Prop :=
  ∃ entry ∈ w.steps, entry.id = id ∧ entry.key = key ∧ entry.step.identity = some identity

/-- All tasks have run, and the driver has carried out all their commands. -/
def Quiet (w : World) : Prop := w.tasks = [] ∧ w.queue = []

/-- The peer has been told of an identity that is still in the table. -/
def Announced (w : World) (key : Key) : Prop :=
  ∃ id identity, w.table key = some (id, .settled identity) ∧ (id, key, identity) ∈ w.told

/-- An act leaves the identity of an acceptance to the task of the opening: no message is
taken up on the channel before, and no other start is accepted there. -/
def Leaves (profile : SaslProfile) (w : World) : Act → Prop
  | .start key serverName uri start randomness _ =>
      (profile.accept serverName uri start randomness).isOk → ¬ w.Announced key
  | .turn index _ => ∀ key msgno payload,
      w.tasks[index]? = some (.handling key msgno payload) → ¬ w.Announced key
  | .message .. | .drive => True

theorem Completed.mono (h : w.Completed id key identity)
    (hsteps : ∀ entry ∈ w.steps, entry ∈ w'.steps) : w'.Completed id key identity := by
  obtain ⟨entry, hmem, hentry⟩ := h
  exact ⟨entry, hsteps entry hmem, hentry⟩

/-! ## Only what an exchange ended with -/

/-- What is anywhere on its way to the session is what an exchange has ended with. -/
structure Earned (w : World) : Prop where
  settled : ∀ {id key identity}, w.table key = some (id, .settled identity) →
    w.Completed id key identity
  tasks : ∀ task ∈ w.tasks, ∀ {id key identity}, task.found = some (id, key, identity) →
    w.Completed id key identity
  queue : ∀ {id key name}, .authenticate id key name ∈ w.queue →
    ∃ identity, w.Completed id key identity ∧ identity.effective = name
  applied : ∀ {id key name}, (id, key, name) ∈ w.applied →
    ∃ identity, w.Completed id key identity ∧ identity.effective = name
  told : ∀ {id key identity}, (id, key, identity) ∈ w.told → w.Completed id key identity

theorem Earned.idle : World.idle.Earned where
  settled := nofun
  tasks := fun _ hmem => nomatch hmem
  queue := fun hmem => nomatch hmem
  applied := fun hmem => nomatch hmem
  told := fun hmem => nomatch hmem

/-- More rounds and other tasks with nothing new to record make no difference. -/
theorem Earned.noting (h : w.Earned) (next : Nat) (entry : Stepped) :
    (w.noting next entry).Earned := by
  have hsteps : ∀ {id key identity}, w.Completed id key identity →
      (w.noting next entry).Completed id key identity :=
    fun hcompleted => hcompleted.mono fun _ hmem => List.mem_append_left _ hmem
  exact ⟨fun htable => hsteps (h.settled htable),
    fun task hmem _ _ _ hfound => hsteps (h.tasks task hmem hfound),
    fun hmem => (h.queue hmem).imp fun _ => And.imp_left hsteps,
    fun hmem => (h.applied hmem).imp fun _ => And.imp_left hsteps,
    fun hmem => hsteps (h.told hmem)⟩

theorem Earned.withTasks (h : w.Earned) {tasks : List Task}
    (htasks : ∀ task ∈ tasks, ∀ {id key identity}, task.found = some (id, key, identity) →
      w.Completed id key identity) : ({ w with tasks } : World).Earned :=
  ⟨h.settled, htasks, h.queue, h.applied, h.told⟩

theorem Earned.withTable (h : w.Earned) (key : Key) (entry : Option (Nat × State))
    (hentry : ∀ {id identity}, entry = some (id, .settled identity) →
      w.Completed id key identity) :
    ({ w with table := Function.update w.table key entry } : World).Earned := by
  refine ⟨fun {id key' identity} htable => ?_, h.tasks, h.queue, h.applied, h.told⟩
  change Function.update w.table key entry key' = _ at htable
  by_cases hkey : key' = key
  · subst hkey
    rw [Function.update_self] at htable
    exact hentry htable
  · rw [Function.update_of_ne hkey] at htable
    exact h.settled htable

theorem Earned.withQueue (h : w.Earned) (command : Command)
    (hcommand : ∀ {id key name}, command = .authenticate id key name →
      ∃ identity, w.Completed id key identity ∧ identity.effective = name) :
    ({ w with queue := w.queue ++ [command] } : World).Earned := by
  refine ⟨h.settled, h.tasks, fun hmem => ?_, h.applied, h.told⟩
  rcases List.mem_append.mp hmem with hmem | hmem
  · exact h.queue hmem
  · exact hcommand (List.mem_singleton.mp hmem).symm

theorem Earned.withTold (h : w.Earned) (hcompleted : w.Completed id key identity) :
    ({ w with told := w.told ++ [(id, key, identity)] } : World).Earned := by
  refine ⟨h.settled, h.tasks, h.queue, h.applied, fun hmem => ?_⟩
  rcases List.mem_append.mp hmem with hmem | hmem
  · exact h.told hmem
  · cases List.mem_singleton.mp hmem
    exact hcompleted

theorem Earned.turned {task : Task} {left rest : List Task} {next : World}
    {randomness : Randomness} (h : w.Earned) (htasks : w.tasks.Perm (task :: rest))
    (hturned : Turned profile w randomness task next left) :
    ({ next with tasks := left ++ rest } : World).Earned := by
  have hrest : ∀ other ∈ rest, ∀ {id key identity}, other.found = some (id, key, identity) →
      w.Completed id key identity := fun other hmem _ _ _ hfound =>
    h.tasks other (htasks.mem_iff.mpr (List.mem_cons_of_mem _ hmem)) hfound
  have hself : ∀ {id key identity}, task.found = some (id, key, identity) →
      w.Completed id key identity :=
    h.tasks task (htasks.mem_iff.mpr (List.mem_cons_self ..))
  have hleft : ∀ {w' : World} {task' : Task},
      (∀ {id key identity}, w.Completed id key identity → w'.Completed id key identity) →
      (∀ {id key identity}, task'.found = some (id, key, identity) →
        w'.Completed id key identity) →
      ∀ other ∈ [task'] ++ rest, ∀ {id key identity}, other.found = some (id, key, identity) →
        w'.Completed id key identity := by
    intro w' task' hmono htask' other hmem id key identity hfound
    rcases List.mem_cons.mp hmem with rfl | hmem
    · exact htask' hfound
    · exact hmono (hrest other hmem hfound)
  cases hturned with
  | collected htable =>
      refine (h.withTable _ none nofun).withTasks (hleft (fun h => h) fun hfound => ?_)
      cases hfound
      exact h.settled htable
  | opened => exact h.withTasks hrest
  | recorded =>
      refine (h.withQueue (.authenticate ..) fun hcommand => ?_).withTasks hrest
      cases hcommand
      exact ⟨_, hself rfl, rfl⟩
  | took =>
      exact (h.withTable _ none nofun).withTasks
        (hleft (fun h => h) fun hfound => by cases hfound)
  | missed =>
      exact (h.withTable _ none nofun).withTasks
        (hleft (fun h => h) fun hfound => by cases hfound)
  | gaveUp => exact h.withTasks (hleft (fun h => h) fun hfound => by cases hfound)
  | goesOn =>
      exact (h.noting _ _).withTasks
        (hleft (·.mono fun _ hmem => List.mem_append_left _ hmem) fun hfound => by
          cases hfound)
  | completes hidentity =>
      refine (h.noting _ _).withTasks
        (hleft (·.mono fun _ hmem => List.mem_append_left _ hmem) fun hfound => ?_)
      cases hfound
      exact ⟨_, List.mem_append_right _ (List.mem_singleton_self _), rfl, rfl, hidentity⟩
  | fails =>
      exact (h.noting _ _).withTasks
        (hleft (·.mono fun _ hmem => List.mem_append_left _ hmem) fun hfound => by
          cases hfound)
  | putBack =>
      exact (h.withTable _ (some (_, .inFlight _)) nofun).withTasks
        (hleft (fun h => h) fun hfound => by cases hfound)
  | asked =>
      refine (h.withQueue (.authenticate ..) fun hcommand => ?_).withTasks
        (hleft (fun h => h) fun hfound => ?_)
      · cases hcommand
        exact ⟨_, hself rfl, rfl⟩
      · cases hfound
        exact hself rfl
  | told =>
      exact (h.withTold (hself rfl)).withTasks
        (hleft (fun h => h) fun hfound => by cases hfound)
  | waits =>
      refine h.withTasks (hleft (fun h => h) fun hfound => ?_)
      cases hfound
      exact hself rfl
  | answered => exact (h.withQueue (.send ..) nofun).withTasks hrest

theorem Earned.opening (h : w.Earned) (key : Key) :
    ({ w with tasks := w.tasks ++ [.opening key] } : World).Earned := by
  refine h.withTasks fun task hmem id key' identity hfound => ?_
  rcases List.mem_append.mp hmem with hmem | hmem
  · exact h.tasks task hmem hfound
  · cases List.mem_singleton.mp hmem
    cases hfound

theorem Earned.begin (h : w.Earned) (key : Key) (serverName : Option String)
    (uri : String) (start : Proto.Management.Start) (randomness : Randomness)
    (opens : Bool) : (w.begin profile key serverName uri start randomness opens).Earned := by
  unfold World.begin
  cases haccept : profile.accept serverName uri start randomness with
  | error error =>
      cases hinitial : initialBlob uri start with
      | error error => simpa only [World.begun, hinitial] using h
      | ok blob =>
          dsimp only
          rw [begun_ok profile w key serverName randomness hinitial]
          exact h.noting _ _
  | ok kept =>
      obtain ⟨state, content⟩ := kept
      obtain ⟨blob, hinitial, houtcome⟩ := SaslProfile.accept_ok haccept
      have hnoting := h.noting (w.next + 1)
        (w.firstRound profile key serverName randomness blob)
      dsimp only
      rw [begun_ok profile w key serverName randomness hinitial]
      rcases houtcome with ⟨-, rfl⟩ | ⟨identity, hidentity, rfl⟩
      · have hkept := hnoting.withTable key
          (some (w.next, .inFlight (profile.begin serverName randomness blob).2)) (by simp)
        cases opens with
        | false => exact hkept
        | true => exact hkept.opening key
      · have hcompleted : (w.noting (w.next + 1)
            (w.firstRound profile key serverName randomness blob)).Completed w.next key
              identity :=
          ⟨_, List.mem_append_right _ (List.mem_singleton_self _), rfl, rfl, hidentity⟩
        have hkept := hnoting.withTable key (some (w.next, .settled identity)) fun heq => by
          cases heq
          exact hcompleted
        cases opens with
        | false => exact hkept
        | true => exact (hkept.opening key).withTold hcompleted

theorem Earned.drive (h : w.Earned) : w.drive.Earned := by
  unfold World.drive
  cases hqueue : w.queue with
  | nil => exact h
  | cons command queue =>
      have hlater : ∀ {id key name}, Command.authenticate id key name ∈ queue →
          ∃ identity, w.Completed id key identity ∧ identity.effective = name := by
        intro id key name hmem
        exact h.queue (hqueue ▸ List.mem_cons_of_mem _ hmem)
      cases command with
      | send key kind msgno payload =>
          exact ⟨h.settled, h.tasks, hlater, h.applied, h.told⟩
      | authenticate id key identity =>
          refine ⟨h.settled, h.tasks, hlater, fun hmem => ?_, h.told⟩
          rcases List.mem_append.mp hmem with hmem | hmem
          · exact h.applied hmem
          · cases List.mem_singleton.mp hmem
            exact h.queue (hqueue ▸ List.mem_cons_self ..)

theorem Earned.act (h : w.Earned) (act : Act) : (w.act profile act).Earned := by
  cases act with
  | start key serverName uri start randomness opens =>
      exact h.begin key serverName uri start randomness opens
  | message key msgno payload =>
      refine h.withTasks fun task hmem id key' identity hfound => ?_
      rcases List.mem_append.mp hmem with hmem | hmem
      · exact h.tasks task hmem hfound
      · cases List.mem_singleton.mp hmem
        cases hfound
  | turn index randomness =>
      cases htask : w.tasks[index]? with
      | none => simpa only [World.act, htask] using h
      | some task =>
          obtain ⟨rest, htasks, hleft, hact⟩ := act_turn profile randomness htask
          rw [hact]
          have hturned := h.turned htasks (World.turned profile w randomness task)
          exact hturned.withTasks fun other hmem _ _ _ hfound =>
            hturned.tasks other (hleft.mem_iff.mp hmem) hfound
  | drive => exact h.drive

/-! ## One round or more -/

end World

/-- The mechanisms whose first round is their last. -/
def Mechanism.oneRound : Mechanism → Bool
  | .anonymous | .external | .plain => true
  | .cramMd5 _ | .digestMd5 _ | .scramSha256 => false

theorem SaslProfile.begin_goesOn (profile : SaslProfile) {serverName : Option String}
    {randomness : Randomness} {blob : Octets}
    (h : (profile.begin serverName randomness blob).1.goesOn) :
    profile.mechanism.oneRound = false := by
  unfold SaslProfile.begin Mechanism.begin at h
  cases hmechanism : profile.mechanism with
  | anonymous =>
      rw [hmechanism] at h
      have hover := anonymousStep_over profile.authenticator ⟨serverName⟩ blob
      exact absurd h (by simp [Exchange.step, hover])
  | external =>
      rw [hmechanism] at h
      have hover := externalStep_over profile.authenticator ⟨serverName⟩ blob
      exact absurd h (by simp [Exchange.step, hover])
  | plain =>
      rw [hmechanism] at h
      have hover := plainStep_over profile.authenticator ⟨serverName⟩ blob
      exact absurd h (by simp [Exchange.step, hover])
  | cramMd5 | digestMd5 | scramSha256 => rfl

theorem SaslProfile.begin_identity (profile : SaslProfile) {serverName : Option String}
    {randomness : Randomness} {blob : Octets} {identity : Identity}
    (h : (profile.begin serverName randomness blob).1.identity = some identity) :
    profile.mechanism.oneRound := by
  unfold SaslProfile.begin Mechanism.begin at h
  cases hmechanism : profile.mechanism with
  | anonymous | external | plain => rfl
  | cramMd5 host =>
      rw [hmechanism] at h
      cases h
  | digestMd5 realm =>
      rw [hmechanism] at h
      cases h
  | scramSha256 =>
      rw [hmechanism] at h
      simp only [Exchange.step, ScramExchange.step, ScramExchange.first] at h
      split at h
      · cases h
      · split at h <;> cases h

namespace World

variable {w w' : World} {profile : SaslProfile} {id : Nat} {key : Key} {identity : Identity}

/-- An identity is settled by the first round of a mechanism, or by a later one, but never
by both. -/
structure Fits (profile : SaslProfile) (w : World) : Prop where
  settled : ∀ {key id identity}, w.table key = some (id, .settled identity) →
    profile.mechanism.oneRound
  inFlight : ∀ {key id exchange}, w.table key = some (id, .inFlight exchange) →
    profile.mechanism.oneRound = false
  tasks : ∀ task ∈ w.tasks, ∀ {id exchange}, task.thing = some (id, .inFlight exchange) →
    profile.mechanism.oneRound = false

theorem Fits.idle : World.idle.Fits profile where
  settled := nofun
  inFlight := nofun
  tasks := fun _ hmem => nomatch hmem

theorem Fits.withTable (h : w.Fits profile) (key : Key) (entry : Option (Nat × State))
    (hsettled : ∀ {id identity}, entry = some (id, .settled identity) →
      profile.mechanism.oneRound)
    (hinFlight : ∀ {id exchange}, entry = some (id, .inFlight exchange) →
      profile.mechanism.oneRound = false) {tasks : List Task}
    (htasks : ∀ task ∈ tasks, ∀ {id exchange}, task.thing = some (id, .inFlight exchange) →
      profile.mechanism.oneRound = false) (hnext : w'.table = Function.update w.table key entry)
    (htasks' : w'.tasks = tasks) : w'.Fits profile := by
  refine ⟨fun {key' id identity} htable => ?_, fun {key' id exchange} htable => ?_,
    htasks' ▸ htasks⟩
  · rw [hnext] at htable
    by_cases hkey : key' = key
    · subst hkey
      rw [Function.update_self] at htable
      exact hsettled htable
    · rw [Function.update_of_ne hkey] at htable
      exact h.settled htable
  · rw [hnext] at htable
    by_cases hkey : key' = key
    · subst hkey
      rw [Function.update_self] at htable
      exact hinFlight htable
    · rw [Function.update_of_ne hkey] at htable
      exact h.inFlight htable

theorem Fits.congr (h : w.Fits profile) (htable : w'.table = w.table)
    (htasks : ∀ task ∈ w'.tasks, ∀ {id exchange},
      task.thing = some (id, .inFlight exchange) → profile.mechanism.oneRound = false) :
    w'.Fits profile :=
  ⟨htable ▸ h.settled, htable ▸ h.inFlight, htasks⟩

theorem Fits.turned {task : Task} {left rest : List Task} {next : World}
    {randomness : Randomness} (h : w.Fits profile) (htasks : w.tasks.Perm (task :: rest))
    (hturned : Turned profile w randomness task next left) :
    ({ next with tasks := left ++ rest } : World).Fits profile := by
  have hrest : ∀ other ∈ rest, ∀ {id exchange},
      other.thing = some (id, .inFlight exchange) → profile.mechanism.oneRound = false :=
    fun other hmem _ _ hthing =>
      h.tasks other (htasks.mem_iff.mpr (List.mem_cons_of_mem _ hmem)) hthing
  have hself : ∀ {id exchange}, task.thing = some (id, .inFlight exchange) →
      profile.mechanism.oneRound = false :=
    h.tasks task (htasks.mem_iff.mpr (List.mem_cons_self ..))
  have hleft : ∀ {task' : Task}, (∀ {id exchange}, task'.thing = some (id, .inFlight exchange) →
      profile.mechanism.oneRound = false) → ∀ other ∈ [task'] ++ rest, ∀ {id exchange},
        other.thing = some (id, .inFlight exchange) → profile.mechanism.oneRound = false := by
    intro task' htask' other hmem id exchange hthing
    rcases List.mem_cons.mp hmem with rfl | hmem
    · exact htask' hthing
    · exact hrest other hmem hthing
  cases hturned with
  | collected =>
      exact h.withTable _ none nofun nofun (hleft fun hthing => by cases hthing) rfl rfl
  | took htable =>
      exact h.withTable _ none nofun nofun (hleft fun _ => h.inFlight htable) rfl rfl
  | missed =>
      exact h.withTable _ none nofun nofun (hleft fun hthing => by cases hthing) rfl rfl
  | putBack =>
      exact h.withTable _ (some (_, .inFlight _)) nofun (fun _ => hself rfl)
        (hleft fun hthing => by cases hthing) rfl rfl
  | goesOn => exact h.congr rfl (hleft fun _ => hself rfl)
  | opened | recorded | answered => exact h.congr rfl hrest
  | gaveUp | completes | fails | asked | told | waits =>
      exact h.congr rfl (hleft fun hthing => by cases hthing)

theorem Fits.act (h : w.Fits profile) (act : Act) : (w.act profile act).Fits profile := by
  have hopening : ∀ {task : Task}, task.thing = none → ∀ other ∈ w.tasks ++ [task],
      ∀ {id exchange}, other.thing = some (id, .inFlight exchange) →
        profile.mechanism.oneRound = false := by
    intro task hnone other hmem id exchange hthing
    rcases List.mem_append.mp hmem with hmem | hmem
    · exact h.tasks other hmem hthing
    · rw [List.mem_singleton.mp hmem, hnone] at hthing
      cases hthing
  cases act with
  | start key serverName uri start randomness opens =>
      change (w.begin profile key serverName uri start randomness opens).Fits profile
      unfold World.begin
      cases haccept : profile.accept serverName uri start randomness with
      | error error =>
          cases hinitial : initialBlob uri start with
          | error error => simpa only [World.begun, hinitial] using h
          | ok blob =>
              dsimp only
              rw [begun_ok profile w key serverName randomness hinitial]
              exact h.congr rfl h.tasks
      | ok kept =>
          obtain ⟨state, content⟩ := kept
          obtain ⟨blob, hinitial, houtcome⟩ := SaslProfile.accept_ok haccept
          dsimp only
          refine h.withTable key (some (w.next, state)) ?_ ?_ ?_ rfl rfl
          · intro id identity heq
            cases heq
            rcases houtcome with ⟨-, hstate⟩ | ⟨identity', hidentity, -⟩
            · cases hstate
            · exact profile.begin_identity hidentity
          · intro id exchange heq
            cases heq
            rcases houtcome with ⟨hgoesOn, -⟩ | ⟨identity', -, hstate⟩
            · exact profile.begin_goesOn hgoesOn
            · cases hstate
          · cases opens with
            | false => exact h.tasks
            | true => exact hopening rfl
  | message key msgno payload => exact h.congr rfl (hopening rfl)
  | turn index randomness =>
      cases htask : w.tasks[index]? with
      | none => simpa only [World.act, htask] using h
      | some task =>
          obtain ⟨rest, htasks, hleft, hact⟩ := act_turn profile randomness htask
          rw [hact]
          have hturned := h.turned htasks (World.turned profile w randomness task)
          exact hturned.congr rfl fun other hmem _ _ hthing =>
            hturned.tasks other (hleft.mem_iff.mp hmem) hthing
  | drive =>
      change w.drive.Fits profile
      unfold World.drive
      split <;> exact h.congr rfl h.tasks

/-! ## What a peer has been told -/

/-- The identity is recorded, or somewhere on its way to be. -/
def Due (w : World) (id : Nat) (key : Key) (identity : Identity) : Prop :=
  (id, key, identity.effective) ∈ w.applied ∨
    .authenticate id key identity.effective ∈ w.queue ∨
    .recording id key identity ∈ w.tasks ∨
    (w.table key = some (id, .settled identity) ∧ .opening key ∈ w.tasks)

/-- Whatever a peer has been told of is due. -/
def Honoured (w : World) : Prop :=
  ∀ id key identity, (id, key, identity) ∈ w.told → w.Due id key identity

theorem Honoured.quiet (h : w.Honoured) (hquiet : w.Quiet)
    (htold : (id, key, identity) ∈ w.told) :
    (id, key, identity.effective) ∈ w.applied := by
  obtain ⟨htasks, hqueue⟩ := hquiet
  rcases h _ _ _ htold with happlied | hmem | hmem | ⟨-, hmem⟩
  · exact happlied
  · rw [hqueue] at hmem
    cases hmem
  · rw [htasks] at hmem
    cases hmem
  · rw [htasks] at hmem
    cases hmem

theorem Due.kept (h : w.Due id key identity) (htable : w'.table key = w.table key)
    (happlied : w.applied ⊆ w'.applied) (hqueue : w.queue ⊆ w'.queue)
    (htasks : ∀ task ∈ w.tasks, task = .recording id key identity ∨ task = .opening key →
      task ∈ w'.tasks) : w'.Due id key identity := by
  rcases h with h | h | h | ⟨h, hopening⟩
  · exact .inl (happlied h)
  · exact .inr (.inl (hqueue h))
  · exact .inr (.inr (.inl (htasks _ h (.inl rfl))))
  · exact .inr (.inr (.inr ⟨htable.trans h, htasks _ hopening (.inr rfl)⟩))

/-- What is due has nothing to do with the entry of the table, if the peer has been told of
another or of none. -/
theorem Due.cleared (h : w.Due id key identity) (other : Key)
    (entry : Option (Nat × State))
    (hother : w.table key = some (id, .settled identity) → key ≠ other)
    {tasks : List Task}
    (htasks : ∀ task ∈ w.tasks, task = .recording id key identity ∨ task = .opening key →
      task ∈ tasks) :
    ({ w with table := Function.update w.table other entry, tasks } : World).Due id key
      identity := by
  rcases h with h | h | h | ⟨h, hopening⟩
  · exact .inl h
  · exact .inr (.inl h)
  · exact .inr (.inr (.inl (htasks _ h (.inl rfl))))
  · refine .inr (.inr (.inr ⟨?_, htasks _ hopening (.inr rfl)⟩))
    exact (Function.update_of_ne (hother h) ..).trans h

/-- A turn keeps what is due when it leaves the entries that a peer has been told of to the
task of the opening. -/
theorem Honoured.turned {task : Task} {left rest : List Task} {next : World}
    {randomness : Randomness} (h : w.Honoured) (htasks : w.tasks.Perm (task :: rest))
    (hhandling : ∀ {key msgno payload}, task = .handling key msgno payload →
      ¬ w.Announced key)
    (hcontinuing : ∀ {id key exchange msgno challenge},
      task = .continuing id key exchange msgno challenge → ¬ w.Announced key)
    (hturned : Turned profile w randomness task next left) :
    ({ next with tasks := left ++ rest } : World).Honoured := by
  have hmem : ∀ other ∈ w.tasks, other ≠ task → other ∈ left ++ rest := by
    intro other hmem hne
    exact List.mem_append_right _
      ((List.mem_cons.mp (htasks.mem_iff.mp hmem)).resolve_left hne)
  have hothers : (∀ key, task ≠ .opening key) → (∀ id key identity,
      task ≠ .recording id key identity) → ∀ {id key identity}, ∀ other ∈ w.tasks,
        other = .recording id key identity ∨ other = .opening key → other ∈ left ++ rest := by
    intro hopening hrecording id key identity other hother hwhich
    refine hmem other hother fun heq => ?_
    rcases hwhich with rfl | rfl
    · exact hrecording _ _ _ heq.symm
    · exact hopening _ heq.symm
  intro id key identity htold
  cases hturned with
  | @collected found id' identity' htable =>
      rcases h _ _ _ htold with happlied | hqueue | hrecording | ⟨htable', hopening⟩
      · exact .inl happlied
      · exact .inr (.inl hqueue)
      · exact .inr (.inr (.inl (hmem _ hrecording nofun)))
      · by_cases hkey : key = found
        · subst hkey
          cases htable.symm.trans htable'
          exact .inr (.inr (.inl (List.mem_cons_self ..)))
        · refine .inr (.inr (.inr ⟨?_, hmem _ hopening fun heq => ?_⟩))
          · exact (Function.update_of_ne hkey ..).trans htable'
          · cases heq
            exact hkey rfl
  | @opened found hunsettled =>
      rcases h _ _ _ htold with happlied | hqueue | hrecording | ⟨htable, hopening⟩
      · exact .inl happlied
      · exact .inr (.inl hqueue)
      · exact .inr (.inr (.inl (hmem _ hrecording nofun)))
      · refine .inr (.inr (.inr ⟨htable, hmem _ hopening fun heq => ?_⟩))
        cases heq
        exact hunsettled _ _ htable
  | @recorded id' key' identity' =>
      by_cases hself : Task.recording id key identity = .recording id' key' identity'
      · cases hself
        exact .inr (.inl (List.mem_append_right _ (List.mem_singleton_self _)))
      · refine (h _ _ _ htold).kept rfl (List.Subset.refl _) (List.subset_append_left _ _) ?_
        rintro other hother (rfl | rfl)
        · exact hmem _ hother hself
        · exact hmem _ hother nofun
  | took htable =>
      refine (h _ _ _ htold).cleared _ none (fun hsettled hkey => ?_) (hothers nofun nofun)
      subst hkey
      cases htable.symm.trans hsettled
  | missed =>
      refine (h _ _ _ htold).cleared _ none (fun hsettled hkey => ?_) (hothers nofun nofun)
      subst hkey
      exact hhandling rfl ⟨_, _, hsettled, htold⟩
  | putBack =>
      refine (h _ _ _ htold).cleared _ (some (_, .inFlight _)) (fun hsettled hkey => ?_)
        (hothers nofun nofun)
      subst hkey
      exact hcontinuing rfl ⟨_, _, hsettled, htold⟩
  | told happlied =>
      rcases List.mem_append.mp htold with htold | htold
      · exact (h _ _ _ htold).kept rfl (List.Subset.refl _) (List.Subset.refl _)
          (hothers nofun nofun)
      · cases List.mem_singleton.mp htold
        exact .inl happlied
  | asked | answered =>
      exact (h _ _ _ htold).kept rfl (List.Subset.refl _) (List.subset_append_left _ _)
        (hothers nofun nofun)
  | gaveUp | goesOn | completes | fails | waits =>
      exact (h _ _ _ htold).kept rfl (List.Subset.refl _) (List.Subset.refl _)
        (hothers nofun nofun)

/-- A start that is accepted is told of its identity, and leaves it to the task of the
opening. -/
theorem Honoured.begin (h : w.Honoured) (key : Key) (serverName : Option String)
    (uri : String) (start : Proto.Management.Start) (randomness : Randomness)
    (opens : Bool)
    (hleaves : w.Leaves profile (.start key serverName uri start randomness opens)) :
    (w.begin profile key serverName uri start randomness opens).Honoured := by
  unfold World.begin
  cases haccept : profile.accept serverName uri start randomness with
  | error error =>
      cases hinitial : initialBlob uri start with
      | error error => simpa only [World.begun, hinitial] using h
      | ok blob =>
          dsimp only
          rw [begun_ok profile w key serverName randomness hinitial]
          exact h
  | ok kept =>
      obtain ⟨state, content⟩ := kept
      obtain ⟨blob, hinitial, houtcome⟩ := SaslProfile.accept_ok haccept
      have hunannounced : ¬ w.Announced key := hleaves (by rw [haccept]; rfl)
      have hothers : ∀ {id' key' identity'}, (id', key', identity') ∈ w.told →
          w.table key' = some (id', .settled identity') → key' ≠ key := by
        rintro id' key' identity' htold htable rfl
        exact hunannounced ⟨_, _, htable, htold⟩
      have htasks : ∀ task ∈ w.tasks,
          task ∈ if opens then w.tasks ++ [.opening key] else w.tasks := by
        intro task hmem
        cases opens
        · exact hmem
        · exact List.mem_append_left _ hmem
      dsimp only
      rw [begun_ok profile w key serverName randomness hinitial]
      intro id' key' identity' htold
      have hkept : (id', key', identity') ∈ w.told → ∀ entry,
          ({ w with
            table := Function.update w.table key entry
            tasks := if opens then w.tasks ++ [.opening key] else w.tasks } : World).Due id'
              key' identity' :=
        fun htold entry => (h _ _ _ htold).cleared key entry (hothers htold)
          fun task hmem _ => htasks task hmem
      rcases houtcome with ⟨-, rfl⟩ | ⟨identity, hidentity, rfl⟩
      · exact hkept htold _
      · cases opens with
        | false => exact hkept htold _
        | true =>
            rcases List.mem_append.mp htold with htold | htold
            · exact hkept htold _
            · cases List.mem_singleton.mp htold
              exact .inr (.inr (.inr ⟨Function.update_self ..,
                List.mem_append_right _ (List.mem_singleton_self _)⟩))

theorem Honoured.act (h : w.Honoured) (hfits : w.Fits profile) (act : Act)
    (hleaves : w.Leaves profile act) : (w.act profile act).Honoured := by
  cases act with
  | start key serverName uri start randomness opens =>
      exact h.begin key serverName uri start randomness opens hleaves
  | message key msgno payload =>
      intro id key identity htold
      exact (h _ _ _ htold).kept rfl (List.Subset.refl _) (List.Subset.refl _)
        fun task hmem _ => List.mem_append_left _ hmem
  | turn index randomness =>
      cases htask : w.tasks[index]? with
      | none => simpa only [World.act, htask] using h
      | some task =>
          obtain ⟨rest, htasks, hleft, hact⟩ := act_turn profile randomness htask
          rw [hact]
          have hturned := h.turned htasks
            (fun heq => hleaves _ _ _ (htask.trans (congrArg some heq)))
            (fun {id key exchange msgno challenge} heq hannounced => by
              subst heq
              obtain ⟨_, _, htable, -⟩ := hannounced
              have htwo := hfits.tasks _ (htasks.mem_iff.mpr (List.mem_cons_self ..)) rfl
              rw [hfits.settled htable] at htwo
              cases htwo)
            (World.turned profile w randomness task)
          intro id key identity htold
          exact (hturned _ _ _ htold).kept rfl (List.Subset.refl _) (List.Subset.refl _)
            fun other hmem _ => hleft.mem_iff.mpr hmem
  | drive =>
      change w.drive.Honoured
      unfold World.drive
      intro id key identity htold
      cases hqueue : w.queue with
      | nil =>
          rw [hqueue] at htold
          exact h _ _ _ htold
      | cons command queue =>
          rw [hqueue] at htold
          have hcarried : ∀ {next : World}, next.table = w.table → next.tasks = w.tasks →
              next.queue = queue → w.applied ⊆ next.applied →
              (command = .authenticate id key identity.effective →
                (id, key, identity.effective) ∈ next.applied) →
              (id, key, identity) ∈ w.told → next.Due id key identity := by
            intro next htable htasks hnext happlied hcommand htold
            rcases h _ _ _ htold with hdue | hdue | hdue | ⟨hdue, hopening⟩
            · exact .inl (happlied hdue)
            · rw [hqueue] at hdue
              rcases List.mem_cons.mp hdue with heq | hdue
              · exact .inl (hcommand heq.symm)
              · exact .inr (.inl (hnext ▸ hdue))
            · exact .inr (.inr (.inl (htasks ▸ hdue)))
            · exact .inr (.inr (.inr ⟨htable ▸ hdue, htasks ▸ hopening⟩))
          cases command with
          | send key kind msgno payload =>
              exact hcarried rfl rfl rfl (List.Subset.refl _) (by simp) htold
          | authenticate id' key' name =>
              refine hcarried rfl rfl rfl (List.subset_append_left _ _) (fun heq => ?_) htold
              cases heq
              exact List.mem_append_right _ (List.mem_singleton_self _)

/-- In a run that leaves the entries of the acceptances to the tasks of the openings, whatever
a peer has been told of is due. -/
theorem run_honoured (hrun : Run (World.act profile) (World.Leaves profile) .idle w) :
    w.Honoured := by
  have hboth : w.Honoured ∧ w.Fits profile := by
    induction hrun with
    | refl => exact ⟨fun _ _ _ hmem => (nomatch hmem), .idle⟩
    | act label _ hmeets ih => exact ⟨ih.1.act ih.2 label hmeets, ih.2.act label⟩
  exact hboth.1

/-- A round that ends an exchange well is the only one of the exchange to do so. -/
theorem Completed.once (hinTurn : InTurn w.steps) {key' : Key} {identity' : Identity}
    (h : w.Completed id key identity) (h' : w.Completed id key' identity') :
    key' = key ∧ identity' = identity := by
  obtain ⟨a, ha, hid, hkey, hidentity⟩ := h
  obtain ⟨b, hb, hid', hkey', hidentity'⟩ := h'
  have hsame : a = b := hinTurn.same ha hb (hid.trans hid'.symm)
    (fun hlater => Step.not_goesOn hidentity hlater.1)
    (fun hlater => Step.not_goesOn hidentity' hlater.1)
  subst hsame
  exact ⟨hkey'.symm.trans hkey, Option.some.inj (hidentity'.symm.trans hidentity)⟩

/-- An identity is recorded only for an exchange that ended with it, and for no exchange
is another one recorded.  Whatever a peer has been told of is recorded once all tasks
have run, if its entry was left to the task of the opening. -/
theorem run_recorded (hrun : Run (World.act profile) (fun _ _ => True) .idle w) :
    (∀ id key name, (id, key, name) ∈ w.applied →
      ∃ identity, w.Completed id key identity ∧ identity.effective = name ∧
        ∀ key' identity', (id, key', identity') ∈ w.told → key' = key ∧ identity' = identity) ∧
    (Run (World.act profile) (World.Leaves profile) .idle w → w.Quiet →
      ∀ id key identity, (id, key, identity) ∈ w.told →
        (id, key, identity.effective) ∈ w.applied) := by
  have hearned : w.Earned := hrun.preserves (fun _ h => h.act _) .idle
  have hsingle : w.Single := hrun.preserves (fun _ h => h.act _) .idle
  refine ⟨fun id key name happlied => ?_, fun hleaves hquiet id key identity htold => ?_⟩
  · obtain ⟨identity, hcompleted, heffective⟩ := hearned.applied happlied
    exact ⟨identity, hcompleted, heffective, fun key' identity' htold =>
      hcompleted.once hsingle.inTurn (hearned.told htold)⟩
  · exact (run_honoured hleaves).quiet hquiet htold

/-! ## Two runs of `PLAIN` -/

/-- A start that carries the name and the password of the one user. -/
def sampleLogin : Act :=
  .sampleStart .plain (some (Blob.toXml ⟨.none, octets "\x00u\x00s"⟩))

/-- The task of the opening runs, and the driver records the identity. -/
def sampleRecording : List Act := [sampleLogin, .sampleTurn 0, .sampleTurn 0, .drive]

/-- An act that can be seen to leave the entries alone. -/
def leavesSample (w : World) : Act → Bool
  | .start .. => w.told = []
  | .turn index _ => !(w.tasks[index]? matches some (.handling ..))
  | _ => true

theorem run_recorded_sample :
    let w := World.after (.sample .plain) sampleRecording
    w.told = [(0, (0, 1), .new "u")] ∧ (0, (0, 1), "u") ∈ w.applied := by
  refine ⟨by decide +kernel, ?_⟩
  have hleaves : Run (World.act (.sample .plain)) (World.Leaves (.sample .plain)) .idle
      (World.after (.sample .plain) sampleRecording) := by
    refine Run.of_checks leavesSample (fun {w act} hcheck => ?_) (by decide +kernel)
    cases act with
    | start =>
        rintro - ⟨id, identity, -, htold⟩
        rw [of_decide_eq_true hcheck] at htold
        cases htold
    | turn index =>
        intro key msgno payload htask
        simp [leavesSample, htask] at hcheck
    | message | drive => trivial
  exact (run_recorded (Run.of_list _ _ sampleRecording)).2 hleaves
    ⟨by decide +kernel, by decide +kernel⟩
    0 (0, 1) (.new "u") (by decide +kernel)

/-- A message on the channel is taken up before the task of the opening has looked: it takes
the identity that the peer has been told of out of the table. -/
def sampleOvertaking : List Act :=
  [sampleLogin, .sampleMessage "x", .sampleTurn 1, .sampleTurn 1, .sampleTurn 0, .drive]

theorem told_unrecorded :
    ¬ ∀ (profile : SaslProfile) (w : World),
      Run (World.act profile) (fun _ _ => True) .idle w → w.Quiet →
        ∀ id key identity, (id, key, identity) ∈ w.told →
          (id, key, identity.effective) ∈ w.applied := by
  intro h
  have happlied := h (.sample .plain) _ (Run.of_list _ _ sampleOvertaking)
    ⟨by decide +kernel, by decide +kernel⟩ 0 (0, 1) (.new "u") (by decide +kernel)
  revert happlied
  decide +kernel

end World

end Vortice.Sasl
