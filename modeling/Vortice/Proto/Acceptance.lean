import Vortice.Proto.Outgoing

/-!
# Accepting a channel before using it

`accept_start` opens the channel and queues the accepting reply on channel 0,
whose window may hold the reply back while the new channel already writes.  The
reply comes first in every run that keeps quiet on the channel until then.
-/

namespace Vortice.Proto

open Vortice.Foundation

/-- The reply a channel is accepted with. -/
def profileMessage (msgno : UInt32) (profile : Management.Profile) : Queued :=
  ⟨.rpy, msgno, none, Management.Message.toPayload (.profile profile)⟩

/-- The frames written complete a message, as number `i` on channel 0. -/
def Told (i : Nat) (message : Queued) (history : List Action) : Prop :=
  (completedOn greetingChannel (life greetingChannel history))[i]? =
    some message.whole

/-- The channel, or the session, has been dropped since. -/
def Dropped (number : UInt32) (accepted : Nat) (history : List Action) : Prop :=
  ∃ action ∈ history.drop accepted, action.ends number

/-- Each frame written on a channel since it was accepted follows the reply. -/
def Precedes (i : Nat) (message : Queued) (number : UInt32) (accepted : Nat)
    (history : List Action) : Prop :=
  ∀ before frame after, history = before ++ .wrote (.data frame) :: after →
    frame.channel = number → accepted ≤ before.length →
    ¬ Dropped number accepted before → Told i message before

/-! ## Steps that write nothing -/

namespace Lane

variable {number : UInt32} {lane lane' : Lane} {effect : Effect}
variable {actions : List Action}

/-- The lane has nothing it could write. -/
def Quiet (number : UInt32) (lane : Lane) : Prop :=
  lane.queue = [] ∨ Stuck number lane.queue

/-- The effect gives the lane nothing it could write. -/
def Silent (number : UInt32) (lane : Lane) (effect : Effect) : Prop :=
  (∀ message, effect = .push message → Stuck number (lane.queue ++ [message])) ∧
    ∀ msgno, effect = .release msgno → Stuck number lane.queue

theorem Step.quiet (h : Step number lane effect actions lane')
    (hplaced : Placed number lane) (hquiet : lane.Quiet number)
    (hsilent : lane.Silent number effect) (hclosed : effect ≠ .closed) :
    writtenOn number actions = [] ∧
      (lane'.queue = lane.queue ∨ Stuck number lane'.queue) := by
  cases h with
  | push hflow hwrites =>
      have hnumber := hplaced _ hflow
      have hstuck := hsilent.1 _ rfl
      obtain ⟨rfl, hqueue⟩ := hwrites.stuck (by rwa [hnumber])
      rw [← hqueue] at hstuck
      exact ⟨by simp [writtenOn, wrote], .inr hstuck⟩
  | hold => exact ⟨rfl, .inl rfl⟩
  | @release flow frames queue' count msgno hflow hwrites =>
      have hnumber := hplaced _ hflow
      have hstuck := (hsilent.2 msgno rfl).append (lane.held msgno)
      obtain ⟨rfl, hqueue⟩ := hwrites.stuck (by rwa [hnumber])
      rw [← hqueue] at hstuck
      refine ⟨?_, .inr hstuck⟩
      rw [writtenOn_append, writtenOn_queued]
      rfl
  | react hflow _ hwrites =>
      have hnumber := hplaced _ hflow
      rcases hquiet with hempty | hstuck
      · rw [hempty] at hwrites
        obtain ⟨rfl, rfl, -⟩ := hwrites.stays (by rintro _ ⟨⟩)
        exact ⟨rfl, .inl hempty.symm⟩
      · rw [← hnumber] at hstuck
        obtain ⟨rfl, rfl⟩ := hwrites.stuck hstuck
        exact ⟨rfl, .inl rfl⟩
  | take _ _ _ _ hcounts =>
      obtain ⟨-, hqueue, -, -, -, hwritten⟩ := hcounts.silent number
      exact ⟨hwritten, .inl hqueue⟩
  | reject => exact ⟨rfl, .inl rfl⟩
  | opened => exact ⟨rfl, .inl rfl⟩
  | closed => exact absurd rfl hclosed
  | resize => exact ⟨rfl, .inl rfl⟩
  | advertise => exact ⟨rfl, .inl rfl⟩

end Lane

namespace SessionCore

/-- The effect gives the lane of a channel number nothing it could write. -/
def Silent (number : UInt32) (s : SessionCore) (effect : Effect) : Prop :=
  ∀ found, effect = .lane number found → (s.lane number).Silent number found

variable {s s' : SessionCore} {effect : Effect} {number : UInt32}

/-- A move that does not drop the channel, and what it means while that is quiet. -/
structure Hushed (number : UInt32) (s : SessionCore) (effect : Effect)
    (actions : List Action) (s' : SessionCore) : Prop where
  ends : ∀ action ∈ actions, action.ends number = false
  quiet : (s.lane number).Quiet number → Silent number s effect →
    writtenOn number actions = [] ∧
      ((s'.lane number).queue = (s.lane number).queue ∨
        Stuck number (s'.lane number).queue)

theorem Move.hushed (h : Move s effect s') (hplaced : s.Placed) (number : UInt32) :
    ∃ actions, Logs s actions s' ∧
      ((∃ other, actions = [.dropped other] ∧
        (Action.dropped other).ends number) ∨ Hushed number s effect actions s') := by
  have hsame : s'.lane = s.lane → Logs s [] s' →
      ∃ actions, Logs s actions s' ∧ ((∃ other, actions = [.dropped other] ∧
        (Action.dropped other).ends number) ∨ Hushed number s effect actions s') := by
    intro hlane hlogs
    refine ⟨[], hlogs, .inr ⟨by simp, fun _ _ => ⟨rfl, .inl ?_⟩⟩⟩
    rw [hlane]
  have hopened : ∀ {other : UInt32} {windowSize : UInt32} {lane' : Lane},
      Lane.Step other (s.lane other) (.opened windowSize) [.opened other] lane' →
      s'.lane = Function.update s.lane other lane' → Logs s [.opened other] s' →
      ∃ actions, Logs s actions s' ∧ ((∃ other, actions = [.dropped other] ∧
        (Action.dropped other).ends number) ∨ Hushed number s effect actions s') := by
    intro other windowSize lane' hstep hlane hlogs
    refine ⟨_, hlogs, .inr ⟨by simp [Action.ends], fun _ _ => ⟨rfl, .inl ?_⟩⟩⟩
    rw [hlane]
    by_cases hother : number = other
    · subst hother
      rw [Function.update_self]
      cases hstep
      rfl
    · rw [Function.update_of_ne hother]
  cases h with
  | idle hlane hlogs => exact hsame hlane hlogs
  | tell hlane hlogs => exact hsame hlane hlogs
  | number hlane hlogs => exact hsame hlane hlogs
  | ask hlane hlogs => exact hsame hlane hlogs
  | settle hlane hlogs => exact hsame hlane hlogs
  | @lane _ other found actions lane' _ hstep hlane hlogs =>
      by_cases hclosed : found = .closed
      · subst hclosed
        cases hstep with
        | closed hzero =>
            by_cases hother : number = other
            · exact ⟨_, hlogs, .inl ⟨other, rfl, by simp [Action.ends, hother]⟩⟩
            · refine ⟨_, hlogs, .inr ⟨?_, fun _ _ => ⟨rfl, .inl ?_⟩⟩⟩
              · simp [Action.ends, hzero, Ne.symm hother]
              · rw [hlane, Function.update_of_ne hother]
      · refine ⟨actions, hlogs, .inr ⟨hstep.ends hclosed, fun hquiet hsilent => ?_⟩⟩
        rw [hlane]
        by_cases hother : number = other
        · subst hother
          rw [Function.update_self]
          exact hstep.quiet (hplaced number) hquiet (hsilent found rfl) hclosed
        · rw [Function.update_of_ne hother]
          refine ⟨Elsewhere.writtenOn fun action hmem heq => hother ?_, .inl rfl⟩
          exact heq.symm.trans (hstep.channel (hplaced other) action hmem)
  | accept _ _ hstep hlane hlogs => exact hopened hstep hlane hlogs
  | answer _ hstep hlane hlogs => exact hopened hstep hlane hlogs
  | answerZero _ hlane hlogs =>
      refine ⟨_, hlogs, .inr ⟨by simp [Action.ends], fun _ _ => ⟨rfl, .inl ?_⟩⟩⟩
      rw [hlane]
  | shut _ hlogs =>
      exact ⟨_, hlogs, .inl ⟨greetingChannel, rfl, by simp [Action.ends]⟩⟩

end SessionCore

/-! ## Keeping the order -/

section Order

variable {i accepted : Nat} {message : Queued} {number : UInt32}
variable {history actions : List Action}

theorem Dropped.append (h : Dropped number accepted history) (more : List Action) :
    Dropped number accepted (history ++ more) := by
  obtain ⟨action, hmem, hends⟩ := h
  refine ⟨action, ?_, hends⟩
  rw [List.drop_append]
  exact List.mem_append_left _ hmem

theorem Dropped.of_mem {action : Action} (haccepted : accepted ≤ history.length)
    (hmem : action ∈ actions) (hends : action.ends number) :
    Dropped number accepted (history ++ actions) := by
  refine ⟨action, ?_, hends⟩
  rw [List.drop_append_of_le_length haccepted]
  exact List.mem_append_right _ hmem

theorem Told.append (h : Told i message history)
    (hends : ∀ action ∈ actions, action.ends greetingChannel = false)
    (hjoins : (Fragment.assemble none (fragmentsOn greetingChannel
      (life greetingChannel (history ++ actions)))).isSome) :
    Told i message (history ++ actions) := by
  unfold Told at h ⊢
  rw [life_append hends] at hjoins ⊢
  rw [fragmentsOn, writtenOn_append, List.map_append] at hjoins
  obtain ⟨⟨held, done⟩, hall⟩ := Option.isSome_iff_exists.mp hjoins
  obtain ⟨held', first, more, hfirst, -, rfl⟩ := Fragment.assemble_split hall
  have hdone : completedOn greetingChannel (life greetingChannel history) = first := by
    rw [completedOn, fragmentsOn, hfirst]
    rfl
  have hmore : completedOn greetingChannel (life greetingChannel history ++ actions) =
      first ++ more := by
    rw [completedOn, fragmentsOn, writtenOn_append, List.map_append, hall]
    rfl
  rw [hdone] at h
  rw [hmore]
  exact List.getElem?_append_left (List.getElem?_eq_some_iff.mp h).1 ▸ h

theorem Precedes.append (h : Precedes i message number accepted history)
    (hnew : ∀ before frame after, actions = before ++ .wrote (.data frame) :: after →
      frame.channel = number → ¬ Dropped number accepted (history ++ before) →
      Told i message (history ++ before)) :
    Precedes i message number accepted (history ++ actions) := by
  intro before frame after hsplit hchannel haccepted hdropped
  rcases List.append_eq_append_iff.mp hsplit with ⟨rest, rfl, hactions⟩ |
    ⟨rest, hhistory, hrest⟩
  · exact hnew rest frame after hactions hchannel hdropped
  · cases rest with
    | nil =>
        rw [List.append_nil] at hhistory
        subst hhistory
        simpa using hnew [] frame after hrest.symm hchannel (by simpa using hdropped)
    | cons action rest =>
        rw [List.cons_append, List.cons.injEq] at hrest
        obtain ⟨rfl, -⟩ := hrest
        exact h before frame rest hhistory hchannel haccepted hdropped

end Order

namespace SessionCore

variable {i accepted : Nat} {message : Queued} {number : UInt32}
variable {s s' : SessionCore} {effect : Effect}

/-- The reply is complete, or no longer due. -/
def Clear (i : Nat) (message : Queued) (number : UInt32) (accepted : Nat)
    (s : SessionCore) : Prop :=
  Dropped number accepted s.history ∨ Told i message s.history

/-- While the reply is due it is queued, and the accepted channel is quiet. -/
structure Kept (i : Nat) (message : Queued) (number : UInt32) (accepted : Nat)
    (s : SessionCore) : Prop where
  accounted : s.Accounted
  accepted_le : accepted ≤ s.history.length
  order : Precedes i message number accepted s.history
  quiet : Clear i message number accepted s ∨ (s.lane number).Quiet number

theorem ends_zero {actions : List Action}
    (h : ∀ action ∈ actions, action.ends number = false) :
    ∀ action ∈ actions, action.ends greetingChannel = false := by
  intro action hmem
  have hends := h action hmem
  cases action <;> simp_all [Action.ends]

theorem Accounted.joins (h : s.Accounted) {first second : List Action}
    (hhistory : s.history = first ++ second)
    (hends : ∀ action ∈ second, action.ends greetingChannel = false) :
    (Fragment.assemble none (fragmentsOn greetingChannel
      (life greetingChannel first))).isSome := by
  obtain ⟨held, -, hassemble, -⟩ := (h.fifo greetingChannel).reassembles
  rw [past, hhistory, life_append hends, fragmentsOn, writtenOn_append,
    List.map_append] at hassemble
  obtain ⟨_, _, _, hfirst, -, -⟩ := Fragment.assemble_split hassemble
  rw [fragmentsOn, hfirst]
  rfl

theorem Clear.append {actions : List Action} (h : Clear i message number accepted s)
    (haccepted : accepted ≤ s.history.length) (hlogs : Logs s actions s')
    (haccounted : s'.Accounted) : Clear i message number accepted s' := by
  unfold Clear
  rw [hlogs.history]
  by_cases hends : ∃ action ∈ actions, action.ends number
  · obtain ⟨action, hmem, hends⟩ := hends
    exact .inl (.of_mem haccepted hmem hends)
  · have hnone : ∀ action ∈ actions, action.ends number = false := by
      intro action hmem
      by_contra hne
      exact hends ⟨action, hmem, by simpa using hne⟩
    rcases h with hdropped | htold
    · exact .inl (hdropped.append actions)
    · refine .inr (htold.append (ends_zero hnone) ?_)
      have hall : s'.history = (s.history ++ actions) ++ [] := by
        rw [hlogs.history, List.append_nil]
      exact haccounted.joins hall (by simp)

theorem Kept.move (h : Kept i message number accepted s) (hmove : Move s effect s')
    (hallowed : Clear i message number accepted s ∨ Silent number s effect) :
    Kept i message number accepted s' ∧
      (Clear i message number accepted s → Clear i message number accepted s') ∧
      (Stuck number (s.lane number).queue → Clear i message number accepted s' ∨
        Stuck number (s'.lane number).queue) := by
  obtain ⟨actions, hlogs, hactions⟩ := hmove.hushed h.accounted.placed number
  have haccounted := h.accounted.move hmove
  have hclear : Clear i message number accepted s → Clear i message number accepted s' :=
    fun hclear => hclear.append h.accepted_le hlogs haccounted
  have hquiet : Clear i message number accepted s' ∨
      writtenOn number actions = [] ∧
        ((s'.lane number).queue = (s.lane number).queue ∨
          Stuck number (s'.lane number).queue) := by
    rcases h.quiet with hdone | hquiet
    · exact .inl (hclear hdone)
    rcases hallowed with hdone | hsilent
    · exact .inl (hclear hdone)
    rcases hactions with ⟨other, rfl, hends⟩ | hhushed
    · refine .inl (.inl ?_)
      rw [hlogs.history]
      exact .of_mem h.accepted_le (List.mem_singleton_self _) hends
    · exact .inr (hhushed.quiet hquiet hsilent)
  refine ⟨⟨haccounted, ?_, ?_, ?_⟩, hclear, fun hstuck => ?_⟩
  · rw [hlogs.history, List.length_append]
    exact h.accepted_le.trans (Nat.le_add_right _ _)
  · rw [hlogs.history]
    refine h.order.append fun before frame after hsplit hchannel hdropped => ?_
    rcases hactions with ⟨other, rfl, -⟩ | hhushed
    · cases before <;> simp at hsplit
    have hends : ∀ action ∈ before, action.ends number = false :=
      fun action hmem => hhushed.ends action (by simp [hsplit, hmem])
    have hrest : ∀ action ∈ Action.wrote (.data frame) :: after,
        action.ends number = false :=
      fun action hmem => hhushed.ends action (by
        rw [hsplit]
        exact List.mem_append_right _ hmem)
    have hdone : Clear i message number accepted s := by
      rcases h.quiet with hdone | hquiet
      · exact hdone
      refine hallowed.resolve_right fun hsilent => ?_
      have hnone := (hhushed.quiet hquiet hsilent).1
      rw [hsplit] at hnone
      simp [writtenOn, hchannel] at hnone
    rcases hdone with hgone | htold
    · exact absurd (hgone.append before) hdropped
    · refine htold.append (ends_zero hends) ?_
      refine haccounted.joins ?_ (ends_zero hrest)
      rw [hlogs.history, hsplit, List.append_assoc]
  · rcases hquiet with hdone | ⟨-, hsame | hstuck⟩
    · exact .inl hdone
    · rcases h.quiet with hdone | hquiet
      · exact .inl (hclear hdone)
      · refine .inr ?_
        unfold Lane.Quiet
        rw [hsame]
        exact hquiet
    · exact .inr (.inr hstuck)
  · rcases hquiet with hdone | ⟨-, hsame | hstuck'⟩
    · exact .inl hdone
    · refine .inr ?_
      rwa [hsame]
    · exact .inr hstuck'

/-- Effects that give a channel number nothing it could write, in any state. -/
def Effect.Mute (number : UInt32) (effect : Effect) : Prop :=
  (∀ message, effect ≠ .lane number (.push message)) ∧
    ∀ msgno, effect ≠ .lane number (.release msgno)

theorem Silent.of_mute (h : effect.Mute number) : Silent number s effect := by
  rintro found rfl
  refine ⟨?_, ?_⟩
  · rintro queued rfl
    exact absurd rfl (h.1 queued)
  · rintro msgno rfl
    exact absurd rfl (h.2 msgno)

theorem Kept.path {allowed : Effect → Prop} (h : Kept i message number accepted s)
    (hpath : Walk Move allowed s s')
    (hmute : ∀ effect : Effect, allowed effect → effect.Mute number) :
    Kept i message number accepted s' := by
  refine hpath.preserves ?_ h
  intro t u effect hallowed hmove hkept
  exact (hkept.move hmove (.inr (.of_mute (hmute effect hallowed)))).1

theorem Kept.path_clear {allowed : Effect → Prop} (h : Kept i message number accepted s)
    (hclear : Clear i message number accepted s) (hpath : Walk Move allowed s s') :
    Kept i message number accepted s' := by
  refine (hpath.preserves (I := fun t => Kept i message number accepted t ∧
    Clear i message number accepted t) ?_ ⟨h, hclear⟩).1
  rintro t u effect - hmove ⟨hkept, hdone⟩
  obtain ⟨hkept', hdone', -⟩ := hkept.move hmove (.inl hdone)
  exact ⟨hkept', hdone' hdone⟩

theorem Kept.path_stuck (h : Kept i message number accepted s)
    (hstuck : Clear i message number accepted s ∨
      Stuck number (s.lane number).queue)
    (hpath : Walk Move (Effect.sends number fun _ => False) s s') :
    Kept i message number accepted s' := by
  refine (hpath.preserves (I := fun t => Kept i message number accepted t ∧
    (Clear i message number accepted t ∨ Stuck number (t.lane number).queue))
    ?_ ⟨h, hstuck⟩).1
  rintro t u effect hallowed hmove ⟨hkept, hdone⟩
  have hsilent : Clear i message number accepted t ∨ Silent number t effect := by
    rcases hdone with hdone | hstuck
    · exact .inl hdone
    refine .inr ?_
    rintro found rfl
    refine ⟨?_, fun _ _ => hstuck⟩
    rintro queued rfl
    exact hallowed.2.elim
  obtain ⟨hkept', hclear, hstuck⟩ := hkept.move hmove hsilent
  exact ⟨hkept', hdone.elim (fun hdone => .inl (hclear hdone)) hstuck⟩

theorem Effect.mute_of_ne {other : UInt32} {found : Lane.Effect} (h : other ≠ number) :
    Effect.Mute number (.lane other found) := by
  constructor
  · rintro queued ⟨⟩
    exact h rfl
  · rintro msgno ⟨⟩
    exact h rfl

theorem Effect.mute_of_writesZero (hzero : number ≠ greetingChannel)
    (h : effect.writesZero fun _ => True) : effect.Mute number := by
  cases effect with
  | lane other found =>
      cases found with
      | push =>
          obtain ⟨rfl, -⟩ := h
          exact mute_of_ne (Ne.symm hzero)
      | _ => cases h
  | _ => exact ⟨nofun, nofun⟩

theorem Effect.mute_of_requests {wanted : Pending} (hzero : number ≠ greetingChannel)
    (h : effect.requests wanted) : effect.Mute number := by
  cases effect with
  | lane other found =>
      cases found with
      | push =>
          cases h
          exact mute_of_ne (Ne.symm hzero)
      | _ => cases h
  | _ => exact ⟨nofun, nofun⟩

theorem Effect.mute_of_sends {channel : UInt32} {messages : Queued → Prop}
    (hne : channel ≠ number) (h : effect.sends channel messages) :
    effect.Mute number := by
  cases effect with
  | lane other found =>
      cases found with
      | push =>
          obtain ⟨rfl, -⟩ := h
          exact mute_of_ne hne
      | hold => exact ⟨nofun, nofun⟩
      | release =>
          cases h
          exact mute_of_ne hne
      | _ => cases h
  | _ => exact ⟨nofun, nofun⟩

theorem Effect.mute_of_closes {channel : UInt32} (h : effect.closes channel) :
    effect.Mute number := by
  cases effect with
  | lane other found =>
      cases found with
      | closed => exact ⟨nofun, nofun⟩
      | _ => cases h
  | _ => exact ⟨nofun, nofun⟩

theorem Effect.mute_of_input (h : effect.ofInput) : effect.Mute number := by
  obtain ⟨frame, h⟩ := h
  cases effect with
  | lane other found =>
      cases found with
      | closed => exact ⟨nofun, nofun⟩
      | react => exact ⟨nofun, nofun⟩
      | take => exact ⟨nofun, nofun⟩
      | reject => exact ⟨nofun, nofun⟩
      | _ => cases h
  | _ => exact ⟨nofun, nofun⟩

theorem Effect.mute_of_call {call : Call} (hzero : number ≠ greetingChannel)
    (hsend : ∀ kind msgno ansno payload, call ≠ .send number kind msgno ansno payload)
    (hsendMsg : ∀ payload, call ≠ .sendMsg number payload)
    (h : Effect.ofCall s call effect) : effect.Mute number := by
  cases call with
  | startChannel =>
      rcases h with rfl | h
      · exact ⟨nofun, nofun⟩
      · exact mute_of_requests hzero h
  | acceptStart =>
      rcases h with rfl | h
      · exact ⟨nofun, nofun⟩
      · exact mute_of_writesZero hzero h
  | refuseStart => exact mute_of_writesZero hzero h
  | closeChannel => exact mute_of_requests hzero h
  | acceptClose =>
      rcases h with h | h
      · exact mute_of_closes h
      · exact mute_of_writesZero hzero h
  | refuseClose => exact mute_of_writesZero hzero h
  | send channel kind msgno ansno payload =>
      refine mute_of_sends ?_ h
      rintro rfl
      exact hsend kind msgno ansno payload rfl
  | sendMsg channel payload =>
      refine mute_of_sends ?_ h
      rintro rfl
      exact hsendMsg payload rfl
  | setWindowSize =>
      rcases h with rfl | rfl
      · exact ⟨nofun, nofun⟩
      · exact ⟨nofun, nofun⟩
  | setAuthenticated =>
      cases h
      exact ⟨nofun, nofun⟩
  | setServerName =>
      cases h
      exact ⟨nofun, nofun⟩

end SessionCore

/-- A call that puts nothing on the way out on a channel number: the channel is not open, a
reply is held back for its turn, or no frame can carry the first message in line. -/
def Call.Mindful (number : UInt32) (s : SessionCore) : Call → Prop
  | .send channel kind msgno ansno payload => channel = number → (s.channels number).isSome →
      s.holdsBack number kind msgno ∨ Stuck number ((s.lane number).queue ++
        [⟨kind, msgno, s.answerNumber number kind msgno ansno, payload⟩])
  | .sendMsg channel payload => channel = number → (s.channels number).isSome →
      ∀ msgno, Stuck number ((s.lane number).queue ++ [⟨.msg, msgno, none, payload⟩])
  | _ => True

namespace SessionCore

variable {i accepted : Nat} {message : Queued} {number : UInt32} {s : SessionCore}

theorem Silent.of_idle {effect : Effect} (h : ∀ found, effect ≠ .lane number found) :
    Silent number s effect := fun found heffect => absurd heffect (h found)

theorem Silent.of_hold {queued : Queued} :
    Silent number s (.lane number (.hold queued)) := by
  rintro found ⟨⟩
  exact ⟨nofun, nofun⟩

theorem Kept.push {queued : Queued} {t s' : SessionCore}
    (h : Kept i message number accepted s)
    (hstuck : Stuck number ((s.lane number).queue ++ [queued]))
    (hpush : Move s (.lane number (.push queued)) t)
    (hrest : Walk Move (Effect.sends number fun _ => False) t s') :
    Kept i message number accepted s' := by
  have hsilent : Silent number s (.lane number (.push queued)) := by
    rintro found ⟨⟩
    refine ⟨?_, nofun⟩
    rintro other ⟨⟩
    exact hstuck
  refine (h.move hpush (.inr hsilent)).1.path_stuck (.inr ?_) hrest
  cases hpush with
  | lane _ hstep hlane =>
      cases hstep with
      | push hflow hwrites =>
          have hnumber := h.accounted.placed number _ hflow
          rw [hlane, Function.update_self, (hwrites.stuck (by rwa [hnumber])).2]
          exact hstuck

theorem Kept.idle {t : SessionCore} (h : Kept i message number accepted s)
    (hidle : Move s .idle t) :
    Kept i message number accepted t ∧ t.lane = s.lane := by
  refine ⟨(h.move hidle (.inr (.of_idle nofun))).1, ?_⟩
  cases hidle
  assumption

theorem Kept.call {call : Call} (h : Kept i message number accepted s)
    (hzero : number ≠ greetingChannel) (hmindful : call.Mindful number s) :
    Kept i message number accepted (Computation.final call.run s) := by
  by_cases hother : (∀ kind msgno ansno payload,
      call ≠ .send number kind msgno ansno payload) ∧
      ∀ payload, call ≠ .sendMsg number payload
  · exact h.path (path_call call s) fun effect heffect =>
      Effect.mute_of_call hzero hother.1 hother.2 heffect
  cases hchannel : s.channels number with
  | none =>
      have hstay : Computation.final call.run s = s := by
        cases call with
        | send channel kind msgno ansno payload =>
            have hsame : channel = number := by
              by_contra hne
              simp [hne] at hother
            subst hsame
            exact Computation.final_of_error
              (send_closed kind msgno ansno payload hchannel)
        | sendMsg channel payload =>
            have hsame : channel = number := by
              by_contra hne
              simp [hne] at hother
            subst hsame
            exact Computation.final_of_error
              (Computation.bind_of_error (sendMsg_closed payload hchannel) _)
        | _ => simp at hother
      rwa [hstay]
  | some channel =>
  cases call with
  | send number' kind msgno ansno payload =>
      have hsame : number' = number := by
        by_contra hne
        simp [hne] at hother
      subst hsame
      obtain ⟨t, hidle, ⟨-, hhold⟩ | ⟨hturn, u, hpush, hrest⟩⟩ :=
        send_cases kind msgno ansno payload hchannel
      · exact ((h.idle hidle).1.move hhold (.inr .of_hold)).1
      · obtain ⟨hkept, hlane⟩ := h.idle hidle
        refine hkept.push ?_ hpush hrest
        rw [hlane]
        exact (hmindful rfl (by rw [hchannel]; rfl)).resolve_left hturn
  | sendMsg number' payload =>
      have hsame : number' = number := by
        by_contra hne
        simp [hne] at hother
      subst hsame
      have hlast : Computation.final (Call.run (.sendMsg number' payload)) s =
          Computation.final (sendMsg number' payload) s :=
        Computation.final_drop _ _ s
      rw [hlast]
      obtain ⟨t, hidle, rfl | ⟨msgno, u, v, -, hidle', hpush, hrest⟩⟩ :=
        sendMsg_cases payload hchannel
      · exact (h.idle hidle).1
      · obtain ⟨hkept, hlane⟩ := h.idle hidle
        obtain ⟨hkept', hlane'⟩ := hkept.idle hidle'
        refine hkept'.push ?_ hpush hrest
        rw [hlane', hlane]
        exact hmindful rfl (by rw [hchannel]; rfl) msgno
  | _ => simp at hother

/-! ## Runs that accept a channel -/

theorem acceptStart_run {msgno : UInt32} {profile : Management.Profile}
    (hclosed : s.channels number = none)
    (hopen : ((Computation.final (acceptStart number msgno profile) s).channels
      number).isSome) :
    number ≠ greetingChannel ∧ ∃ flow frames queue' count,
      (s.lane greetingChannel).flow = some flow ∧
      flow.Writes ((s.lane greetingChannel).queue ++ [profileMessage msgno profile])
        frames queue' count ∧
      (Computation.final (acceptStart number msgno profile) s).history =
        s.history ++ (.opened number :: .handed greetingChannel
          (profileMessage msgno profile) :: .queued greetingChannel
          (profileMessage msgno profile) :: Lane.wrote frames) ∧
      ((Computation.final (acceptStart number msgno profile) s).lane number).queue =
        (s.lane number).queue := by
  have hcall : ¬ (number = greetingChannel ∨ s.config.role.owns number) := by
    intro hrefused
    have hstay : Computation.final (acceptStart number msgno profile) s = s := by
      unfold acceptStart
      change Computation.final (if _ then _ else _ : SessionM Unit) s = s
      rw [if_pos hrefused]
      rfl
    rw [hstay, hclosed] at hopen
    cases hopen
  have hzero : number ≠ greetingChannel := fun heq => hcall (.inl heq)
  refine ⟨hzero, ?_⟩
  have hlane : SessionCore.lane { s with
      channels := Function.update s.channels number
        (some (Channel.withWindowSize number profile.uri s.config.windowSize))
      zero := s.zero.replied msgno
      history := s.history ++ [.opened number] } =
      Function.update s.lane number { s.lane number with
        flow := some (Flow.fresh number s.config.windowSize) } := by
    rw [← lane_opened profile.uri hzero]
    funext other
    by_cases hother : other = greetingChannel <;>
      simp [SessionCore.lane, channelAt, hother, Channel.replied, Channel.flow]
  obtain ⟨t, result, frames, queue', count, hrun, hpushed, -⟩ :=
    push_run (profileMessage msgno profile) (flow_zero { s with
      channels := Function.update s.channels number
        (some (Channel.withWindowSize number profile.uri s.config.windowSize))
      zero := s.zero.replied msgno
      history := s.history ++ [.opened number] })
  have hfinal : Computation.final (acceptStart number msgno profile) s = t := by
    unfold acceptStart
    change Computation.final (if _ then _ else if _ then _ else _ : SessionM Unit) s = t
    rw [if_neg hcall, hclosed, if_neg (by simp)]
    exact final_of_outcome hrun
  have hwrites := hpushed.writes
  rw [hlane, Function.update_of_ne (Ne.symm hzero)] at hwrites
  refine ⟨_, frames, queue', count, s.flow_zero, hwrites, ?_, ?_⟩
  · rw [hfinal, hpushed.logs.history, List.append_assoc]
    rfl
  · rw [hfinal, hpushed.lane, Function.update_of_ne hzero, hlane, Function.update_self]

/-- Where the accepted channel starts: nothing is on its way, and the reply is due. -/
theorem kept_acceptStart {msgno : UInt32} {profile : Management.Profile}
    (h : s.Accounted) (hclosed : s.channels number = none)
    (hopen : ((Computation.final (acceptStart number msgno profile) s).channels
      number).isSome) :
    number ≠ greetingChannel ∧
      Kept i message number s.history.length
        (Computation.final (acceptStart number msgno profile) s) := by
  obtain ⟨hzero, flow, frames, queue', count, hflow, hwrites, hhistory, hqueue⟩ :=
    acceptStart_run hclosed hopen
  have haccounted : (Computation.final (acceptStart number msgno profile) s).Accounted :=
    (path_acceptStart number msgno profile s).preserves
      (fun _ hmove h => h.move hmove) h
  have hshut : (s.lane number).queue = [] := by
    have hnone : (s.lane number).flow = none := by
      simp [lane, channelAt, hzero, hclosed]
    rw [(h.fifo number).closed hnone]
    rfl
  refine ⟨hzero, haccounted, ?_, ?_, .inr (.inl (hqueue.trans hshut))⟩
  · rw [hhistory, List.length_append]
    exact Nat.le_add_right _ _
  · have hold : Precedes i message number s.history.length s.history := by
      rintro before frame after hsplit - hle
      rw [hsplit] at hle
      simp at hle
    rw [hhistory]
    refine hold.append fun before frame after hsplit hchannel => ?_
    have hmem : Action.wrote (.data frame) ∈ Action.opened number ::
        .handed greetingChannel (profileMessage msgno profile) ::
        .queued greetingChannel (profileMessage msgno profile) ::
        Lane.wrote frames := by
      rw [hsplit]
      simp
    simp only [List.mem_cons, reduceCtorEq, false_or] at hmem
    have hother := Lane.wrote_channel (fun frame hframe =>
      (hwrites.confined frame hframe).trans (h.placed _ _ hflow)) _ hmem
    exact absurd (hchannel.symm.trans hother) hzero

theorem Kept.polled {s' : SessionCore} (h : Kept i message number accepted s)
    (hpolled : Trace.Polled s s') : Kept i message number accepted s' := by
  obtain ⟨outbound, events, rfl⟩ := hpolled
  exact ⟨⟨h.accounted.placed, h.accounted.fifo, h.accounted.settled⟩,
    h.accepted_le, h.order, h.quiet⟩

end SessionCore

/-- While the accepting reply is due, nothing is sent on the accepted channel. -/
def Trace.Mindful (i : Nat) (message : Queued) (number : UInt32) (trace : Trace)
    (act : Act) : Prop :=
  Told i message trace.core.history ∨
    ∀ call, act = .call call → call.Mindful number trace.core

theorem SessionCore.Kept.act {i accepted : Nat} {message : Queued} {number : UInt32}
    {trace : Trace} {act : Act}
    (h : SessionCore.Kept i message number accepted trace.core)
    (hzero : number ≠ greetingChannel)
    (hmindful : trace.Mindful i message number act) :
    SessionCore.Kept i message number accepted (trace.act act).core := by
  rcases trace.act_path act with hpath | hpolled
  · rcases hmindful with htold | hmindful
    · exact h.path_clear (.inr htold) hpath
    cases act with
    | call call => exact h.call hzero (hmindful call rfl)
    | input => exact h.path hpath fun _ => SessionCore.Effect.mute_of_input
    | pollTransmit => exact h.path hpath fun _ => False.elim
    | pollEvent => exact h.path hpath fun _ => False.elim
  · exact h.polled hpolled

theorem SessionCore.Kept.run {i accepted : Nat} {message : Queued} {number : UInt32}
    {first last : Trace} (h : SessionCore.Kept i message number accepted first.core)
    (hzero : number ≠ greetingChannel)
    (hrun : Trace.Run (Trace.Mindful i message number) first last) :
    SessionCore.Kept i message number accepted last.core := by
  induction hrun with
  | refl => exact h
  | act act _ hmindful ih => exact ih.act hzero hmindful

/-- The accepting reply precedes every frame of the channel it accepts, in every run
that sends nothing on the channel while the reply is due. -/
theorem Trace.Run.acceptance_precedes_use {config : Config}
    {meets : Trace → Act → Prop} {first mid last : Trace} {number msgno : UInt32}
    {profile : Management.Profile} (hfresh : Trace.Fresh config first)
    (hrun : Trace.Run meets first mid) (hclosed : mid.core.channels number = none)
    (hopen : ((mid.act (.call (.acceptStart number msgno profile))).core.channels
      number).isSome)
    (hmindful : Trace.Run
      (Trace.Mindful (queuedOn greetingChannel (mid.core.past greetingChannel)).length
        (profileMessage msgno profile) number)
      (mid.act (.call (.acceptStart number msgno profile))) last) :
    last.octetsOut = encodeAll (written last.core.history) ∧
      Precedes (queuedOn greetingChannel (mid.core.past greetingChannel)).length
        (profileMessage msgno profile) number mid.core.history.length
        last.core.history := by
  obtain ⟨hzero, hstart⟩ :=
    SessionCore.kept_acceptStart (hrun.accounted hfresh) hclosed hopen
  have hfaithful := (hrun.faithful hfresh.faithful).act
    (.call (.acceptStart number msgno profile))
  exact ⟨hmindful.faithful hfaithful, (hstart.run hzero hmindful).order⟩

/-- A message sent on a channel behind its acceptance follows the acceptance. -/
theorem acceptance_precedes_message :
    ∃ first mid last, Trace.Fresh (Config.new .listener) first ∧
      mid = first.replay [.input (peerFrame .rpy 0 0 0 Greeting.new.toPayload ++
        startRequest 1 0 52)] ∧
      last = (mid.act (.call (.acceptStart 1 0 (.new "urn:x")))).act
        (.call (.sendMsg 1 [120])) ∧
      Precedes 1 (profileMessage 0 (.new "urn:x")) 1 mid.core.history.length
        last.core.history := by
  have hrun : (Session.new (Config.new .listener)).toOption.any fun session =>
      let mid := Trace.replay ⟨session, []⟩
        [.input (peerFrame .rpy 0 0 0 Greeting.new.toPayload ++ startRequest 1 0 52)]
      let accepted := mid.act (.call (.acceptStart 1 0 (.new "urn:x")))
      (mid.core.channels 1).isNone && (accepted.core.channels 1).isSome &&
        ((queuedOn greetingChannel (mid.core.past greetingChannel)).length = 1) &&
        (completedOn greetingChannel (life greetingChannel accepted.core.history))[1]? =
          some (profileMessage 0 (.new "urn:x")).whole := by
    decide +kernel
  obtain ⟨session, hnew⟩ := Session.new_ok (Config.new .listener)
  rw [hnew] at hrun
  simp only [Except.toOption, Option.any_some, Bool.and_eq_true, decide_eq_true_eq,
    Option.isNone_iff_eq_none] at hrun
  obtain ⟨⟨⟨hclosed, hopen⟩, hindex⟩, htold⟩ := hrun
  refine ⟨⟨session, []⟩, _, _, .new hnew, rfl, rfl, ?_⟩
  rw [← hindex] at htold ⊢
  exact (Trace.Run.acceptance_precedes_use (.new hnew) (.replay _ _) hclosed hopen
    (.act _ (.refl _) (.inl htold))).2

/-- A peer starts four channels at once, and the replies to the first three fill the
window of channel 0. -/
def pipelinedStarts (profile : Management.Profile) : List Act :=
  [.input (peerFrame .rpy 0 0 0 Greeting.new.toPayload ++ startRequest 1 0 52 ++
      startRequest 3 1 148 ++ startRequest 5 2 244 ++ startRequest 7 3 340),
    .call (.acceptStart 1 0 profile), .call (.acceptStart 3 1 profile),
    .call (.acceptStart 5 2 profile)]

/-- A profile with a thousand octets of content. -/
def fullProfile : Management.Profile :=
  ⟨"urn:x", .none, some (String.ofList (List.replicate 1000 'x'))⟩

/-- A message sent on the fourth channel overtakes the reply that accepts it. -/
theorem message_precedes_acceptance :
    ∃ first mid last, Trace.Fresh (Config.new .listener) first ∧
      mid = first.replay (pipelinedStarts fullProfile) ∧
      mid.core.channels 7 = none ∧
      last = (mid.act (.call (.acceptStart 7 3 fullProfile))).act
        (.call (.sendMsg 7 [120])) ∧
      ¬ Precedes (queuedOn greetingChannel (mid.core.past greetingChannel)).length
        (profileMessage 3 fullProfile) 7 mid.core.history.length
        last.core.history := by
  have hrun : (Session.new (Config.new .listener)).toOption.any fun session =>
      let mid := Trace.replay ⟨session, []⟩ (pipelinedStarts fullProfile)
      let last := (mid.act (.call (.acceptStart 7 3 fullProfile))).act
        (.call (.sendMsg 7 [120]))
      let before := last.core.history.dropLast
      (mid.core.channels 7).isNone && (last.core.history.getLast?.any fun action =>
        !(writtenOn 7 [action]).isEmpty) &&
        (mid.core.history.length ≤ before.length &&
          (before.drop mid.core.history.length).all fun action => !action.ends 7) &&
        (completedOn greetingChannel (life greetingChannel before))[(queuedOn
          greetingChannel (mid.core.past greetingChannel)).length]?.isNone := by
    decide +kernel
  obtain ⟨session, hnew⟩ := Session.new_ok (Config.new .listener)
  rw [hnew] at hrun
  simp only [Except.toOption, Option.any_some, Bool.and_eq_true, decide_eq_true_eq,
    Option.isNone_iff_eq_none, Option.any_eq_true, List.all_eq_true] at hrun
  obtain ⟨⟨⟨hclosed, action, hlast, haction⟩, hlength, hkept⟩, hdue⟩ := hrun
  refine ⟨⟨session, []⟩, _, _, .new hnew, rfl, hclosed, rfl, fun hprecedes => ?_⟩
  cases action with
  | wrote frame =>
      cases frame with
      | data frame =>
          have hsplit := (List.dropLast_append_getLast? _ hlast).symm
          have htold := hprecedes _ frame [] hsplit (by simpa [writtenOn] using haction) hlength
            (by
              rintro ⟨action, hmem, hends⟩
              have hnot := hkept action hmem
              simp [hends] at hnot)
          rw [Told, hdue] at htold
          cases htold
      | seq => cases haction
  | _ => cases haction

end Vortice.Proto
