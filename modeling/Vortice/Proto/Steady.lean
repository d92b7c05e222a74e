import Vortice.Proto.Outgoing

/-!
# Channels that stay

As long as a channel is neither dropped nor opened a second time, a move of its session is
one step of its lane or leaves the lane as it is, and its history is that of one stream of
octets in either direction.
-/

namespace Vortice.Proto

open Vortice.Foundation

/-- A channel is not dropped, and opened once at most. -/
structure Steady (number : UInt32) (history : List Action) : Prop where
  kept : ∀ action ∈ history, action.ends number = false
  once : history.countP (Action.begins number) ≤ 1

instance (number : UInt32) (history : List Action) : Decidable (Steady number history) :=
  decidable_of_iff
    ((∀ action ∈ history, action.ends number = false) ∧
      history.countP (Action.begins number) ≤ 1)
    ⟨fun h => ⟨h.1, h.2⟩, fun h => ⟨h.1, h.2⟩⟩

theorem Steady.of_prefix {number : UInt32} {earlier later : List Action}
    (h : Steady number later) (hbegins : earlier <+: later) : Steady number earlier where
  kept action hmem := h.kept action (hbegins.subset hmem)
  once := hbegins.sublist.countP_le.trans h.once

theorem Steady.life {number : UInt32} {history : List Action} (h : Steady number history) :
    life number history = history := by
  have hlife : Proto.life number ([] ++ history) = Proto.life number [] ++ history :=
    life_append h.kept
  simpa [Proto.life, since] using hlife

namespace Lane

variable {number : UInt32} {lane lane' : Lane} {effect : Effect} {actions : List Action}

theorem Step.isSome (h : Step number lane effect actions lane')
    (hopened : ∀ size, effect ≠ .opened size) (hafter : lane'.flow.isSome) :
    lane.flow.isSome := by
  cases h with
  | push hflow | release hflow | react hflow | take hflow | reject hflow | resize _ hflow
  | advertise hflow => simp [hflow]
  | hold hopen => exact hopen
  | opened => exact absurd rfl (hopened _)
  | closed => cases hafter

theorem grantsOn_wrote {frames : List DataFrame} : grantsOn number (wrote frames) = [] := by
  induction frames with
  | nil => rfl
  | cons frame frames ih => exact ih

end Lane

namespace SessionCore

variable {number : UInt32} {s s' t : SessionCore} {effect : Effect}

/-- What a move does to a lane that stays. -/
inductive Shift (number : UInt32) (s : SessionCore) (effect : Effect) (s' : SessionCore)
    (actions : List Action) : Prop where
  | still : s'.lane number = s.lane number → writtenOn number actions = [] →
      grantsOn number actions = [] → Shift number s effect s' actions
  | step (found : Lane.Effect) :
      effect = .lane number found ∨ found = .opened s.config.windowSize →
      found ≠ .closed →
      Lane.Step number (s.lane number) found actions (s'.lane number) →
      Shift number s effect s' actions

theorem shift_of_same (hlane : s'.lane = s.lane) : Shift number s effect s' [] :=
  .still (congrFun hlane number) rfl rfl

theorem shift_of_step {other : UInt32} {found : Lane.Effect} {actions : List Action}
    {lane' : Lane} (hplaced : s.Placed)
    (hkept : ∀ action ∈ actions, action.ends number = false)
    (heffect : effect = .lane other found ∨ found = .opened s.config.windowSize)
    (hstep : Lane.Step other (s.lane other) found actions lane')
    (hlane : s'.lane = Function.update s.lane other lane') :
    Shift number s effect s' actions := by
  by_cases hother : number = other
  · subst hother
    refine .step found heffect ?_ ?_
    · rintro rfl
      cases hstep with
      | closed => simp [Action.ends] at hkept
    · rwa [hlane, Function.update_self]
  · have helsewhere : Elsewhere number actions := fun action hmem heq =>
      hother (heq.symm.trans (hstep.channel (hplaced other) action hmem))
    refine .still ?_ helsewhere.writtenOn helsewhere.grantsOn
    rw [hlane, Function.update_of_ne hother]

/-- A move of a session is a step of the lane of a channel that stays, or leaves it alone. -/
theorem Move.shift (h : Move s effect s') (hplaced : s.Placed)
    (hsteady : Steady number s'.history) :
    ∃ actions, s'.history = s.history ++ actions ∧ Shift number s effect s' actions := by
  have hkept : ∀ {actions}, Logs s actions s' →
      ∀ action ∈ actions, action.ends number = false := by
    intro actions hlogs action hmem
    apply hsteady.kept
    rw [hlogs.history]
    exact List.mem_append_right _ hmem
  cases h with
  | idle hlane hlogs | tell hlane hlogs | number hlane hlogs | ask hlane hlogs
  | settle hlane hlogs => exact ⟨[], hlogs.history, shift_of_same hlane⟩
  | lane _ hstep hlane hlogs =>
      exact ⟨_, hlogs.history, shift_of_step hplaced (hkept hlogs) (.inl rfl) hstep hlane⟩
  | accept _ _ hstep hlane hlogs | answer _ hstep hlane hlogs =>
      exact ⟨_, hlogs.history, shift_of_step hplaced (hkept hlogs) (.inr rfl) hstep hlane⟩
  | answerZero _ hlane hlogs => exact ⟨_, hlogs.history, .still (congrFun hlane number) rfl rfl⟩
  | shut _ hlogs => simpa [Action.ends] using hkept hlogs _ (List.mem_singleton_self _)

/-- What a session keeps of a channel that stays. -/
structure Abides (number : UInt32) (s : SessionCore) : Prop where
  accounted : s.Accounted
  begun : Steady number s.history → number ≠ greetingChannel → (s.lane number).flow.isSome →
    0 < s.history.countP (Action.begins number)
  settled : Steady number s.history → (s.lane number).Settled

theorem Abides.fresh (config : Config) : (SessionCore.fresh config).Abides number where
  accounted := fresh_accounted config
  begun _ hzero hflow := by simp [lane, channelAt, SessionCore.fresh, hzero] at hflow
  settled _ _ _ _ hfront := by cases hfront

theorem Abides.fifo (h : s.Abides number) (hsteady : Steady number s.history) :
    Lane.Fifo number (s.lane number) s.history := by
  have hfifo := h.accounted.fifo number
  rwa [past, hsteady.life] at hfifo

theorem Abides.shut (h : s.Abides number) {size : UInt32} {actions : List Action} {lane' : Lane}
    (hstep : Lane.Step number (s.lane number) (.opened size) actions lane')
    (hsteady : Steady number (s.history ++ actions)) : s.lane number = Lane.shut := by
  have hsteady' := hsteady.of_prefix (List.prefix_append _ _)
  apply (h.fifo hsteady').closed
  cases hstep with
  | opened hzero =>
      by_contra hflow
      have hbegun := h.begun hsteady' hzero (Option.isSome_iff_ne_none.mpr hflow)
      have honce := hsteady.once
      have hlast : [Action.opened number].countP (Action.begins number) = 1 := by
        simp [Action.begins, hzero]
      rw [List.countP_append, hlast] at honce
      omega

theorem Abides.move (h : s.Abides number) (hmove : Move s effect s') : s'.Abides number := by
  have hshift : Steady number s'.history →
      ∃ actions, s'.history = s.history ++ actions ∧ Shift number s effect s' actions :=
    hmove.shift h.accounted.placed
  have hearlier : Steady number s'.history → Steady number s.history := by
    intro hsteady
    obtain ⟨actions, hhistory, -⟩ := hshift hsteady
    exact hsteady.of_prefix (hhistory ▸ List.prefix_append _ _)
  refine ⟨h.accounted.move hmove, fun hsteady hzero hflow => ?_, fun hsteady => ?_⟩
  all_goals
    obtain ⟨actions, hhistory, ⟨hlane, -, -⟩ | ⟨found, -, -, hstep⟩⟩ := hshift hsteady
  · rw [hlane] at hflow
    have hbegun := h.begun (hearlier hsteady) hzero hflow
    rw [hhistory, List.countP_append]
    omega
  · by_cases hopened : ∃ size, found = .opened size
    · obtain ⟨size, rfl⟩ := hopened
      generalize s'.lane number = lane' at hstep
      cases hstep with
      | opened => simp [hhistory, Action.begins, hzero]
    · have hopen := hstep.isSome (fun size heq => hopened ⟨size, heq⟩) hflow
      have hbegun := h.begun (hearlier hsteady) hzero hopen
      rw [hhistory, List.countP_append]
      omega
  · rw [hlane]
    exact h.settled (hearlier hsteady)
  · by_cases hopened : ∃ size, found = .opened size
    · obtain ⟨size, rfl⟩ := hopened
      rw [hhistory] at hsteady
      have hshut := h.shut hstep hsteady
      rw [hshut] at hstep
      generalize s'.lane number = lane' at hstep ⊢
      cases hstep with
      | opened => exact fun _ _ _ hfront => by cases hfront
    · exact (h.settled (hearlier hsteady)).step hstep fun size heq => hopened ⟨size, heq⟩

/-- What is at the head of the queue has the tag of a message that was queued. -/
theorem Abides.head_queued (h : s.Abides number) (hsteady : Steady number s.history)
    {front : Queued} (hfront : front ∈ (s.lane number).queue.head?) :
    ∃ message ∈ queuedOn number s.history, message.tag = front.tag := by
  obtain ⟨held, rest, -, hcontinues, hqueued⟩ := (h.fifo hsteady).reassembles
  have hrest : ∃ whole ∈ rest, whole.tag = front.tag := by
    cases hqueue : (s.lane number).queue with
    | nil =>
        rw [hqueue] at hfront
        cases hfront
    | cons first queue =>
        rw [hqueue] at hfront hcontinues
        cases hfront
        rw [List.map_cons] at hcontinues
        generalize hfirst : front.whole = whole at hcontinues
        cases hcontinues with
        | fresh => exact ⟨whole, List.mem_cons_self .., hfirst ▸ rfl⟩
        | resumed held =>
            refine ⟨_, List.mem_cons_self .., ?_⟩
            exact (congrArg Whole.tag hfirst).symm
  obtain ⟨whole, hmem, htag⟩ := hrest
  have hmem : whole ∈ (queuedOn number s.history).map Queued.whole := by
    rw [hqueued]
    exact List.mem_append_right _ hmem
  obtain ⟨message, hmessage, rfl⟩ := List.mem_map.mp hmem
  exact ⟨message, hmessage, htag⟩

/-- What the moves of a path preserve while a channel stays holds at its end. -/
theorem Abides.path {allowed : Effect → Prop} {J : SessionCore → Prop}
    (hstep : ∀ {u u' effect}, allowed effect → Move u effect u' → Steady number u'.history →
      u.Abides number → J u → J u')
    (hpath : Walk Move allowed s t) (h : s.Abides number) (hsteady : Steady number t.history)
    (hJ : J s) : J t := by
  have hall : t.Abides number ∧ (Steady number t.history → J t) := by
    refine hpath.preserves (I := fun u => u.Abides number ∧ (Steady number u.history → J u))
      (fun hallowed hmove hu => ⟨hu.1.move hmove, fun hsteady => ?_⟩) ⟨h, fun _ => hJ⟩
    obtain ⟨actions, hhistory, -⟩ := hmove.shift hu.1.accounted.placed hsteady
    exact hstep hallowed hmove hsteady hu.1
      (hu.2 (hsteady.of_prefix (hhistory ▸ List.prefix_append _ _)))
  exact hall.2 hsteady

end SessionCore

end Vortice.Proto
