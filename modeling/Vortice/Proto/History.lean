import Vortice.Proto.Calls

/-!
# The history of a channel number

What was handed over, queued, written and accepted for one channel number since
it was last dropped.  Every move of a session advances the lane and the history
of each number, so an invariant of both is checked once for each way to advance.
-/

namespace Vortice.Proto

open Vortice.Foundation

namespace Action

def channel : Action → UInt32
  | .handed channel _ => channel
  | .queued channel _ => channel
  | .wrote frame => frame.channel
  | .accepted frame => frame.channel
  | .opened channel => channel
  | .dropped channel => channel

/-- Dropping a channel, or the session, ends what was under way on it. -/
def ends (number : UInt32) : Action → Bool
  | .dropped channel => channel = number || channel = greetingChannel
  | _ => false

/-- Opening a channel begins a new octet stream in either direction. -/
def begins (number : UInt32) : Action → Bool
  | .opened channel => channel = number && number ≠ greetingChannel
  | _ => false

end Action

/-- What follows the last action that satisfies `p`. -/
def since (p : Action → Bool) (history : List Action) : List Action :=
  history.foldl (fun past action => if p action then [] else past ++ [action]) []

theorem since_append {p : Action → Bool} {history actions : List Action}
    (h : ∀ action ∈ actions, p action = false) :
    since p (history ++ actions) = since p history ++ actions := by
  induction actions using List.reverseRecOn with
  | nil => simp
  | append_singleton actions action ih =>
      have hrest := ih fun other hmem => h other (List.mem_append_left _ hmem)
      have hlast : p action = false :=
        h action (List.mem_append_right _ (List.mem_singleton_self action))
      rw [since] at hrest ⊢
      rw [← List.append_assoc, List.foldl_append, hrest]
      simp [hlast]

theorem since_append_of {p : Action → Bool} {history : List Action} {action : Action}
    (h : p action) : since p (history ++ [action]) = [] := by
  simp [since, h]

/-- The history of a channel number since it was last dropped. -/
def life (number : UInt32) (history : List Action) : List Action :=
  since (Action.ends number) history

theorem life_append {number : UInt32} {history actions : List Action}
    (h : ∀ action ∈ actions, action.ends number = false) :
    life number (history ++ actions) = life number history ++ actions :=
  since_append h

theorem life_append_end {number : UInt32} {history : List Action} {action : Action}
    (h : action.ends number) : life number (history ++ [action]) = [] :=
  since_append_of h

section Projections

variable (number : UInt32)

def handedOn (past : List Action) : List Queued :=
  past.filterMap fun
    | .handed channel message => if channel = number then some message else none
    | _ => none

def queuedOn (past : List Action) : List Queued :=
  past.filterMap fun
    | .queued channel message => if channel = number then some message else none
    | _ => none

def writtenOn (past : List Action) : List DataFrame :=
  past.filterMap fun
    | .wrote (.data frame) => if frame.channel = number then some frame else none
    | _ => none

def grantsOn (past : List Action) : List SeqFrame :=
  past.filterMap fun
    | .wrote (.seq seq) => if seq.channel = number then some seq else none
    | _ => none

variable {number}

@[simp] theorem handedOn_append (first second : List Action) :
    handedOn number (first ++ second) =
      handedOn number first ++ handedOn number second := by
  simp [handedOn]

@[simp] theorem queuedOn_append (first second : List Action) :
    queuedOn number (first ++ second) =
      queuedOn number first ++ queuedOn number second := by
  simp [queuedOn]

@[simp] theorem writtenOn_append (first second : List Action) :
    writtenOn number (first ++ second) =
      writtenOn number first ++ writtenOn number second := by
  simp [writtenOn]

@[simp] theorem grantsOn_append (first second : List Action) :
    grantsOn number (first ++ second) =
      grantsOn number first ++ grantsOn number second := by
  simp [grantsOn]

end Projections

/-- A history that is about other channel numbers. -/
def Elsewhere (number : UInt32) (actions : List Action) : Prop :=
  ∀ action ∈ actions, action.channel ≠ number

section Elsewhere

variable {number : UInt32} {actions : List Action} (h : Elsewhere number actions)

include h

theorem Elsewhere.handedOn : handedOn number actions = [] := by
  refine List.filterMap_eq_nil_iff.mpr fun action hmem => ?_
  have := h action hmem
  cases action <;> simp_all [Action.channel]

theorem Elsewhere.queuedOn : queuedOn number actions = [] := by
  refine List.filterMap_eq_nil_iff.mpr fun action hmem => ?_
  have := h action hmem
  cases action <;> simp_all [Action.channel]

theorem Elsewhere.writtenOn : writtenOn number actions = [] := by
  refine List.filterMap_eq_nil_iff.mpr fun action hmem => ?_
  have := h action hmem
  cases action with
  | wrote frame => cases frame <;> simp_all [Action.channel, Frame.channel]
  | _ => rfl

theorem Elsewhere.grantsOn : grantsOn number actions = [] := by
  refine List.filterMap_eq_nil_iff.mpr fun action hmem => ?_
  have := h action hmem
  cases action with
  | wrote frame => cases frame <;> simp_all [Action.channel, Frame.channel]
  | _ => rfl

end Elsewhere

/-! ## How a lane and its history advance -/

namespace Lane

/-- A lane is numbered as the channel number it is kept for. -/
def Placed (number : UInt32) (lane : Lane) : Prop :=
  ∀ flow, lane.flow = some flow → flow.number = number

variable {number : UInt32} {lane lane' : Lane} {effect : Effect}
variable {actions : List Action}

theorem Counts.same_number {flow : Flow} {octets : UInt32}
    (h : Counts lane flow octets actions lane') :
    ∃ flow', lane'.flow = some flow' ∧ flow'.number = flow.number := by
  cases h <;> exact ⟨_, rfl, rfl⟩

theorem Step.placed (h : Step number lane effect actions lane')
    (hplaced : Placed number lane) : Placed number lane' := by
  cases h with
  | push hflow =>
      have hnumber := hplaced _ hflow
      rintro _ ⟨⟩
      exact hnumber
  | hold => exact hplaced
  | release hflow =>
      have hnumber := hplaced _ hflow
      rintro _ ⟨⟩
      exact hnumber
  | react hflow =>
      have hnumber := hplaced _ hflow
      rintro _ ⟨⟩
      exact hnumber
  | take hflow _ _ _ hcounts =>
      have hplaced := hplaced _ hflow
      obtain ⟨flow', hflow', hnumber⟩ := hcounts.same_number
      intro found hfound
      rw [hflow'] at hfound
      cases hfound
      exact hnumber.trans hplaced
  | reject hflow =>
      have hnumber := hplaced _ hflow
      rintro _ ⟨⟩
      exact hnumber
  | opened =>
      rintro _ ⟨⟩
      rfl
  | closed => rintro _ ⟨⟩
  | resize _ hflow =>
      have hnumber := hplaced _ hflow
      rintro _ ⟨⟩
      exact hnumber
  | advertise => exact hplaced

theorem wrote_channel {frames : List DataFrame}
    (h : ∀ frame ∈ frames, frame.channel = number) :
    ∀ action ∈ wrote frames, action.channel = number := by
  intro action hmem
  obtain ⟨frame, hframe, rfl⟩ := List.mem_map.mp hmem
  exact h frame hframe

theorem Counts.channel {flow : Flow} {octets : UInt32}
    (h : Counts lane flow octets actions lane') :
    ∀ action ∈ actions, action.channel = flow.number := by
  cases h with
  | charge => simp
  | acknowledge _ hseq =>
      intro action hmem
      rw [List.mem_singleton] at hmem
      subst hmem
      exact (SeqFrame.new_eq_ok.mp hseq).1
  | stumble => simp

theorem Step.channel (h : Step number lane effect actions lane')
    (hplaced : Placed number lane) :
    ∀ action ∈ actions, action.channel = number := by
  cases h with
  | push hflow hwrites =>
      have hframes := wrote_channel fun frame hframe =>
        (hwrites.confined frame hframe).trans (hplaced _ hflow)
      simp only [List.cons_append, List.nil_append, List.mem_cons, forall_eq_or_imp]
      exact ⟨rfl, rfl, hframes⟩
  | hold => simp [Action.channel]
  | release hflow hwrites =>
      have hframes := wrote_channel fun frame hframe =>
        (hwrites.confined frame hframe).trans (hplaced _ hflow)
      intro action hmem
      rcases List.mem_append.mp hmem with hmem | hmem
      · obtain ⟨message, -, rfl⟩ := List.mem_map.mp hmem
        rfl
      · exact hframes action hmem
  | react hflow _ hwrites =>
      have hnumber := hplaced _ hflow
      exact wrote_channel fun frame hframe =>
        (hwrites.confined frame hframe).trans hnumber
  | take hflow hframe _ _ hcounts =>
      have hnumber := hplaced _ hflow
      intro action hmem
      rcases List.mem_cons.mp hmem with rfl | hmem
      · exact hframe
      · exact (hcounts.channel action hmem).trans hnumber
  | reject _ hframe => simpa [Action.channel] using hframe
  | opened => simp [Action.channel]
  | closed => simp [Action.channel]
  | resize => simp
  | advertise hflow hseq =>
      intro action hmem
      rw [List.mem_singleton] at hmem
      subst hmem
      exact (SeqFrame.new_eq_ok.mp hseq).1

theorem wrote_ends {frames : List DataFrame} {other : UInt32} :
    ∀ action ∈ wrote frames, action.ends other = false := by
  intro action hmem
  obtain ⟨frame, -, rfl⟩ := List.mem_map.mp hmem
  rfl

theorem Counts.ends {flow : Flow} {octets : UInt32} {other : UInt32}
    (h : Counts lane flow octets actions lane') :
    ∀ action ∈ actions, action.ends other = false := by
  cases h <;> simp [Action.ends]

theorem Step.ends {other : UInt32} (h : Step number lane effect actions lane')
    (hclosed : effect ≠ .closed) :
    ∀ action ∈ actions, action.ends other = false := by
  cases h with
  | push =>
      simp only [List.cons_append, List.nil_append, List.mem_cons, forall_eq_or_imp]
      exact ⟨rfl, rfl, wrote_ends⟩
  | hold => simp [Action.ends]
  | release =>
      intro action hmem
      rcases List.mem_append.mp hmem with hmem | hmem
      · obtain ⟨message, -, rfl⟩ := List.mem_map.mp hmem
        rfl
      · exact wrote_ends action hmem
  | react => exact wrote_ends
  | take _ _ _ _ hcounts =>
      intro action hmem
      rcases List.mem_cons.mp hmem with rfl | hmem
      · rfl
      · exact hcounts.ends action hmem
  | reject => simp [Action.ends]
  | opened => simp [Action.ends]
  | closed => exact absurd rfl hclosed
  | resize => simp
  | advertise => simp [Action.ends]

/-- One way for a lane and its history to advance. -/
inductive Advance (number : UInt32) :
    Option Effect → Lane → List Action → Lane → List Action → Prop where
  | step {lane lane' : Lane} {effect : Effect} {past actions : List Action} :
      Step number lane effect actions lane' → effect ≠ .closed →
      Advance number (some effect) lane past lane' (past ++ actions)
  | elsewhere {lane : Lane} {past actions : List Action} :
      Elsewhere number actions →
      Advance number none lane past lane (past ++ actions)
  | close {lane : Lane} {past : List Action} :
      number ≠ greetingChannel → Advance number none lane past shut []
  | shut {lane : Lane} {past : List Action} :
      number = greetingChannel →
      Advance number none lane past { shut with flow := lane.flow } []
  | reopen {lane : Lane} {past : List Action} :
      number = greetingChannel →
      Advance number none lane past lane (past ++ [.opened number])

theorem Advance.placed {lane lane' : Lane} {past past' : List Action}
    {found : Option Effect} (h : Advance number found lane past lane' past')
    (hplaced : Placed number lane) : Placed number lane' := by
  cases h with
  | step hstep => exact hstep.placed hplaced
  | elsewhere => exact hplaced
  | close => rintro _ ⟨⟩
  | shut => exact hplaced
  | reopen => exact hplaced

end Lane

namespace SessionCore

/-- Every lane is numbered as its channel number. -/
def Placed (s : SessionCore) : Prop := ∀ number, (s.lane number).Placed number

def past (s : SessionCore) (number : UInt32) : List Action :=
  Vortice.Proto.life number s.history

/-- What a move means for the lane of a channel number. -/
def Effect.at (effect : Effect) (s : SessionCore) (number : UInt32)
    (lane : Option Lane.Effect) : Prop :=
  ∀ found, lane = some found →
    (effect = .lane number found ∧ ∀ size, found ≠ .opened size) ∨
    (found = .opened s.config.windowSize ∧
      ((effect = .accept number ∧ s.config.role.owns number = false ∧
          (s.lane number).flow = none) ∨
        ∃ msgno, effect = .answer msgno number ∧
          s.pending msgno = some (.start number)))

variable {s s' : SessionCore} {effect : Effect}

theorem past_of_step (number : UInt32) {other : UInt32} {lane' : Lane}
    {found : Lane.Effect} {actions : List Action} (hplaced : s.Placed)
    (hstep : Lane.Step other (s.lane other) found actions lane')
    (hlane : s'.lane = Function.update s.lane other lane')
    (hlogs : Logs s actions s') :
    (number = other ∧ found ≠ .closed ∧
        Lane.Advance number (some found) (s.lane number) (s.past number)
          (s'.lane number) (s'.past number)) ∨
      Lane.Advance number none (s.lane number) (s.past number)
        (s'.lane number) (s'.past number) := by
  have hpast : s'.past number = Vortice.Proto.life number (s.history ++ actions) := by
    rw [past, hlogs.history]
  rw [hlane, hpast]
  by_cases hclosed : found = .closed
  · subst hclosed
    refine .inr ?_
    cases hstep with
    | closed hzero =>
        by_cases hother : number = other
        · subst hother
          rw [Function.update_self, life_append_end (by simp [Action.ends])]
          exact .close hzero
        · have hends : (Action.dropped other).ends number = false := by
            simp [Action.ends, Ne.symm hother, hzero]
          rw [Function.update_of_ne hother, life_append (by simpa using hends)]
          exact .elsewhere (by simpa [Elsewhere, Action.channel] using Ne.symm hother)
  · rw [life_append (hstep.ends hclosed)]
    by_cases hother : number = other
    · subst hother
      rw [Function.update_self]
      exact .inl ⟨rfl, hclosed, .step hstep hclosed⟩
    · rw [Function.update_of_ne hother]
      refine .inr (.elsewhere fun action hmem heq => hother ?_)
      exact heq.symm.trans (hstep.channel (hplaced other) action hmem)

theorem Move.advance (h : Move s effect s') (hplaced : s.Placed)
    (number : UInt32) :
    ∃ lane, effect.at s number lane ∧
      Lane.Advance number lane (s.lane number) (s.past number)
        (s'.lane number) (s'.past number) := by
  have hsame : s'.lane = s.lane → Logs s [] s' →
      ∃ lane, effect.at s number lane ∧
        Lane.Advance number lane (s.lane number) (s.past number)
          (s'.lane number) (s'.past number) := by
    intro hlane hlogs
    refine ⟨none, (by rintro _ ⟨⟩), ?_⟩
    rw [hlane, past, past, hlogs.history]
    rw [life_append (by simp)]
    exact .elsewhere (by simp [Elsewhere])
  cases h with
  | idle hlane hlogs => exact hsame hlane hlogs
  | tell hlane hlogs => exact hsame hlane hlogs
  | number hlane hlogs => exact hsame hlane hlogs
  | ask hlane hlogs => exact hsame hlane hlogs
  | settle hlane hlogs => exact hsame hlane hlogs
  | lane hopen hstep hlane hlogs =>
      rcases past_of_step number hplaced hstep hlane hlogs with
        ⟨rfl, hclosed, hadvance⟩ | hadvance
      · refine ⟨_, ?_, hadvance⟩
        rintro _ ⟨⟩
        exact .inl ⟨rfl, hopen⟩
      · exact ⟨none, (by rintro _ ⟨⟩), hadvance⟩
  | accept howns hflow hstep hlane hlogs =>
      rcases past_of_step number hplaced hstep hlane hlogs with
        ⟨rfl, hclosed, hadvance⟩ | hadvance
      · refine ⟨_, ?_, hadvance⟩
        rintro _ ⟨⟩
        exact .inr ⟨rfl, .inl ⟨rfl, howns, hflow⟩⟩
      · exact ⟨none, (by rintro _ ⟨⟩), hadvance⟩
  | answer hpending hstep hlane hlogs =>
      rcases past_of_step number hplaced hstep hlane hlogs with
        ⟨rfl, hclosed, hadvance⟩ | hadvance
      · refine ⟨_, ?_, hadvance⟩
        rintro _ ⟨⟩
        exact .inr ⟨rfl, .inr ⟨_, rfl, hpending⟩⟩
      · exact ⟨none, (by rintro _ ⟨⟩), hadvance⟩
  | answerZero hpending hlane hlogs =>
      refine ⟨none, (by rintro _ ⟨⟩), ?_⟩
      rw [hlane, past, past, hlogs.history, life_append (by simp [Action.ends])]
      by_cases hnumber : number = greetingChannel
      · subst hnumber
        exact .reopen rfl
      · exact .elsewhere (by simpa [Elsewhere, Action.channel] using Ne.symm hnumber)
  | shut hlane hlogs =>
      refine ⟨none, (by rintro _ ⟨⟩), ?_⟩
      rw [hlane, past, past, hlogs.history, life_append_end (by simp [Action.ends])]
      by_cases hnumber : number = greetingChannel
      · subst hnumber
        rw [if_pos rfl]
        exact .shut rfl
      · rw [if_neg hnumber]
        exact .close hnumber

theorem Move.placed (h : Move s effect s') (hplaced : s.Placed) : s'.Placed :=
  fun number => by
    obtain ⟨lane, -, hadvance⟩ := h.advance hplaced number
    exact hadvance.placed (hplaced number)

theorem fresh_placed (config : Config) : (fresh config).Placed := by
  intro number flow hflow
  by_cases hnumber : number = greetingChannel
  · subst hnumber
    rw [flow_zero] at hflow
    cases hflow
    rfl
  · simp [lane, channelAt, fresh, hnumber] at hflow

end SessionCore

end Vortice.Proto
