import Vortice.Foundation.Turns
import Vortice.Proto.Bookkeeping
import Vortice.Proto.History

/-!
# Replies in turn

What `send` does to the replies of a channel: it serves a `Desk` at which the
message numbers of the peer take their turns.  Nothing it does fails unless a
message is in the way that no frame can carry.
-/

namespace Vortice.Proto

open Vortice.Foundation

/-- A reply that ends the turn of its message. -/
def Queued.final (message : Queued) : Bool := completesReply message.kind

/-- The order in which a channel is to answer, and the replies it holds back. -/
def Ledger.desk (l : Ledger) (number : UInt32) : Desk UInt32 Queued :=
  ⟨(l.replyOrder number).getD [], fun msgno => (l.heldReplies number).bind (· msgno)⟩

/-- Whether a message is passed on at the desk or goes past it. -/
def served (desk : Desk UInt32 Queued) (message : Queued) :
    Desk UInt32 Queued × List Queued :=
  if isReply message.kind then desk.give Queued.final message.msgno message
  else (desk, [message])

/-- One channel's desk changes and messages are queued on that channel. -/
structure Ledger.Serves (number : UInt32) (l : Ledger) (desk : Desk UInt32 Queued)
    (messages : List Queued) (l' : Ledger) : Prop where
  desk : l'.desk number = desk
  elsewhere : ∀ other, other ≠ number → l'.desk other = l.desk other
  entries : l'.entries = l.entries ++ messages.map (.queued number)

/-- Every message of the lane is one that frames can carry. -/
structure Lane.Clean (number : UInt32) (lane : Lane) : Prop where
  queue : ∀ message ∈ lane.queue, Frameable number message.tag
  held : ∀ msgno, ∀ message ∈ lane.held msgno, Frameable number message.tag

namespace Lane

variable {number : UInt32} {lane lane' : Lane} {effect : Effect} {actions : List Action}

theorem Clean.not_stuck (h : Clean number lane) : ¬ Stuck number lane.queue := by
  rintro ⟨front, hfront, hframeable⟩
  exact hframeable (h.queue front (List.mem_of_mem_head? hfront))

theorem Clean.shut : Clean number shut := ⟨nofun, nofun⟩

/-- The lane is clean after a step that hands over no message frames cannot carry. -/
theorem Clean.step (h : Clean number lane) (hstep : Step number lane effect actions lane')
    (hmessage : ∀ message, effect = .push message ∨ effect = .hold message →
      Frameable number message.tag) : Clean number lane' := by
  have hwrites : ∀ {flow : Flow} {messages queue' : List Queued}
      {frames : List DataFrame} {count : Nat},
      flow.Writes (lane.queue ++ messages) frames queue' count →
      (∀ message ∈ messages, Frameable number message.tag) →
      ∀ left ∈ queue', Frameable number left.tag := by
    intro flow messages queue' frames count hwrites hmessages left hleft
    obtain ⟨queued, hqueued, htag⟩ := hwrites.tags left hleft
    rw [htag]
    exact (List.mem_append.mp hqueued).elim (h.queue queued) (hmessages queued)
  cases hstep with
  | @push flow frames queue' count message _ hpush =>
      refine ⟨hwrites hpush fun other hother => ?_, h.held⟩
      rw [List.mem_singleton.mp hother]
      exact hmessage message (.inl rfl)
  | @hold message =>
      refine ⟨h.queue, fun msgno other hother => ?_⟩
      dsimp only at hother
      by_cases hmsgno : msgno = message.msgno
      · subst hmsgno
        rw [Function.update_self] at hother
        rcases List.mem_append.mp hother with hother | hother
        · exact h.held _ other hother
        · rw [List.mem_singleton.mp hother]
          exact hmessage message (.inr rfl)
      · rw [Function.update_of_ne hmsgno] at hother
        exact h.held msgno other hother
  | @release flow frames queue' count msgno _ hrelease =>
      refine ⟨hwrites hrelease (h.held msgno), fun other found hfound => ?_⟩
      dsimp only at hfound
      by_cases hother : other = msgno
      · subst hother
        rw [Function.update_self] at hfound
        cases hfound
      · rw [Function.update_of_ne hother] at hfound
        exact h.held other found hfound
  | react _ _ hreact =>
      rw [← List.append_nil lane.queue] at hreact
      exact ⟨hwrites hreact nofun, h.held⟩
  | take _ _ _ _ hcounts =>
      cases hcounts <;> exact ⟨h.queue, h.held⟩
  | reject => exact ⟨h.queue, h.held⟩
  | opened => exact ⟨h.queue, h.held⟩
  | closed => exact Clean.shut
  | resize => exact ⟨h.queue, h.held⟩
  | advertise => exact h

end Lane

namespace Ledger

variable {l l' l'' : Ledger} {number : UInt32} {desk desk' : Desk UInt32 Queued}
variable {messages more : List Queued}

theorem Serves.refl (l : Ledger) (number : UInt32) : l.Serves number (l.desk number) [] l :=
  ⟨rfl, fun _ _ => rfl, (List.append_nil _).symm⟩

theorem Serves.trans (first : l.Serves number desk messages l')
    (second : l'.Serves number desk' more l'') :
    l.Serves number desk' (messages ++ more) l'' where
  desk := second.desk
  elsewhere := fun other hother =>
    (second.elsewhere other hother).trans (first.elsewhere other hother)
  entries := by
    rw [second.entries, first.entries, List.map_append, List.append_assoc]

theorem desk_of_update {order : Option (List UInt32)}
    {held : Option (UInt32 → Option (List Queued))}
    (horder : l'.replyOrder = Function.update l.replyOrder number order)
    (hheld : l'.heldReplies = Function.update l.heldReplies number held) :
    l'.desk number = ⟨order.getD [], fun msgno => held.bind (· msgno)⟩ ∧
      ∀ other, other ≠ number → l'.desk other = l.desk other := by
  constructor
  · rw [Ledger.desk, horder, hheld, Function.update_self, Function.update_self]
  · intro other hother
    rw [Ledger.desk, Ledger.desk, horder, hheld, Function.update_of_ne hother,
      Function.update_of_ne hother]

end Ledger

namespace SessionCore

variable {s t : SessionCore} {number : UInt32}

/-! ## Parts of `send` -/

theorem order_ledger (s : SessionCore) (number : UInt32) :
    (s.replyOrder number).bind List.head? = (s.ledger.desk number).order.head? := by
  change _ = ((s.replyOrder number).getD []).head?
  cases s.replyOrder number <;> rfl

theorem held_ledger (s : SessionCore) (number msgno : UInt32) :
    (s.heldReplies number).bind (· msgno) = (s.ledger.desk number).held msgno := rfl

theorem serves_enqueued (s : SessionCore) (number : UInt32) (message : Queued) :
    s.ledger.Serves number (s.ledger.desk number) [message]
      (s.enqueued number message).ledger := by
  rw [ledger_enqueued]
  exact ⟨rfl, fun _ _ => rfl, rfl⟩

theorem serves_enqueueAll (number : UInt32) (messages : List Queued) (s : SessionCore) :
    s.ledger.Serves number (s.ledger.desk number) messages
      (Computation.final (enqueueAll number messages) s).ledger := by
  induction messages generalizing s with
  | nil => exact .refl _ _
  | cons message messages ih =>
      have hfirst := s.serves_enqueued number message
      have hrest := ih (s.enqueued number message)
      rw [hfirst.desk] at hrest
      exact hfirst.trans hrest

theorem serves_popReplyOrder (number : UInt32) (s : SessionCore) :
    s.ledger.Serves number
      { s.ledger.desk number with order := (s.ledger.desk number).order.tail } []
      (Computation.final (popReplyOrder number) s).ledger := by
  have horder : (Computation.final (popReplyOrder number) s).ledger.replyOrder =
      Function.update s.ledger.replyOrder number
        ((s.replyOrder number).map List.tail) := rfl
  have hheld : (Computation.final (popReplyOrder number) s).ledger.heldReplies =
      Function.update s.ledger.heldReplies number (s.heldReplies number) :=
    (Function.update_eq_self ..).symm
  obtain ⟨hdesk, helsewhere⟩ := Ledger.desk_of_update horder hheld
  refine ⟨hdesk.trans ?_, helsewhere, (List.append_nil _).symm⟩
  cases hfound : s.replyOrder number <;> simp [Ledger.desk, ledger, hfound]

theorem serves_takeHeld (number next : UInt32) (s : SessionCore) :
    s.ledger.Serves number
      { s.ledger.desk number with
        held := Function.update (s.ledger.desk number).held next none } []
      (Computation.final (takeHeld number next) s).ledger := by
  have horder : (Computation.final (takeHeld number next) s).ledger.replyOrder =
      Function.update s.ledger.replyOrder number (s.replyOrder number) :=
    (Function.update_eq_self ..).symm
  have hheld : (Computation.final (takeHeld number next) s).ledger.heldReplies =
      Function.update s.ledger.heldReplies number
        ((s.heldReplies number).map fun held => Function.update held next none) := rfl
  obtain ⟨hdesk, helsewhere⟩ := Ledger.desk_of_update horder hheld
  refine ⟨hdesk.trans ?_, helsewhere, (List.append_nil _).symm⟩
  refine congrArg (Desk.mk _) (funext fun msgno => ?_)
  by_cases hmsgno : msgno = next
  · subst hmsgno
    rw [Function.update_self]
    cases s.heldReplies number <;> simp
  · rw [Function.update_of_ne hmsgno]
    cases hfound : s.heldReplies number <;>
      simp [hfound, hmsgno, Ledger.desk, ledger]

theorem serves_hold (number : UInt32) (message : Queued) (s : SessionCore) :
    s.ledger.Serves number ((s.ledger.desk number).keep message.msgno message) []
      (Computation.final (hold number message) s).ledger := by
  obtain ⟨held, hsome⟩ : ∃ held, held = (s.heldReplies number).getD fun _ => none :=
    ⟨_, rfl⟩
  have horder : (Computation.final (hold number message) s).ledger.replyOrder =
      Function.update s.ledger.replyOrder number (s.replyOrder number) :=
    (Function.update_eq_self ..).symm
  have hheld : (Computation.final (hold number message) s).ledger.heldReplies =
      Function.update s.ledger.heldReplies number
        (some (Function.update held message.msgno
          (some ((held message.msgno).getD [] ++ [message])))) := by
    rw [hsome]
    rfl
  have hsame : held = (s.ledger.desk number).held := by
    funext msgno
    rw [hsome]
    change _ = (s.heldReplies number).bind (· msgno)
    cases s.heldReplies number <;> rfl
  obtain ⟨hdesk, helsewhere⟩ := Ledger.desk_of_update horder hheld
  refine ⟨hdesk.trans ?_, helsewhere, (List.append_nil _).symm⟩
  rw [hsame]
  rfl

/-- A move leaves a lane clean unless it hands over what frames cannot carry. -/
theorem Move.clean {effect : Effect} (h : Move s effect t)
    (hclean : (s.lane number).Clean number)
    (hmessage : ∀ message, effect = .lane number (.push message) ∨
      effect = .lane number (.hold message) → Frameable number message.tag) :
    (t.lane number).Clean number := by
  have hstep : ∀ {other : UInt32} {effect : Lane.Effect} {actions : List Action}
      {lane' : Lane}, Lane.Step other (s.lane other) effect actions lane' →
      t.lane = Function.update s.lane other lane' →
      (number = other → ∀ message, effect = .push message ∨ effect = .hold message →
        Frameable number message.tag) → (t.lane number).Clean number := by
    intro other effect actions lane' hstep hlane hmessage
    rw [hlane]
    by_cases hother : number = other
    · subst hother
      rw [Function.update_self]
      exact hclean.step hstep (hmessage rfl)
    · rwa [Function.update_of_ne hother]
  cases h with
  | lane _ hlaneStep hlane =>
      refine hstep hlaneStep hlane ?_
      rintro rfl message hpushed
      refine hmessage message ?_
      rcases hpushed with rfl | rfl
      · exact .inl rfl
      · exact .inr rfl
  | accept _ _ hlaneStep hlane => exact hstep hlaneStep hlane (by rintro rfl _ (h | h) <;> cases h)
  | answer _ hlaneStep hlane => exact hstep hlaneStep hlane (by rintro rfl _ (h | h) <;> cases h)
  | shut hlane =>
      rw [hlane]
      split
      · exact ⟨nofun, nofun⟩
      · exact Lane.Clean.shut
  | idle hlane => rwa [hlane]
  | tell hlane => rwa [hlane]
  | number hlane => rwa [hlane]
  | ask hlane => rwa [hlane]
  | settle hlane => rwa [hlane]
  | answerZero _ hlane => rwa [hlane]

/-! ## Releasing -/

theorem serves_flush (number : UInt32) (s : SessionCore) :
    s.ledger.Serves number (s.ledger.desk number) []
      (Computation.final (flush number) s).ledger := by
  rw [ledger_flush]
  exact .refl _ _

theorem serves_bind {α β : Type} {method : SessionM α} {rest : α → SessionM β} {a : α}
    {desk desk' : Desk UInt32 Queued} {messages more : List Queued}
    (hok : method s = .ok a t) (hmethod : s.ledger.Serves number desk messages t.ledger)
    (hrest : t.ledger.Serves number desk' more (Computation.final (rest a) t).ledger) :
    s.ledger.Serves number desk' (messages ++ more)
      (Computation.final (method >>= rest) s).ledger := by
  rw [Computation.final, Computation.bind_of_ok hok, ← Computation.final]
  exact hmethod.trans hrest

theorem serves_release (number next : UInt32) (waiting : List Queued) (s : SessionCore) :
    s.ledger.Serves number
      { s.ledger.desk number with
        held := Function.update (s.ledger.desk number).held next none } waiting
      (Computation.final (do
        takeHeld number next
        enqueueAll number waiting
        flush number) s).ledger := by
  have htake := s.serves_takeHeld number next
  obtain ⟨t, ht⟩ : ∃ t, t = Computation.final (takeHeld number next) s := ⟨_, rfl⟩
  have hok : takeHeld number next s = .ok () t := by
    rw [ht]
    rfl
  rw [← ht] at htake
  obtain ⟨u, hqueue, -⟩ := enqueueAll_run number waiting t
  have hqueued := t.serves_enqueueAll number waiting
  rw [Computation.final_of_ok hqueue] at hqueued
  have hflush := u.serves_flush number
  rw [hqueued.desk, htake.desk] at hflush
  rw [htake.desk] at hqueued
  have hrest : t.ledger.Serves number _ (waiting ++ [])
      (Computation.final (enqueueAll number waiting >>= fun _ => flush number) t).ledger :=
    serves_bind hqueue hqueued hflush
  rw [List.append_nil] at hrest
  exact serves_bind hok htake hrest

/-- What `releaseHeld` does: it releases what the desk does, or finds a message that
no frame can carry. -/
theorem releaseHeld_run (fuel : Nat) (hopen : (s.lane number).flow.isSome)
    (hplaced : s.Placed) (hfuel : (s.ledger.desk number).order.length < fuel) :
    let after := Desk.release Queued.final (s.ledger.desk number).held
      (s.ledger.desk number).order
    (∃ t, releaseHeld number fuel s = .ok () t ∧
      s.ledger.Serves number after.1 after.2 t.ledger) ∨
    ∃ fault t, releaseHeld number fuel s = .error fault t ∧
      ¬ (s.lane number).Clean number := by
  induction fuel generalizing s with
  | zero => exact absurd hfuel (Nat.not_lt_zero _)
  | succ fuel ih =>
      have hrefl := Ledger.Serves.refl s.ledger number
      have horder := s.order_ledger number
      have hheld := fun next => s.held_ledger number next
      obtain ⟨desk, hdesk⟩ : ∃ desk, desk = s.ledger.desk number := ⟨_, rfl⟩
      rw [← hdesk] at horder hheld hfuel hrefl ⊢
      obtain ⟨order, held⟩ := desk
      cases order with
      | nil =>
          refine .inl ⟨s, releaseHeld_waits fuel fun next hnext => ?_, hrefl⟩
          rw [horder] at hnext
          cases hnext
      | cons next order =>
          cases hfound : held next with
          | none =>
              simp only [Desk.release, hfound]
              refine .inl ⟨s, releaseHeld_waits fuel fun other hother => ?_, hrefl⟩
              rw [horder] at hother
              cases hother
              exact (hheld next).trans hfound
          | some waiting =>
              obtain ⟨flow, hflow⟩ := Option.isSome_iff_exists.mp hopen
              have hwaiting := (hheld next).trans hfound
              obtain ⟨kept, hkept, hnext⟩ := Option.bind_eq_some_iff.mp hwaiting
              obtain ⟨t, result, hrun, hmove, hstuck⟩ := release_run hflow hkept hnext
              have hserves := s.serves_release number next waiting
              rw [final_of_outcome hrun, ← hdesk] at hserves
              rw [releaseHeld_next fuel horder hwaiting]
              simp only [Desk.release, hfound]
              cases result with
              | error fault =>
                  have herror := Computation.error_of_outcome hrun
                  refine .inr ⟨fault, t, Computation.bind_of_error herror _, ?_⟩
                  intro hclean
                  have hclean' := hmove.clean hclean (by rintro _ (h | h) <;> cases h)
                  have hnumber : flow.number = number := hplaced number flow hflow
                  rw [hnumber] at hstuck
                  exact hclean'.not_stuck (hstuck.resolve_left (by simp))
              | ok _ =>
                  have hok := Computation.ok_of_outcome hrun
                  rw [Computation.bind_of_ok hok]
                  have hend : (waiting.any fun queued => completesReply queued.kind) =
                    waiting.any Queued.final := rfl
                  by_cases hfinal : waiting.any Queued.final
                  · rw [hend, if_pos hfinal]
                    simp only [hfinal, if_true]
                    have hpop := t.serves_popReplyOrder number
                    rw [hserves.desk] at hpop
                    obtain ⟨u, hu⟩ : ∃ u,
                      u = Computation.final (popReplyOrder number) t := ⟨_, rfl⟩
                    have hpopped : popReplyOrder number t = .ok () u := by
                      rw [hu]
                      rfl
                    have hlane : u.lane = t.lane := by
                      rw [hu]
                      rfl
                    rw [← hu] at hpop
                    rw [Computation.bind_of_ok hpopped]
                    have hopen' : (u.lane number).flow.isSome := by
                      rw [hlane]
                      exact hmove.flow_isSome (by simp) (by simp) hopen
                    have hplaced' : u.Placed := by
                      intro other
                      rw [hlane]
                      exact hmove.placed hplaced other
                    have hfuel' : (u.ledger.desk number).order.length < fuel := by
                      rw [hpop.desk]
                      exact Nat.lt_of_succ_lt_succ hfuel
                    have hboth := hserves.trans hpop
                    rw [List.append_nil] at hboth
                    rcases ih hopen' hplaced' hfuel' with
                      ⟨v, hrest, hlast⟩ | ⟨fault, v, hrest, hunclean⟩
                    · rw [hpop.desk] at hlast
                      exact .inl ⟨v, hrest, hboth.trans hlast⟩
                    · refine .inr ⟨fault, v, hrest, fun hclean => hunclean ?_⟩
                      rw [hlane]
                      exact hmove.clean hclean (by rintro _ (h | h) <;> cases h)
                  · rw [hend, if_neg hfinal]
                    simp only [hfinal, Bool.false_eq_true, if_false]
                    exact .inl ⟨t, rfl, hserves⟩

theorem replyFinished_run (msgno : UInt32) (hopen : (s.lane number).flow.isSome)
    (hplaced : s.Placed) {desk : Desk UInt32 Queued}
    (hdesk : s.ledger.desk number = desk) :
    let after := Desk.release Queued.final desk.held
      (if desk.order.head? = some msgno then desk.order.tail else desk.order)
    (∃ t, replyFinished number msgno s = .ok () t ∧
      s.ledger.Serves number after.1 after.2 t.ledger) ∨
    ∃ fault t, replyFinished number msgno s = .error fault t ∧
      ¬ (s.lane number).Clean number := by
  intro after
  subst hdesk
  have hhead := s.order_ledger number
  by_cases hnext : (s.ledger.desk number).order.head? = some msgno
  · have hpop := s.serves_popReplyOrder number
    have hafter : after = Desk.release Queued.final (s.ledger.desk number).held
        (s.ledger.desk number).order.tail := by
      simp only [after, if_pos hnext]
    obtain ⟨t, ht⟩ : ∃ t, t = Computation.final (popReplyOrder number) s := ⟨_, rfl⟩
    have hlane : t.lane = s.lane := by
      rw [ht]
      rfl
    have hrun : replyFinished number msgno s = releaseHeld number
        (((t.replyOrder number).getD []).length + 1) t := by
      unfold replyFinished
      change (if (s.replyOrder number).bind List.head? = some msgno then _ else _ :
        SessionM Unit) s = _
      rw [if_pos (hhead.trans hnext), ht]
      rfl
    rw [← ht] at hpop
    have hrest := t.releaseHeld_run (((t.replyOrder number).getD []).length + 1)
      (by rwa [hlane]) (fun other => by rw [hlane]; exact hplaced other)
      (Nat.lt_succ_self _)
    rw [hrun, hafter]
    rw [hlane, hpop.desk] at hrest
    exact hrest.imp (fun ⟨u, hok, hserves⟩ => ⟨u, hok, hpop.trans hserves⟩) id
  · have hafter : after = Desk.release Queued.final (s.ledger.desk number).held
        (s.ledger.desk number).order := by
      simp only [after, if_neg hnext]
    have hrun : replyFinished number msgno s = releaseHeld number
        (((s.replyOrder number).getD []).length + 1) s := by
      unfold replyFinished
      change (if (s.replyOrder number).bind List.head? = some msgno then _ else _ :
        SessionM Unit) s = _
      rw [if_neg (by rw [hhead]; exact hnext)]
      rfl
    rw [hrun, hafter]
    exact s.releaseHeld_run _ hopen hplaced (Nat.lt_succ_self _)

/-! ## Sending -/

theorem holdsBack_ledger (s : SessionCore) (number : UInt32) (kind : FrameKind)
    (msgno : UInt32) : s.holdsBack number kind msgno =
      (isReply kind && (s.ledger.desk number).order.head?.any (· ≠ msgno)) := by
  unfold holdsBack isNextReply
  rw [order_ledger]
  cases (s.ledger.desk number).order.head? with
  | none => simp
  | some next => simp

theorem served_held {desk : Desk UInt32 Queued} {message : Queued}
    (h : (isReply message.kind && desk.order.head?.any (· ≠ message.msgno)) = true) :
    served desk message = (desk.keep message.msgno message, []) := by
  obtain ⟨hreply, hhead⟩ := Bool.and_eq_true_iff.mp h
  obtain ⟨order, held⟩ := desk
  rw [served, if_pos hreply, Desk.give]
  cases order with
  | nil => cases hhead
  | cons next order =>
      have hne : next ≠ message.msgno := by simpa using hhead
      simp only [hne, if_false]

/-- Any other message is passed on, with what waited for it when it is a final reply. -/
theorem served_pushed {desk : Desk UInt32 Queued} {message : Queued}
    (h : ¬ (isReply message.kind && desk.order.head?.any (· ≠ message.msgno)) = true) :
    served desk message =
      if completesReply message.kind then
        let after := Desk.release Queued.final desk.held
          (if desk.order.head? = some message.msgno then desk.order.tail else desk.order)
        (after.1, message :: after.2)
      else (desk, [message]) := by
  have hcompletes : completesReply message.kind → isReply message.kind := by
    cases message.kind <;> decide
  obtain ⟨order, held⟩ := desk
  unfold served
  by_cases hreply : isReply message.kind
  · rw [if_pos hreply, Desk.give]
    rw [hreply, Bool.true_and] at h
    cases order with
    | nil => simp [Desk.release]
    | cons next order =>
        have hsame : next = message.msgno := by simpa using h
        simp only [hsame, if_true, Queued.final, List.head?_cons, List.tail_cons]
  · rw [if_neg hreply, if_neg (mt hcompletes hreply)]

/-- What `send` does once the answer number is known: it serves the desk of the
channel, or finds a message that no frame can carry. -/
theorem submit_run (message : Queued) (hopen : (s.lane number).flow.isSome)
    (hplaced : s.Placed) :
    let after := served (s.ledger.desk number) message
    (∃ t, submit number message s = .ok () t ∧
      (s.ledger.enter (.handed number message)).Serves number after.1 after.2
        t.ledger) ∨
    ∃ fault t, submit number message s = .error fault t ∧
      ¬ ((s.lane number).Clean number ∧ Frameable number message.tag) := by
  have hrecord : (s.record (.handed number message)).ledger =
      s.ledger.enter (.handed number message) := ledger_record nofun
  have hholds := s.holdsBack_ledger number message.kind message.msgno
  by_cases hheld : s.holdsBack number message.kind message.msgno
  · rw [served_held (hholds ▸ hheld)]
    refine .inl ⟨_, submit_held hheld, ?_⟩
    have hserves := (s.record (.handed number message)).serves_hold number message
    rw [hrecord] at hserves
    exact hserves
  · rw [served_pushed (hholds ▸ hheld), submit_pushed hheld]
    obtain ⟨flow, hflow⟩ := Option.isSome_iff_exists.mp hopen
    obtain ⟨t, result, frames, queue', count, hrun, hpushed, hok⟩ :=
      push_run message hflow
    have hmove := hpushed.move hflow
    have hserves := (s.record (.handed number message)).serves_enqueued number message
    have hflush := (s.submitted number message).serves_flush number
    rw [final_of_outcome hrun] at hflush
    have hqueued : (s.ledger.enter (.handed number message)).Serves number
        (s.ledger.desk number) [message] t.ledger := by
      have hboth := hserves.trans hflush
      rw [hrecord, List.append_nil] at hboth
      refine ⟨hboth.desk.trans ?_, hboth.elsewhere, hboth.entries⟩
      exact hserves.desk.trans (by rw [hrecord]; rfl)
    have hclean : (s.lane number).Clean number ∧ Frameable number message.tag →
        (t.lane number).Clean number := by
      rintro ⟨hclean, hframeable⟩
      refine hmove.clean hclean ?_
      rintro other (h | h)
      · cases h
        exact hframeable
      · cases h
    cases result with
    | error fault =>
        have herror := Computation.error_of_outcome hrun
        refine .inr ⟨fault, t, Computation.bind_of_error herror _, fun h => ?_⟩
        have hstuck := (hpushed.writes.ok_or_stuck hok).resolve_left nofun
        have hnumber : flow.number = number := hplaced number flow hflow
        have hlane := congrFun hpushed.lane number
        rw [Function.update_self] at hlane
        have hnot := (hclean h).not_stuck
        rw [hlane, ← hnumber] at hnot
        exact hnot hstuck
    | ok _ =>
        have hflushed := Computation.ok_of_outcome hrun
        rw [Computation.bind_of_ok hflushed]
        by_cases hcompletes : completesReply message.kind
        · simp only [hcompletes, if_true]
          have hopen' := hmove.flow_isSome (by simp) (by simp) hopen
          rcases t.replyFinished_run message.msgno hopen' (hmove.placed hplaced)
              hqueued.desk with ⟨u, hrest, hlast⟩ | ⟨fault, u, hrest, hunclean⟩
          · exact .inl ⟨u, hrest, hqueued.trans hlast⟩
          · exact .inr ⟨fault, u, hrest, fun h => hunclean (hclean h)⟩
        · simp only [hcompletes, Bool.false_eq_true, if_false]
          exact .inl ⟨t, rfl, hqueued⟩

theorem send_run {channel : Channel} (kind : FrameKind) (msgno : UInt32)
    (ansno : Option UInt32) (payload : Octets)
    (hchannel : s.channels number = some channel) (hplaced : s.Placed) :
    let message : Queued := ⟨kind, msgno, s.answerNumber number kind msgno ansno, payload⟩
    let after := served (s.ledger.desk number) message
    (∃ t, send number kind msgno ansno payload s = .ok () t ∧
      (s.ledger.enter (.handed number message)).Serves number after.1 after.2
        t.ledger) ∨
    ∃ fault t, send number kind msgno ansno payload s = .error fault t ∧
      ¬ ((s.lane number).Clean number ∧ Frameable number message.tag) := by
  intro message after
  obtain ⟨t, hresolve, hidle, -, hsend⟩ := send_open kind msgno ansno payload hchannel
  have hledger : (Computation.final (resolveAnsno number kind msgno ansno) s).ledger =
      s.ledger := ledger_resolveAnsno kind msgno ansno s
  rw [Computation.final_of_ok hresolve] at hledger
  have hopen : (s.channels number).isSome := by
    rw [hchannel]
    rfl
  have hlane : (s.lane number).Clean number → (t.lane number).Clean number :=
    fun h => hidle.clean h nofun
  have hflow := hidle.flow_isSome (by simp) (by simp) (flow_isSome_of_open hopen)
  have hrun := t.submit_run message hflow (hidle.placed hplaced)
  rw [hledger] at hrun
  rw [hsend]
  refine hrun.imp id ?_
  rintro ⟨fault, u, herror, hunclean⟩
  exact ⟨fault, u, herror, fun h => hunclean ⟨hlane h.1, h.2⟩⟩

end SessionCore

end Vortice.Proto
