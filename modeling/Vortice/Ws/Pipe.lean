import Vortice.Ws.Delivery

/-!
# Two ends of a WebSocket

What the transport takes from one end is on its way to the other, and comes there in order
and in pieces of any size.  Between the two, a WebSocket is a pipe for octets.
-/

namespace Vortice.Ws

open Vortice.Foundation

variable {T : Type} {host : Host T} {coming : T → Octets} {push : T → Octets → T}

/-! ## What has been sent stays sent -/

namespace WsStream

open Computation

/-- What was queued and what the transport took is so still, and more may have been. -/
structure Sent (s t : WsStream T) : Prop where
  queued : s.queued <+: t.queued
  drained : s.drained <+: t.drained

theorem Sent.refl (s : WsStream T) : Sent s s := ⟨List.prefix_rfl, List.prefix_rfl⟩

theorem Sent.trans (s t u : WsStream T) (h : Sent s t) (h' : Sent t u) : Sent s u :=
  ⟨h.queued.trans h'.queued, h.drained.trans h'.drained⟩

theorem sent_ready {α : Type} (answer : Poll α) : Relates Sent (ready answer : StreamM T α) := by
  match answer with
  | .pending => exact relates_throw Sent.refl _
  | .ready (.error error) => exact relates_throw Sent.refl _
  | .ready (.ok result) => exact relates_pure Sent.refl _

theorem Sent.same {s t : WsStream T} (hqueued : t.queued = s.queued)
    (hdrained : t.drained = s.drained) : Sent s t :=
  ⟨hqueued ▸ List.prefix_rfl, hdrained ▸ List.prefix_rfl⟩

theorem sent_modify {f : WsStream T → WsStream T}
    (h : ∀ s, (f s).queued = s.queued ∧ (f s).drained = s.drained) :
    Relates Sent (modify f : StreamM T PUnit) := by
  apply relates_modify
  exact fun s => .same (h s).1 (h s).2

theorem sent_set_bind {α : Type} {m : StreamM T α} {s t : WsStream T} (h : Sent s t)
    (hm : Relates Sent m) : Sent s (final (set t >>= fun _ => m) s) :=
  h.trans s t _ (hm t)

theorem sent_nextMask : Relates Sent (nextMask host) := by
  unfold nextMask
  apply relates_get_bind
  intro s
  split
  · apply sent_set_bind (by exact .same rfl rfl)
    split
    · exact relates_pure Sent.refl _
    · exact relates_throw Sent.refl _
  · exact Sent.refl s

theorem sent_queue (opcode : OpCode) (payload : Octets) :
    Relates Sent (queue host opcode payload) := by
  unfold queue
  apply relates_bind Sent.trans sent_nextMask
  intro mask
  apply relates_modify
  exact fun s => ⟨List.prefix_append _ _, List.prefix_rfl⟩

theorem sent_queueWholeFramesLoop (fuel queued : Nat) :
    Relates Sent (queueWholeFramesLoop host fuel queued) := by
  induction fuel generalizing queued with
  | zero => exact relates_throw Sent.refl _
  | succ fuel ih =>
      unfold queueWholeFramesLoop
      apply relates_get_bind
      intro s
      split
      · exact Sent.refl s
      · apply sent_set_bind (by exact .same rfl rfl)
        exact relates_bind Sent.trans (sent_queue _ _) fun _ => ih _

theorem sent_queueWholeFrames : Relates Sent (queueWholeFrames host) := by
  unfold queueWholeFrames
  apply relates_get_bind
  exact fun s => sent_queueWholeFramesLoop _ _ s

theorem sent_flushPartial : Relates Sent (flushPartial host) := by
  unfold flushPartial
  apply relates_bind Sent.trans sent_queueWholeFrames
  intro _
  apply relates_get_bind
  intro s
  split
  · apply sent_set_bind (by exact .same rfl rfl)
    exact sent_queue _ _
  · exact Sent.refl s

theorem sent_pollDrainLoop (fuel : Nat) : Relates Sent (pollDrainLoop host fuel) := by
  induction fuel with
  | zero => exact relates_throw Sent.refl _
  | succ fuel ih =>
      unfold pollDrainLoop
      apply relates_get_bind
      intro s
      split
      · exact Sent.refl s
      · apply sent_set_bind (by exact .same rfl rfl)
        apply relates_bind Sent.trans (sent_ready _)
        intro written
        apply relates_ite
        · exact fun _ => relates_throw Sent.refl _
        · intro _
          apply relates_bind Sent.trans ?_ fun _ => ih
          apply relates_modify
          exact fun s => ⟨List.prefix_rfl, List.prefix_append _ _⟩

theorem sent_pollDrain : Relates Sent (pollDrain host) := by
  unfold pollDrain
  apply relates_get_bind
  exact fun s => sent_pollDrainLoop _ s

theorem sent_tryDrain : Relates Sent (tryDrain host) := fun s => sent_pollDrain s

/-- Where draining has to wait, the call goes on from the state that this leaves. -/
theorem sent_drainOrWait : Relates Sent (drainOrWait host) := by
  intro s
  have hdrain : Sent s (final (pollDrain host) s) := sent_pollDrain s
  have hsame : final (drainOrWait host) s = final (pollDrain host) s := by
    cases hrun : pollDrain host s with
    | ok _ t =>
        rw [final_of_ok hrun]
        apply final_of_ok
        rw [drainOrWait, hrun]
    | error stop t =>
        rw [final_of_error hrun]
        cases stop with
        | pending =>
            apply final_of_ok
            rw [drainOrWait, hrun]
        | failed | exhausted =>
            apply final_of_error
            rw [drainOrWait, hrun]
  rw [hsame]
  exact hdrain

theorem sent_closeOnce : Relates Sent (closeOnce host) := by
  unfold closeOnce
  apply relates_get_bind
  intro s
  split
  · exact Sent.refl s
  · unfold queueClose
    exact relates_bind Sent.trans (sent_modify (by exact fun _ => ⟨rfl, rfl⟩))
      (fun _ => sent_queue _ _) s

theorem sent_nextEvent : Relates Sent (nextEvent (T := T)) := by
  unfold nextEvent
  apply relates_get_bind
  intro s
  split
  · exact Sent.refl s
  · exact sent_set_bind (by exact .same rfl rfl) (relates_pure Sent.refl _)

theorem sent_react (event : Option Event) : Relates Sent (react host event) := by
  unfold react
  split
  · exact sent_modify (by exact fun _ => ⟨rfl, rfl⟩)
  · exact relates_bind Sent.trans (sent_queue _ _) fun _ => sent_tryDrain
  · exact relates_pure Sent.refl _
  · unfold answerClose
    apply relates_bind Sent.trans (sent_modify (by exact fun _ => ⟨rfl, rfl⟩))
    intro _
    apply relates_get_bind
    intro s
    split
    · exact Sent.refl s
    · apply relates_bind Sent.trans _ (fun _ => sent_tryDrain) s
      exact relates_bind Sent.trans (sent_modify (by exact fun _ => ⟨rfl, rfl⟩))
        fun _ => sent_queue _ _
  · unfold fill
    apply relates_get_bind
    intro s
    apply sent_set_bind (by exact .same rfl rfl)
    apply relates_bind Sent.trans (sent_ready _)
    intro filled
    apply relates_ite
    · exact fun _ => sent_modify (by exact fun _ => ⟨rfl, rfl⟩)
    · exact fun _ => sent_modify (by exact fun _ => ⟨rfl, rfl⟩)

theorem sent_pollRead (remaining fuel : Nat) : Relates Sent (pollRead host remaining fuel) := by
  induction fuel with
  | zero => exact relates_throw Sent.refl _
  | succ fuel ih =>
      unfold pollRead
      apply relates_get_bind
      intro s
      split
      · exact sent_set_bind (by exact .same rfl rfl) (relates_pure Sent.refl _)
      · split
        · exact Sent.refl s
        · exact relates_bind Sent.trans sent_nextEvent
            (fun event => relates_bind Sent.trans (sent_react event) fun _ => ih) s

theorem sent_makeRoom (fuel : Nat) : Relates Sent (makeRoom host fuel) := by
  induction fuel with
  | zero => exact relates_throw Sent.refl _
  | succ fuel ih =>
      unfold makeRoom
      apply relates_get_bind
      intro s
      split
      · exact relates_bind Sent.trans sent_pollDrain (fun _ => ih) s
      · exact Sent.refl s

theorem sent_takeFrames (buf : Octets) (fuel taken queued : Nat) :
    Relates Sent (takeFrames host buf fuel taken queued) := by
  induction fuel generalizing taken queued with
  | zero => exact relates_throw Sent.refl _
  | succ fuel ih =>
      unfold takeFrames
      apply relates_ite
      · intro _
        dsimp only
        split
        · exact relates_bind Sent.trans (sent_queue _ _) fun _ => ih _ _
        · exact relates_bind Sent.trans (sent_modify (by exact fun _ => ⟨rfl, rfl⟩)) fun _ => ih _ _
      · exact fun _ => relates_pure Sent.refl _

theorem sent_pollWrite (buf : Octets) : Relates Sent (pollWrite host buf) := by
  unfold pollWrite
  apply relates_ite
  · exact fun _ => relates_pure Sent.refl _
  · intro _
    apply relates_bind Sent.trans (sent_makeRoom _)
    intro _
    apply relates_bind Sent.trans
    · unfold takeBuffer
      apply relates_get_bind
      intro s
      split
      · exact sent_takeFrames _ _ _ _ s
      · exact relates_bind Sent.trans (sent_modify (by exact fun _ => ⟨rfl, rfl⟩))
          (fun _ => relates_bind Sent.trans sent_queueWholeFrames
            fun _ => sent_takeFrames _ _ _ _) s
    · exact fun _ => relates_bind Sent.trans sent_drainOrWait fun _ => relates_pure Sent.refl _

theorem sent_answer {α : Type} (call : T → Poll α × T) :
    Relates Sent (do
      let stream ← get
      let answer := call stream.io
      set { stream with io := answer.2 }
      ready answer.1 : StreamM T α) := by
  apply relates_get_bind
  exact fun s => sent_set_bind (by exact .same rfl rfl) (sent_ready _)

theorem sent_pollFlush : Relates Sent (pollFlush host) := by
  unfold pollFlush
  apply relates_bind Sent.trans sent_flushPartial
  intro _
  exact relates_bind Sent.trans sent_pollDrain fun _ => sent_answer host.pollFlush

theorem sent_pollShutdown : Relates Sent (pollShutdown host) := by
  unfold pollShutdown
  apply relates_bind Sent.trans sent_flushPartial
  intro _
  apply relates_bind Sent.trans sent_closeOnce
  intro _
  exact relates_bind Sent.trans sent_pollDrain fun _ => sent_answer host.pollShutdown

end WsStream

theorem Trace.sent_act (host : Host T) (trace : Trace T) (act : Act) :
    WsStream.Sent trace.stream (trace.act host act).stream := by
  cases act with
  | read remaining fuel =>
      rw [Trace.act]
      split
      · rename_i hrun
        exact (WsStream.sent_pollRead remaining fuel).of_ok hrun
      · rename_i hrun
        exact (WsStream.sent_pollRead remaining fuel).of_error hrun
  | write buf =>
      rw [Trace.act]
      split
      · rename_i hrun
        exact (WsStream.sent_pollWrite buf).of_ok hrun
      · rename_i hrun
        exact (WsStream.sent_pollWrite buf).of_error hrun
  | flush => exact WsStream.sent_pollFlush trace.stream
  | shutdown => exact WsStream.sent_pollShutdown trace.stream

theorem Trace.handed_act (host : Host T) (trace : Trace T) (act : Act) :
    trace.handed <+: (trace.act host act).handed := by
  cases act with
  | read remaining fuel =>
      rw [Trace.act]
      split
      · exact List.prefix_append _ _
      · exact List.prefix_rfl
  | write buf =>
      rw [Trace.act]
      split
      · exact List.prefix_rfl
      · exact List.prefix_rfl
  | flush => exact List.prefix_rfl
  | shutdown => exact List.prefix_rfl

theorem Trace.handed_of_ne_read {host : Host T} {trace : Trace T} {act : Act}
    (h : ∀ remaining fuel, act ≠ .read remaining fuel) :
    (trace.act host act).handed = trace.handed := by
  cases act with
  | read remaining fuel => exact absurd rfl (h remaining fuel)
  | write buf =>
      rw [Trace.act]
      split
      · rfl
      · rfl
  | flush => rfl
  | shutdown => rfl

theorem Trace.taken_act (host : Host T) (trace : Trace T) (act : Act) :
    (trace.act host act).taken = trace.taken ∨
      ∃ buf n, act = .write buf ∧ (trace.act host act).taken = trace.taken ++ buf.take n := by
  cases act with
  | read remaining fuel =>
      left
      rw [Trace.act]
      split
      · rfl
      · rfl
  | write buf =>
      rw [Trace.act]
      split
      · exact .inr ⟨buf, _, rfl, rfl⟩
      · exact .inl rfl
  | flush => exact .inl rfl
  | shutdown => exact .inl rfl

/-! ## The two ends -/

/-- The transport brings what is pushed into it, in order and without an end. -/
structure Host.Joins (host : Host T) (coming : T → Octets) (push : T → Octets → T) : Prop where
  read : ∀ (io : T) (room : Nat), 0 < room →
    (host.pollRead io room).1 = .pending ∧ coming (host.pollRead io room).2 = coming io ∨
    ∃ filled, filled ≠ [] ∧ (host.pollRead io room).1 = .ready (.ok filled) ∧
      coming io = filled ++ coming (host.pollRead io room).2
  apart : ∀ {io io' : T}, host.Call io io' → coming io' = coming io
  push : ∀ (io : T) (octets : Octets), coming (push io octets) = coming io ++ octets

theorem Host.Joins.delivers (h : host.Joins coming push) (later : Octets) :
    host.Delivers fun io => coming io ++ later where
  read io room hroom := by
    obtain ⟨hpending, hsame⟩ | ⟨filled, hsome, hready, hcoming⟩ := h.read io room hroom
    · exact .inl ⟨hpending, by rw [hsame]⟩
    · right
      refine ⟨filled, hready, ?_, fun hnone => absurd hnone hsome⟩
      rw [hcoming, List.append_assoc]
  apart hcall := by rw [h.apart hcall]

/-- What the other end has sent arrives in the transport. -/
def Trace.hear (push : T → Octets → T) (trace : Trace T) (octets : Octets) : Trace T :=
  { trace with stream := { trace.stream with io := push trace.stream.io octets } }

structure Pair (T : Type) where
  near : Trace T
  far : Trace T

namespace Pair

def new (near far : T) : Pair T := ⟨.new near .client [], .new far .server []⟩

/-- An act of one end, and what it makes the transport take goes to the other. -/
def act (host : Host T) (push : T → Octets → T) (pair : Pair T) : Bool × Act → Pair T
  | (true, act) =>
      let near := pair.near.act host act
      ⟨near, pair.far.hear push (near.stream.drained.drop pair.near.stream.drained.length)⟩
  | (false, act) =>
      let far := pair.far.act host act
      ⟨pair.near.hear push (far.stream.drained.drop pair.far.stream.drained.length), far⟩

end Pair

/-! ## What one end reads of the other -/

namespace Trace

variable {near far far' : Trace T}

/-- One end reads what the other sends, whatever that is going to queue yet. -/
def Follows (coming : T → Octets) (near far : Trace T) : Prop :=
  ∀ frames, (∀ frame ∈ frames, frame.Valid) → far.stream.queued <+: frames →
    near.Delivered (fun io => coming io ++
      (frames.flatMap Framed.encode).drop far.stream.drained.length) frames

theorem follows_new {io io' : T} (hcoming : coming io = []) (side side' : Side) :
    Follows coming (.new io side []) (.new io' side' []) := by
  intro frames _ _
  apply Delivered.new
  rw [hcoming]
  rfl

theorem Follows.act (h : near.Follows coming far) (hjoins : host.Joins coming push)
    (hrandom : host.Random) (act : Act) : (near.act host act).Follows coming far := by
  intro frames hvalid hqueued
  exact (h frames hvalid hqueued).act (hjoins.delivers _) hrandom hvalid act

theorem Follows.hear (h : near.Follows coming far) (hjoins : host.Joins coming push)
    (hsent : WsStream.Sent far.stream far'.stream) (hwire : far'.Conserved) :
    (near.hear push (far'.stream.drained.drop far.stream.drained.length)).Follows coming far' := by
  intro frames hvalid hqueued
  obtain ⟨seen, left, hframes, hreads⟩ := h frames hvalid (hsent.queued.trans hqueued)
  have hrest : ∃ rest, frames.flatMap Framed.encode = far'.stream.drained ++ rest := by
    obtain ⟨later, rfl⟩ := hqueued
    refine ⟨far'.stream.outbound ++ later.flatMap Framed.encode, ?_⟩
    rw [List.flatMap_append, ← hwire.wire, List.append_assoc]
  obtain ⟨rest, hrest⟩ := hrest
  have hlength := hsent.drained.length_le
  refine ⟨seen, left, hframes, hreads.opened, hreads.data, hreads.pongs, fun hfinished => ?_,
    hreads.ended⟩
  have hleft := hreads.sent hfinished
  rw [hrest, List.drop_append_of_le_length hlength] at hleft
  change near.stream.inbound ++ (coming (push near.stream.io _) ++ _) = _
  rw [hjoins.push, hrest, List.drop_left, List.append_assoc, hleft]

/-- What one end has of the other. -/
structure Carries (coming : T → Octets) (near far : Trace T) : Prop where
  conserved : far.Conserved
  follows : near.Follows coming far

theorem Carries.reader (h : Carries coming near far) (hjoins : host.Joins coming push)
    (hrandom : host.Random) (act : Act) (octets : Octets) :
    Carries coming (near.act host act) (far.hear push octets) :=
  ⟨⟨h.conserved.content, h.conserved.wire, h.conserved.controls⟩,
    h.follows.act hjoins hrandom act⟩

theorem Carries.writer (h : Carries coming near far) (hjoins : host.Joins coming push)
    (hrandom : host.Random) (haccepts : host.Accepts) (act : Act) :
    Carries coming (near.hear push ((far.act host act).stream.drained.drop
      far.stream.drained.length)) (far.act host act) := by
  have hconserved := h.conserved.act hrandom haccepts act
  exact ⟨hconserved, h.follows.hear hjoins (far.sent_act host act) hconserved⟩

end Trace

theorem Pair.carries (hjoins : host.Joins coming push) (hrandom : host.Random)
    (haccepts : host.Accepts) {nearIo farIo : T} (hnear : coming nearIo = [])
    (hfar : coming farIo = []) {last : Pair T}
    (hrun : Run (Pair.act host push) (fun _ _ => True) (.new nearIo farIo) last) :
    Trace.Carries coming last.near last.far ∧ Trace.Carries coming last.far last.near := by
  refine hrun.preserves (I := fun pair => Trace.Carries coming pair.near pair.far ∧
    Trace.Carries coming pair.far pair.near) ?_ ⟨⟨?_, ?_⟩, ?_, ?_⟩
  · rintro pair ⟨side, act⟩ - ⟨hreader, hwriter⟩
    cases side with
    | true =>
        exact ⟨hreader.reader hjoins hrandom act _, hwriter.writer hjoins hrandom haccepts act⟩
    | false =>
        exact ⟨hreader.writer hjoins hrandom haccepts act, hwriter.reader hjoins hrandom act _⟩
  · exact Trace.conserved_new farIo .server []
  · exact Trace.follows_new hnear .client .server
  · exact Trace.conserved_new nearIo .client []
  · exact Trace.follows_new hfar .server .client

/-! ## Everything that was taken -/

namespace Trace.Carries

variable {near far : Trace T}

theorem valid (h : Carries coming near far)
    (hfits : ∀ frame ∈ far.stream.queued, frame.payload.length ≤ maxPayload) :
    ∀ frame ∈ far.stream.queued, frame.Valid := by
  intro frame hmem
  refine ⟨hfits frame hmem, fun hcontrol => ?_⟩
  exact (h.conserved.controls frame hmem hcontrol).2 hcontrol

theorem delivered (h : Carries coming near far)
    (hfits : ∀ frame ∈ far.stream.queued, frame.payload.length ≤ maxPayload) :
    near.Delivered (fun io => coming io ++ far.stream.outbound) far.stream.queued := by
  have hdelivered := h.follows far.stream.queued (h.valid hfits) List.prefix_rfl
  rwa [← h.conserved.wire, List.drop_left] at hdelivered

theorem data_begins (h : Carries coming near far) :
    (dataPayloads (beforeClose far.stream.queued)).flatten <+: far.taken := by
  obtain ⟨later, hlater⟩ : beforeClose far.stream.queued <+: far.stream.queued :=
    List.takeWhile_prefix _
  rw [← h.conserved.content]
  conv_rhs => rw [← hlater]
  rw [dataPayloads_append, List.flatten_append, List.append_assoc]
  exact List.prefix_append _ _

theorem handed_begins (h : Carries coming near far)
    (hfits : ∀ frame ∈ far.stream.queued, frame.payload.length ≤ maxPayload) :
    near.handed <+: far.taken := by
  obtain ⟨seen, left, hframes, hreads⟩ := h.delivered hfits
  have hhanded := hreads.first_data.1
  rw [← hframes] at hhanded
  exact hhanded.trans h.data_begins

end Trace.Carries

theorem Decoder.eq_of_poll {buffer rest : Octets} (h : poll buffer = .ok (none, rest)) :
    rest = buffer := by
  rw [poll] at h
  split at h
  · cases h
  · cases h
    rfl
  · split at h
    · cases h
      rfl
    · cases h

/-- A read that has to wait has nothing left to hand over, and no frame that is whole. -/
theorem WsStream.pollRead_waits {s : WsStream T} {remaining fuel : Nat} :
    Ends (pollRead host remaining fuel) s (fun _ _ => True) (fun stop t => stop = .pending →
      t.payload = [] ∧ t.finished = false ∧ Decoder.poll t.inbound = .ok (none, t.inbound)) := by
  induction fuel generalizing s with
  | zero => exact .throw (by rintro ⟨⟩)
  | succ fuel ih =>
      rw [pollRead]
      refine .get_bind (.ite (fun _ => .set_bind (.pure trivial)) fun hnone => ?_)
      rw [ne_eq, not_not] at hnone
      refine .ite (fun _ => .pure trivial) fun hfinished => ?_
      rw [Bool.not_eq_true] at hfinished
      rw [nextEvent]
      refine .bind (.get_bind ?_)
      split
      · exact .throw (by rintro ⟨⟩)
      · rename_i event inbound hpoll
        refine .set_bind (.pure (.bind ((react_ends hfinished hpoll).mono (fun _ _ _ => ih) ?_)))
        intro stop t hhalts hpending
        cases hhalts with
        | invalid | unanswered | broken => cases hpending
        | waits hshort =>
            have hsame := Decoder.eq_of_poll hshort
            subst hsame
            exact ⟨hnone, hfinished, hshort⟩

/-- What an end hands to its reader is a beginning of what the other took from its writer; and
a read that finds nothing more, when all of that is on its way and the other end has not
closed, has handed over everything. -/
structure Trace.Pipes (host : Host T) (coming : T → Octets) (near far : Trace T) : Prop where
  begins : near.handed <+: far.taken
  all : (∀ frame ∈ far.stream.queued, frame.opcode ≠ .close) →
    far.stream.partialTail = [] → far.stream.outbound = [] →
    ∀ {remaining fuel : Nat}, 0 < remaining → WsStream.unread coming near.stream < fuel →
      Ends (WsStream.pollRead host remaining fuel) near.stream
        (fun more _ => more = [] → near.handed = far.taken)
        (fun stop t => stop = .pending ∧ (coming t.io = [] → near.handed = far.taken))

theorem Trace.Carries.pipes {near far : Trace T} (h : Carries coming near far)
    (hjoins : host.Joins coming push) (hrandom : host.Random)
    (hfits : ∀ frame ∈ far.stream.queued, frame.payload.length ≤ maxPayload) :
    Pipes host coming near far where
  begins := h.handed_begins hfits
  all := by
    intro hopen htail houtbound remaining fuel hroom hfuel
    have hvalid := h.valid hfits
    have hdelivered := h.delivered hfits
    have hall : beforeClose far.stream.queued = far.stream.queued := by
      have hbefore : beforeClose (far.stream.queued ++ []) =
          far.stream.queued ++ beforeClose [] := beforeClose_append hopen
      rw [List.append_nil] at hbefore
      rw [hbefore]
      exact List.append_nil _
    have htaken : (dataPayloads far.stream.queued).flatten = far.taken := by
      rw [← h.conserved.content, htail, List.append_nil]
    rw [houtbound] at hdelivered
    have hread := hdelivered.read (hjoins.delivers []) hrandom hvalid remaining fuel
    have hwaits : Ends (WsStream.pollRead host remaining fuel) near.stream _ _ :=
      WsStream.pollRead_waits
    cases hrun : WsStream.pollRead host remaining fuel near.stream with
    | ok more t =>
        refine .of_ok hrun fun hmore => ?_
        rw [((hread.ok hrun).2 hroom hmore).1, hall, htaken]
    | error stop t =>
        refine .of_error hrun ?_
        obtain ⟨⟨seen, left, hframes, hreads⟩, ⟨rfl, -⟩ | ⟨-, hlow⟩⟩ := hread.error hrun
        · refine ⟨rfl, fun hcoming => ?_⟩
          obtain ⟨hpayload, hfinished, hpoll⟩ := hwaits.error hrun rfl
          have hleft : left = [] := by
            have hlater : ∀ frame ∈ left, frame.Valid := fun frame hmem =>
              hvalid frame (hframes ▸ List.mem_append_right _ hmem)
            obtain ⟨_, _, _, -, -, -, hfound⟩ | ⟨-, hend⟩ :=
              poll_sent hlater (hreads.sent hfinished)
            · rw [hpoll] at hfound
              cases hfound
            · apply hend
              rw [hcoming, List.append_nil]
          have hdata := hreads.data
          rw [hpayload, List.append_nil] at hdata
          rw [← htaken, hframes, hleft, List.append_nil]
          exact hdata
        · simp only [List.append_nil] at hlow
          exact absurd hlow (Nat.not_le.mpr hfuel)

/-- A WebSocket is a pipe in either direction, however the transport cuts and delays what
passes, and whatever pings, closes, reads and writes come between. -/
theorem pipe_in_order (hjoins : host.Joins coming push) (hrandom : host.Random)
    (haccepts : host.Accepts) {nearIo farIo : T} (hnear : coming nearIo = [])
    (hfar : coming farIo = []) {last : Pair T}
    (hrun : Run (Pair.act host push) (fun _ _ => True) (.new nearIo farIo) last) :
    ((∀ frame ∈ last.far.stream.queued, frame.payload.length ≤ maxPayload) →
      Trace.Pipes host coming last.near last.far) ∧
    ((∀ frame ∈ last.near.stream.queued, frame.payload.length ≤ maxPayload) →
      Trace.Pipes host coming last.far last.near) := by
  obtain ⟨hcarries, hcarries'⟩ := Pair.carries hjoins hrandom haccepts hnear hfar hrun
  exact ⟨hcarries.pipes hjoins hrandom, hcarries'.pipes hjoins hrandom⟩

/-- A transport that brings what was pushed into it seven octets at a time. -/
def relay : Host Octets :=
  { trickle with
    pollRead := fun rest room =>
      if rest = [] then (.pending, rest)
      else (.ready (.ok (rest.take (min 7 room))), rest.drop (min 7 room)) }

theorem random_relay : relay.Random := fun _ => rfl

theorem accepts_relay : relay.Accepts := accepts_trickle

theorem joins_relay : relay.Joins id (· ++ ·) where
  read rest room hroom := by
    by_cases hnone : rest = []
    · left
      simp [relay, hnone]
    · right
      refine ⟨rest.take (min 7 room), ?_, ?_, ?_⟩
      · intro hempty
        obtain hzero | hnil := List.take_eq_nil_iff.mp hempty
        · omega
        · exact hnone hnil
      · simp [relay, hnone]
      · simp [relay, hnone]
  apart hcall := by
    cases hcall <;> rfl
  push _ _ := rfl

/-- Each end writes a frame; the near end reads all of it, and the far end some. -/
def relayed : Pair Octets :=
  [(false, Act.write (octets "SEQ 0 0 4096\r\n")), (true, .write (octets "SEQ 0 0 8192\r\n")),
    (true, .read 4 100), (true, .read 100 100), (false, .read 5 100)].foldl
    (Pair.act relay (· ++ ·)) (.new [] [])

theorem relayed_in_order :
    relayed.near.handed = octets "SEQ 0 0 4096\r\n" ∧ relayed.far.handed = octets "SEQ 0" ∧
      relayed.near.taken = octets "SEQ 0 0 8192\r\n" ∧
      Trace.Pipes relay id relayed.near relayed.far ∧
      Trace.Pipes relay id relayed.far relayed.near := by
  have hrun : Run (Pair.act relay (· ++ ·)) (fun _ _ => True) (.new [] []) relayed :=
    Run.of_list _ _ _
  obtain ⟨hnear, hfar⟩ := pipe_in_order joins_relay random_relay accepts_relay rfl rfl hrun
  exact ⟨by decide +kernel, by decide +kernel, by decide +kernel, hnear (by decide +kernel),
    hfar (by decide +kernel)⟩

end Vortice.Ws
