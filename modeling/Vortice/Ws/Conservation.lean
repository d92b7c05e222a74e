import Vortice.Ws.Calls

/-!
# What is taken is sent

The payloads of the data frames that were queued, and behind them what is held back, are the
octets that were taken.  When these are frames of BEEP, each of them has a frame of its own.
-/

namespace Vortice.Ws

open Vortice.Foundation

variable {T : Type} {host : Host T}

/-- The payloads of the data frames among some. -/
def dataPayloads (frames : List Framed) : List Octets :=
  (frames.filter fun frame => !frame.opcode.isControl).map Framed.payload

theorem dataPayloads_append (frames later : List Framed) :
    dataPayloads (frames ++ later) = dataPayloads frames ++ dataPayloads later := by
  rw [dataPayloads, List.filter_append, List.map_append]
  rfl

theorem dataPayloads_of_binary {frames : List Framed}
    (h : ∀ frame ∈ frames, frame.opcode = .binary) :
    dataPayloads frames = frames.map Framed.payload := by
  have hall : ∀ frame ∈ frames, (!frame.opcode.isControl) = true := by
    intro frame hmem
    rw [h frame hmem]
    rfl
  rw [dataPayloads, List.filter_eq_self.mpr hall]

theorem dataPayloads_of_control {frames : List Framed}
    (h : ∀ frame ∈ frames, frame.opcode.isControl) : dataPayloads frames = [] := by
  have hall : ∀ frame ∈ frames, ¬ (!frame.opcode.isControl) = true := by
    intro frame hmem
    rw [h frame hmem]
    exact Bool.false_ne_true
  rw [dataPayloads, List.filter_eq_nil_iff.mpr hall, List.map_nil]

namespace WsStream

variable {s t u : WsStream T} {frames later : List Framed}

/-! ## Reads -/

/-- Control frames are queued that may be sent, and what is read may change. -/
def Heard (host : Host T) (s t : WsStream T) (frames : List Framed) : Prop :=
  Moved host { s with
    io := t.io, inbound := t.inbound, payload := t.payload
    finished := t.finished, closing := t.closing } t frames ∧
  ∀ frame ∈ frames, frame.opcode.isControl ∧ frame.Valid

theorem Heard.of_moved {io : T} {inbound payload : Octets} {finished closing : Bool}
    (h : Moved host { s with io, inbound, payload, finished, closing } t frames)
    (hcontrol : ∀ frame ∈ frames, frame.opcode.isControl ∧ frame.Valid) :
    Heard host s t frames := by
  refine ⟨⟨?_, .refl, h.wire⟩, hcontrol⟩
  rw [h.state]

theorem Heard.trans (h : Heard host s t frames) (h' : Heard host t u later) :
    Heard host s u (frames ++ later) := by
  have hsame : Moved host { s with
      io := u.io, inbound := u.inbound, payload := u.payload
      finished := u.finished, closing := u.closing }
    { t with
      io := u.io, inbound := u.inbound, payload := u.payload
      finished := u.finished, closing := u.closing } frames := by
    refine ⟨?_, .refl, h.1.wire⟩
    rw [h.1.state]
  exact .of_moved (hsame.trans h'.1) fun frame hmem =>
    (List.mem_append.mp hmem).elim (h.2 frame) (h'.2 frame)

/-- What is read changes, and no frame is queued. -/
theorem Heard.of_read (s : WsStream T) (io : T) (inbound payload : Octets) (finished : Bool) :
    Heard host s { s with io, inbound, payload, finished } [] :=
  .of_moved (.refl _) (by simp)

theorem valid_normalClosure (mask : Option Mask) :
    Framed.Valid ⟨.close, true, mask, normalClosure⟩ := by
  have hlength : normalClosure.length ≤ 125 := by decide
  exact ⟨hlength.trans (by decide), fun _ => ⟨rfl, hlength⟩⟩

theorem Heard.of_closed {inbound payload : Octets} {finished : Bool}
    (h : Closed host { s with inbound, payload, finished } t) :
    ∃ frames, Heard host s t frames := by
  obtain ⟨-, hmoved⟩ | ⟨-, mask, hmoved⟩ := h
  · exact ⟨[], .of_moved hmoved (by simp)⟩
  · exact ⟨_, .of_moved hmoved (List.forall_mem_singleton.mpr ⟨rfl, valid_normalClosure mask⟩)⟩

theorem Reacts.heard {event : Event} {inbound : Octets}
    (hpoll : Decoder.poll s.inbound = .ok (some event, inbound))
    (h : Reacts host { s with inbound } event t) : ∃ frames, Heard host s t frames := by
  cases event with
  | data =>
      rw [show t = _ from h]
      exact ⟨[], .of_read _ _ _ _ _⟩
  | ping =>
      obtain ⟨mask, hmoved⟩ := h
      obtain ⟨frame, hvalid, hping⟩ := Decoder.exists_of_poll hpoll
      exact ⟨_, .of_moved hmoved (List.forall_mem_singleton.mpr ⟨rfl, hvalid.answer hping mask⟩)⟩
  | pong =>
      rw [show t = _ from h]
      exact ⟨[], .of_read _ _ _ _ _⟩
  | close => exact Heard.of_closed h

theorem Round.heard (h : Round host s t) : ∃ frames, Heard host s t frames := by
  cases h with
  | taken hpoll hreacts => exact Reacts.heard hpoll hreacts
  | filled => exact ⟨[], .of_read _ _ _ _ _⟩

theorem Rounds.heard {n : Nat} (h : Rounds host n s t) : ∃ frames, Heard host s t frames := by
  induction h with
  | refl s => exact ⟨[], .of_read s _ _ _ _⟩
  | head _ _ hround _ ih =>
      obtain ⟨frames, hframes⟩ := hround.heard
      obtain ⟨later, hlater⟩ := ih
      exact ⟨_, hframes.trans hlater⟩

theorem Halts.heard {stop : Stop} (h : Halts host s stop t) : Heard host s t [] := by
  cases h with
  | invalid => exact .of_read s _ _ _ _
  | @unanswered event inbound _ _ _ hbalks =>
      cases event with
      | data => exact hbalks.elim
      | ping => exact .of_moved hbalks (by simp)
      | pong => exact hbalks.elim
      | close => exact .of_moved hbalks.2 (by simp)
  | waits => exact .of_read _ _ _ _ _
  | broken => exact .of_read _ _ _ _ _

theorem Hands.heard {remaining : Nat} {handed : Octets} (h : Hands remaining s handed t) :
    Heard host s t [] := by
  cases h with
  | some => exact .of_read _ _ _ _ _
  | none => exact .of_read s _ _ _ _

theorem heard_pollRead (host : Host T) (s : WsStream T) (remaining fuel : Nat) :
    ∃ frames, Heard host s (Computation.final (pollRead host remaining fuel) s) frames := by
  refine Ends.final (P := fun t => ∃ frames, Heard host s t frames) (pollRead_ends.mono ?_ ?_)
  · rintro handed t ⟨n, u, hrounds, hhands⟩
    obtain ⟨frames, hframes⟩ := hrounds.heard
    exact ⟨_, hframes.trans hhands.heard⟩
  · rintro stop t ⟨n, u, hrounds, ⟨-, hhalts⟩ | ⟨-, -, rfl⟩⟩
    · obtain ⟨frames, hframes⟩ := hrounds.heard
      exact ⟨_, hframes.trans hhalts.heard⟩
    · exact hrounds.heard

theorem flushed_pollFlush (hrandom : host.Random) :
    Flushed host s (Computation.final (pollFlush host) s) := by
  refine Ends.final (P := fun t => Flushed host s t) (pollFlush_ends.mono (fun _ _ h => h) ?_)
  rintro stop t ⟨-, hflushed | ⟨-, hnot⟩⟩
  · exact hflushed
  · exact absurd hrandom hnot

theorem closed_pollShutdown (hrandom : host.Random) (s : WsStream T) :
    ∃ u, Flushed host s u ∧ Closed host u (Computation.final (pollShutdown host) s) := by
  refine Ends.final (P := fun t => ∃ u, Flushed host s u ∧ Closed host u t)
    (pollShutdown_ends.mono (fun _ _ h => h) ?_)
  rintro stop t ⟨-, hshut | ⟨-, hnot⟩⟩
  · exact hshut
  · exact absurd hrandom hnot

theorem Flushed.payloads (h : Flushed host s t) :
    ∃ frames, Wrote host s t frames ∧ t.partialTail = [] ∧
    (frames.map Framed.payload).flatten = s.partialTail := by
  obtain ⟨frames, whole, left, hwrote, hempty, hcut, -, hpayloads⟩ := h
  refine ⟨frames, hwrote, hempty, ?_⟩
  rw [hpayloads, ← hcut.flatten_append]
  split
  · rename_i hleft
    rw [hleft, List.append_nil]
  · rw [List.flatten_append, List.flatten_singleton]

end WsStream

/-! ## Conservation -/

/-- What is queued as data and what is held back is what was taken, and what is on the wire
and what waits for it is what was queued.  The control frames may be sent. -/
structure Trace.Conserved (trace : Trace T) : Prop where
  content : (dataPayloads trace.stream.queued).flatten ++ trace.stream.partialTail = trace.taken
  wire : trace.stream.drained ++ trace.stream.outbound =
    trace.stream.queued.flatMap Framed.encode
  controls : ∀ frame ∈ trace.stream.queued, frame.opcode.isControl → frame.Valid

namespace Trace.Conserved

open WsStream

variable {trace : Trace T} {t u : WsStream T} {frames : List Framed}

theorem of_wrote (h : trace.Conserved) (hwrote : Wrote host trace.stream t frames) (more : Octets)
    (hmore : (frames.map Framed.payload).flatten ++ t.partialTail =
      trace.stream.partialTail ++ more) :
    Trace.Conserved { trace with stream := t, taken := trace.taken ++ more } where
  content := by
    dsimp only
    rw [hwrote.1.queued, dataPayloads_append, dataPayloads_of_binary hwrote.2,
      List.flatten_append, List.append_assoc, hmore, ← List.append_assoc, h.content]
  wire := by
    dsimp only
    rw [hwrote.1.wire, hwrote.1.queued, List.flatMap_append]
    exact congrArg (· ++ _) h.wire
  controls frame hmem hcontrol := by
    dsimp only at hmem
    rw [hwrote.1.queued] at hmem
    obtain hprior | hpushed := List.mem_append.mp hmem
    · exact h.controls frame hprior hcontrol
    · rw [hwrote.2 frame hpushed] at hcontrol
      cases hcontrol

theorem of_heard (h : trace.Conserved) (hheard : Heard host trace.stream t frames)
    (handed : Octets) : Trace.Conserved { trace with stream := t, handed } where
  content := by
    dsimp only
    rw [hheard.1.queued, dataPayloads_append,
        dataPayloads_of_control fun frame hmem => (hheard.2 frame hmem).1,
      List.append_nil, hheard.1.partialTail]
    exact h.content
  wire := by
    dsimp only
    rw [hheard.1.wire, hheard.1.queued, List.flatMap_append]
    exact congrArg (· ++ _) h.wire
  controls frame hmem hcontrol := by
    dsimp only at hmem
    rw [hheard.1.queued] at hmem
    obtain hprior | hpushed := List.mem_append.mp hmem
    · exact h.controls frame hprior hcontrol
    · exact (hheard.2 frame hpushed).2

theorem of_flushed (h : trace.Conserved) (hflushed : Flushed host trace.stream t) :
    Trace.Conserved { trace with stream := t } := by
  obtain ⟨frames, hwrote, hempty, hpayloads⟩ := hflushed.payloads
  have hnext := h.of_wrote hwrote [] (by rw [hpayloads, hempty])
  rwa [List.append_nil] at hnext

theorem of_closed (h : trace.Conserved) (hclosed : Closed host trace.stream t) :
    Trace.Conserved { trace with stream := t } := by
  obtain ⟨later, hlater⟩ := Heard.of_closed hclosed
  exact h.of_heard hlater trace.handed

end Trace.Conserved

open WsStream in
theorem Trace.Conserved.act {trace : Trace T} (h : trace.Conserved) (hrandom : host.Random)
    (haccepts : host.Accepts) (act : Act) : (trace.act host act).Conserved := by
  cases act with
  | read remaining fuel =>
      obtain ⟨frames, hheard⟩ := heard_pollRead host trace.stream remaining fuel
      rw [Trace.act]
      cases hrun : pollRead host remaining fuel trace.stream with
      | ok handed t =>
          rw [Computation.final_of_ok hrun] at hheard
          exact h.of_heard hheard _
      | error stop t =>
          rw [Computation.final_of_error hrun] at hheard
          exact h.of_heard hheard _
  | write buf =>
      have hends : Ends (pollWrite host buf) trace.stream _ _ := pollWrite_ends buf
      rw [Trace.act]
      cases hrun : pollWrite host buf trace.stream with
      | ok n t =>
          obtain ⟨frames, left, hwrote, -, -, -, hmore, -⟩ := hends.ok hrun
          exact h.of_wrote hwrote _ hmore
      | error stop t =>
          obtain ⟨-, -, ⟨hmoved, -⟩ | hnot⟩ := hends.error hrun
          · have htail : t.partialTail = trace.stream.partialTail ++ [] := by
              rw [hmoved.partialTail, List.append_nil]
            have hnext := h.of_wrote (.of_moved hmoved) [] htail
            rwa [List.append_nil] at hnext
          · exact absurd ⟨hrandom, haccepts⟩ hnot
  | flush => exact h.of_flushed (flushed_pollFlush hrandom)
  | shutdown =>
      obtain ⟨u, hflushed, hclosed⟩ := closed_pollShutdown hrandom trace.stream
      exact (h.of_flushed hflushed).of_closed hclosed

/-! ## Alignment -/

/-- The octets written are a stream of frames, and a flush comes only between two of them. -/
def Act.Offers (frames : List Proto.Frame) (trace : Trace T) : Act → Prop
  | .read _ _ => True
  | .write buf => trace.taken ++ buf <+: Proto.encodeAll frames
  | .flush | .shutdown => ∃ whole rest, frames = whole ++ rest ∧
      trace.taken = Proto.encodeAll whole

/-- The data frames carry the first frames of the stream, one each, and the next one is
under way. -/
def Trace.Aligned (frames : List Proto.Frame) (trace : Trace T) : Prop :=
  ∃ done left, frames = done ++ left ∧
    dataPayloads trace.stream.queued = done.map Proto.Frame.encode ∧
    trace.stream.partialTail <+: Proto.encodeAll left

namespace Trace.Aligned

open WsStream

variable {trace : Trace T} {t : WsStream T} {frames : List Proto.Frame} {pushed : List Framed}

/-- Before the octets held back come the frames that were sent. -/
theorem taken_eq {done : List Proto.Frame} (hconserved : trace.Conserved)
    (hdone : dataPayloads trace.stream.queued = done.map Proto.Frame.encode) :
    trace.taken = Proto.encodeAll done ++ trace.stream.partialTail := by
  rw [← hconserved.content, hdone, Proto.encodeAll, List.flatMap_def]

theorem of_heard (h : trace.Aligned frames) (hheard : Heard host trace.stream t pushed)
    (handed : Octets) : Trace.Aligned frames { trace with stream := t, handed } := by
  obtain ⟨done, left, hframes, hdone, htail⟩ := h
  refine ⟨done, left, hframes, ?_, ?_⟩
  · dsimp only
    rw [hheard.1.queued, dataPayloads_append,
        dataPayloads_of_control fun frame hmem => (hheard.2 frame hmem).1, List.append_nil]
    exact hdone
  · rw [hheard.1.partialTail]
    exact htail

theorem of_takes (h : trace.Aligned frames) (hconserved : trace.Conserved) {buf : Octets}
    {n : Nat} (hoffers : trace.taken ++ buf <+: Proto.encodeAll frames)
    (htakes : Takes host trace.stream buf n t) (taken : Octets) :
    Trace.Aligned frames { trace with stream := t, taken } := by
  obtain ⟨done, left, rfl, hdone, -⟩ := h
  obtain ⟨pushed, rest, hwrote, -, hcut, htail, -, -⟩ := htakes
  have hahead : trace.stream.partialTail ++ buf <+: Proto.encodeAll left := by
    rw [taken_eq hconserved hdone, List.append_assoc, Proto.encodeAll_append] at hoffers
    exact (List.prefix_append_right_inj _).mp hoffers
  obtain ⟨next, later, rfl, hnext, hrest⟩ := hcut.frames hahead
  refine ⟨done ++ next, later, (List.append_assoc _ _ _).symm, ?_, htail.trans hrest⟩
  dsimp only
  rw [hwrote.1.queued, dataPayloads_append, dataPayloads_of_binary hwrote.2, hnext,
    List.map_append]
  exact congrArg (· ++ _) hdone

/-- Between two frames there is nothing left for a flush to cut. -/
theorem of_flushed (h : trace.Aligned frames) (hconserved : trace.Conserved)
    (hbetween : ∃ whole rest, frames = whole ++ rest ∧ trace.taken = Proto.encodeAll whole)
    (hflushed : Flushed host trace.stream t) : Trace.Aligned frames { trace with stream := t } := by
  obtain ⟨done, left, rfl, hdone, htail⟩ := h
  obtain ⟨whole, rest, hframes, htaken⟩ := hbetween
  obtain ⟨pushed, pieces, behind, hwrote, hempty, hcut, hnone, hpayloads⟩ := hflushed
  obtain ⟨next, later, rfl, hnext, hbehind⟩ := hcut.frames htail
  have hpieces : pieces.flatten = Proto.encodeAll next := by
    rw [hnext, Proto.encodeAll, List.flatMap_def]
  have hsame : Proto.encodeAll done ++ (Proto.encodeAll next ++ behind) =
      Proto.encodeAll whole := calc
    _ = Proto.encodeAll done ++ trace.stream.partialTail := by
      rw [← hpieces, hcut.flatten_append]
    _ = Proto.encodeAll whole := by rw [← taken_eq hconserved hdone, htaken]
  have hnil : behind = [] := by
    rw [← List.append_assoc] at hframes
    rw [← List.append_assoc, ← Proto.encodeAll_append] at hsame
    obtain ⟨more, rfl, -⟩ | ⟨more, hprior, -⟩ := List.append_eq_append_iff.mp hframes
    · rw [Proto.encodeAll_append (done ++ next)] at hsame
      have hmore := List.append_cancel_left hsame
      rw [hmore] at hnone ⊢
      rw [Proto.eq_nil_of_encodeAll hnone]
      rfl
    · rw [hprior, Proto.encodeAll_append, List.append_assoc] at hsame
      exact (List.append_eq_nil_iff.mp (List.self_eq_append_right.mp hsame.symm)).2
  rw [if_pos hnil, hnext] at hpayloads
  refine ⟨done ++ next, later, (List.append_assoc _ _ _).symm, ?_, ?_⟩
  · dsimp only
    rw [hwrote.1.queued, dataPayloads_append, dataPayloads_of_binary hwrote.2, hpayloads,
      List.map_append]
    exact congrArg (· ++ _) hdone
  · dsimp only
    rw [hempty]
    exact List.nil_prefix

theorem act (h : trace.Aligned frames) (hconserved : trace.Conserved) (hrandom : host.Random)
    (haccepts : host.Accepts) {act : Act} (hoffers : act.Offers frames trace) :
    (trace.act host act).Aligned frames := by
  cases act with
  | read remaining fuel =>
      obtain ⟨pushed, hheard⟩ := heard_pollRead host trace.stream remaining fuel
      rw [Trace.act]
      cases hrun : pollRead host remaining fuel trace.stream with
      | ok handed t =>
          rw [Computation.final_of_ok hrun] at hheard
          exact h.of_heard hheard _
      | error stop t =>
          rw [Computation.final_of_error hrun] at hheard
          exact h.of_heard hheard _
  | write buf =>
      have hends : Ends (pollWrite host buf) trace.stream _ _ := pollWrite_ends buf
      rw [Trace.act]
      cases hrun : pollWrite host buf trace.stream with
      | ok n t => exact h.of_takes hconserved hoffers (hends.ok hrun) _
      | error stop t =>
          obtain ⟨-, -, ⟨hmoved, -⟩ | hnot⟩ := hends.error hrun
          · exact h.of_heard (.of_moved hmoved (by simp)) trace.handed
          · exact absurd ⟨hrandom, haccepts⟩ hnot
  | flush => exact h.of_flushed hconserved hoffers (flushed_pollFlush hrandom)
  | shutdown =>
      obtain ⟨u, hflushed, hclosed⟩ := closed_pollShutdown hrandom trace.stream
      obtain ⟨pushed, hheard⟩ := Heard.of_closed hclosed
      exact (h.of_flushed hconserved hoffers hflushed).of_heard hheard trace.handed

end Trace.Aligned

theorem Trace.conserved_new (io : T) (side : Side) (inbound : Octets) :
    (Trace.new io side inbound).Conserved := ⟨rfl, rfl, nofun⟩

theorem Trace.aligned_new (io : T) (side : Side) (inbound : Octets)
    (frames : List Proto.Frame) : (Trace.new io side inbound).Aligned frames :=
  ⟨[], frames, rfl, rfl, List.nil_prefix⟩

theorem Trace.conserved_aligned (hrandom : host.Random) (haccepts : host.Accepts) {io : T}
    {side : Side} {inbound : Octets} {frames : List Proto.Frame} {trace : Trace T}
    (hrun : Run (Trace.act host) (fun trace act => act.Offers frames trace)
      (Trace.new io side inbound) trace) : trace.Conserved ∧ trace.Aligned frames := by
  refine hrun.preserves (I := fun trace => trace.Conserved ∧ trace.Aligned frames) ?_
    ⟨Trace.conserved_new io side inbound, Trace.aligned_new io side inbound frames⟩
  intro trace act hoffers h
  exact ⟨h.1.act hrandom haccepts act, h.2.act h.1 hrandom haccepts hoffers⟩

/-- Over a transport that does not fail, what is taken is what is sent, in frames that are
whole on the wire; and the data frames are the frames of BEEP, when nothing else is offered
and no flush comes in the middle of one. -/
theorem sends_what_it_takes (hrandom : host.Random) (haccepts : host.Accepts) (io : T)
    (side : Side) (inbound : Octets) :
    (∀ {trace : Trace T},
      Run (Trace.act host) (fun _ _ => True) (Trace.new io side inbound) trace →
      (dataPayloads trace.stream.queued).flatten ++ trace.stream.partialTail = trace.taken ∧
      trace.stream.drained ++ trace.stream.outbound =
        trace.stream.queued.flatMap Framed.encode) ∧
    ∀ {frames : List Proto.Frame} {trace : Trace T},
      Run (Trace.act host) (fun trace act => act.Offers frames trace)
        (Trace.new io side inbound) trace →
      ∃ done left, frames = done ++ left ∧
        dataPayloads trace.stream.queued = done.map Proto.Frame.encode := by
  refine ⟨fun hrun => ?_, fun hrun => ?_⟩
  · have hconserved := hrun.preserves (fun _ h => h.act hrandom haccepts _)
      (Trace.conserved_new io side inbound)
    exact ⟨hconserved.content, hconserved.wire⟩
  · obtain ⟨-, done, left, hframes, hdone, -⟩ :=
      Trace.conserved_aligned hrandom haccepts hrun
    exact ⟨done, left, hframes, hdone⟩

def trickleMask : Mask := ⟨[1, 2, 3, 4], rfl⟩

/-- A transport that brings the octets still to come seven at a time, and takes five. -/
def trickle : Host Octets where
  pollRead rest room := (.ready (.ok (rest.take (min 7 room))), rest.drop (min 7 room))
  pollWrite rest offered := (.ready (.ok (min 5 offered.length)), rest)
  pollFlush rest := (.ready (.ok ()), rest)
  pollShutdown rest := (.ready (.ok ()), rest)
  maskingKey rest := (some trickleMask, rest)

theorem random_trickle : trickle.Random := fun _ => rfl

theorem accepts_trickle : trickle.Accepts := by
  intro rest offered hsome
  refine .inr ⟨_, ?_, rfl⟩
  exact Nat.lt_min.mpr ⟨by omega, List.length_pos_iff.mpr hsome⟩

/-- One write of a frame, and the beginning of another. -/
theorem sends_trickle : ∃ done left, [Proto.Frame.seq ⟨0, 0, 4096, by decide, by decide⟩,
      .seq ⟨1, 0, 4096, by decide, by decide⟩] = done ++ left ∧
    dataPayloads ((Trace.new [] .client []).act trickle
      (.write (octets "SEQ 0 0 4096\r\nSEQ 1"))).stream.queued =
        done.map Proto.Frame.encode :=
  (sends_what_it_takes random_trickle accepts_trickle [] .client []).2
    (Run.refl.act (Act.write _) (List.isPrefixOf_iff_prefix.mp (by decide)))

end Vortice.Ws
