import Vortice.Ws.Conservation

/-!
# After a close

One close is queued, by the end that shuts the stream down or in answer to the peer's.  What
is written afterwards is queued all the same.
-/

namespace Vortice.Ws

open Vortice.Foundation

variable {T : Type} {host : Host T}

/-- Behind a close there are only pings and pongs. -/
def Silent (frames : List Framed) : Prop :=
  frames.Pairwise fun earlier later => earlier.opcode = .close →
    later.opcode.isControl ∧ later.opcode ≠ .close

instance (frames : List Framed) : Decidable (Silent frames) :=
  inferInstanceAs (Decidable (List.Pairwise _ frames))

namespace Silent

variable {frames : List Framed}

theorem of_opened (h : ∀ frame ∈ frames, frame.opcode ≠ .close) : Silent frames :=
  List.pairwise_of_forall_mem_list fun frame hmem _ _ hclose => absurd hclose (h frame hmem)

theorem countP_le (h : Silent frames) :
    (frames.countP fun frame => frame.opcode = .close) ≤ 1 := by
  induction h with
  | nil => exact Nat.zero_le _
  | @cons frame later hlater _ ih =>
      rw [List.countP_cons]
      by_cases hclose : frame.opcode = .close
      · have hnone : (later.countP fun frame => frame.opcode = .close) = 0 := by
          refine List.countP_eq_zero.mpr fun other hmem => ?_
          rw [decide_eq_true_eq]
          exact (hlater other hmem hclose).2
        rw [hnone, if_pos (decide_eq_true hclose)]
      · rw [if_neg (by rwa [decide_eq_true_eq])]
        exact ih

end Silent

namespace WsStream

variable {s t u : WsStream T} {pushed : List Framed}

/-- No close is queued before the stream is closing, and nothing but pings and pongs
after one. -/
structure Ended (s : WsStream T) : Prop where
  silent : Silent s.queued
  opened : s.closing = false → ∀ frame ∈ s.queued, frame.opcode ≠ .close

namespace Ended

theorem new (io : T) (side : Side) (inbound : Octets) : Ended (WsStream.new io side inbound) :=
  ⟨.nil, fun _ => nofun⟩

theorem append (h : Ended s) (hqueued : t.queued = s.queued ++ pushed)
    (hclosing : s.closing = true → t.closing = true) (hsilent : Silent pushed)
    (hlater : s.closing = true → ∀ frame ∈ pushed, frame.opcode.isControl ∧ frame.opcode ≠ .close)
    (hopen : t.closing = false → ∀ frame ∈ pushed, frame.opcode ≠ .close) : Ended t where
  silent := by
    rw [hqueued]
    refine List.pairwise_append.mpr ⟨h.silent, hsilent, ?_⟩
    intro earlier hearlier later hmem hclose
    cases hstate : s.closing with
    | true => exact hlater hstate later hmem
    | false => exact absurd hclose (h.opened hstate earlier hearlier)
  opened hstate frame hmem := by
    rw [hqueued] at hmem
    obtain hbefore | hpushed := List.mem_append.mp hmem
    · refine h.opened ?_ frame hbefore
      cases hprior : s.closing with
      | true => exact absurd (hclosing hprior) (by rw [hstate]; exact Bool.false_ne_true)
      | false => rfl
    · exact hopen hstate frame hpushed

theorem of_moved (h : Ended s) (hmoved : Moved host s t pushed)
    (hpushed : ∀ frame ∈ pushed, frame.opcode.isControl ∧ frame.opcode ≠ .close) : Ended t :=
  h.append hmoved.queued hmoved.closing.trans
    (.of_opened fun frame hmem => (hpushed frame hmem).2) (fun _ => hpushed)
    fun _ frame hmem => (hpushed frame hmem).2

theorem of_wrote (h : Ended s) (hwrote : Wrote host s t pushed)
    (hnone : s.closing = true → pushed = []) : Ended t := by
  have hopened : ∀ frame ∈ pushed, frame.opcode ≠ .close := by
    intro frame hmem
    rw [hwrote.2 frame hmem]
    exact nofun
  refine h.append hwrote.1.queued hwrote.1.closing.trans (.of_opened hopened) ?_ fun _ => hopened
  intro hclosing
  rw [hnone hclosing]
  exact nofun

theorem of_closed (h : Ended s) (hclosed : Closed host s t) : Ended t := by
  obtain ⟨-, hmoved⟩ | ⟨hclosing, mask, hmoved⟩ := hclosed
  · exact h.of_moved hmoved nofun
  · refine h.append hmoved.queued (fun _ => hmoved.closing) (List.pairwise_singleton _ _) ?_ ?_
    · intro hstate
      rw [hclosing] at hstate
      cases hstate
    · intro hstate
      rw [hmoved.closing] at hstate
      cases hstate

theorem of_unclosed (h : Ended s) (hunclosed : Unclosed host s t) : Ended t := by
  have hmarked : Ended { s with closing := true } := ⟨h.silent, nofun⟩
  exact hmarked.of_moved hunclosed.2 nofun

/-! ### Reads -/

theorem reacts {event : Event} {inbound : Octets} (h : Ended s)
    (hreacts : Reacts host { s with inbound } event t) : Ended t := by
  cases event with
  | data =>
      rw [show t = _ from hreacts]
      exact ⟨h.silent, h.opened⟩
  | ping =>
      obtain ⟨mask, hmoved⟩ := hreacts
      have hread : Ended { s with inbound } := ⟨h.silent, h.opened⟩
      exact hread.of_moved hmoved (by simp [OpCode.isControl])
  | pong =>
      rw [show t = _ from hreacts]
      exact ⟨h.silent, h.opened⟩
  | close =>
      have hread : Ended { s with inbound, finished := true } := ⟨h.silent, h.opened⟩
      exact hread.of_closed hreacts

theorem rounds {n : Nat} (h : Ended s) (hrounds : Rounds host n s t) : Ended t := by
  induction hrounds with
  | refl s => exact h
  | head _ _ hround _ ih =>
      cases hround with
      | taken _ hreacts => exact ih (h.reacts hreacts)
      | filled => exact ih ⟨h.silent, h.opened⟩

theorem halts {stop : Stop} (h : Ended s) (hhalts : Halts host s stop t) : Ended t := by
  cases hhalts with
  | invalid => exact h
  | @unanswered event inbound _ _ _ hbalks =>
      cases event with
      | data => exact hbalks.elim
      | ping =>
          have hread : Ended { s with inbound } := ⟨h.silent, h.opened⟩
          exact hread.of_moved hbalks nofun
      | pong => exact hbalks.elim
      | close =>
          have hread : Ended { s with inbound, finished := true } := ⟨h.silent, h.opened⟩
          exact hread.of_unclosed hbalks
  | waits => exact ⟨h.silent, h.opened⟩
  | broken => exact ⟨h.silent, h.opened⟩

theorem pollRead (h : Ended s) (remaining fuel : Nat) :
    Ended (Computation.final (WsStream.pollRead host remaining fuel) s) := by
  refine Ends.final (P := Ended) (pollRead_ends.mono ?_ ?_)
  · rintro handed t ⟨n, u, hrounds, hhands⟩
    have hended := h.rounds hrounds
    cases hhands with
    | some => exact ⟨hended.silent, hended.opened⟩
    | none => exact hended
  · rintro stop t ⟨n, u, hrounds, ⟨-, hhalts⟩ | ⟨-, -, rfl⟩⟩
    · exact (h.rounds hrounds).halts hhalts
    · exact h.rounds hrounds

/-! ### Writes -/

theorem of_cut {src left : Octets} (h : Ended s) (hwrote : Wrote host s t pushed)
    (hcut : Proto.Cut src (pushed.map Framed.payload) left)
    (hnone : s.closing = true → Proto.frameBoundary src = none) : Ended t := by
  refine h.of_wrote hwrote fun hclosing => ?_
  have hnil := hcut.eq_nil (hnone hclosing)
  exact List.map_eq_nil_iff.mp hnil

theorem of_flushed (h : Ended s) (hflushed : Flushed host s t)
    (hnone : s.closing = true → s.partialTail = []) : Ended t := by
  obtain ⟨pushed, whole, left, hwrote, -, hcut, -, hpayloads⟩ := hflushed
  refine h.of_wrote hwrote fun hclosing => ?_
  rw [hnone hclosing] at hcut
  have hwhole := hcut.eq_nil frameBoundary_nil
  have hleft : left = [] := (List.append_eq_nil_iff.mp hcut.flatten_append).2
  rw [if_pos hleft, hwhole] at hpayloads
  exact List.map_eq_nil_iff.mp hpayloads

theorem pollWrite (h : Ended s) {buf : Octets} (hnone : s.closing = true →
    buf = [] ∨ Proto.frameBoundary (s.partialTail ++ buf) = none) :
    Ended (Computation.final (WsStream.pollWrite host buf) s) := by
  by_cases hempty : buf = []
  · rw [hempty]
    exact h
  · have hcut := fun hclosing => (hnone hclosing).resolve_left hempty
    refine Ends.final (P := Ended) ((pollWrite_ends buf).mono ?_ ?_)
    · rintro n t ⟨pushed, left, hwrote, -, hpieces, -⟩
      exact h.of_cut hwrote hpieces hcut
    · rintro stop t ⟨⟨pushed, left, hwrote, hpieces⟩, -⟩
      exact h.of_cut hwrote hpieces hcut

theorem pollFlush (h : Ended s) (hnone : s.closing = true → s.partialTail = []) :
    Ended (Computation.final (WsStream.pollFlush host) s) := by
  have hcut : s.closing = true → Proto.frameBoundary s.partialTail = none := by
    intro hclosing
    rw [hnone hclosing]
    exact frameBoundary_nil
  refine Ends.final (P := Ended) (pollFlush_ends.mono (fun _ _ hf => h.of_flushed hf hnone) ?_)
  rintro stop t ⟨-, hflushed | ⟨⟨pushed, left, hwrote, hpieces⟩, -⟩⟩
  · exact h.of_flushed hflushed hnone
  · exact h.of_cut hwrote hpieces hcut

theorem pollShutdown (h : Ended s) (hnone : s.closing = true → s.partialTail = []) :
    Ended (Computation.final (WsStream.pollShutdown host) s) := by
  have hcut : s.closing = true → Proto.frameBoundary s.partialTail = none := by
    intro hclosing
    rw [hnone hclosing]
    exact frameBoundary_nil
  refine Ends.final (P := Ended) (pollShutdown_ends.mono ?_ ?_)
  · rintro _ t ⟨u, hflushed, hclosed⟩
    exact (h.of_flushed hflushed hnone).of_closed hclosed
  · rintro stop t ⟨-, ⟨u, hflushed, hclosed⟩ |
      ⟨⟨pushed, left, hwrote, hpieces⟩ | ⟨u, hflushed, hunclosed⟩, -⟩⟩
    · exact (h.of_flushed hflushed hnone).of_closed hclosed
    · exact h.of_cut hwrote hpieces hcut
    · exact (h.of_flushed hflushed hnone).of_unclosed hunclosed

end Ended

end WsStream

/-- Once the stream is closing no more of a frame is written than can be held back, and
nothing held back is flushed. -/
def Act.Ceases (trace : Trace T) : Act → Prop
  | .read _ _ => True
  | .write buf => trace.stream.closing = true →
      buf = [] ∨ Proto.frameBoundary (trace.stream.partialTail ++ buf) = none
  | .flush | .shutdown => trace.stream.closing = true → trace.stream.partialTail = []

instance (trace : Trace T) : (act : Act) → Decidable (act.Ceases trace)
  | .read _ _ => inferInstanceAs (Decidable True)
  | .write _ => inferInstanceAs (Decidable (_ → _ ∨ _))
  | .flush | .shutdown => inferInstanceAs (Decidable (_ → _))

theorem Trace.stream_act (trace : Trace T) (act : Act) : (trace.act host act).stream =
    match act with
    | .read remaining fuel => Computation.final (WsStream.pollRead host remaining fuel) trace.stream
    | .write buf => Computation.final (WsStream.pollWrite host buf) trace.stream
    | .flush => Computation.final (WsStream.pollFlush host) trace.stream
    | .shutdown => Computation.final (WsStream.pollShutdown host) trace.stream := by
  cases act with
  | read remaining fuel =>
      rw [Trace.act]
      cases hrun : WsStream.pollRead host remaining fuel trace.stream with
      | ok handed t => exact (Computation.final_of_ok hrun).symm
      | error stop t => exact (Computation.final_of_error hrun).symm
  | write buf =>
      rw [Trace.act]
      cases hrun : WsStream.pollWrite host buf trace.stream with
      | ok n t => exact (Computation.final_of_ok hrun).symm
      | error stop t => exact (Computation.final_of_error hrun).symm
  | flush => rfl
  | shutdown => rfl

open WsStream in
/-- While nothing is pushed through after the close, one close is queued at most, and behind
it there are only pings and pongs. -/
theorem silent_after_close (host : Host T) (io : T) (side : Side) (inbound : Octets)
    {trace : Trace T} (hrun : Run (Trace.act host) (fun trace act => act.Ceases trace)
      (Trace.new io side inbound) trace) :
    Silent trace.stream.queued ∧
      (trace.stream.queued.countP fun frame => frame.opcode = .close) ≤ 1 := by
  have hended : Ended trace.stream := by
    refine hrun.preserves (I := fun trace => Ended trace.stream) ?_
      (Ended.new io side inbound)
    intro trace act hceases h
    rw [Trace.stream_act]
    cases act with
    | read remaining fuel => exact h.pollRead remaining fuel
    | write buf => exact h.pollWrite hceases
    | flush => exact h.pollFlush hceases
    | shutdown => exact h.pollShutdown hceases
  exact ⟨hended.silent, hended.silent.countP_le⟩

/-- The close of a peer. -/
def peerClose : Octets :=
  (⟨.close, true, some trickleMask, WsStream.normalClosure⟩ : Framed).encode

/-- A write after the peer's close has been answered is queued. -/
theorem not_silent_after_close : ¬ ∀ trace : Trace Octets,
    Run (Trace.act trickle) (fun _ _ => True) (Trace.new [] .server peerClose) trace →
      Silent trace.stream.queued := by
  intro hall
  have hrun := Run.of_list (Trace.act trickle) (Trace.new [] .server peerClose)
    [.read 1 3, .write (octets "SEQ 0 0 4096\r\n")]
  exact absurd (hall _ hrun) (by decide +kernel)

/-- The peer's close is answered behind what has been written, and what follows it is held
back, empty, or flushed when nothing is held back. -/
def ceasing : List Act :=
  [.write (octets "SEQ 0 0 4096\r\n"), .read 1 3, .write [], .flush, .shutdown, .write [83],
    .read 1 3]

theorem silent_ceasing :
    let stream := (ceasing.foldl (Trace.act trickle) (Trace.new [] .server peerClose)).stream
    stream.closing = true ∧ stream.partialTail = [83] ∧
      stream.queued.map Framed.opcode = [.binary, .close] ∧ Silent stream.queued ∧
      (stream.queued.countP fun frame => frame.opcode = .close) ≤ 1 :=
  ⟨by decide +kernel, by decide +kernel, by decide +kernel,
    silent_after_close trickle [] .server peerClose
      (Run.of_checks (fun trace act => decide (act.Ceases trace)) of_decide_eq_true
        (by decide +kernel))⟩

end Vortice.Ws
