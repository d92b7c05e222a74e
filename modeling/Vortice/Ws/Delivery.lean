import Vortice.Ws.Conservation

/-!
# What is framed is read

How the octets of a peer's frames are cut by the transport does not show: the data before
its first close is handed over, and its pings are answered.
-/

namespace Vortice.Ws

open Vortice.Foundation

variable {T : Type} {host : Host T} {coming : T → Octets}

/-- The transport brings the octets still to come, in their order, and ends after them. -/
structure Host.Delivers (host : Host T) (coming : T → Octets) : Prop where
  read : ∀ (io : T) (room : Nat), 0 < room →
    (host.pollRead io room).1 = .pending ∧ coming (host.pollRead io room).2 = coming io ∨
    ∃ filled, (host.pollRead io room).1 = .ready (.ok filled) ∧
      coming io = filled ++ coming (host.pollRead io room).2 ∧ (filled = [] → coming io = [])
  apart : ∀ {io io' : T}, host.Call io io' → coming io' = coming io

namespace Host.Delivers

variable {io io' : T}

theorem works (h : host.Delivers coming) (hworks : host.Works io io') :
    coming io' = coming io := by
  induction hworks with
  | refl => rfl
  | tail _ hcall ih => rw [h.apart hcall, ih]

theorem waits (h : host.Delivers coming) (hanswer : (host.pollRead io readChunk).1 = .pending) :
    coming (host.pollRead io readChunk).2 = coming io := by
  obtain ⟨-, hsame⟩ | ⟨filled, hready, -⟩ := h.read io readChunk (by decide)
  · exact hsame
  · rw [hanswer] at hready
    cases hready

theorem fills (h : host.Delivers coming) {filled : Octets}
    (hanswer : (host.pollRead io readChunk).1 = .ready (.ok filled)) :
    coming io = filled ++ coming (host.pollRead io readChunk).2 ∧
      (filled = [] → coming io = []) := by
  obtain ⟨hpending, -⟩ | ⟨more, hready, hmore⟩ := h.read io readChunk (by decide)
  · rw [hanswer] at hpending
    cases hpending
  · rw [hanswer] at hready
    cases hready
    exact hmore

theorem never_broken (h : host.Delivers coming) {error : IoError} :
    (host.pollRead io readChunk).1 ≠ .ready (.error error) := by
  intro hanswer
  obtain ⟨hpending, -⟩ | ⟨more, hready, -⟩ := h.read io readChunk (by decide)
  · rw [hanswer] at hpending
    cases hpending
  · rw [hanswer] at hready
    cases hready

end Host.Delivers

/-! ## Frames in their octets -/

/-- The payloads of the frames of one kind. -/
def payloadsOf (opcode : OpCode) (frames : List Framed) : List Octets :=
  (frames.filter fun frame => frame.opcode = opcode).map Framed.payload

theorem payloadsOf_append (opcode : OpCode) (frames later : List Framed) :
    payloadsOf opcode (frames ++ later) = payloadsOf opcode frames ++ payloadsOf opcode later := by
  rw [payloadsOf, List.filter_append, List.map_append]
  rfl

theorem payloadsOf_singleton (frame : Framed) :
    payloadsOf frame.opcode [frame] = [frame.payload] := by
  simp [payloadsOf]

theorem dataPayloads_singleton {frame : Framed} (h : frame.opcode.isControl = false) :
    dataPayloads [frame] = [frame.payload] := by
  simp [dataPayloads, h]

theorem payloadsOf_of_ne {opcode : OpCode} {frames : List Framed}
    (h : ∀ frame ∈ frames, frame.opcode ≠ opcode) : payloadsOf opcode frames = [] := by
  have hall : ∀ frame ∈ frames, ¬ decide (frame.opcode = opcode) = true := by
    intro frame hmem
    rw [decide_eq_true_eq]
    exact h frame hmem
  rw [payloadsOf, List.filter_eq_nil_iff.mpr hall, List.map_nil]

/-- The frames before the first close. -/
def beforeClose (frames : List Framed) : List Framed :=
  frames.takeWhile fun frame => frame.opcode ≠ .close

theorem beforeClose_append {seen left : List Framed}
    (hopen : ∀ frame ∈ seen, frame.opcode ≠ .close) :
    beforeClose (seen ++ left) = seen ++ beforeClose left := by
  refine List.takeWhile_append_of_pos fun frame hmem => ?_
  rw [decide_eq_true_eq]
  exact hopen frame hmem

theorem beforeClose_eq_nil {left : List Framed} (h : ∀ frame ∈ left.head?, frame.opcode = .close) :
    beforeClose left = [] := by
  cases left with
  | nil => rfl
  | cons frame left =>
      rw [beforeClose, List.takeWhile_cons_of_neg]
      rw [decide_eq_true_eq, not_not]
      exact h frame rfl

/-- The first frame is taken once it is all there, and before that nothing is. -/
theorem poll_sent {frames : List Framed} (hvalid : ∀ frame ∈ frames, frame.Valid)
    {inbound rest : Octets} (hsent : inbound ++ rest = frames.flatMap Framed.encode) :
    (∃ frame later back, frames = frame :: later ∧ inbound = frame.encode ++ back ∧
      back ++ rest = later.flatMap Framed.encode ∧
      Decoder.poll inbound = .ok (some frame.event, back)) ∨
    Decoder.poll inbound = .ok (none, inbound) ∧ (rest = [] → frames = []) := by
  cases frames with
  | nil =>
      obtain ⟨rfl, rfl⟩ := List.append_eq_nil_iff.mp hsent
      exact .inr ⟨rfl, fun _ => rfl⟩
  | cons frame later =>
      have hframe := hvalid frame (List.mem_cons_self ..)
      rw [List.flatMap_cons] at hsent
      obtain ⟨short, hshort, hrest⟩ | ⟨back, rfl, hback⟩ := List.append_eq_append_iff.mp hsent
      · by_cases hnil : short = []
        · rw [hnil, List.append_nil] at hshort
          rw [hnil, List.nil_append] at hrest
          refine .inl ⟨frame, later, [], rfl, by rw [hshort, List.append_nil], hrest, ?_⟩
          have hpoll := hframe.poll []
          rwa [List.append_nil, hshort] at hpoll
        · refine .inr ⟨hframe.poll_short hshort hnil, fun hend => ?_⟩
          rw [hend] at hrest
          exact absurd (List.append_eq_nil_iff.mp hrest.symm).1 hnil
      · exact .inl ⟨frame, later, back, rfl, rfl, hback.symm, hframe.poll back⟩

namespace WsStream

variable {s t u : WsStream T} {frames seen left : List Framed} {handed : Octets}

/-- The frames seen are dealt with, and the octets that are left are those of the others,
until a close or their end is met. -/
structure Reads (coming : T → Octets) (seen left : List Framed) (handed : Octets)
    (s : WsStream T) : Prop where
  opened : ∀ frame ∈ seen, frame.opcode ≠ .close
  data : handed ++ s.payload = (dataPayloads seen).flatten
  pongs : payloadsOf .pong s.queued = payloadsOf .ping seen
  sent : s.finished = false → s.inbound ++ coming s.io = left.flatMap Framed.encode
  ended : s.finished = true → ∀ frame ∈ left.head?, frame.opcode = .close

/-- The octets that are to be read yet, those that have to come counted twice. -/
def unread (coming : T → Octets) (s : WsStream T) : Nat :=
  2 * (coming s.io).length + s.inbound.length + if s.finished then 0 else 1

namespace Reads

theorem of_moved {pushed : List Framed} {partialTail : Octets} {closing : Bool}
    (h : Reads coming seen left handed s) (hdelivers : host.Delivers coming)
    (hmoved : Moved host { s with partialTail, closing } t pushed)
    (hpongs : payloadsOf .pong pushed = []) : Reads coming seen left handed t where
  opened := h.opened
  data := by
    rw [hmoved.payload]
    exact h.data
  pongs := by
    rw [hmoved.queued, payloadsOf_append, hpongs, List.append_nil]
    exact h.pongs
  sent hfinished := by
    rw [hmoved.finished] at hfinished
    rw [hmoved.inbound, hdelivers.works hmoved.io]
    exact h.sent hfinished
  ended hfinished := by
    rw [hmoved.finished] at hfinished
    exact h.ended hfinished

theorem take {frame : Framed} {back payload : Octets} {pushed : List Framed}
    (h : Reads coming seen (frame :: left) handed s) (hdelivers : host.Delivers coming)
    (hpayload : s.payload = []) (hfinished : s.finished = false)
    (hopen : frame.opcode ≠ .close) (hinbound : s.inbound = frame.encode ++ back)
    (hback : back ++ coming s.io = left.flatMap Framed.encode)
    (hmoved : Moved host { s with inbound := back, payload } t pushed)
    (hdata : payload = (dataPayloads [frame]).flatten)
    (hpongs : payloadsOf .pong pushed = payloadsOf .ping [frame]) :
    Reads coming (seen ++ [frame]) left handed t ∧ unread coming t < unread coming s := by
  have hio := hdelivers.works hmoved.io
  refine ⟨⟨?_, ?_, ?_, ?_, ?_⟩, ?_⟩
  · intro other hmem
    obtain hseen | hlast := List.mem_append.mp hmem
    · exact h.opened other hseen
    · rw [List.mem_singleton.mp hlast]
      exact hopen
  · have hprior := h.data
    rw [hpayload, List.append_nil] at hprior
    rw [hmoved.payload, hprior, hdata, dataPayloads_append, List.flatten_append]
  · rw [hmoved.queued, payloadsOf_append, hpongs, payloadsOf_append, h.pongs]
  · intro _
    rw [hmoved.inbound, hio]
    exact hback
  · intro hend
    rw [hmoved.finished, hfinished] at hend
    cases hend
  · have hpos := frame.length_encode_pos
    rw [unread, unread, hio, hmoved.inbound, hmoved.finished, hinbound, List.length_append]
    dsimp only
    omega

theorem close {frame : Framed} {back : Octets} (h : Reads coming seen (frame :: left) handed s)
    (hdelivers : host.Delivers coming) (hfinished : s.finished = false)
    (hclose : frame.opcode = .close) (hinbound : s.inbound = frame.encode ++ back)
    (hclosed : Closed host { s with inbound := back, finished := true } t) :
    Reads coming seen (frame :: left) handed t ∧ unread coming t < unread coming s := by
  have hended : ∀ closing, Reads coming seen (frame :: left) handed
      { s with inbound := back, finished := true, closing } := by
    intro closing
    refine ⟨h.opened, h.data, h.pongs, nofun, fun _ other hmem => ?_⟩
    rw [List.head?_cons, Option.mem_some_iff] at hmem
    rw [← hmem]
    exact hclose
  obtain ⟨closing, pushed, hmoved, hpongs⟩ : ∃ closing pushed,
      Moved host { s with inbound := back, finished := true, closing } t pushed ∧
      payloadsOf .pong pushed = [] := by
    obtain ⟨-, hmoved⟩ | ⟨-, mask, hmoved⟩ := hclosed
    · exact ⟨_, _, hmoved, rfl⟩
    · exact ⟨_, _, hmoved, rfl⟩
  refine ⟨(hended closing).of_moved hdelivers hmoved hpongs, ?_⟩
  rw [unread, unread, hdelivers.works hmoved.io, hmoved.inbound, hmoved.finished, hinbound,
    List.length_append, hfinished]
  dsimp only
  simp only [if_true, Bool.false_eq_true, if_false]
  omega

theorem fill {filled : Octets} (h : Reads coming seen left handed s)
    (hdelivers : host.Delivers coming) (hfinished : s.finished = false)
    (hend : coming s.io = [] → left = [])
    (hanswer : (host.pollRead s.io readChunk).1 = .ready (.ok filled)) :
    Reads coming seen left handed { s with
      io := (host.pollRead s.io readChunk).2, inbound := s.inbound ++ filled
      finished := decide (filled = []) } ∧
    unread coming { s with
      io := (host.pollRead s.io readChunk).2, inbound := s.inbound ++ filled
      finished := decide (filled = []) } < unread coming s := by
  obtain ⟨hcoming, hnone⟩ := hdelivers.fills hanswer
  refine ⟨⟨h.opened, h.data, h.pongs, fun _ => ?_, fun hempty => ?_⟩, ?_⟩
  · have hsent := h.sent hfinished
    rw [hcoming, ← List.append_assoc] at hsent
    exact hsent
  · rw [hend (hnone (of_decide_eq_true hempty))]
    exact nofun
  · rw [unread, unread, hcoming, hfinished, List.length_append]
    dsimp only
    rw [List.length_append]
    cases filled with
    | nil => simp
    | cons octet filled =>
        simp only [List.length_cons]
        simp
        omega

theorem reacts {frame : Framed} {back : Octets}
    (h : Reads coming seen (frame :: left) handed s) (hdelivers : host.Delivers coming)
    (hpayload : s.payload = []) (hfinished : s.finished = false)
    (hinbound : s.inbound = frame.encode ++ back)
    (hback : back ++ coming s.io = left.flatMap Framed.encode)
    (hreacts : Reacts host { s with inbound := back } frame.event t) :
    ∃ more later, frame :: left = more ++ later ∧ Reads coming (seen ++ more) later handed t ∧
      unread coming t < unread coming s := by
  obtain ⟨hdata, hevent⟩ | ⟨hping, hevent⟩ | ⟨hpong, hevent⟩ | ⟨hclose, _, _, hevent⟩ :=
    frame.event_cases
  · rw [hevent] at hreacts
    have hmoved : Moved host { s with inbound := back, payload := s.payload ++ frame.payload } t
        [] := by
      rw [show t = _ from hreacts]
      exact .refl _
    refine ⟨[frame], left, rfl, h.take hdelivers hpayload hfinished ?_ hinbound hback hmoved ?_ ?_⟩
    · rintro hclose
      rw [hclose] at hdata
      cases hdata
    · rw [hpayload, dataPayloads_singleton hdata, List.flatten_singleton, List.nil_append]
    · refine (payloadsOf_of_ne fun other hmem => ?_).symm
      rw [List.mem_singleton.mp hmem]
      rintro hping
      rw [hping] at hdata
      cases hdata
  · rw [hevent] at hreacts
    obtain ⟨mask, hmoved⟩ := hreacts
    refine ⟨[frame], left, rfl, h.take hdelivers hpayload hfinished (by simp [hping]) hinbound
      hback hmoved ?_ ?_⟩
    · rw [hpayload, dataPayloads_of_control (by simp [hping, OpCode.isControl])]
      rfl
    · rw [← hping, payloadsOf_singleton]
      rfl
  · rw [hevent] at hreacts
    have hmoved : Moved host { s with inbound := back, payload := s.payload } t [] := by
      rw [show t = _ from hreacts]
      exact .refl _
    refine ⟨[frame], left, rfl, h.take hdelivers hpayload hfinished (by simp [hpong]) hinbound
      hback hmoved ?_ ?_⟩
    · rw [hpayload, dataPayloads_of_control (by simp [hpong, OpCode.isControl])]
      rfl
    · exact (payloadsOf_of_ne (by simp [hpong])).symm
  · rw [hevent] at hreacts
    obtain ⟨hreads, hless⟩ := h.close hdelivers hfinished hclose hinbound hreacts
    exact ⟨[], frame :: left, rfl, by rwa [List.append_nil], hless⟩

theorem round (h : Reads coming seen left handed s) (hdelivers : host.Delivers coming)
    (hvalid : ∀ frame ∈ left, frame.Valid) (hpayload : s.payload = [])
    (hfinished : s.finished = false) (hround : Round host s t) :
    ∃ more later, left = more ++ later ∧ Reads coming (seen ++ more) later handed t ∧
      unread coming t < unread coming s := by
  obtain ⟨frame, later, back, rfl, hinbound, hback, htaken⟩ | ⟨hshort, hend⟩ :=
    poll_sent hvalid (h.sent hfinished)
  · cases hround with
    | taken hpoll hreacts =>
        rw [htaken] at hpoll
        cases hpoll
        exact h.reacts hdelivers hpayload hfinished hinbound hback hreacts
    | filled hpoll =>
        rw [htaken] at hpoll
        cases hpoll
  · cases hround with
    | taken hpoll =>
        rw [hshort] at hpoll
        cases hpoll
    | filled hpoll hanswer =>
        rw [hshort] at hpoll
        cases hpoll
        obtain ⟨hreads, hless⟩ := h.fill hdelivers hfinished hend hanswer
        exact ⟨[], left, rfl, by rwa [List.append_nil], hless⟩

theorem rounds {n : Nat} (h : Reads coming seen left handed s) (hdelivers : host.Delivers coming)
    (hvalid : ∀ frame ∈ left, frame.Valid) (hrounds : Rounds host n s t) :
    ∃ more later, left = more ++ later ∧ Reads coming (seen ++ more) later handed t ∧
      unread coming t + n ≤ unread coming s := by
  induction hrounds generalizing seen left with
  | refl s => exact ⟨[], left, rfl, by rwa [List.append_nil], Nat.le_refl _⟩
  | head hpayload hfinished hround _ ih =>
      obtain ⟨more, later, rfl, hreads, hless⟩ := h.round hdelivers hvalid hpayload hfinished hround
      obtain ⟨next, last, rfl, hlast, hle⟩ := ih hreads fun frame hmem =>
        hvalid frame (List.mem_append_right _ hmem)
      refine ⟨more ++ next, last, (List.append_assoc _ _ _).symm, ?_, by omega⟩
      rwa [← List.append_assoc]

/-- What is met of the frames does not stop a read; it only waits for the transport. -/
theorem halts {stop : Stop} (h : Reads coming seen left handed s)
    (hdelivers : host.Delivers coming) (hrandom : host.Random)
    (hvalid : ∀ frame ∈ left, frame.Valid) (hfinished : s.finished = false)
    (hhalts : Halts host s stop t) : Reads coming seen left handed t ∧ stop = .pending ∧
      (host.pollRead s.io readChunk).1 = .pending ∧ t.io = (host.pollRead s.io readChunk).2 := by
  cases hhalts with
  | invalid hpoll =>
      obtain ⟨frame, later, back, -, -, -, htaken⟩ | ⟨hshort, -⟩ :=
        poll_sent hvalid (h.sent hfinished)
      · rw [htaken] at hpoll
        cases hpoll
      · rw [hshort] at hpoll
        cases hpoll
  | unanswered _ hnot => exact absurd hrandom hnot
  | broken _ hanswer => exact absurd hanswer hdelivers.never_broken
  | waits hpoll hanswer =>
      obtain ⟨frame, later, back, -, -, -, htaken⟩ | ⟨hshort, -⟩ :=
        poll_sent hvalid (h.sent hfinished)
      · rw [htaken] at hpoll
        cases hpoll
      · rw [hshort] at hpoll
        cases hpoll
        refine ⟨⟨h.opened, h.data, h.pongs, fun _ => ?_, h.ended⟩, rfl, hanswer, rfl⟩
        dsimp only
        rw [hdelivers.waits hanswer]
        exact h.sent hfinished

theorem hands {remaining : Nat} {more : Octets} (h : Reads coming seen left handed s)
    (hhands : Hands remaining s more t) : Reads coming seen left (handed ++ more) t ∧
      (0 < remaining → more = [] → t = s ∧ s.payload = [] ∧ s.finished = true) := by
  cases hhands with
  | some hsome =>
      refine ⟨⟨h.opened, ?_, h.pongs, h.sent, h.ended⟩, fun hroom hempty => ?_⟩
      · rw [List.append_assoc, List.take_append_drop]
        exact h.data
      · obtain hzero | hnil := List.take_eq_nil_iff.mp hempty
        · omega
        · exact absurd hnil hsome
  | none hpayload hfinished =>
      rw [List.append_nil]
      exact ⟨h, fun _ _ => ⟨rfl, hpayload, hfinished⟩⟩

theorem first_data (h : Reads coming seen left handed s) :
    handed <+: (dataPayloads (beforeClose (seen ++ left))).flatten ∧
      payloadsOf .pong s.queued <+: payloadsOf .ping (beforeClose (seen ++ left)) := by
  rw [beforeClose_append h.opened, dataPayloads_append, List.flatten_append, ← h.data,
    payloadsOf_append, h.pongs, List.append_assoc]
  exact ⟨List.prefix_append _ _, List.prefix_append _ _⟩

theorem all_data (h : Reads coming seen left handed s) (hpayload : s.payload = [])
    (hfinished : s.finished = true) :
    handed = (dataPayloads (beforeClose (seen ++ left))).flatten ∧
      payloadsOf .pong s.queued = payloadsOf .ping (beforeClose (seen ++ left)) := by
  have hdata := h.data
  rw [hpayload, List.append_nil] at hdata
  rw [beforeClose_append h.opened, beforeClose_eq_nil (h.ended hfinished), List.append_nil]
  exact ⟨hdata, h.pongs⟩

theorem of_wrote {pushed : List Framed} (h : Reads coming seen left handed s)
    (hdelivers : host.Delivers coming) (hwrote : Wrote host s t pushed) :
    Reads coming seen left handed t :=
  h.of_moved hdelivers hwrote.1 (payloadsOf_of_ne fun frame hmem => by simp [hwrote.2 frame hmem])

theorem of_closed (h : Reads coming seen left handed s) (hdelivers : host.Delivers coming)
    (hclosed : Closed host s t) : Reads coming seen left handed t := by
  obtain ⟨-, hmoved⟩ | ⟨-, mask, hmoved⟩ := hclosed
  · exact h.of_moved hdelivers hmoved rfl
  · exact h.of_moved hdelivers hmoved rfl

end Reads

theorem wrote_pollWrite (host : Host T) (s : WsStream T) (buf : Octets) :
    ∃ pushed, Wrote host s (Computation.final (pollWrite host buf) s) pushed := by
  refine Ends.final (P := fun t => ∃ pushed, Wrote host s t pushed)
    ((pollWrite_ends buf).mono ?_ ?_)
  · rintro n t ⟨pushed, left, hwrote, -⟩
    exact ⟨pushed, hwrote⟩
  · rintro stop t ⟨⟨pushed, left, hwrote, -⟩, -⟩
    exact ⟨pushed, hwrote⟩

theorem wrote_pollFlush (host : Host T) (s : WsStream T) :
    ∃ pushed, Wrote host s (Computation.final (pollFlush host) s) pushed := by
  refine Ends.final (P := fun t => ∃ pushed, Wrote host s t pushed) (pollFlush_ends.mono ?_ ?_)
  · rintro _ t ⟨pushed, -, -, hwrote, -⟩
    exact ⟨pushed, hwrote⟩
  · rintro stop t ⟨-, ⟨pushed, -, -, hwrote, -⟩ | ⟨⟨pushed, left, hwrote, -⟩, -⟩⟩
    · exact ⟨pushed, hwrote⟩
    · exact ⟨pushed, hwrote⟩

end WsStream

/-- The frames before some point are dealt with. -/
def Trace.Delivered (coming : T → Octets) (frames : List Framed) (trace : Trace T) : Prop :=
  ∃ seen left, frames = seen ++ left ∧
    WsStream.Reads coming seen left trace.handed trace.stream

namespace Trace.Delivered

open WsStream

variable {trace : Trace T} {frames : List Framed}

theorem new {io : T} {side : Side} {inbound : Octets}
    (hsent : inbound ++ coming io = frames.flatMap Framed.encode) :
    (Trace.new io side inbound).Delivered coming frames :=
  ⟨[], frames, rfl, by simp, rfl, rfl, fun _ => hsent, nofun⟩

theorem read (h : trace.Delivered coming frames) (hdelivers : host.Delivers coming)
    (hrandom : host.Random) (hvalid : ∀ frame ∈ frames, frame.Valid) (remaining fuel : Nat) :
    Ends (pollRead host remaining fuel) trace.stream
      (fun more t => Trace.Delivered coming frames
          { trace with stream := t, handed := trace.handed ++ more } ∧
        (0 < remaining → more = [] → trace.handed = (dataPayloads (beforeClose frames)).flatten ∧
          payloadsOf .pong t.queued = payloadsOf .ping (beforeClose frames)))
      (fun stop t => Trace.Delivered coming frames { trace with stream := t } ∧
        (stop = .pending ∧ (∃ io, (host.pollRead io readChunk).1 = .pending ∧
            t.io = (host.pollRead io readChunk).2) ∨
          stop = .exhausted ∧ fuel ≤ unread coming trace.stream)) := by
  obtain ⟨seen, left, rfl, hreads⟩ := h
  have hleft : ∀ frame ∈ left, frame.Valid := fun frame hmem =>
    hvalid frame (List.mem_append_right _ hmem)
  refine pollRead_ends.mono ?_ ?_
  · rintro more t ⟨n, u, hrounds, hhands⟩
    obtain ⟨next, later, rfl, hnext, -⟩ := hreads.rounds hdelivers hleft hrounds
    obtain ⟨hthen, hend⟩ := hnext.hands hhands
    rw [← List.append_assoc]
    refine ⟨⟨_, later, rfl, hthen⟩, fun hroom hempty => ?_⟩
    obtain ⟨rfl, hpayload, hfinished⟩ := hend hroom hempty
    exact hnext.all_data hpayload hfinished
  · rintro stop t ⟨n, u, hrounds, hstop⟩
    obtain ⟨next, later, rfl, hnext, hle⟩ := hreads.rounds hdelivers hleft hrounds
    rw [← List.append_assoc]
    obtain ⟨hfinished, hhalts⟩ | ⟨rfl, rfl, rfl⟩ := hstop
    · obtain ⟨hthen, rfl, hanswer, hio⟩ := hnext.halts hdelivers hrandom
        (fun frame hmem => hleft frame (List.mem_append_right _ hmem)) hfinished hhalts
      exact ⟨⟨_, later, rfl, hthen⟩, .inl ⟨rfl, _, hanswer, hio⟩⟩
    · exact ⟨⟨_, later, rfl, hnext⟩, .inr ⟨rfl, by omega⟩⟩

theorem act (h : trace.Delivered coming frames) (hdelivers : host.Delivers coming)
    (hrandom : host.Random) (hvalid : ∀ frame ∈ frames, frame.Valid) (act : Act) :
    (trace.act host act).Delivered coming frames := by
  cases act with
  | read remaining fuel =>
      have hends := h.read hdelivers hrandom hvalid remaining fuel
      rw [Trace.act]
      cases hrun : pollRead host remaining fuel trace.stream with
      | ok more t => exact (hends.ok hrun).1
      | error stop t => exact (hends.error hrun).1
  | write buf =>
      obtain ⟨seen, left, hframes, hreads⟩ := h
      obtain ⟨pushed, hwrote⟩ := wrote_pollWrite host trace.stream buf
      rw [Trace.act]
      cases hrun : pollWrite host buf trace.stream with
      | ok n t =>
          rw [Computation.final_of_ok hrun] at hwrote
          exact ⟨seen, left, hframes, hreads.of_wrote hdelivers hwrote⟩
      | error stop t =>
          rw [Computation.final_of_error hrun] at hwrote
          exact ⟨seen, left, hframes, hreads.of_wrote hdelivers hwrote⟩
  | flush =>
      obtain ⟨seen, left, hframes, hreads⟩ := h
      obtain ⟨pushed, hwrote⟩ := wrote_pollFlush host trace.stream
      exact ⟨seen, left, hframes, hreads.of_wrote hdelivers hwrote⟩
  | shutdown =>
      obtain ⟨seen, left, hframes, hreads⟩ := h
      obtain ⟨u, ⟨pushed, -, -, hwrote, -⟩, hclosed⟩ := closed_pollShutdown hrandom trace.stream
      exact ⟨seen, left, hframes, (hreads.of_wrote hdelivers hwrote).of_closed hdelivers hclosed⟩

end Trace.Delivered

/-- Over a transport that brings a peer's frames cut in any way, what is handed over is the
data before the first close and what is answered are the pings before it.  A read only stops
where the transport has to wait, and an end of file comes when all of it has been. -/
theorem reads_what_is_framed (hrandom : host.Random) (hdelivers : host.Delivers coming)
    {frames : List Framed} (hvalid : ∀ frame ∈ frames, frame.Valid) {io : T} (side : Side)
    {inbound : Octets} (hsent : inbound ++ coming io = frames.flatMap Framed.encode)
    {trace : Trace T}
    (hrun : Run (Trace.act host) (fun _ _ => True) (Trace.new io side inbound) trace) :
    trace.handed <+: (dataPayloads (beforeClose frames)).flatten ∧
    payloadsOf .pong trace.stream.queued <+: payloadsOf .ping (beforeClose frames) ∧
    ∀ {remaining fuel : Nat}, 0 < remaining → WsStream.unread coming trace.stream < fuel →
      Ends (WsStream.pollRead host remaining fuel) trace.stream
        (fun more t => more = [] →
          trace.handed = (dataPayloads (beforeClose frames)).flatten ∧
          payloadsOf .pong t.queued = payloadsOf .ping (beforeClose frames))
        (fun stop t => stop = .pending ∧ ∃ io, (host.pollRead io readChunk).1 = .pending ∧
          t.io = (host.pollRead io readChunk).2) := by
  have hdelivered : trace.Delivered coming frames :=
    hrun.preserves (fun _ h => h.act hdelivers hrandom hvalid _) (.new hsent)
  refine ⟨?_, ?_, fun {remaining fuel} hroom hfuel => ?_⟩
  · obtain ⟨seen, left, rfl, hreads⟩ := hdelivered
    exact hreads.first_data.1
  · obtain ⟨seen, left, rfl, hreads⟩ := hdelivered
    exact hreads.first_data.2
  · refine (hdelivered.read hdelivers hrandom hvalid remaining fuel).mono ?_ ?_
    · exact fun more t h => h.2 hroom
    · rintro stop t ⟨-, hpending | ⟨-, hlow⟩⟩
      · exact hpending
      · omega

theorem delivers_trickle : trickle.Delivers id where
  read rest room hroom := by
    refine .inr ⟨_, rfl, (List.take_append_drop _ rest).symm, fun hempty => ?_⟩
    obtain hzero | hnil := List.take_eq_nil_iff.mp hempty
    · omega
    · exact hnil
  apart hcall := by
    cases hcall <;> rfl

/-- A text in two pieces with a ping between them, of which three octets came with the
handshake. -/
def fragments : List Framed :=
  [⟨.text, false, some trickleMask, octets "ab"⟩, ⟨.ping, true, none, octets "x"⟩,
    ⟨.continuation, true, none, octets "c"⟩, ⟨.close, true, none, []⟩]

/-- The text has been read, an octet at a time. -/
def textRead : Trace Octets :=
  [Act.read 1 100, .read 1 100, .read 1 100].foldl (Trace.act trickle)
    (Trace.new ((fragments.flatMap Framed.encode).drop 3) .client
      ((fragments.flatMap Framed.encode).take 3))

theorem reads_trickle :
    ∃ last, WsStream.pollRead trickle 1 100 textRead.stream = .ok [] last ∧
      textRead.handed = octets "abc" ∧ payloadsOf .pong last.queued = [octets "x"] := by
  have hsent : (fragments.flatMap Framed.encode).take 3 ++
      id ((fragments.flatMap Framed.encode).drop 3) = fragments.flatMap Framed.encode :=
    List.take_append_drop 3 _
  have hreads : Run (Trace.act trickle) (fun _ _ => True)
      (Trace.new ((fragments.flatMap Framed.encode).drop 3) .client
        ((fragments.flatMap Framed.encode).take 3)) textRead :=
    Run.of_list _ _ _
  have hfuel : WsStream.unread id textRead.stream < 100 := by decide +kernel
  have hdone : (Computation.outcome (WsStream.pollRead trickle 1 100)
      textRead.stream).2.toOption = some [] := by
    decide +kernel
  generalize textRead = trace at hreads hfuel hdone ⊢
  obtain ⟨last, hlast⟩ := Computation.exists_ok hdone
  obtain ⟨-, -, hends⟩ := reads_what_is_framed random_trickle delivers_trickle (by decide) .client
    hsent hreads
  obtain ⟨hread, hpongs⟩ := (hends Nat.one_pos hfuel).ok hlast rfl
  exact ⟨last, hlast, hread.trans (by decide), hpongs.trans (by decide)⟩

end Vortice.Ws
