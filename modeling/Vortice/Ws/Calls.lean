import Mathlib.Logic.Relation
import Vortice.Proto.Alignment
import Vortice.Ws.Stream

/-!
# What the methods of the stream do

Each method is described once, by the frames that it queues and by what else it changes,
whether it returns or stops.  A trace is a stream with what its callers have been told.
-/

namespace Vortice.Ws

open Vortice.Foundation

variable {T : Type}

/-- The transport waits or takes some of what it is offered, and does not fail. -/
def Host.Accepts (host : Host T) : Prop :=
  ∀ (io : T) (offered : Octets), offered ≠ [] →
    (host.pollWrite io offered).1 = .pending ∨ ∃ written, 0 < written ∧
      (host.pollWrite io offered).1 = .ready (.ok written)

/-- There is randomness for every masking key. -/
def Host.Random (host : Host T) : Prop := ∀ io, (host.maskingKey io).1.isSome

/-- A call of the transport that reads nothing. -/
inductive Host.Call (host : Host T) : T → T → Prop where
  | write (io : T) (offered : Octets) : host.Call io (host.pollWrite io offered).2
  | flush (io : T) : host.Call io (host.pollFlush io).2
  | shutdown (io : T) : host.Call io (host.pollShutdown io).2
  | mask (io : T) : host.Call io (host.maskingKey io).2

/-- Any number of them. -/
def Host.Works (host : Host T) : T → T → Prop := Relation.ReflTransGen host.Call

namespace WsStream

variable {host : Host T} {s t u : WsStream T} {frames later : List Framed}

/-- Frames are queued, and octets go to the transport; nothing else is touched. -/
structure Moved (host : Host T) (s t : WsStream T) (frames : List Framed) : Prop where
  state : t = { s with
    io := t.io, outbound := t.outbound, drained := t.drained
    queued := s.queued ++ frames }
  io : host.Works s.io t.io
  wire : t.drained ++ t.outbound = s.drained ++ s.outbound ++ frames.flatMap Framed.encode

namespace Moved

theorem refl (s : WsStream T) : Moved host s s [] := by
  refine ⟨?_, .refl, ?_⟩
  · rw [List.append_nil]
  · rw [List.flatMap_nil, List.append_nil]

theorem queued (h : Moved host s t frames) : t.queued = s.queued ++ frames := by rw [h.1]
theorem side (h : Moved host s t frames) : t.side = s.side := by rw [h.1]
theorem inbound (h : Moved host s t frames) : t.inbound = s.inbound := by rw [h.1]
theorem payload (h : Moved host s t frames) : t.payload = s.payload := by rw [h.1]
theorem partialTail (h : Moved host s t frames) : t.partialTail = s.partialTail := by rw [h.1]
theorem finished (h : Moved host s t frames) : t.finished = s.finished := by rw [h.1]
theorem closing (h : Moved host s t frames) : t.closing = s.closing := by rw [h.1]

theorem trans (h : Moved host s t frames) (h' : Moved host t u later) :
    Moved host s u (frames ++ later) := by
  refine ⟨?_, h.io.trans h'.io, ?_⟩
  · rw [h'.state, h.state, List.append_assoc]
  · rw [h'.wire, h.wire, List.flatMap_append, List.append_assoc]

end Moved

/-! ## The transport -/

theorem ready_ends {α : Type} (answer : Poll α) :
    Ends (ready answer) s (fun result t => t = s ∧ answer = .ready (.ok result))
      (fun stop t => t = s ∧ (stop = .pending ∧ answer = .pending ∨
        ∃ error, stop = .failed error ∧ answer = .ready (.error error))) := by
  match answer with
  | .pending => exact .throw ⟨rfl, .inl ⟨rfl, rfl⟩⟩
  | .ready (.error error) => exact .throw ⟨rfl, .inr ⟨error, rfl, rfl⟩⟩
  | .ready (.ok result) => exact .pure ⟨rfl, rfl⟩

theorem Moved.of_call {io : T} (h : host.Call s.io io) : Moved host s { s with io } [] :=
  ⟨by rw [List.append_nil], .single h, by rw [List.flatMap_nil, List.append_nil]⟩

theorem nextMask_ends : Ends (nextMask host) s (fun _ t => Moved host s t [])
    (fun stop t => Moved host s t [] ∧ stop = .failed .noRandomness ∧ ¬ host.Random) := by
  rw [nextMask]
  refine .get_bind ?_
  split
  · refine .set_bind ?_
    split
    · exact .pure (.of_call (.mask _))
    · rename_i hkey
      refine .throw ⟨.of_call (.mask _), rfl, fun hrandom => ?_⟩
      have hsome := hrandom s.io
      rw [hkey] at hsome
      cases hsome
  · exact .pure (.refl s)

theorem queue_ends (opcode : OpCode) (payload : Octets) : Ends (queue host opcode payload) s
    (fun _ t => ∃ mask, Moved host s t [⟨opcode, true, mask, payload⟩])
    (fun stop t => Moved host s t [] ∧ stop = .failed .noRandomness ∧ ¬ host.Random) := by
  rw [queue]
  refine .bind (nextMask_ends.mono (fun mask t hmoved => ?_) fun _ _ h => h)
  refine .modify ⟨mask, ?_, hmoved.io, ?_⟩
  · rw [hmoved.state]
    simp
  · have hwire := hmoved.wire
    rw [List.flatMap_nil, List.append_nil] at hwire
    rw [← List.append_assoc, hwire, List.flatMap_singleton]
    rfl

theorem pollDrainLoop_ends {fuel : Nat} (hfuel : s.outbound.length < fuel) :
    Ends (pollDrainLoop host fuel) s (fun _ t => Moved host s t [] ∧ t.outbound = [])
      (fun stop t => Moved host s t [] ∧ stop ≠ .exhausted ∧ (host.Accepts → stop = .pending)) := by
  induction fuel generalizing s with
  | zero => omega
  | succ fuel ih =>
      rw [pollDrainLoop]
      refine .get_bind (.ite (fun hempty => .pure ⟨.refl s, hempty⟩) fun hsome => ?_)
      refine .set_bind ?_
      have hmoved : Moved host s _ [] := .of_call (.write s.io s.outbound)
      refine .bind ((ready_ends _).mono ?_ ?_)
      · rintro written t ⟨rfl, hanswer⟩
        have hwritten : host.Accepts → 0 < written := by
          intro haccepts
          obtain hpending | ⟨count, hpos, hcount⟩ := haccepts s.io s.outbound hsome
          · rw [hpending] at hanswer
            cases hanswer
          · rw [hcount] at hanswer
            cases hanswer
            exact hpos
        refine .ite (fun hzero => .throw ⟨hmoved, nofun, fun haccepts => ?_⟩) fun hzero => ?_
        · exact absurd hzero (Nat.pos_iff_ne_zero.mp (hwritten haccepts))
        · refine .modify_bind ((ih ?_).mono ?_ ?_)
          · have hpos := List.length_pos_iff.mpr hsome
            simp only [List.length_drop]
            omega
          all_goals
            intro _ t h
            have hnext : Moved host { s with io := (host.pollWrite s.io s.outbound).2 }
                { s with
                  io := (host.pollWrite s.io s.outbound).2
                  outbound := s.outbound.drop written
                  drained := s.drained ++ s.outbound.take written } [] :=
              ⟨by simp, .refl, by simp⟩
            exact ⟨hmoved.trans (hnext.trans h.1), h.2⟩
      · rintro stop t ⟨rfl, ⟨rfl, -⟩ | ⟨error, rfl, hanswer⟩⟩
        · exact ⟨hmoved, nofun, fun _ => rfl⟩
        · refine ⟨hmoved, nofun, fun haccepts => ?_⟩
          obtain hpending | ⟨count, -, hcount⟩ := haccepts s.io s.outbound hsome
          · rw [hpending] at hanswer
            cases hanswer
          · rw [hcount] at hanswer
            cases hanswer

theorem pollDrain_ends : Ends (pollDrain host) s (fun _ t => Moved host s t [] ∧ t.outbound = [])
    (fun stop t => Moved host s t [] ∧ stop ≠ .exhausted ∧ (host.Accepts → stop = .pending)) := by
  rw [pollDrain]
  exact .get_bind (pollDrainLoop_ends (Nat.lt_succ_self _))

theorem tryDrain_ends : Ends (tryDrain host) s
    (fun _ t => Moved host s t []) (fun _ _ => False) := by
  refine .of_ok rfl (Ends.final (P := fun t => Moved host s t []) ?_)
  exact pollDrain_ends.mono (fun _ _ h => h.1) fun _ _ h => h.1

theorem drainOrWait_ends : Ends (drainOrWait host) s (fun _ t => Moved host s t [])
    (fun stop t => Moved host s t [] ∧ stop ≠ .exhausted ∧ ¬ host.Accepts) := by
  have hdrain : Ends (pollDrain host) s _ _ := pollDrain_ends
  cases hrun : pollDrain host s with
  | ok _ t =>
      refine .of_ok (a := ()) (t := t) ?_ (hdrain.ok hrun).1
      rw [drainOrWait, hrun]
  | error stop t =>
      obtain ⟨hmoved, hnever, haccepts⟩ := hdrain.error hrun
      cases stop with
      | pending =>
          refine .of_ok (a := ()) (t := t) ?_ hmoved
          rw [drainOrWait, hrun]
      | failed error =>
          refine .of_error (e := .failed error) (t := t) ?_ ⟨hmoved, hnever, fun h => ?_⟩
          · rw [drainOrWait, hrun]
          · cases haccepts h
      | exhausted => exact absurd rfl hnever

/-! ## Writing -/

/-- Binary frames are queued, and what is held back may change. -/
def Wrote (host : Host T) (s t : WsStream T) (frames : List Framed) : Prop :=
  Moved host { s with partialTail := t.partialTail } t frames ∧
    ∀ frame ∈ frames, frame.opcode = .binary

namespace Wrote

theorem refl (s : WsStream T) : Wrote host s s [] := ⟨.refl s, by simp⟩

theorem trans (h : Wrote host s t frames) (h' : Wrote host t u later) :
    Wrote host s u (frames ++ later) := by
  refine ⟨?_, fun frame hmem => (List.mem_append.mp hmem).elim (h.2 frame) (h'.2 frame)⟩
  have hsame : Moved host { s with partialTail := u.partialTail }
      { t with partialTail := u.partialTail } frames := by
    refine ⟨?_, h.1.io, h.1.wire⟩
    rw [h.1.state]
  exact hsame.trans h'.1

theorem of_queued {piece rest : Octets} {mask : Option Mask}
    (h : Moved host { s with partialTail := rest } t [⟨.binary, true, mask, piece⟩]) :
    Wrote host s t [⟨.binary, true, mask, piece⟩] := by
  refine ⟨?_, by simp⟩
  rw [h.partialTail]
  exact h

theorem of_rest {rest : Octets} (h : Moved host { s with partialTail := rest } t []) :
    Wrote host s t [] := by
  refine ⟨?_, by simp⟩
  rw [h.partialTail]
  exact h

theorem of_moved (h : Moved host s t []) : Wrote host s t [] := of_rest h

end Wrote

/-- Frames measured off `src` are queued, whatever else is done. -/
def Spills (host : Host T) (s : WsStream T) (src : Octets) (t : WsStream T) : Prop :=
  ∃ frames left, Wrote host s t frames ∧ Proto.Cut src (frames.map Framed.payload) left

namespace Spills

variable {src : Octets}

theorem of_rest {rest : Octets} (h : Moved host { s with partialTail := rest } t []) :
    Spills host s src t := ⟨[], src, .of_rest h, .refl src⟩

theorem step {n : Nat} {mask : Option Mask} (hsome : Proto.frameBoundary src = some n)
    (hwrote : Wrote host s t [⟨.binary, true, mask, src.take n⟩])
    (h : Spills host t (src.drop n) u) : Spills host s src u := by
  obtain ⟨frames, left, hlater, hcut⟩ := h
  exact ⟨_, left, hwrote.trans hlater, .step hsome hcut⟩

theorem then_moved (h : Spills host s src t) (h' : Moved host t u []) : Spills host s src u := by
  obtain ⟨frames, left, hwrote, hcut⟩ := h
  have hall := hwrote.trans (.of_moved h')
  rw [List.append_nil] at hall
  exact ⟨frames, left, hall, hcut⟩

theorem after (h : Wrote host s t []) (h' : Spills host t src u) : Spills host s src u := by
  obtain ⟨frames, left, hwrote, hcut⟩ := h'
  exact ⟨frames, left, h.trans hwrote, hcut⟩

end Spills

theorem queueWholeFramesLoop_ends {fuel : Nat} (queued : Nat)
    (hfuel : s.partialTail.length < fuel) : Ends (queueWholeFramesLoop host fuel queued) s
      (fun _ t => ∃ frames, Wrote host s t frames ∧
        Proto.Cut s.partialTail (frames.map Framed.payload) t.partialTail ∧
        Proto.frameBoundary t.partialTail = none)
      (fun stop t => Spills host s s.partialTail t ∧ stop ≠ .exhausted ∧ ¬ host.Random) := by
  induction fuel generalizing s queued with
  | zero => omega
  | succ fuel ih =>
      rw [queueWholeFramesLoop]
      refine .get_bind ?_
      split
      · rename_i hnone
        exact .pure ⟨[], .refl s, .refl _, hnone⟩
      · rename_i end' hsome
        obtain ⟨hpos, hlong⟩ := Proto.Decoder.frameBoundary_le hsome
        refine .set_bind (.bind ((queue_ends _ _).mono ?_ ?_))
        · rintro _ t ⟨mask, hmoved⟩
          have hwrote := Wrote.of_queued hmoved
          refine (ih _ ?_).mono ?_ ?_
          · rw [hmoved.partialTail, List.length_drop]
            omega
          · rintro _ u ⟨frames, hlater, hcut, hnone⟩
            refine ⟨_, hwrote.trans hlater, .step hsome ?_, hnone⟩
            rwa [hmoved.partialTail] at hcut
          · rintro stop u ⟨hspills, hstop⟩
            rw [hmoved.partialTail] at hspills
            exact ⟨.step hsome hwrote hspills, hstop⟩
        · rintro stop t ⟨hmoved, rfl, hrandom⟩
          exact ⟨.of_rest hmoved, nofun, hrandom⟩

theorem queueWholeFrames_ends : Ends (queueWholeFrames host) s
    (fun _ t => ∃ frames, Wrote host s t frames ∧
      Proto.Cut s.partialTail (frames.map Framed.payload) t.partialTail ∧
      Proto.frameBoundary t.partialTail = none)
    (fun stop t => Spills host s s.partialTail t ∧ stop ≠ .exhausted ∧ ¬ host.Random) := by
  rw [queueWholeFrames]
  exact .get_bind (queueWholeFramesLoop_ends _ (Nat.lt_succ_self _))

/-- Everything held back is queued, in whole frames as far as there are any. -/
def Flushed (host : Host T) (s t : WsStream T) : Prop :=
  ∃ frames whole left, Wrote host s t frames ∧ t.partialTail = [] ∧
    Proto.Cut s.partialTail whole left ∧ Proto.frameBoundary left = none ∧
    frames.map Framed.payload = if left = [] then whole else whole ++ [left]

theorem flushPartial_ends : Ends (flushPartial host) s (fun _ t => Flushed host s t)
    (fun stop t => Spills host s s.partialTail t ∧ stop ≠ .exhausted ∧ ¬ host.Random) := by
  rw [flushPartial]
  refine .bind (queueWholeFrames_ends.mono ?_ fun _ _ h => h)
  rintro _ t ⟨frames, hwrote, hcut, hnone⟩
  refine .get_bind (.ite (fun hsome => ?_) fun hempty => ?_)
  · refine .set_bind ((queue_ends _ _).mono ?_ ?_)
    · rintro _ u ⟨mask, hmoved⟩
      refine ⟨_, _, t.partialTail, hwrote.trans (.of_queued hmoved), hmoved.partialTail, hcut,
        hnone, ?_⟩
      rw [if_neg hsome, List.map_append]
      rfl
    · rintro stop u ⟨hmoved, rfl, hrandom⟩
      have hall := hwrote.trans (.of_rest hmoved)
      rw [List.append_nil] at hall
      exact ⟨⟨frames, _, hall, hcut⟩, nofun, hrandom⟩
  · rw [ne_eq, not_not] at hempty
    exact .pure ⟨frames, _, t.partialTail, hwrote, hempty, hcut, hnone, (if_pos hempty).symm⟩

/-- Of `buf` the first `n` octets are taken: they are queued in whole frames, or held back
behind what was. -/
def Takes (host : Host T) (s : WsStream T) (buf : Octets) (n : Nat) (t : WsStream T) : Prop :=
  ∃ frames left, Wrote host s t frames ∧ n ≤ buf.length ∧
    Proto.Cut (s.partialTail ++ buf) (frames.map Framed.payload) left ∧
    t.partialTail <+: left ∧
    (frames.map Framed.payload).flatten ++ t.partialTail = s.partialTail ++ buf.take n ∧
    (Proto.frameBoundary s.partialTail = none → Proto.frameBoundary t.partialTail = none)

theorem frameBoundary_nil : Proto.frameBoundary [] = none := rfl

theorem takeFrames_done {buf : Octets} (fuel queued : Nat) :
    takeFrames host buf (fuel + 1) buf.length queued s = .ok buf.length s := by
  rw [takeFrames, if_neg (fun h => Nat.lt_irrefl _ h.1)]
  rfl

theorem takeFrames_ends {buf : Octets} {fuel taken : Nat} (queued : Nat)
    (hfuel : buf.length < fuel + taken) (htaken : taken ≤ buf.length)
    (hempty : s.partialTail = []) : Ends (takeFrames host buf fuel taken queued) s
      (fun n t => ∃ frames left, Wrote host s t frames ∧ taken ≤ n ∧ n ≤ buf.length ∧
        Proto.Cut (buf.drop taken) (frames.map Framed.payload) left ∧
        (t.partialTail = [] ∧ left = buf.drop n ∨
          n = buf.length ∧ t.partialTail = left ∧ Proto.frameBoundary left = none))
      (fun stop t => Spills host s (buf.drop taken) t ∧ stop ≠ .exhausted ∧ ¬ host.Random) := by
  induction fuel generalizing s taken queued with
  | zero => omega
  | succ fuel ih =>
      rw [takeFrames]
      refine .ite (fun hmore => ?_) fun _ =>
        .pure ⟨[], _, .refl s, Nat.le_refl _, htaken, .refl _, .inl ⟨hempty, rfl⟩⟩
      dsimp only
      split
      · rename_i end' hsome
        obtain ⟨hpos, hlong⟩ := Proto.Decoder.frameBoundary_le hsome
        rw [List.length_drop] at hlong
        refine .bind ((queue_ends _ _).mono ?_ ?_)
        · rintro _ t ⟨mask, hmoved⟩
          have hwrote := Wrote.of_queued hmoved
          refine (ih _ (by omega) (by omega) (hmoved.partialTail.trans hempty)).mono ?_ ?_
          · rintro n u ⟨frames, left, hlater, hle, hn, hcut, hleft⟩
            refine ⟨_, left, hwrote.trans hlater, by omega, hn, .step hsome ?_, hleft⟩
            rwa [List.drop_drop]
          · rintro stop u ⟨hspills, hstop⟩
            rw [← List.drop_drop] at hspills
            exact ⟨.step hsome hwrote hspills, hstop⟩
        · rintro stop t ⟨hmoved, rfl, hrandom⟩
          exact ⟨.of_rest hmoved, nofun, hrandom⟩
      · rename_i hnone
        refine .modify_bind ?_
        cases fuel with
        | zero => omega
        | succ fuel =>
            refine .of_ok (takeFrames_done fuel queued) ⟨[], buf.drop taken, ?_, hmore.1.le,
              Nat.le_refl _, .refl _, .inr ⟨rfl, ?_, hnone⟩⟩
            · exact .of_rest (.refl _)
            · dsimp only
              rw [hempty, List.nil_append]

theorem takeBuffer_ends (buf : Octets) : Ends (takeBuffer host buf) s
    (fun n t => Takes host s buf n t)
    (fun stop t => Spills host s (s.partialTail ++ buf) t ∧ stop ≠ .exhausted ∧
      ¬ host.Random) := by
  rw [takeBuffer]
  refine .get_bind (.ite (fun hempty => ?_) fun hsome => .modify_bind ?_)
  · rw [hempty, List.nil_append]
    refine (takeFrames_ends 0 (Nat.lt_succ_self _) (Nat.zero_le _) hempty).mono ?_ fun _ _ h => h
    rintro n t ⟨frames, left, hwrote, -, hn, hcut, hleft⟩
    have hflatten := hcut.flatten_append
    rw [List.drop_zero] at hcut hflatten
    refine ⟨frames, left, hwrote, hn, by rwa [hempty, List.nil_append], ?_, ?_, fun _ => ?_⟩
    · obtain ⟨hnil, -⟩ | ⟨-, hsame, -⟩ := hleft
      · rw [hnil]
        exact List.nil_prefix
      · rw [hsame]
    · rw [hempty, List.nil_append]
      obtain ⟨hnil, rfl⟩ | ⟨rfl, hsame, -⟩ := hleft
      · rw [hnil, List.append_nil]
        exact List.append_cancel_right (hflatten.trans (List.take_append_drop n buf).symm)
      · rw [hsame, hflatten, List.take_length]
    · obtain ⟨hnil, -⟩ | ⟨-, hsame, hnone⟩ := hleft
      · rw [hnil]
        exact frameBoundary_nil
      · rw [hsame]
        exact hnone
  · have hheld : Wrote host s { s with partialTail := s.partialTail ++ buf } [] :=
      .of_rest (.refl _)
    refine .bind (queueWholeFrames_ends.mono ?_ ?_)
    · rintro queued t ⟨frames, hwrote, hcut, hnone⟩
      refine .of_ok (takeFrames_done _ _) ⟨_, t.partialTail, hheld.trans hwrote, Nat.le_refl _,
        hcut, List.prefix_rfl, ?_, fun _ => hnone⟩
      rw [List.take_length]
      exact hcut.flatten_append
    · rintro stop t ⟨hspills, hstop⟩
      exact ⟨.after hheld hspills, hstop⟩

theorem makeRoom_ends : Ends (makeRoom host 2) s (fun _ t => Moved host s t [])
    (fun stop t => Moved host s t [] ∧ stop ≠ .exhausted ∧ (host.Accepts → stop = .pending)) := by
  rw [makeRoom]
  refine .get_bind (.ite (fun _ => .bind (pollDrain_ends.mono ?_ fun _ _ h => h))
    fun _ => .pure (.refl s))
  rintro _ t ⟨hmoved, hempty⟩
  rw [makeRoom]
  refine .get_bind (.ite (fun hfull => ?_) fun _ => .pure hmoved)
  rw [hempty] at hfull
  cases hfull

theorem Wrote.of_drained (h : Moved host s t []) (h' : Wrote host t u frames) :
    Wrote host s u frames :=
  (Wrote.of_moved h).trans h'

theorem pollWrite_ends (buf : Octets) : Ends (pollWrite host buf) s
    (fun n t => Takes host s buf n t)
    (fun stop t => Spills host s (s.partialTail ++ buf) t ∧ stop ≠ .exhausted ∧
      (Moved host s t [] ∧ stop = .pending ∨ ¬ (host.Random ∧ host.Accepts))) := by
  rw [pollWrite]
  refine .ite (fun hempty => .pure ?_) fun hsome => ?_
  · refine ⟨[], s.partialTail ++ buf, .refl s, Nat.zero_le _, .refl _, List.prefix_append _ _,
      ?_, id⟩
    rw [List.take_zero, List.append_nil]
    rfl
  · refine .bind (makeRoom_ends.mono ?_ ?_)
    · intro _ t hmoved
      refine .bind ((takeBuffer_ends buf).mono ?_ ?_)
      · rintro n u ⟨frames, left, hwrote, hn, hcut, hle, hflatten, hnone⟩
        refine .bind (drainOrWait_ends.mono (fun _ v hdrained => .pure ?_) ?_)
        · have hsame := hdrained.partialTail
          have hall := (Wrote.of_drained hmoved hwrote).trans (.of_moved hdrained)
          rw [List.append_nil] at hall
          rw [hmoved.partialTail] at hcut hflatten hnone
          rw [← hsame] at hle hflatten hnone
          exact ⟨frames, left, hall, hn, hcut, hle, hflatten, hnone⟩
        · rintro stop v ⟨hdrained, hstop, haccepts⟩
          rw [← hmoved.partialTail]
          exact ⟨.after (.of_moved hmoved)
            (Spills.then_moved ⟨frames, left, hwrote, hcut⟩ hdrained),
            hstop, .inr fun h => haccepts h.2⟩
      · rintro stop u ⟨hspills, hstop, hrandom⟩
        rw [← hmoved.partialTail]
        exact ⟨.after (.of_moved hmoved) hspills, hstop, .inr fun h => hrandom h.1⟩
    · rintro stop t ⟨hmoved, hstop, haccepts⟩
      refine ⟨.of_rest hmoved, hstop, ?_⟩
      by_cases h : host.Accepts
      · exact .inl ⟨hmoved, haccepts h⟩
      · exact .inr fun hboth => h hboth.2

theorem Flushed.then_moved (h : Flushed host s t) (h' : Moved host t u []) : Flushed host s u := by
  obtain ⟨frames, whole, left, hwrote, hempty, hcut⟩ := h
  have hall := hwrote.trans (.of_moved h')
  rw [List.append_nil] at hall
  exact ⟨frames, whole, left, hall, h'.partialTail.trans hempty, hcut⟩

theorem answer_ends {α : Type} {answer : Poll α × T} (hcall : host.Call s.io answer.2) :
    Ends (do set { s with io := answer.2 }; ready answer.1 : StreamM T α) s
      (fun _ t => Moved host s t []) (fun stop t => Moved host s t [] ∧ stop ≠ .exhausted) := by
  refine .set_bind ((ready_ends _).mono ?_ ?_)
  · rintro _ t ⟨rfl, -⟩
    exact Moved.of_call hcall
  · rintro stop t ⟨rfl, hstop⟩
    refine ⟨Moved.of_call hcall, ?_⟩
    obtain ⟨rfl, -⟩ | ⟨error, rfl, -⟩ := hstop <;> exact nofun

theorem pollFlush_ends : Ends (pollFlush host) s (fun _ t => Flushed host s t)
    (fun stop t => stop ≠ .exhausted ∧
      (Flushed host s t ∨ Spills host s s.partialTail t ∧ ¬ host.Random)) := by
  rw [pollFlush]
  refine .bind (flushPartial_ends.mono ?_ ?_)
  · intro _ t hflushed
    refine .bind (pollDrain_ends.mono ?_ ?_)
    · rintro _ u ⟨hdrained, -⟩
      refine .get_bind ((answer_ends (.flush _)).mono ?_ ?_)
      · exact fun _ v hmoved => (hflushed.then_moved hdrained).then_moved hmoved
      · rintro stop v ⟨hmoved, hstop⟩
        exact ⟨hstop, .inl ((hflushed.then_moved hdrained).then_moved hmoved)⟩
    · rintro stop u ⟨hdrained, hstop, -⟩
      exact ⟨hstop, .inl (hflushed.then_moved hdrained)⟩
  · rintro stop t ⟨hwrote, hstop, hrandom⟩
    exact ⟨hstop, .inr ⟨hwrote, hrandom⟩⟩

/-- Our close is queued, unless it has been. -/
def Closed (host : Host T) (s t : WsStream T) : Prop :=
  s.closing = true ∧ Moved host s t [] ∨
    s.closing = false ∧ ∃ mask, Moved host { s with closing := true } t
      [⟨.close, true, mask, normalClosure⟩]

/-- It could not be, for want of randomness. -/
def Unclosed (host : Host T) (s t : WsStream T) : Prop :=
  s.closing = false ∧ Moved host { s with closing := true } t []

theorem queueClose_ends (hclosing : s.closing = false) : Ends (queueClose host) s
    (fun _ t => Closed host s t)
    (fun stop t => Unclosed host s t ∧ stop = .failed .noRandomness ∧ ¬ host.Random) := by
  rw [queueClose]
  refine .modify_bind ((queue_ends _ _).mono ?_ ?_)
  · rintro _ t ⟨mask, hmoved⟩
    exact .inr ⟨hclosing, mask, hmoved⟩
  · rintro stop t ⟨hmoved, hstop⟩
    exact ⟨⟨hclosing, hmoved⟩, hstop⟩

theorem Closed.then_moved (h : Closed host s t) (h' : Moved host t u []) : Closed host s u := by
  obtain ⟨hclosing, hmoved⟩ | ⟨hclosing, mask, hmoved⟩ := h
  · exact .inl ⟨hclosing, hmoved.trans h'⟩
  · exact .inr ⟨hclosing, mask, hmoved.trans h'⟩

theorem closeOnce_ends : Ends (closeOnce host) s (fun _ t => Closed host s t)
    (fun stop t => Unclosed host s t ∧ stop = .failed .noRandomness ∧ ¬ host.Random) := by
  rw [closeOnce]
  refine .get_bind (.ite (fun hclosing => .pure (.inl ⟨hclosing, .refl s⟩)) fun hclosing => ?_)
  exact queueClose_ends (Bool.not_eq_true _ ▸ hclosing)

theorem pollShutdown_ends : Ends (pollShutdown host) s
    (fun _ t => ∃ u, Flushed host s u ∧ Closed host u t)
    (fun stop t => stop ≠ .exhausted ∧ ((∃ u, Flushed host s u ∧ Closed host u t) ∨
      (Spills host s s.partialTail t ∨ ∃ u, Flushed host s u ∧ Unclosed host u t) ∧
        ¬ host.Random)) := by
  rw [pollShutdown]
  refine .bind (flushPartial_ends.mono ?_ ?_)
  · intro _ u hflushed
    refine .bind (closeOnce_ends.mono ?_ ?_)
    · intro _ v hclosed
      refine .bind (pollDrain_ends.mono ?_ ?_)
      · rintro _ w ⟨hdrained, -⟩
        refine .get_bind ((answer_ends (.shutdown _)).mono ?_ ?_)
        · exact fun _ t hmoved => ⟨u, hflushed, (hclosed.then_moved hdrained).then_moved hmoved⟩
        · rintro stop t ⟨hmoved, hstop⟩
          exact ⟨hstop, .inl ⟨u, hflushed, (hclosed.then_moved hdrained).then_moved hmoved⟩⟩
      · rintro stop w ⟨hdrained, hstop, -⟩
        exact ⟨hstop, .inl ⟨u, hflushed, hclosed.then_moved hdrained⟩⟩
    · rintro stop v ⟨hunclosed, rfl, hrandom⟩
      exact ⟨nofun, .inr ⟨.inr ⟨u, hflushed, hunclosed⟩, hrandom⟩⟩
  · rintro stop t ⟨hwrote, hstop, hrandom⟩
    exact ⟨hstop, .inr ⟨.inl hwrote, hrandom⟩⟩

/-! ## Reading -/

/-- What is done about a frame. -/
def Reacts (host : Host T) (s : WsStream T) (event : Event) (t : WsStream T) : Prop :=
  match event with
  | .data data => t = { s with payload := s.payload ++ data }
  | .ping data => ∃ mask, Moved host s t [⟨.pong, true, mask, data⟩]
  | .pong _ => t = s
  | .close _ _ => Closed host { s with finished := true } t

/-- What is left when it cannot be done, for want of randomness. -/
def Balks (host : Host T) (s : WsStream T) (event : Event) (t : WsStream T) : Prop :=
  match event with
  | .ping _ => Moved host s t []
  | .close _ _ => Unclosed host { s with finished := true } t
  | .data _ | .pong _ => False

/-- A round of the loop that reads: a frame is dealt with, or more octets come in. -/
inductive Round (host : Host T) (s : WsStream T) : WsStream T → Prop where
  | taken {event : Event} {inbound : Octets} {t : WsStream T} :
      Decoder.poll s.inbound = .ok (some event, inbound) →
      Reacts host { s with inbound } event t → Round host s t
  | filled {inbound filled : Octets} : Decoder.poll s.inbound = .ok (none, inbound) →
      (host.pollRead s.io readChunk).1 = .ready (.ok filled) →
      Round host s { s with
        io := (host.pollRead s.io readChunk).2, inbound := inbound ++ filled
        finished := decide (filled = []) }

/-- A round that cannot be finished. -/
inductive Halts (host : Host T) (s : WsStream T) : Stop → WsStream T → Prop where
  | invalid {error : ProtocolError} : Decoder.poll s.inbound = .error error →
      Halts host s (.failed (.invalidData error)) s
  | unanswered {event : Event} {inbound : Octets} {t : WsStream T} :
      Decoder.poll s.inbound = .ok (some event, inbound) → ¬ host.Random →
      Balks host { s with inbound } event t → Halts host s (.failed .noRandomness) t
  | waits {inbound : Octets} : Decoder.poll s.inbound = .ok (none, inbound) →
      (host.pollRead s.io readChunk).1 = .pending →
      Halts host s .pending { s with io := (host.pollRead s.io readChunk).2, inbound }
  | broken {inbound : Octets} {error : IoError} : Decoder.poll s.inbound = .ok (none, inbound) →
      (host.pollRead s.io readChunk).1 = .ready (.error error) →
      Halts host s (.failed error) { s with
        io := (host.pollRead s.io readChunk).2, inbound }

/-- So many rounds, each of them for want of something to hand over. -/
inductive Rounds (host : Host T) : Nat → WsStream T → WsStream T → Prop where
  | refl (s : WsStream T) : Rounds host 0 s s
  | head {n : Nat} {s t u : WsStream T} : s.payload = [] → s.finished = false →
      Round host s t → Rounds host n t u → Rounds host (n + 1) s u

/-- What a read returns with when there is nothing to be done first. -/
inductive Hands (remaining : Nat) (s : WsStream T) : Octets → WsStream T → Prop where
  | some : s.payload ≠ [] → Hands remaining s (s.payload.take remaining)
      { s with payload := s.payload.drop remaining }
  | none : s.payload = [] → s.finished = true → Hands remaining s [] s

theorem react_ends {event : Option Event} {inbound : Octets} (hfinished : s.finished = false)
    (hpoll : Decoder.poll s.inbound = .ok (event, inbound)) :
    Ends (react host event) { s with inbound } (fun _ t => Round host s t)
      (fun stop t => Halts host s stop t) := by
  match event with
  | some (.data data) => exact .modify (.taken hpoll rfl)
  | some (.ping data) =>
      refine .bind ((queue_ends _ _).mono ?_ ?_)
      · rintro _ t ⟨mask, hmoved⟩
        refine tryDrain_ends.mono (fun _ u hdrained => ?_) fun _ _ h => h.elim
        exact .taken hpoll ⟨mask, hmoved.trans hdrained⟩
      · rintro stop t ⟨hmoved, rfl, hrandom⟩
        exact .unanswered hpoll hrandom hmoved
  | some (.pong data) => exact .pure (.taken hpoll rfl)
  | some (.close code reason) =>
      refine .modify_bind (.get_bind (.ite (fun hclosing => .pure ?_) fun hclosing => ?_))
      · exact .taken hpoll (.inl ⟨hclosing, .refl _⟩)
      · refine .bind ((queueClose_ends (Bool.not_eq_true _ ▸ hclosing)).mono ?_ ?_)
        · intro _ t hclosed
          refine tryDrain_ends.mono (fun _ u hdrained => ?_) fun _ _ h => h.elim
          exact .taken hpoll (hclosed.then_moved hdrained)
        · rintro stop t ⟨hunclosed, rfl, hrandom⟩
          exact .unanswered hpoll hrandom hunclosed
  | none =>
      refine .get_bind (.set_bind (.bind ((ready_ends _).mono ?_ ?_)))
      · rintro filled t ⟨rfl, hanswer⟩
        have hround := Round.filled hpoll hanswer
        refine .ite (fun hempty => .modify ?_) fun hsome => .modify ?_
        · rw [hempty, List.append_nil] at hround
          exact hround
        · rw [decide_eq_false hsome, ← hfinished] at hround
          exact hround
      · rintro stop t ⟨rfl, ⟨rfl, hanswer⟩ | ⟨error, rfl, hanswer⟩⟩
        · exact .waits hpoll hanswer
        · exact .broken hpoll hanswer

/-- A read goes through rounds until it can hand something over, or stops in one. -/
theorem pollRead_ends {remaining fuel : Nat} : Ends (pollRead host remaining fuel) s
    (fun handed t => ∃ n u, Rounds host n s u ∧ Hands remaining u handed t)
    (fun stop t => ∃ n u, Rounds host n s u ∧
      (u.finished = false ∧ Halts host u stop t ∨ stop = .exhausted ∧ n = fuel ∧ t = u)) := by
  induction fuel generalizing s with
  | zero => exact .throw ⟨0, s, .refl s, .inr ⟨rfl, rfl, rfl⟩⟩
  | succ fuel ih =>
      rw [pollRead]
      refine .get_bind (.ite (fun hsome => .set_bind (.pure ?_)) fun hnone => ?_)
      · exact ⟨0, s, .refl s, .some hsome⟩
      rw [ne_eq, not_not] at hnone
      refine .ite (fun hfinished => .pure ⟨0, s, .refl s, .none hnone hfinished⟩)
        fun hfinished => ?_
      rw [Bool.not_eq_true] at hfinished
      rw [nextEvent]
      refine .bind (.get_bind ?_)
      split
      · rename_i error hpoll
        exact .throw ⟨0, s, .refl s, .inl ⟨hfinished, .invalid hpoll⟩⟩
      · rename_i event inbound hpoll
        refine .set_bind (.pure (.bind ((react_ends hfinished hpoll).mono ?_ ?_)))
        · intro _ t hround
          refine ih.mono ?_ ?_
          · rintro handed u ⟨n, v, hrounds, hhands⟩
            exact ⟨n + 1, v, .head hnone hfinished hround hrounds, hhands⟩
          · rintro stop u ⟨n, v, hrounds, hhalts⟩
            refine ⟨n + 1, v, .head hnone hfinished hround hrounds, hhalts.imp_right ?_⟩
            rintro ⟨hstop, rfl, hu⟩
            exact ⟨hstop, rfl, hu⟩
        · intro stop t hhalts
          exact ⟨0, s, .refl s, .inl ⟨hfinished, hhalts⟩⟩

end WsStream

/-! ## Traces -/

/-- A call of one of the methods, a read with so many rounds. -/
inductive Act where
  | read (remaining fuel : Nat)
  | write (buf : Octets)
  | flush
  | shutdown

/-- A stream, the octets reported as taken, and those handed to readers. -/
structure Trace (T : Type) where
  stream : WsStream T
  taken : Octets
  handed : Octets

namespace Trace

variable (host : Host T)

def new (io : T) (side : Side) (inbound : Octets) : Trace T :=
  ⟨WsStream.new io side inbound, [], []⟩

def act (trace : Trace T) : Act → Trace T
  | .read remaining fuel =>
      match WsStream.pollRead host remaining fuel trace.stream with
      | .ok handed stream => { trace with stream, handed := trace.handed ++ handed }
      | .error _ stream => { trace with stream }
  | .write buf =>
      match WsStream.pollWrite host buf trace.stream with
      | .ok n stream => { trace with stream, taken := trace.taken ++ buf.take n }
      | .error _ stream => { trace with stream }
  | .flush => { trace with stream := Computation.final (WsStream.pollFlush host) trace.stream }
  | .shutdown =>
      { trace with stream := Computation.final (WsStream.pollShutdown host) trace.stream }

end Trace

end Vortice.Ws
