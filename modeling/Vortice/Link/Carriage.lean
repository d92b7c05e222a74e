import Vortice.Link.Quiescence
import Vortice.Ws.Pipe

/-!
# Sessions over WebSockets

What a session transmits is offered to a WebSocket, and what a read of the other end hands
over goes to the session there.  The two sessions do nothing that they could not do over a
stream of octets.
-/

namespace Vortice.Link

open Vortice.Foundation Vortice.Proto

variable {T : Type} {host : Ws.Host T} {coming : T → Octets} {push : T → Octets → T}
variable {allowed : End → Call → Prop}

/-- What is done at an end: with its session, or with the stream below it. -/
inductive Deed where
  | call (call : Call)
  | pollTransmit
  | pollEvent
  /-- So many of the octets transmitted are offered to the stream. -/
  | write (count : Nat)
  | flush
  | shutdown
  | read (remaining fuel : Nat)

/-- What a deed does to the stream.  Nothing is read for a session that has failed. -/
def End.carry (e : End) (stream : Ws.Trace T) : Deed → Option Ws.Act
  | .write count =>
      some (.write ((e.trace.transmitted.drop stream.taken.length).take count))
  | .flush => some .flush
  | .shutdown => some .shutdown
  | .read remaining fuel => if e.failure.isSome then none else some (.read remaining fuel)
  | _ => none

/-- What a deed does to the session, when the stream has handed over so much more. -/
def End.after (e : End) (handed : Octets) : Deed → End
  | .call call => e.call call
  | .pollTransmit => e.pollTransmit
  | .pollEvent => e.pollEvent
  | .read _ _ => if handed = [] then e else e.receive handed
  | _ => e

/-- Two sessions, with an end of a WebSocket below each. -/
structure Carriage (T : Type) where
  ends : Pair
  streams : Ws.Pair T

namespace Carriage

def new (near far : Session) (nearIo farIo : T) : Carriage T :=
  ⟨.new near far, .new nearIo farIo⟩

/-- A deed at the near end, or at the far end. -/
def act (host : Ws.Host T) (push : T → Octets → T) (carriage : Carriage T) :
    Bool × Deed → Carriage T
  | (true, deed) =>
      let streams := match carriage.ends.near.carry carriage.streams.near deed with
        | some act => carriage.streams.act host push (true, act)
        | none => carriage.streams
      let handed := streams.near.handed.drop carriage.streams.near.handed.length
      ⟨{ carriage.ends with near := carriage.ends.near.after handed deed }, streams⟩
  | (false, deed) =>
      let streams := match carriage.ends.far.carry carriage.streams.far deed with
        | some act => carriage.streams.act host push (false, act)
        | none => carriage.streams
      let handed := streams.far.handed.drop carriage.streams.far.handed.length
      ⟨{ carriage.ends with far := carriage.ends.far.after handed deed }, streams⟩

def meets (allowed : End → Call → Prop) (carriage : Carriage T) : Bool × Deed → Prop
  | (true, .call call) => allowed carriage.ends.near call
  | (false, .call call) => allowed carriage.ends.far call
  | _ => True

theorem meets_all (carriage : Carriage T) (label : Bool × Deed) :
    carriage.meets (fun _ _ => True) label := by
  obtain ⟨side, deed⟩ := label
  cases side <;> cases deed <;> trivial

/-- Every frame of the WebSocket fits what its reader accepts. -/
def Fits (carriage : Carriage T) : Prop :=
  (∀ frame ∈ carriage.streams.near.stream.queued, frame.payload.length ≤ Ws.maxPayload) ∧
    ∀ frame ∈ carriage.streams.far.stream.queued, frame.payload.length ≤ Ws.maxPayload

end Carriage

/-! ## One end -/

/-- The session of an end and the stream below it go together. -/
structure End.Seated (e : End) (stream : Ws.Trace T) : Prop where
  taken : stream.taken <+: e.trace.transmitted
  read : e.read = stream.handed

namespace End

variable {near far : End} {stream : Ws.Trace T} {deed : Deed}

theorem seated_new (session : Session) (io : T) (side : Ws.Side) (inbound : Octets) :
    (End.new session).Seated (.new io side inbound) where
  taken := List.nil_prefix
  read := rfl

theorem after_read (e : End) (handed : Octets) (remaining fuel : Nat) :
    e.after handed (.read remaining fuel) = if handed = [] then e else e.receive handed := rfl

theorem carry_read (e : End) (stream : Ws.Trace T) (remaining fuel : Nat) :
    e.carry stream (.read remaining fuel) =
      if e.failure.isSome then none else some (.read remaining fuel) := rfl

theorem transmitted_after (e : End) (handed : Octets) (deed : Deed) :
    e.trace.transmitted <+: (e.after handed deed).trace.transmitted := by
  cases deed with
  | pollTransmit =>
      change e.trace.transmitted <+: (e.trace.act .pollTransmit).transmitted
      rw [Trace.act_pollTransmit]
      exact List.prefix_append _ _
  | read remaining fuel =>
      rw [after_read]
      unfold receive
      split
      · exact List.prefix_rfl
      · split
        · exact List.prefix_rfl
        · exact List.prefix_rfl
  | call | pollEvent | write | flush | shutdown => exact List.prefix_rfl

theorem Seated.idle (h : near.Seated stream) (deed : Deed) :
    (near.after [] deed).Seated stream := by
  refine ⟨h.taken.trans (transmitted_after near [] deed), ?_⟩
  cases deed <;> exact h.read

theorem Seated.taken_act (h : near.Seated stream) {act : Ws.Act}
    (hcarry : near.carry stream deed = some act) :
    (stream.act host act).taken <+: near.trace.transmitted := by
  rcases stream.taken_act host act with hsame | ⟨buf, n, rfl, hmore⟩
  · rw [hsame]
    exact h.taken
  · cases deed with
    | write count =>
        cases hcarry
        obtain ⟨rest, hrest⟩ := h.taken
        rw [hmore, ← hrest, List.drop_left, List.prefix_append_right_inj]
        have hoffered : rest.take count <+: rest := List.take_prefix count rest
        have htaken : (rest.take count).take n <+: rest.take count := List.take_prefix n _
        exact htaken.trans hoffered
    | read remaining fuel =>
        rw [carry_read] at hcarry
        split at hcarry
        · cases hcarry
        · cases hcarry
    | call | pollTransmit | pollEvent | flush | shutdown => cases hcarry

theorem Seated.carried (h : near.Seated stream) {act : Ws.Act}
    (hcarry : near.carry stream deed = some act) :
    (near.after ((stream.act host act).handed.drop stream.handed.length) deed).Seated
      (stream.act host act) := by
  refine ⟨(h.taken_act hcarry).trans (transmitted_after near _ deed), ?_⟩
  cases deed with
  | read remaining fuel =>
      rw [carry_read] at hcarry
      split at hcarry
      · cases hcarry
      · rename_i hfailure
        cases hcarry
        obtain ⟨more, hmore⟩ := stream.handed_act host (.read remaining fuel)
        rw [← hmore, List.drop_left, after_read]
        split
        · rename_i hnone
          rw [hnone, List.append_nil]
          exact h.read
        · rw [receive, if_neg hfailure]
          exact congrArg (· ++ more) h.read
  | write | flush | shutdown =>
      cases hcarry
      rw [Ws.Trace.handed_of_ne_read (by rintro _ _ ⟨⟩)]
      exact h.read
  | call | pollTransmit | pollEvent => cases hcarry

theorem after_act (h : near.Seated stream) {handed : Octets}
    (hmeets : ∀ call, deed = .call call → allowed near call)
    (hhanded : stream.handed ++ handed <+: far.trace.transmitted) :
    near.after handed deed = near ∨
      ∃ act, near.meets allowed act ∧ near.after handed deed = far.act near act := by
  cases deed with
  | call call => exact .inr ⟨.call call, hmeets call rfl, rfl⟩
  | pollTransmit => exact .inr ⟨.pollTransmit, trivial, rfl⟩
  | pollEvent => exact .inr ⟨.pollEvent, trivial, rfl⟩
  | write | flush | shutdown => exact .inl rfl
  | read remaining fuel =>
      rw [after_read]
      by_cases hnone : handed = []
      · left
        rw [if_pos hnone]
      · right
        refine ⟨.arrive handed.length, trivial, ?_⟩
        obtain ⟨rest, hrest⟩ := hhanded
        have hnext : far.next near handed.length = handed := by
          rw [next, h.read, ← hrest, List.append_assoc, List.drop_left, List.take_left]
        rw [if_neg hnone, act, hnext]

/-- The stream after a deed. -/
def Carried (host : Ws.Host T) (near : End) (stream : Ws.Trace T) (deed : Deed)
    (stream' : Ws.Trace T) : Prop :=
  near.carry stream deed = none ∧ stream' = stream ∨
    ∃ act, near.carry stream deed = some act ∧ stream' = stream.act host act

theorem Seated.after {stream' : Ws.Trace T} (h : near.Seated stream)
    (hcarried : Carried host near stream deed stream') :
    (near.after (stream'.handed.drop stream.handed.length) deed).Seated stream' := by
  rcases hcarried with ⟨-, rfl⟩ | ⟨act, hcarry, rfl⟩
  · rw [List.drop_length]
    exact h.idle deed
  · exact h.carried hcarry

/-- As long as the stream hands over what the other end has transmitted, it is one for the
session. -/
theorem Seated.acts {stream' : Ws.Trace T} (h : near.Seated stream)
    (allowed : End → Call → Prop)
    (hcarried : Carried host near stream deed stream')
    (hmeets : ∀ call, deed = .call call → allowed near call)
    (hhanded : stream'.handed <+: far.trace.transmitted) :
    near.after (stream'.handed.drop stream.handed.length) deed = near ∨
      ∃ act, near.meets allowed act ∧
        near.after (stream'.handed.drop stream.handed.length) deed = far.act near act := by
  refine after_act h hmeets ?_
  have hgrown : stream.handed <+: stream'.handed := by
    rcases hcarried with ⟨-, rfl⟩ | ⟨act, -, rfl⟩
    · exact List.prefix_rfl
    · exact stream.handed_act host act
  obtain ⟨more, hmore⟩ := hgrown
  rwa [← hmore, List.drop_left, hmore]

end End

/-! ## Both ends -/

namespace Carriage

variable {near far : Session} {nearIo farIo : T} {carriage last : Carriage T}

theorem streams_act (host : Ws.Host T) (push : T → Octets → T) (carriage : Carriage T)
    (label : Bool × Deed) :
    (carriage.act host push label).streams = carriage.streams ∨
      ∃ act, (carriage.act host push label).streams = carriage.streams.act host push act := by
  obtain ⟨side, deed⟩ := label
  cases side with
  | true =>
      cases hcarry : carriage.ends.near.carry carriage.streams.near deed with
      | none => simp [act, hcarry]
      | some found =>
          right
          exact ⟨(true, found), by simp [act, hcarry]⟩
  | false =>
      cases hcarry : carriage.ends.far.carry carriage.streams.far deed with
      | none => simp [act, hcarry]
      | some found =>
          right
          exact ⟨(false, found), by simp [act, hcarry]⟩

/-- A deed at the near end leaves the far one alone, but for what is on its way there. -/
theorem near_act (host : Ws.Host T) (push : T → Octets → T) (carriage : Carriage T)
    (deed : Deed) :
    End.Carried host carriage.ends.near carriage.streams.near deed
        (carriage.act host push (true, deed)).streams.near ∧
      (carriage.act host push (true, deed)).streams.far.taken = carriage.streams.far.taken ∧
      (carriage.act host push (true, deed)).streams.far.handed = carriage.streams.far.handed := by
  cases hcarry : carriage.ends.near.carry carriage.streams.near deed with
  | none => simp [act, hcarry, End.Carried]
  | some found =>
      simp only [act, hcarry, End.Carried]
      exact ⟨.inr ⟨found, rfl, rfl⟩, rfl, rfl⟩

theorem far_act (host : Ws.Host T) (push : T → Octets → T) (carriage : Carriage T)
    (deed : Deed) :
    End.Carried host carriage.ends.far carriage.streams.far deed
        (carriage.act host push (false, deed)).streams.far ∧
      (carriage.act host push (false, deed)).streams.near.taken = carriage.streams.near.taken ∧
      (carriage.act host push (false, deed)).streams.near.handed =
        carriage.streams.near.handed := by
  cases hcarry : carriage.ends.far.carry carriage.streams.far deed with
  | none => simp [act, hcarry, End.Carried]
  | some found =>
      simp only [act, hcarry, End.Carried]
      exact ⟨.inr ⟨found, rfl, rfl⟩, rfl, rfl⟩

theorem near_ends (carriage : Carriage T) (deed : Deed) :
    (carriage.act host push (true, deed)).ends =
      { carriage.ends with
        near := carriage.ends.near.after
          ((carriage.act host push (true, deed)).streams.near.handed.drop
            carriage.streams.near.handed.length) deed } := rfl

theorem far_ends (carriage : Carriage T) (deed : Deed) :
    (carriage.act host push (false, deed)).ends =
      { carriage.ends with
        far := carriage.ends.far.after
          ((carriage.act host push (false, deed)).streams.far.handed.drop
            carriage.streams.far.handed.length) deed } := rfl

theorem Fits.of_act {label : Bool × Deed} (h : (carriage.act host push label).Fits) :
    carriage.Fits := by
  rcases streams_act host push carriage label with hsame | ⟨⟨side, act⟩, hact⟩
  · rwa [Fits, hsame] at h
  · rw [Fits, hact] at h
    cases side with
    | true =>
        have hsent := carriage.streams.near.sent_act host act
        exact ⟨fun frame hmem => h.1 frame (hsent.queued.subset hmem), h.2⟩
    | false =>
        have hsent := carriage.streams.far.sent_act host act
        exact ⟨h.1, fun frame hmem => h.2 frame (hsent.queued.subset hmem)⟩

/-- The ends and the streams go together, the streams are those of a run, and so are the ends
when every frame fits. -/
structure Sound (host : Ws.Host T) (push : T → Octets → T) (allowed : End → Call → Prop)
    (near far : Session) (nearIo farIo : T) (carriage : Carriage T) : Prop where
  seated : carriage.ends.near.Seated carriage.streams.near ∧
    carriage.ends.far.Seated carriage.streams.far
  streams : Run (Ws.Pair.act host push) (fun _ _ => True) (.new nearIo farIo) carriage.streams
  ends : carriage.Fits →
    Run Pair.act (Pair.meets allowed) (Pair.new near far) carriage.ends

theorem sound_new (near far : Session) (nearIo farIo : T) :
    Sound host push allowed near far nearIo farIo (.new near far nearIo farIo) :=
  ⟨⟨End.seated_new near nearIo .client [], End.seated_new far farIo .server []⟩, .refl,
    fun _ => .refl⟩

theorem extended {ends ends' : Pair}
    (hrun : Run Pair.act (Pair.meets allowed) (Pair.new near far) ends)
    (h : ends' = ends ∨ ∃ act, ends.meets allowed act ∧ ends' = ends.act act) :
    Run Pair.act (Pair.meets allowed) (Pair.new near far) ends' := by
  obtain rfl | ⟨act, hallowed, rfl⟩ := h
  · exact hrun
  · exact hrun.act act hallowed

theorem Sound.act (h : Sound host push allowed near far nearIo farIo carriage)
    (hjoins : host.Joins coming push) (hrandom : host.Random) (haccepts : host.Accepts)
    (hnear : coming nearIo = []) (hfar : coming farIo = []) {label : Bool × Deed}
    (hmeets : carriage.meets allowed label) :
    Sound host push allowed near far nearIo farIo (carriage.act host push label) := by
  have hstreams : Run (Ws.Pair.act host push) (fun _ _ => True) (.new nearIo farIo)
      (carriage.act host push label).streams := by
    rcases streams_act host push carriage label with hsame | ⟨act, hact⟩
    · rw [hsame]
      exact h.streams
    · rw [hact]
      exact h.streams.act act trivial
  obtain ⟨hnearCarries, hfarCarries⟩ :=
    Ws.Pair.carries hjoins hrandom haccepts hnear hfar hstreams
  obtain ⟨side, deed⟩ := label
  cases side with
  | true =>
      obtain ⟨hcarried, htaken, hhanded⟩ := near_act host push carriage deed
      have hfarSeated : carriage.ends.far.Seated
          (carriage.act host push (true, deed)).streams.far :=
        ⟨htaken ▸ h.seated.2.taken, hhanded ▸ h.seated.2.read⟩
      refine ⟨⟨h.seated.1.after hcarried, hfarSeated⟩, hstreams, fun hfits => ?_⟩
      refine extended (h.ends hfits.of_act) ?_
      obtain hsame | ⟨act, hallowed, hact⟩ := h.seated.1.acts allowed hcarried
        (by rintro call rfl; exact hmeets)
        ((hnearCarries.handed_begins hfits.2).trans hfarSeated.taken)
      · left
        rw [near_ends, hsame]
      · right
        refine ⟨(true, act), hallowed, ?_⟩
        rw [near_ends, hact]
        rfl
  | false =>
      obtain ⟨hcarried, htaken, hhanded⟩ := far_act host push carriage deed
      have hnearSeated : carriage.ends.near.Seated
          (carriage.act host push (false, deed)).streams.near :=
        ⟨htaken ▸ h.seated.1.taken, hhanded ▸ h.seated.1.read⟩
      refine ⟨⟨hnearSeated, h.seated.2.after hcarried⟩, hstreams, fun hfits => ?_⟩
      refine extended (h.ends hfits.of_act) ?_
      obtain hsame | ⟨act, hallowed, hact⟩ := h.seated.2.acts allowed hcarried
        (by rintro call rfl; exact hmeets)
        ((hfarCarries.handed_begins hfits.1).trans hnearSeated.taken)
      · left
        rw [far_ends, hsame]
      · right
        refine ⟨(false, act), hallowed, ?_⟩
        rw [far_ends, hact]
        rfl

end Carriage

/-- Whatever two sessions come to over a WebSocket, in whatever order their streams are read,
written and flushed and however its frames are cut and delayed, they come to over a stream of
octets with the same calls, as long as no frame exceeds what the other end accepts. -/
theorem runs_over_octets (hjoins : host.Joins coming push) (hrandom : host.Random)
    (haccepts : host.Accepts) {near far : Session} {nearIo farIo : T}
    (hnear : coming nearIo = []) (hfar : coming farIo = []) {last : Carriage T}
    (hrun : Run (Carriage.act host push) (Carriage.meets allowed)
      (.new near far nearIo farIo) last)
    (hfits : last.Fits) : Run Pair.act (Pair.meets allowed) (Pair.new near far) last.ends := by
  have hsound : Carriage.Sound host push allowed near far nearIo farIo last :=
    hrun.preserves (fun hmeets h => h.act hjoins hrandom haccepts hnear hfar hmeets)
      (Carriage.sound_new near far nearIo farIo)
  exact hsound.ends hfits

/-- Two ends greet each other over a WebSocket. -/
def greetings : List (Bool × Deed) :=
  [(true, .pollTransmit), (true, .write 1000), (true, .flush), (false, .read 1000 100),
    (false, .pollTransmit), (false, .write 40), (false, .write 1000), (false, .flush),
    (true, .read 20 100), (true, .read 1000 100), (true, .pollEvent)]

/-- The sessions that greet each other, and a check of how it ends. -/
def afterGreetings (check : Carriage Octets → Bool) : Bool :=
  (Session.new (Config.new .initiator)).toOption.any fun near =>
    (Session.new (Config.new .listener)).toOption.any fun far =>
      check (greetings.foldl (Carriage.act Ws.relay (· ++ ·)) (.new near far [] []))

theorem exists_greetings {check : Carriage Octets → Bool} (h : afterGreetings check) :
    ∃ near far last, Session.new (Config.new .initiator) = .ok near ∧
      Session.new (Config.new .listener) = .ok far ∧
      last = greetings.foldl (Carriage.act Ws.relay (· ++ ·)) (.new near far [] []) ∧
      check last := by
  obtain ⟨near, hnear⟩ := Session.new_ok (Config.new .initiator)
  obtain ⟨far, hfar⟩ := Session.new_ok (Config.new .listener)
  rw [afterGreetings, hnear, hfar] at h
  exact ⟨near, far, _, hnear, hfar, rfl, h⟩

/-- Each end meets the greeting of the other. -/
theorem greets_over_octets :
    ∃ near far last, Session.new (Config.new .initiator) = .ok near ∧
      Session.new (Config.new .listener) = .ok far ∧
      last = greetings.foldl (Carriage.act Ws.relay (· ++ ·)) (.new near far [] []) ∧
      last.ends.near.met.length = 1 ∧ last.ends.far.met.length = 1 ∧
      Run Pair.act (Pair.meets fun _ _ => True) (Pair.new near far) last.ends := by
  have hrun : afterGreetings fun last =>
      last.ends.near.met.length = 1 ∧ last.ends.far.met.length = 1 ∧
        (∀ frame ∈ last.streams.near.stream.queued, frame.payload.length ≤ Ws.maxPayload) ∧
        ∀ frame ∈ last.streams.far.stream.queued, frame.payload.length ≤ Ws.maxPayload := by
    decide +kernel
  obtain ⟨near, far, last, hnear, hfar, hlast, hcheck⟩ := exists_greetings hrun
  obtain ⟨hmet, hmet', hfits⟩ := of_decide_eq_true hcheck
  refine ⟨near, far, last, hnear, hfar, hlast, hmet, hmet', ?_⟩
  subst hlast
  exact runs_over_octets Ws.joins_relay Ws.random_relay Ws.accepts_relay rfl rfl
    ((Run.of_list _ _ greetings).mono fun _ => Carriage.meets_all _ _) hfits

end Vortice.Link
