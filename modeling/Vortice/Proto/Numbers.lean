import Vortice.Proto.Lifetime

/-!
# The numbers of channels

A session counts its own channel numbers up by two and takes the peer's as they
come.  As long as neither leaves the range of channel numbers, the numbers that
are open, asked for and still to be asked for never meet.
-/

namespace Vortice.Proto

open Vortice.Foundation

theorem Role.owns_iff {role : Role} {number : UInt32} :
    role.owns number ↔
      number.toNat % 2 = role.firstChannel.toNat % 2 ∧ number.toNat ≠ 0 := by
  have hzero : number = 0 ↔ number.toNat = 0 := by
    rw [← UInt32.toNat_inj]
    rfl
  have hmod : ∀ rest : UInt32, number % 2 = rest ↔ number.toNat % 2 = rest.toNat := by
    intro rest
    rw [← UInt32.toNat_inj, UInt32.toNat_mod]
    rfl
  cases role with
  | initiator =>
      simp only [Role.owns, decide_eq_true_eq, Role.firstChannel, hmod]
      have hone : (1 : UInt32).toNat = 1 := rfl
      omega
  | listener =>
      simp only [Role.owns, Bool.and_eq_true, decide_eq_true_eq, ne_eq,
        Role.firstChannel, hmod, hzero]
      have htwo : (2 : UInt32).toNat = 2 := rfl
      have hnone : (0 : UInt32).toNat = 0 := rfl
      omega

theorem Role.owns_firstChannel (role : Role) : role.owns role.firstChannel := by
  cases role <;> decide

theorem Role.owns_add_two {role : Role} {number : UInt32} (howns : role.owns number)
    (hle : number ≤ maxChannelNo) :
    role.owns (number + 2) ∧ (number + 2).toNat = number.toNat + 2 := by
  have htwo : (number + 2).toNat = number.toNat + 2 := by
    rw [UInt32.le_iff_toNat_le] at hle
    have hmax : maxChannelNo.toNat = 2147483647 := rfl
    have htwo : (2 : UInt32).toNat = 2 := rfl
    rw [UInt32.toNat_add, htwo]
    omega
  refine ⟨?_, htwo⟩
  rw [Role.owns_iff] at howns ⊢
  rw [htwo]
  omega

/-- The numbers asked for are numbers a channel can have. -/
def Entry.InRange : Entry → Prop
  | .reserved number _ => number ≤ maxChannelNo
  | .askedStart _ number _ => number ≤ maxChannelNo
  | _ => True

namespace Ledger

/-- The numbers that are open, asked for and still to be asked for. -/
structure Numbered (l : Ledger) : Prop where
  next_owned : l.role.owns l.nextChannel
  table_ne : ∀ number, (l.table number).isSome → number ≠ greetingChannel
  table_lt : ∀ number, (l.table number).isSome → l.role.owns number →
    number < l.nextChannel
  starts_owned : ∀ msgno number, l.pending msgno = some (.start number) →
    l.role.owns number ∧ number ≤ maxChannelNo ∧ number < l.nextChannel
  starts_closed : ∀ msgno number, l.pending msgno = some (.start number) →
    l.table number = none
  starts_distinct : ∀ msgno other number, l.pending msgno = some (.start number) →
    l.pending other = some (.start number) → msgno = other

variable {l l' : Ledger} {entry : Entry}

theorem Numbered.of_same (h : l.Numbered) (hrole : l'.role = l.role)
    (hnext : l'.nextChannel = l.nextChannel)
    (hpending : ∀ msgno number, l'.pending msgno = some (.start number) →
      l.pending msgno = some (.start number))
    (htable : ∀ number, (l'.table number).isSome → (l.table number).isSome) :
    l'.Numbered where
  next_owned := by rw [hrole, hnext]; exact h.next_owned
  table_ne := fun number hopen => h.table_ne number (htable number hopen)
  table_lt := fun number hopen howns => by
    rw [hnext]
    exact h.table_lt number (htable number hopen) (hrole ▸ howns)
  starts_owned := fun msgno number hstart => by
    rw [hrole, hnext]
    exact h.starts_owned msgno number (hpending _ _ hstart)
  starts_closed := fun msgno number hstart => by
    have hclosed := h.starts_closed msgno number (hpending _ _ hstart)
    by_contra hopen
    rw [← ne_eq, ← Option.isSome_iff_ne_none] at hopen
    have := htable number hopen
    rw [hclosed] at this
    cases this
  starts_distinct := fun msgno other number hstart hother =>
    h.starts_distinct msgno other number (hpending _ _ hstart) (hpending _ _ hother)

theorem pending_of_update_none {pending : UInt32 → Option Pending}
    {msgno other : UInt32} {wanted : Pending}
    (h : Function.update pending other none msgno = some wanted) :
    pending msgno = some wanted := by
  by_cases hother : msgno = other
  · subst hother
    simp at h
  · rwa [Function.update_of_ne hother] at h

theorem Numbered.reserve (h : l.Numbered) (hle : l.nextChannel ≤ maxChannelNo)
    (profile : Management.Profile) : (l.reserve profile).Numbered := by
  obtain ⟨howned, htwo⟩ := Role.owns_add_two h.next_owned hle
  have hlt : ∀ number : UInt32, number < l.nextChannel →
      number < l.nextChannel + 2 := by
    intro number hnumber
    rw [UInt32.lt_iff_toNat_lt] at hnumber ⊢
    omega
  refine ⟨howned, h.table_ne, ?_, ?_, h.starts_closed, h.starts_distinct⟩
  · exact fun number hopen howns => hlt number (h.table_lt number hopen howns)
  · intro msgno number hstart
    obtain ⟨howns, hle, hnumber⟩ := h.starts_owned msgno number hstart
    exact ⟨howns, hle, hlt number hnumber⟩

theorem Numbered.askStart (h : l.Numbered) (hle : l.nextChannel ≤ maxChannelNo)
    (profile : Management.Profile) (msgno : UInt32) :
    ((l.reserve profile).ask msgno (.start l.nextChannel)).Numbered := by
  have hreserve := h.reserve hle profile
  have hlt : l.nextChannel < l.nextChannel + 2 := by
    obtain ⟨-, htwo⟩ := Role.owns_add_two h.next_owned hle
    rw [UInt32.lt_iff_toNat_lt]
    omega
  have hnew : ∀ {other number : UInt32},
      l.pending other = some (.start number) → number ≠ l.nextChannel := by
    rintro other _ hstart rfl
    exact UInt32.lt_irrefl _ (h.starts_owned _ _ hstart).2.2
  have hcases : ∀ {other number : UInt32},
      Function.update l.pending msgno (some (.start l.nextChannel)) other =
        some (.start number) →
      (other = msgno ∧ number = l.nextChannel) ∨
        (other ≠ msgno ∧ l.pending other = some (.start number)) := by
    intro other number hstart
    by_cases hother : other = msgno
    · subst hother
      rw [Function.update_self] at hstart
      cases hstart
      exact .inl ⟨rfl, rfl⟩
    · rw [Function.update_of_ne hother] at hstart
      exact .inr ⟨hother, hstart⟩
  refine ⟨hreserve.next_owned, hreserve.table_ne, hreserve.table_lt, ?_, ?_, ?_⟩
  · intro other number hstart
    rcases hcases hstart with ⟨-, rfl⟩ | ⟨-, hold⟩
    · exact ⟨h.next_owned, hle, hlt⟩
    · exact hreserve.starts_owned other number hold
  · intro other number hstart
    rcases hcases hstart with ⟨-, rfl⟩ | ⟨-, hold⟩
    · by_contra hopen
      rw [← ne_eq, ← Option.isSome_iff_ne_none] at hopen
      exact UInt32.lt_irrefl _ (h.table_lt _ hopen h.next_owned)
    · exact h.starts_closed other number hold
  · intro other another number hstart hanother
    rcases hcases hstart with ⟨rfl, rfl⟩ | ⟨hne, hold⟩ <;>
      rcases hcases hanother with ⟨rfl, heq⟩ | ⟨-, hold'⟩
    · rfl
    · exact absurd rfl (hnew hold')
    · exact absurd heq (hnew hold)
    · exact h.starts_distinct other another number hold hold'

theorem Numbered.openChannel {number : UInt32} (h : l.Numbered)
    (hzero : number ≠ greetingChannel)
    (howned : l.role.owns number → number < l.nextChannel)
    (hstarts : ∀ msgno, l.pending msgno ≠ some (.start number)) :
    (l.openChannel number).Numbered := by
  have hcases : ∀ {other : UInt32}, ((l.openChannel number).table other).isSome →
      other = number ∨ (l.table other).isSome := by
    intro other hopen
    by_cases hother : other = number
    · exact .inl hother
    · refine .inr ?_
      simpa [Ledger.openChannel, hother] using hopen
  refine ⟨h.next_owned, ?_, ?_, h.starts_owned, ?_, h.starts_distinct⟩
  · intro other hopen
    rcases hcases hopen with rfl | hopen
    · exact hzero
    · exact h.table_ne other hopen
  · intro other hopen howns
    rcases hcases hopen with rfl | hopen
    · exact howned howns
    · exact h.table_lt other hopen howns
  · intro msgno other hstart
    have hother : other ≠ number := by
      rintro rfl
      exact hstarts msgno hstart
    simpa [Ledger.openChannel, hother] using h.starts_closed msgno other hstart

theorem Numbered.settle (h : l.Numbered) (msgno : UInt32) : (l.settle msgno).Numbered :=
  h.of_same rfl rfl (fun _ _ => pending_of_update_none) fun _ => id

theorem Numbered.close (h : l.Numbered) (number : UInt32) : (l.close number).Numbered := by
  unfold Ledger.close
  split
  · refine h.of_same rfl rfl (fun _ _ => id) fun other hopen => ?_
    cases hopen
  · refine h.of_same rfl rfl (fun _ _ => id) fun other hopen => ?_
    by_cases hother : other = number
    · subst hother
      simp [closeChannel] at hopen
    · simpa [closeChannel, hother] using hopen

theorem Step.numbered (h : l.Step entry l') (hrange : entry.InRange)
    (hnumbered : l.Numbered) : l'.Numbered := by
  have hsame : ∀ {k : Ledger}, k.role = l.role → k.nextChannel = l.nextChannel →
      k.pending = l.pending → k.table = l.table → k.Numbered := by
    intro k hrole hnext hpending htable
    exact hnumbered.of_same hrole hnext (fun _ _ => by rw [hpending]; exact id)
      fun _ => by rw [htable]; exact id
  cases h with
  | @allocated number msgno book hopen _ =>
      refine hnumbered.of_same rfl rfl (fun _ _ => id) fun other hother => ?_
      by_cases hnumber : other = number
      · subst hnumber
        rw [hopen]
        rfl
      · simpa [hnumber] using hother
  | @accepted frame book hopen =>
      by_cases hzero : frame.channel = greetingChannel
      · refine hsame ?_ ?_ ?_ ?_ <;> simp [enter, setBook, hzero]
      · refine hnumbered.of_same ?_ ?_ ?_ fun other hother => ?_
        · simp [enter, setBook, hzero]
        · simp [enter, setBook, hzero]
        · simp [enter, setBook, hzero]
        · by_cases hnumber : other = frame.channel
          · subst hnumber
            simp only [bookAt, hzero, if_false] at hopen
            rw [hopen]
            rfl
          · simpa [enter, setBook, hzero, hnumber] using hother
  | reserved => exact hnumbered.reserve hrange _
  | askedStart => exact hnumbered.askStart hrange _ _
  | @askedClose msgno number _ _ _ =>
      refine hnumbered.of_same rfl rfl (fun other wanted hstart => ?_) fun _ => id
      by_cases hother : other = msgno
      · subst hother
        simp [ask] at hstart
      · simpa [ask, hother] using hstart
  | dismissed =>
      exact hnumbered.of_same rfl rfl (fun _ _ => pending_of_update_none) fun _ => id
  | @answered msgno number profile hstart =>
      obtain ⟨howns, -, hlt⟩ := hnumbered.starts_owned msgno number hstart
      have hopened : (((l.settle msgno).forget number).openChannel number).Numbered := by
        refine Numbered.openChannel ?_ ?_ (fun _ => hlt) ?_
        · exact (hnumbered.settle msgno).of_same rfl rfl (fun _ _ => id) fun _ => id
        · rintro rfl
          rw [Role.owns_iff] at howns
          exact howns.2 rfl
        · intro other hother
          have hold : l.pending other = some (.start number) :=
            pending_of_update_none hother
          obtain rfl := hnumbered.starts_distinct other msgno number hold hstart
          simp [forget, settle] at hother
      exact hopened.of_same rfl rfl (fun _ _ => id) fun _ => id
  | startRefused =>
      exact (hnumbered.settle _).of_same rfl rfl (fun _ _ => id) fun _ => id
  | closeRefused =>
      exact (hnumbered.settle _).of_same rfl rfl (fun _ _ => id) fun _ => id
  | agreed => exact (hnumbered.settle _).close _
  | closed => exact hnumbered.close _
  | @welcomed number hzero howns _ =>
      refine hnumbered.openChannel hzero ?_ ?_
      · rw [howns]
        simp
      · intro msgno hstart
        rw [(hnumbered.starts_owned msgno number hstart).1] at howns
        cases howns
  | _ => exact hsame rfl rfl rfl rfl

theorem Step.role (h : l.Step entry l') : l'.role = l.role := by
  have hclose : ∀ (k : Ledger) (number : UInt32), (k.close number).role = k.role := by
    intro k number
    unfold close
    split <;> rfl
  cases h with
  | accepted =>
      simp only [enter, setBook]
      split <;> rfl
  | agreed => exact hclose _ _
  | closed => exact hclose _ _
  | _ => rfl

theorem Step.welcomed_closed {number : UInt32} (h : l.Step (.welcomed number) l') :
    l.role.owns number = false ∧ l.table number = none := by
  cases h with
  | welcomed _ howns hclosed => exact ⟨howns, hclosed⟩

/-- Every channel has a number in range. -/
def Ranged (l : Ledger) : Prop :=
  ∀ number, (l.table number).isSome → number ≤ maxChannelNo

theorem Step.ranged (h : l.Step entry l') (hnumbered : l.Numbered)
    (hwelcomed : ∀ number, entry = .welcomed number → number ≤ maxChannelNo)
    (hranged : l.Ranged) : l'.Ranged := by
  intro number hopen
  rcases h.opens hopen with hold | heq | ⟨msgno, profile, rfl⟩
  · exact hranged number hold
  · exact hwelcomed number heq
  · cases h with
    | answered hstart => exact (hnumbered.starts_owned _ _ hstart).2.1

end Ledger

/-! ## Runs that stay in range -/

/-- Channels are only asked for while there are numbers for them. -/
def Act.Spares (s : SessionCore) : Act → Prop
  | .call (.startChannel _) => s.state = .ready → s.nextChannel ≤ maxChannelNo
  | _ => True

/-- Channels are only asked for and accepted while there are numbers for them. -/
def Act.Thrifty (s : SessionCore) : Act → Prop
  | .call (.startChannel _) => s.state = .ready → s.nextChannel ≤ maxChannelNo
  | .call (.acceptStart channel _ _) =>
      s.config.role.owns channel = false → channel ≤ maxChannelNo
  | _ => True

namespace SessionCore

variable {s t : SessionCore}

theorem startChannel_refused (h : s.state ≠ .ready) (profile : Management.Profile) :
    ∃ fault, startChannel profile s = .error fault s := by
  obtain ⟨fault, hrefused⟩ := requireReady_refuses h
  exact ⟨fault, Computation.bind_of_error hrefused _⟩

theorem startChannel_ok {profile : Management.Profile} {number : UInt32}
    (h : startChannel profile s = .ok number t) :
    s.state = .ready ∧ number = s.nextChannel := by
  have hready : s.state = .ready := by
    by_contra hnot
    obtain ⟨fault, hrefused⟩ := startChannel_refused hnot profile
    rw [hrefused] at h
    cases h
  refine ⟨hready, ?_⟩
  obtain ⟨_, u, hrequire, hrest⟩ := Computation.ok_of_bind h
  rw [requireReady_ready hready] at hrequire
  cases hrequire
  obtain ⟨v, w, hget, hrest⟩ := Computation.ok_of_bind hrest
  cases hget
  obtain ⟨_, _, -, hrest⟩ := Computation.ok_of_bind hrest
  obtain ⟨_, _, -, hdone⟩ := Computation.ok_of_bind hrest
  cases hdone
  rfl

theorem call_inRange {call : Call} (hspares : Act.Spares s (.call call)) :
    Walk Books (fun entry => Entry.ofCall s call entry ∧ entry.InRange) s
      (Computation.final call.run s) := by
  have hpath : (∀ entry, Entry.ofCall s call entry → entry.InRange) →
      Walk Books (fun entry => Entry.ofCall s call entry ∧ entry.InRange) s
        (Computation.final call.run s) :=
    fun hrange => (keeps_call call s).mono fun entry h => ⟨h, hrange entry h⟩
  cases call with
  | startChannel profile =>
      by_cases hready : s.state = .ready
      · refine hpath fun entry hallowed => ?_
        cases entry with
        | reserved => exact hallowed.1 ▸ hspares hready
        | askedStart => exact hallowed.1 ▸ hspares hready
        | _ => trivial
      · obtain ⟨fault, hrefused⟩ := startChannel_refused hready profile
        have hrun : Call.run (.startChannel profile) s = .error fault s :=
          Computation.bind_of_error hrefused _
        rw [Computation.final_of_error hrun]
        exact Walk.refl
  | _ =>
      refine hpath fun entry hallowed => ?_
      cases entry <;> trivial

theorem call_ranged {call : Call} (hthrifty : Act.Thrifty s (.call call))
    (hspares : Act.Spares s (.call call)) (hnumbered : s.ledger.Numbered)
    (h : s.ledger.Ranged) : (Computation.final call.run s).ledger.Ranged := by
  have hwelcomed : ∀ number, Entry.ofCall s call (.welcomed number) →
      s.config.role.owns number = false → number ≤ maxChannelNo := by
    intro number hallowed howns
    cases call with
    | acceptStart =>
        cases hallowed
        exact hthrifty howns
    | _ => first | exact False.elim hallowed | cases hallowed
  refine ((call_inRange hspares).preserves (I := fun u : SessionCore =>
    u.ledger.Numbered ∧ u.ledger.role = s.ledger.role ∧ u.ledger.Ranged) ?_
    ⟨hnumbered, rfl, h⟩).2.2
  rintro u v entry hallowed hstep ⟨hu, hrole, hranged⟩
  refine ⟨hstep.numbered hallowed.2 hu, hstep.role.trans hrole, hstep.ranged hu ?_ hranged⟩
  rintro number rfl
  refine hwelcomed number hallowed.1 ?_
  have howns := hstep.welcomed_closed.1
  rwa [hrole] at howns

theorem call_numbered {call : Call} (hspares : Act.Spares s (.call call))
    (h : s.ledger.Numbered) : (Computation.final call.run s).ledger.Numbered := by
  refine (call_inRange hspares).preserves
    (I := fun u : SessionCore => u.ledger.Numbered) ?_ h
  intro u v entry hallowed hstep
  exact hstep.numbered hallowed.2

theorem frame_inRange {frame : Frame} {failed : Prop} :
    ∀ entry : Entry, Entry.handles s failed frame entry → entry.InRange := by
  intro entry h
  cases frame <;> cases entry <;> first
    | trivial
    | exact False.elim h
    | exact h.elim fun _ h => h.2.elim

theorem frame_numbered (frame : Frame) (h : s.ledger.Numbered) :
    (Computation.final (handleFrame frame) s).ledger.Numbered := by
  refine (keeps_handleFrame frame s).preserves
    (I := fun u : SessionCore => u.ledger.Numbered) ?_ h
  intro u v entry hallowed hstep
  exact hstep.numbered (frame_inRange entry hallowed)

theorem frame_ranged (frame : Frame) (hnumbered : s.ledger.Numbered)
    (h : s.ledger.Ranged) : (Computation.final (handleFrame frame) s).ledger.Ranged := by
  refine ((keeps_handleFrame frame s).preserves (I := fun u : SessionCore =>
    u.ledger.Numbered ∧ u.ledger.Ranged) ?_ ⟨hnumbered, h⟩).2
  rintro u v entry hallowed hstep ⟨hu, hranged⟩
  refine ⟨hstep.numbered (frame_inRange entry hallowed) hu, hstep.ranged hu ?_ hranged⟩
  rintro number rfl
  cases frame with
  | seq => exact hallowed.elim
  | data =>
      obtain ⟨_, -, h⟩ := hallowed
      exact h.elim

end SessionCore

theorem fresh_numbered (config : Config) :
    (SessionCore.fresh config).ledger.Numbered := by
  refine ⟨Role.owns_firstChannel _, ?_, ?_, ?_, ?_, ?_⟩ <;>
    simp [SessionCore.fresh, SessionCore.ledger]

theorem Trace.Fresh.numbered {config : Config} {first : Trace}
    (h : Trace.Fresh config first) : first.core.ledger.Numbered := by
  refine h.books.preserves (I := fun u : SessionCore => u.ledger.Numbered) ?_
    (fresh_numbered config)
  intro u v entry hallowed hstep
  refine hstep.numbered ?_
  cases entry <;> trivial

theorem Trace.Run.numbered {config : Config} {meets : Trace → Act → Prop}
    {first last : Trace} (hfresh : Trace.Fresh config first)
    (hspares : ∀ trace act, meets trace act → act.Spares trace.core)
    (hrun : Trace.Run meets first last) : last.core.ledger.Numbered := by
  refine hrun.keeps (I := fun s => s.ledger.Numbered) ?_ ?_ id ?_ hfresh.numbered
  · exact fun hmeets => SessionCore.call_numbered (hspares _ _ hmeets)
  · exact fun _ _ => SessionCore.frame_numbered _
  · exact fun h => h.of_same rfl rfl (fun _ _ => id) fun _ => id

theorem Act.Thrifty.spares {s : SessionCore} {act : Act} (h : act.Thrifty s) :
    act.Spares s := by
  cases act with
  | call call => cases call <;> first | exact h | trivial
  | _ => trivial

theorem Trace.Fresh.ranged {config : Config} {first : Trace}
    (h : Trace.Fresh config first) : first.core.ledger.Ranged := by
  refine (h.books.preserves (I := fun u : SessionCore =>
    u.ledger.Numbered ∧ u.ledger.Ranged) ?_ ⟨fresh_numbered config, nofun⟩).2
  rintro u v entry hallowed hstep ⟨hu, hranged⟩
  refine ⟨hstep.numbered ?_ hu, hstep.ranged hu ?_ hranged⟩
  · cases entry <;> trivial
  · rintro number rfl
    exact hallowed.elim

theorem Trace.Run.ranged {config : Config} {first last : Trace}
    (hfresh : Trace.Fresh config first)
    (hrun : Trace.Run (fun trace act => act.Thrifty trace.core) first last) :
    last.core.ledger.Ranged := by
  refine (hrun.keeps (I := fun s => s.ledger.Numbered ∧ s.ledger.Ranged) ?_ ?_ id ?_
    ⟨hfresh.numbered, hfresh.ranged⟩).2
  · exact fun hmeets h => ⟨SessionCore.call_numbered hmeets.spares h.1,
      SessionCore.call_ranged hmeets hmeets.spares h.1 h.2⟩
  · exact fun _ _ h => ⟨SessionCore.frame_numbered _ h.1, SessionCore.frame_ranged _ h.1 h.2⟩
  · exact fun h => ⟨h.1.of_same rfl rfl (fun _ _ => id) fun _ => id, h.2⟩

/-! ## The channels a session opens -/

namespace Ledger

variable {l l' : Ledger} {entry : Entry} {number : UInt32}

theorem Step.opens_owned (h : l.Step entry l') (hnumbered : l.Numbered)
    (hopen : (l'.table number).isSome) :
    (l.table number).isSome ∨
      (entry = .welcomed number ∧ l.role.owns number = false) ∨
      ((∃ msgno profile, entry = .answered msgno number profile) ∧
        l.role.owns number) := by
  rcases h.opens hopen with hold | rfl | ⟨msgno, profile, rfl⟩
  · exact .inl hold
  · cases h with
    | welcomed _ howns => exact .inr (.inl ⟨rfl, howns⟩)
  · cases h with
    | answered hstart =>
        exact .inr (.inr ⟨⟨_, _, rfl⟩, (hnumbered.starts_owned _ _ hstart).1⟩)

/-- The numbers opened since some books were kept are of one kind. -/
structure Grown (kind : UInt32 → Prop) (first l : Ledger) : Prop where
  numbered : l.Numbered
  role : l.role = first.role
  opened : ∀ number, (l.table number).isSome →
    (first.table number).isSome ∨ kind number

theorem Grown.refl {kind : UInt32 → Prop} (h : l.Numbered) : Grown kind l l :=
  ⟨h, rfl, fun _ => .inl⟩

theorem Grown.step {kind : UInt32 → Prop} {first : Ledger} (h : Grown kind first l)
    (hstep : l.Step entry l') (hrange : entry.InRange)
    (hwelcomed : ∀ number, entry = .welcomed number →
      first.role.owns number = false → kind number)
    (hanswered : ∀ msgno number profile, entry = .answered msgno number profile →
      first.role.owns number → kind number) : Grown kind first l' := by
  refine ⟨hstep.numbered hrange h.numbered, hstep.role.trans h.role, ?_⟩
  intro number hopen
  rcases hstep.opens_owned h.numbered hopen with
    hold | ⟨heq, howns⟩ | ⟨⟨msgno, profile, heq⟩, howns⟩
  · exact h.opened number hold
  · exact .inr (hwelcomed number heq (h.role ▸ howns))
  · exact .inr (hanswered msgno number profile heq (h.role ▸ howns))

end Ledger

/-- The parity of a channel that an act opens: the peer's for a start it accepts, this
end's otherwise. -/
def Act.Opens (s : SessionCore) (number : UInt32) : Act → Prop
  | .call (.acceptStart _ _ _) => s.config.role.owns number = false
  | _ => s.config.role.owns number

theorem Trace.act_opens {trace : Trace} (h : trace.core.ledger.Numbered) {act : Act}
    (hspares : act.Spares trace.core) {number : UInt32}
    (hclosed : trace.core.channels number = none)
    (hopen : ((trace.act act).core.channels number).isSome) :
    act.Opens trace.core number := by
  have hgrown : ∀ {s : SessionCore},
      Ledger.Grown (fun number => act.Opens trace.core number) trace.core.ledger
        s.ledger → (s.channels number).isSome → act.Opens trace.core number := by
    intro s hgrown hopen
    have hsome : (s.ledger.table number).isSome := by
      rwa [SessionCore.table_ledger, Option.isSome_map]
    rcases hgrown.opened number hsome with hold | hkind
    · rw [SessionCore.table_ledger, hclosed] at hold
      cases hold
    · exact hkind
  cases act with
  | call call =>
      refine hgrown ?_ hopen
      refine (SessionCore.call_inRange hspares).preserves
        (I := fun u : SessionCore => Ledger.Grown
          (fun number => Act.Opens trace.core number (.call call)) trace.core.ledger
          u.ledger) ?_ (.refl h)
      intro u v entry hallowed hstep hgrown
      refine hgrown.step hstep hallowed.2 ?_ ?_
      · rintro other rfl howns
        cases call <;> first | exact howns | exact False.elim hallowed.1 | cases hallowed.1
      · rintro msgno other profile rfl howns
        cases call <;> first | exact howns | exact False.elim hallowed.1
  | input octets =>
      refine hgrown ?_ hopen
      refine trace.session.handleInput_preserves octets
        (I := fun u : SessionCore => Ledger.Grown
          (fun number => Act.Opens trace.core number (.input octets)) trace.core.ledger
          u.ledger) ?_ (.refl h)
      intro core frame _ hcore
      refine (SessionCore.keeps_handleFrame frame core).preserves
        (I := fun u : SessionCore => Ledger.Grown
          (fun number => Act.Opens trace.core number (.input octets)) trace.core.ledger
          u.ledger) ?_ hcore
      intro u v entry hallowed hstep hgrown
      refine hgrown.step hstep (SessionCore.frame_inRange entry hallowed) ?_ ?_
      · rintro other rfl -
        cases frame
        · exact hallowed.elim fun _ h => h.2.elim
        · exact hallowed.elim
      · exact fun _ _ _ _ howns => howns
  | pollTransmit =>
      rw [act_pollTransmit_core, hclosed] at hopen
      cases hopen
  | pollEvent =>
      rw [act_pollEvent_core, hclosed] at hopen
      cases hopen

/-- The numbers a state keeps apart. -/
structure SessionCore.WellNumbered (s : SessionCore) : Prop where
  table : ∀ number, (s.channels number).isSome → 1 ≤ number ∧ number ≤ maxChannelNo
  started : ∀ profile number t, s.nextChannel ≤ maxChannelNo →
    SessionCore.startChannel profile s = .ok number t →
      1 ≤ number ∧ number ≤ maxChannelNo ∧ s.config.role.owns number ∧
        s.channels number = none ∧ ∀ msgno, s.pending msgno ≠ some (.start number)

theorem one_le_of_ne_zero {number : UInt32} (h : number ≠ 0) : 1 ≤ number := by
  rw [UInt32.le_iff_toNat_le]
  have hone : (1 : UInt32).toNat = 1 := rfl
  have hzero : number.toNat ≠ 0 := fun hzero => h (UInt32.toNat_inj.mp hzero)
  omega

theorem Ledger.Numbered.wellNumbered {s : SessionCore} (h : s.ledger.Numbered)
    (hranged : s.ledger.Ranged) : s.WellNumbered := by
  refine ⟨fun number hopen => ?_, fun profile number t hle hstart => ?_⟩
  · have hsome : (s.ledger.table number).isSome := by
      rwa [SessionCore.table_ledger, Option.isSome_map]
    exact ⟨one_le_of_ne_zero (h.table_ne number hsome), hranged number hsome⟩
  · obtain ⟨-, rfl⟩ := SessionCore.startChannel_ok hstart
    have howns : s.config.role.owns s.nextChannel := h.next_owned
    refine ⟨one_le_of_ne_zero ?_, hle, howns, ?_, ?_⟩
    · intro hzero
      rw [hzero, Role.owns_iff] at howns
      exact howns.2 rfl
    · by_contra hopen
      rw [← ne_eq, ← Option.isSome_iff_ne_none] at hopen
      have hsome : (s.ledger.table s.nextChannel).isSome := by
        rwa [SessionCore.table_ledger, Option.isSome_map]
      exact UInt32.lt_irrefl _ (h.table_lt _ hsome howns)
    · exact fun msgno hpending =>
        UInt32.lt_irrefl _ (h.starts_owned msgno _ hpending).2.2

/-- While there are numbers for the channels that are asked for and accepted, every
number in the table is in range, every channel has its opener's parity and every number
asked for is a free one of this end's. -/
theorem Trace.Run.channel_numbers {config : Config} {first last : Trace}
    (hfresh : Trace.Fresh config first)
    (hrun : Trace.Run (fun trace act => act.Thrifty trace.core) first last) :
    last.core.WellNumbered ∧
      ∀ act number, act.Thrifty last.core → last.core.channels number = none →
        ((last.act act).core.channels number).isSome →
          act.Opens last.core number := by
  have hnumbered := hrun.numbered hfresh fun _ _ h => h.spares
  exact ⟨hnumbered.wellNumbered (hrun.ranged hfresh),
    fun act number hthrifty => Trace.act_opens hnumbered hthrifty.spares⟩

/-- The peer starts channel 1, and this end asks for channel 2. -/
theorem channel_numbers_two :
    ∃ first last t, Trace.Fresh (Config.new .listener) first ∧
      last = first.replay [.input (peerFrame .rpy 0 0 0 Greeting.new.toPayload ++
        startRequest 1 0 52), .call (.acceptStart 1 0 (.new "urn:x"))] ∧
      SessionCore.startChannel (.new "urn:x") last.core = .ok 2 t ∧
      last.core.channels 2 = none := by
  have hrun : (Session.new (Config.new .listener)).toOption.any fun session =>
      let last := Trace.replay ⟨session, []⟩
        [.input (peerFrame .rpy 0 0 0 Greeting.new.toPayload ++ startRequest 1 0 52),
          .call (.acceptStart 1 0 (.new "urn:x"))]
      decide (last.core.nextChannel ≤ maxChannelNo) &&
        match SessionCore.startChannel (.new "urn:x") last.core with
        | .ok number _ => number = 2
        | .error _ _ => false := by
    decide +kernel
  obtain ⟨session, hnew⟩ := Session.new_ok (Config.new .listener)
  rw [hnew] at hrun
  simp only [Except.toOption, Option.any_some, Bool.and_eq_true,
    decide_eq_true_eq] at hrun
  obtain ⟨hle, hstart⟩ := hrun
  split at hstart
  · rename_i number t hok
    obtain rfl : number = 2 := by simpa using hstart
    have hreplay : Trace.Run (fun trace act => act.Thrifty trace.core) ⟨session, []⟩
        (Trace.replay ⟨session, []⟩ [.input (peerFrame .rpy 0 0 0
          Greeting.new.toPayload ++ startRequest 1 0 52),
          .call (.acceptStart 1 0 (.new "urn:x"))]) := by
      refine Trace.Run.replay_of _ fun act hmem trace => ?_
      simp only [List.mem_cons, List.not_mem_nil, or_false] at hmem
      rcases hmem with rfl | rfl
      · trivial
      · exact fun _ => by decide
    obtain ⟨hwell, -⟩ := Trace.Run.channel_numbers (.new hnew) hreplay
    exact ⟨⟨session, []⟩, _, t, .new hnew, rfl, hok,
      (hwell.started _ _ _ hle hok).2.2.2.1⟩
  · cases hstart

/-- A channel number beyond the range is taken into the table. -/
theorem channel_number_out_of_range :
    ∃ first last, Trace.Fresh (Config.new .listener) first ∧
      last = first.replay [.input (peerFrame .rpy 0 0 0 Greeting.new.toPayload ++
        startRequest 2147483649 0 52),
        .call (.acceptStart 2147483649 0 (.new "urn:x"))] ∧
      (last.core.channels 2147483649).isSome ∧
      ¬ (2147483649 : UInt32) ≤ maxChannelNo := by
  have hrun : (Session.new (Config.new .listener)).toOption.any fun session =>
      ((Trace.replay ⟨session, []⟩ [.input (peerFrame .rpy 0 0 0
        Greeting.new.toPayload ++ startRequest 2147483649 0 52),
        .call (.acceptStart 2147483649 0 (.new "urn:x"))]).core.channels
          2147483649).isSome := by
    decide +kernel
  obtain ⟨session, hnew⟩ := Session.new_ok (Config.new .listener)
  rw [hnew] at hrun
  exact ⟨⟨session, []⟩, _, .new hnew, rfl, hrun, by decide⟩

end Vortice.Proto
