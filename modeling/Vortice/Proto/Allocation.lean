import Vortice.Foundation.Ring
import Vortice.Proto.Methods

/-!
# Message numbers handed out

A channel hands its message numbers out from where it left off, round and round,
and passes over those that are in use.  A `Holder` is a channel with the numbers
its user has been given and has not released.
-/

namespace Vortice.Proto

open Vortice.Foundation

/-- How many message numbers there are. -/
def msgNoCount : Nat := maxMsgNo.toNat + 1

theorem lt_msgNoCount {msgno : UInt32} : msgno.toNat < msgNoCount ↔ msgno ≤ maxMsgNo := by
  rw [UInt32.le_iff_toNat_le, msgNoCount, Nat.lt_succ_iff]

namespace Channel

/-- The number after a message number, the first one after the last. -/
def nextAfter (msgno : UInt32) : UInt32 := if msgno = maxMsgNo then 0 else msgno + 1

theorem toNat_nextAfter {msgno : UInt32} (h : msgno ≤ maxMsgNo) :
    (nextAfter msgno).toNat = Ring.after msgNoCount msgno.toNat 1 := by
  have hcount : msgNoCount = 2147483648 := rfl
  rw [UInt32.le_iff_toNat_le, toNat_maxMsgNo] at h
  rw [nextAfter, Ring.after, hcount]
  split
  · rename_i hmax
    rw [hmax]
    rfl
  · rename_i hmax
    have hne : msgno.toNat ≠ 2147483647 := fun heq => hmax (UInt32.toNat_inj.mp heq)
    have hone : (1 : UInt32).toNat = 1 := rfl
    rw [UInt32.toNat_add, hone]
    omega

theorem nextAfter_le {msgno : UInt32} (h : msgno ≤ maxMsgNo) : nextAfter msgno ≤ maxMsgNo :=
  SessionCore.next_msgno_le h

/-- The channel once a message number has been taken. -/
def holding (channel : Channel) (msgno : UInt32) : Channel :=
  { channel with
    outstanding := insert msgno channel.outstanding
    nextMsgno := nextAfter msgno }

/-- What a search of `fuel` steps comes to. -/
inductive Scanned (used : Nat → Prop) (channel : Channel) (fuel : Nat) :
    EStateM.Result Fault Channel UInt32 → Prop where
  | found {msgno : UInt32} {steps : Nat} : msgno ≤ maxMsgNo → steps < fuel →
      msgno.toNat = Ring.after msgNoCount channel.nextMsgno.toNat steps →
      ¬ used msgno.toNat →
      (∀ earlier < steps, used (Ring.after msgNoCount channel.nextMsgno.toNat earlier)) →
      Scanned used channel fuel (.ok msgno (channel.holding msgno))
  | exhausted {next : UInt32} : next ≤ maxMsgNo →
      next.toNat = Ring.after msgNoCount channel.nextMsgno.toNat fuel →
      (∀ steps < fuel, used (Ring.after msgNoCount channel.nextMsgno.toNat steps)) →
      Scanned used channel fuel
        (.error (.error .msgNoExhausted) { channel with nextMsgno := next })

/-- A search takes the first number that is not in use, or passes `fuel` that are. -/
theorem allocateMsgnoLoop_scanned {used : Nat → Prop} (fuel : Nat) (channel : Channel)
    (hused : ∀ place < msgNoCount, UInt32.ofNat place ∈ channel.outstanding ↔ used place)
    (hnext : channel.nextMsgno ≤ maxMsgNo) :
    Scanned used channel fuel (allocateMsgnoLoop fuel channel) := by
  have hlt := lt_msgNoCount.mpr hnext
  induction fuel generalizing channel with
  | zero => exact .exhausted hnext (Ring.after_zero hlt).symm nofun
  | succ fuel ih =>
      have hfirst : channel.nextMsgno ∈ channel.outstanding ↔
          used channel.nextMsgno.toNat := by
        rw [← hused _ hlt, UInt32.ofNat_toNat]
      rw [SessionCore.allocateMsgnoLoop_succ]
      by_cases htaken : channel.nextMsgno ∈ channel.outstanding
      · have hle := nextAfter_le hnext
        -- What is so many steps after the next number is one step more after this one.
        have hshift : ∀ steps, Ring.after msgNoCount (nextAfter channel.nextMsgno).toNat
            steps = Ring.after msgNoCount channel.nextMsgno.toNat (steps + 1) := by
          intro steps
          rw [toNat_nextAfter hnext, Ring.after_after, Nat.add_comm]
        have hpassed : ∀ {bound : Nat}, (∀ steps < bound, used
            (Ring.after msgNoCount (nextAfter channel.nextMsgno).toNat steps)) →
            ∀ steps < bound + 1,
              used (Ring.after msgNoCount channel.nextMsgno.toNat steps) := by
          intro bound h steps hsteps
          cases steps with
          | zero =>
              rw [Ring.after_zero hlt]
              exact hfirst.mp htaken
          | succ steps =>
              rw [← hshift]
              exact h steps (Nat.lt_of_succ_lt_succ hsteps)
        have hrest := ih { channel with nextMsgno := nextAfter channel.nextMsgno } hused
          hle (lt_msgNoCount.mpr hle)
        simp only [htaken, not_true, if_false]
        change Scanned used channel (fuel + 1) (allocateMsgnoLoop fuel
          { channel with nextMsgno := nextAfter channel.nextMsgno })
        generalize allocateMsgnoLoop fuel
          { channel with nextMsgno := nextAfter channel.nextMsgno } = result at hrest ⊢
        cases hrest with
        | found hmsgno hsteps hplace hfree hearlier =>
            exact .found hmsgno (Nat.succ_lt_succ hsteps) (hplace.trans (hshift _)) hfree
              (hpassed hearlier)
        | exhausted hnext' hplace hall =>
            exact .exhausted hnext' (hplace.trans (hshift _)) (hpassed hall)
      · simp only [htaken, not_false_eq_true, if_true]
        exact .found hnext (Nat.succ_pos _) (Ring.after_zero hlt).symm
          (fun hplace => htaken (hfirst.mpr hplace)) nofun

theorem reserveMsgno_eq (msgno : UInt32) (channel : Channel) :
    reserveMsgno msgno channel =
      if msgno > maxMsgNo then
        .error (.error (.valueOutOfRange "msgno" maxMsgNo)) channel
      else if msgno ∈ channel.outstanding then
        .error (.error (.msgNoInUse msgno)) channel
      else .ok () (channel.holding msgno) := by
  rw [reserveMsgno]
  split
  · rfl
  · change (if msgno ∈ channel.outstanding then _ else _ : Op Channel Unit) channel = _
    split <;> rfl

end Channel

/-- A call about the message numbers of a channel. -/
inductive Numbering where
  | allocate
  | reserve (msgno : UInt32)
  | release (msgno : UInt32)

/-- A channel, and the numbers handed out by it and not yet released. -/
structure Holder where
  channel : Channel
  held : List UInt32

namespace Holder

def fresh (number : UInt32) (profile : String) (windowSize : UInt32) : Holder :=
  ⟨Channel.withWindowSize number profile windowSize, []⟩

def act (holder : Holder) : Numbering → Holder
  | .allocate =>
      match holder.channel.allocateMsgno with
      | .ok msgno channel => ⟨channel, msgno :: holder.held⟩
      | .error _ channel => { holder with channel }
  | .reserve msgno =>
      match Channel.reserveMsgno msgno holder.channel with
      | .ok _ channel => ⟨channel, msgno :: holder.held⟩
      | .error _ channel => { holder with channel }
  | .release msgno => ⟨holder.channel.releaseMsgno msgno, holder.held.erase msgno⟩

def run (holder : Holder) (calls : List Numbering) : Holder := calls.foldl act holder

/-- A number is one of those that are held. -/
def Holds (holder : Holder) (place : Nat) : Prop := UInt32.ofNat place ∈ holder.held

theorem holds_toNat (holder : Holder) (msgno : UInt32) :
    holder.Holds msgno.toNat ↔ msgno ∈ holder.held := by
  rw [Holds, UInt32.ofNat_toNat]

/-- The channel knows which numbers are held. -/
structure Sound (holder : Holder) : Prop where
  distinct : holder.held.Nodup
  inRange : ∀ msgno ∈ holder.held, msgno ≤ maxMsgNo
  outstanding : ∀ msgno, msgno ∈ holder.channel.outstanding ↔ msgno ∈ holder.held
  next : holder.channel.nextMsgno ≤ maxMsgNo

variable {holder : Holder} {msgno : UInt32}

theorem sound_fresh (number : UInt32) (profile : String) (windowSize : UInt32) :
    (fresh number profile windowSize).Sound where
  distinct := .nil
  inRange := nofun
  outstanding := fun _ => ⟨fun h => absurd h (Finset.notMem_empty _), nofun⟩
  next := (by decide : (0 : UInt32) ≤ maxMsgNo)

theorem Sound.hold (h : holder.Sound) (hle : msgno ≤ maxMsgNo) (hfree : msgno ∉ holder.held) :
    Sound ⟨holder.channel.holding msgno, msgno :: holder.held⟩ where
  distinct := h.distinct.cons hfree
  inRange := fun other hother => by
    rcases List.mem_cons.mp hother with rfl | hother
    · exact hle
    · exact h.inRange other hother
  outstanding := fun other => by
    rw [Channel.holding, Finset.mem_insert, List.mem_cons, h.outstanding]
  next := Channel.nextAfter_le hle

theorem Sound.release (h : holder.Sound) (msgno : UInt32) :
    Sound ⟨holder.channel.releaseMsgno msgno, holder.held.erase msgno⟩ where
  distinct := h.distinct.erase msgno
  inRange := fun other hother => h.inRange other (List.mem_of_mem_erase hother)
  outstanding := fun other => by
    rw [Channel.releaseMsgno, Finset.mem_erase, h.distinct.mem_erase_iff, h.outstanding]
  next := h.next

/-- What allocating comes to: the first number that is not held, or none at all. -/
def Allocates (holder : Holder) : Prop :=
  match holder.channel.allocateMsgno with
  | .ok msgno channel =>
      Ring.FirstFree msgNoCount holder.Holds
        holder.channel.nextMsgno.toNat msgno.toNat ∧
      channel = holder.channel.holding msgno
  | .error fault channel =>
      fault = .error .msgNoExhausted ∧ channel = holder.channel ∧
        ∀ msgno ≤ maxMsgNo, msgno ∈ holder.held

/-- What reserving comes to: the number, unless it is held or out of range. -/
def Reserves (holder : Holder) (msgno : UInt32) : Prop :=
  match Channel.reserveMsgno msgno holder.channel with
  | .ok _ channel =>
      msgno ≤ maxMsgNo ∧ msgno ∉ holder.held ∧ channel = holder.channel.holding msgno
  | .error _ channel =>
      (maxMsgNo < msgno ∨ msgno ∈ holder.held) ∧ channel = holder.channel

theorem Sound.scanned (h : holder.Sound) :
    Channel.Scanned holder.Holds holder.channel
      msgNoCount holder.channel.allocateMsgno :=
  Channel.allocateMsgnoLoop_scanned _ _ (fun _ _ => h.outstanding _) h.next

theorem Sound.allocates (h : holder.Sound) : holder.Allocates := by
  have hscanned := h.scanned
  rw [Allocates]
  generalize holder.channel.allocateMsgno = result at hscanned ⊢
  have hlt := lt_msgNoCount.mpr h.next
  cases hscanned with
  | found _ hsteps hplace hfree hearlier =>
      exact ⟨⟨_, hsteps, hplace, hfree, hearlier⟩, rfl⟩
  | exhausted _ hplace hall =>
      refine ⟨rfl, ?_, fun msgno hle => ?_⟩
      · -- The search has come round to where it began.
        rw [Ring.after_size hlt] at hplace
        rw [UInt32.toNat_inj.mp hplace]
      · have hheld : holder.Holds msgno.toNat :=
          Ring.used_of_round hlt hall (lt_msgNoCount.mpr hle)
        exact (holder.holds_toNat msgno).mp hheld

theorem Sound.reserves (h : holder.Sound) (msgno : UInt32) : holder.Reserves msgno := by
  rw [Reserves, Channel.reserveMsgno_eq]
  by_cases hlarge : msgno > maxMsgNo
  · rw [if_pos hlarge]
    exact ⟨.inl hlarge, rfl⟩
  rw [if_neg hlarge]
  by_cases hused : msgno ∈ holder.channel.outstanding
  · rw [if_pos hused]
    exact ⟨.inr ((h.outstanding msgno).mp hused), rfl⟩
  · rw [if_neg hused]
    exact ⟨UInt32.not_lt.mp hlarge, fun hheld => hused ((h.outstanding msgno).mpr hheld), rfl⟩

theorem Sound.act (h : holder.Sound) (call : Numbering) : (holder.act call).Sound := by
  cases call with
  | allocate =>
      have hallocates := h.allocates
      rw [Holder.act]
      rw [Allocates] at hallocates
      cases hrun : holder.channel.allocateMsgno with
      | ok msgno channel =>
          rw [hrun] at hallocates
          obtain ⟨hfirst, rfl⟩ := hallocates
          obtain ⟨hlt, hfree⟩ := hfirst.lt
          rw [holds_toNat] at hfree
          exact h.hold (lt_msgNoCount.mp hlt) hfree
      | error fault channel =>
          rw [hrun] at hallocates
          obtain ⟨-, rfl, -⟩ := hallocates
          exact h
  | reserve msgno =>
      have hreserves := h.reserves msgno
      rw [Holder.act]
      rw [Reserves] at hreserves
      cases hrun : Channel.reserveMsgno msgno holder.channel with
      | ok _ channel =>
          rw [hrun] at hreserves
          obtain ⟨hle, hfree, rfl⟩ := hreserves
          exact h.hold hle hfree
      | error fault channel =>
          rw [hrun] at hreserves
          obtain ⟨-, rfl⟩ := hreserves
          exact h
  | release msgno => exact h.release msgno

theorem Sound.run (h : holder.Sound) (calls : List Numbering) : (holder.run calls).Sound := by
  induction calls generalizing holder with
  | nil => exact h
  | cons call calls ih => exact ih (h.act call)

theorem Allocates.fails_iff (h : holder.Allocates) :
    Computation.Fails Channel.allocateMsgno holder.channel ↔
      ∀ msgno ≤ maxMsgNo, msgno ∈ holder.held := by
  rw [Allocates] at h
  cases hrun : holder.channel.allocateMsgno with
  | ok msgno channel =>
      rw [hrun] at h
      obtain ⟨hlt, hfree⟩ := h.1.lt
      rw [holds_toNat] at hfree
      refine ⟨?_, fun hall => absurd (hall msgno (lt_msgNoCount.mp hlt)) hfree⟩
      rintro ⟨fault, other, hfails⟩
      rw [hrun] at hfails
      cases hfails
  | error fault channel =>
      rw [hrun] at h
      exact ⟨fun _ => h.2.2, fun _ => ⟨fault, channel, hrun⟩⟩

theorem Reserves.fails_iff (h : holder.Reserves msgno) :
    Computation.Fails (Channel.reserveMsgno msgno) holder.channel ↔
      msgno ∈ holder.held ∨ maxMsgNo < msgno := by
  rw [Reserves] at h
  cases hrun : Channel.reserveMsgno msgno holder.channel with
  | ok _ channel =>
      rw [hrun] at h
      obtain ⟨hle, hfree, -⟩ := h
      refine ⟨?_, fun hrefused => ?_⟩
      · rintro ⟨fault, other, hfails⟩
        rw [hrun] at hfails
        cases hfails
      · rcases hrefused with hheld | hlt
        · exact absurd hheld hfree
        · exact absurd hle (UInt32.not_le.mpr hlt)
  | error fault channel =>
      rw [hrun] at h
      exact ⟨fun _ => h.1.symm, fun _ => ⟨fault, channel, hrun⟩⟩

/-- Whatever is asked for and released, no number is held twice or out of range, allocating
takes the first one that is not held, and a call fails only when it has to, changing
nothing. -/
theorem run_numbering (number : UInt32) (profile : String) (windowSize : UInt32)
    (calls : List Numbering) :
    let holder := (fresh number profile windowSize).run calls
    holder.held.Nodup ∧ (∀ msgno ∈ holder.held, msgno ≤ maxMsgNo) ∧
      holder.Allocates ∧
      (Computation.Fails Channel.allocateMsgno holder.channel ↔
        ∀ msgno ≤ maxMsgNo, msgno ∈ holder.held) ∧
      ∀ msgno, holder.Reserves msgno ∧
        (Computation.Fails (Channel.reserveMsgno msgno) holder.channel ↔
          msgno ∈ holder.held ∨ maxMsgNo < msgno) := by
  have hsound := (sound_fresh number profile windowSize).run calls
  exact ⟨hsound.distinct, hsound.inRange, hsound.allocates, hsound.allocates.fails_iff,
    fun msgno => ⟨hsound.reserves msgno, (hsound.reserves msgno).fails_iff⟩⟩

/-- Numbers are handed out past the last one from 0 again. -/
example : ((fresh 1 "" 4096).run
    [.reserve 2147483647, .allocate, .release 0, .allocate]).held = [1, 2147483647] := by
  decide

end Holder

end Vortice.Proto
