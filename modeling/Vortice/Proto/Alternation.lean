import Vortice.Proto.Numbers

/-!
# Openings and closings of a channel number

Every opening of a number is followed by one closing before the next opening, as
long as a close is only accepted, and an answer to one only taken, for a channel
that is in the table.
-/

namespace Vortice.Proto

open Vortice.Foundation

/-! ## Turns -/

/-- An opening of the number, or a closing. -/
def Action.turn (number : UInt32) : Action → Option Bool
  | .opened other => if other = number then some true else none
  | .dropped other => if other = number then some false else none
  | _ => none

/-- The openings and closings of a number, in order. -/
def turns (number : UInt32) (history : List Action) : List Bool :=
  history.filterMap (Action.turn number)

/-- No opening of the number waits for its closing. -/
def Vacant (number : UInt32) (history : List Action) : Prop :=
  (turns number history).getLast? ≠ some true

/-- The number is in the channel table after these actions. -/
def standing (number : UInt32) (history : List Action) : Bool :=
  history.foldl (fun standing action =>
    match action with
    | .opened other => standing || other = number
    | .dropped other => standing && other ≠ number && other ≠ greetingChannel
    | _ => standing) false

/-- Each closing of the number finds it in the table, and closings and openings take
turns, an opening first. -/
structure Alternates (number : UInt32) (history : List Action) : Prop where
  closes_standing : ∀ before after,
    history = before ++ .dropped number :: after → standing number before
  takes_turns : (false :: turns number history).IsChain (· ≠ ·)

/-- The session was closed while the number was in the channel table. -/
def CutOff (number : UInt32) (history : List Action) : Prop :=
  ∃ before, before ++ [.dropped greetingChannel] <+: history ∧ standing number before

/-- The action neither opens nor closes the number. -/
def Action.Quiet (number : UInt32) (action : Action) : Prop :=
  action.turn number = none ∧ action ≠ .dropped greetingChannel

theorem turns_append (number : UInt32) (first second : List Action) :
    turns number (first ++ second) = turns number first ++ turns number second :=
  List.filterMap_append ..

example : turns 1 [.opened 1, .dropped 3, .dropped 1, .opened 1] = [true, false, true] :=
  rfl

section Snoc

variable {number : UInt32} {history : List Action} {action : Action}

theorem turns_quiet (h : action.turn number = none) :
    turns number (history ++ [action]) = turns number history := by
  rw [turns_append]
  simp [turns, h]

theorem standing_quiet (h : action.Quiet number) :
    standing number (history ++ [action]) = standing number history := by
  obtain ⟨hturn, hzero⟩ := h
  rw [standing, List.foldl_append, ← standing]
  cases action <;> simp_all [Action.turn]

theorem standing_opened :
    standing number (history ++ [.opened number]) = true := by
  rw [standing, List.foldl_append, ← standing]
  simp

theorem standing_dropped {other : UInt32} (h : other = number ∨ other = greetingChannel) :
    standing number (history ++ [.dropped other]) = false := by
  rw [standing, List.foldl_append, ← standing]
  rcases h with rfl | rfl <;> simp

theorem not_cutOff_nil : ¬ CutOff number [] := by
  rintro ⟨before, hbegins, -⟩
  exact List.append_ne_nil_of_right_ne_nil before (by simp) (List.prefix_nil.mp hbegins)

theorem cutOff_snoc : CutOff number (history ++ [action]) ↔
    CutOff number history ∨ action = .dropped greetingChannel ∧ standing number history := by
  constructor
  · rintro ⟨before, hbegins, hstanding⟩
    rcases List.prefix_concat_iff.mp hbegins with heq | hbegins
    · obtain ⟨rfl, hlast⟩ := List.append_inj' heq rfl
      exact .inr ⟨(List.singleton_injective hlast).symm, hstanding⟩
    · exact .inl ⟨before, hbegins, hstanding⟩
  · rintro (⟨before, hbegins, hstanding⟩ | ⟨rfl, hstanding⟩)
    · exact ⟨before, hbegins.trans (List.prefix_append _ _), hstanding⟩
    · exact ⟨history, List.prefix_rfl, hstanding⟩

theorem Alternates.snoc (h : Alternates number history)
    (hcloses : action = .dropped number → standing number history)
    (hturns : (false :: turns number (history ++ [action])).IsChain (· ≠ ·)) :
    Alternates number (history ++ [action]) := by
  refine ⟨fun before after heq => ?_, hturns⟩
  cases after using List.reverseRecOn with
  | nil =>
      obtain ⟨rfl, hlast⟩ := List.append_inj' heq rfl
      exact hcloses (List.singleton_injective hlast)
  | append_singleton after last _ =>
      rw [← List.cons_append, ← List.append_assoc] at heq
      obtain ⟨hhistory, -⟩ := List.append_inj' heq rfl
      exact h.closes_standing before after hhistory

theorem Alternates.quiet (h : Alternates number history)
    (hturn : action.turn number = none) : Alternates number (history ++ [action]) := by
  refine h.snoc ?_ (by rw [turns_quiet hturn]; exact h.takes_turns)
  rintro rfl
  simp [Action.turn] at hturn

theorem Alternates.chain_snoc (h : Alternates number history) {turn : Bool}
    (hlast : (false :: turns number history).getLast? ≠ some turn) :
    (false :: (turns number history ++ [turn])).IsChain (· ≠ ·) := by
  rw [← List.cons_append, List.isChain_append]
  refine ⟨h.takes_turns, List.isChain_singleton _, ?_⟩
  intro last hmem first hfirst
  obtain rfl : first = turn := by simpa using hfirst.symm
  rintro rfl
  exact hlast hmem

theorem Alternates.opened (h : Alternates number history)
    (hvacant : Vacant number history) :
    Alternates number (history ++ [.opened number]) := by
  refine h.snoc nofun ?_
  rw [turns_append]
  have hturn : turns number [.opened number] = [true] := by simp [turns, Action.turn]
  rw [hturn]
  refine h.chain_snoc ?_
  rw [List.getLast?_cons]
  unfold Vacant at hvacant
  cases hlast : (turns number history).getLast? with
  | none => simp
  | some turn => simpa [hlast] using hvacant

theorem Alternates.closed (h : Alternates number history)
    (hstanding : standing number history) (hopen : ¬ Vacant number history) :
    Alternates number (history ++ [.dropped number]) := by
  refine h.snoc (fun _ => hstanding) ?_
  rw [turns_append]
  have hturn : turns number [.dropped number] = [false] := by simp [turns, Action.turn]
  rw [hturn]
  refine h.chain_snoc ?_
  unfold Vacant at hopen
  rw [not_not] at hopen
  rw [List.getLast?_cons, hopen]
  simp

end Snoc

/-! ## Books whose openings and closings take turns -/

/-- The entry opens the channel. -/
def Entry.opens (number : UInt32) : Entry → Prop
  | .answered _ other _ | .welcomed other => other = number
  | _ => False

/-- The entry closes the channel. -/
def Entry.closes (number : UInt32) : Entry → Prop
  | .agreed _ other | .closed other => other = number
  | _ => False

namespace Ledger

variable {l l' : Ledger} {entry : Entry} {number : UInt32}

/-- The openings and closings of a number take turns, and only closing the session leaves
an opening without its closing. -/
structure Orderly (number : UInt32) (l : Ledger) : Prop where
  alternates : Alternates number l.entries
  standing_eq : standing number l.entries = (l.table number).isSome
  open_turn : (l.table number).isSome → ¬ Vacant number l.entries
  vacant : l.table number = none → ¬ CutOff number l.entries → Vacant number l.entries
  cut : CutOff number l.entries → l.state = .closed

/-- What an entry does to one channel number. -/
inductive Turn (number : UInt32) (l : Ledger) (entry : Entry) (l' : Ledger) : Prop where
  | opened :
      entry.opens number → l'.entries = l.entries ++ [.opened number] →
      (l'.table number).isSome → Turn number l entry l'
  | closed :
      entry.closes number → l'.entries = l.entries ++ [.dropped number] →
      l'.table number = none → Turn number l entry l'
  | shut :
      entry.closes greetingChannel →
      l'.entries = l.entries ++ [.dropped greetingChannel] →
      l'.table number = none → Turn number l entry l'
  | quiet (action : Action) :
      action.Quiet number → l'.entries = l.entries ++ [action] →
      (l'.table number).isSome = (l.table number).isSome → Turn number l entry l'
  | still :
      l'.entries = l.entries →
      (l'.table number).isSome = (l.table number).isSome → Turn number l entry l'

theorem turn_open {k : Ledger} {other : UInt32} (hentries : k.entries = l.entries)
    (htable : k.table = l.table) (hentry : other = number → entry.opens number)
    (hopened : l'.entries = (k.openChannel other).entries)
    (htable' : l'.table = (k.openChannel other).table) : Turn number l entry l' := by
  by_cases hother : other = number
  · subst hother
    refine .opened (hentry rfl) ?_ ?_
    · rw [hopened, openChannel, hentries]
    · simp [htable', openChannel]
  · refine .quiet (.opened other) ?_ ?_ ?_
    · exact ⟨by simp [Action.turn, hother], by simp⟩
    · rw [hopened, openChannel, hentries]
    · simp [htable', openChannel, htable, Ne.symm hother]

theorem turn_close {k : Ledger} {other : UInt32} (hentries : k.entries = l.entries)
    (htable : k.table = l.table) (hentry : entry.closes other) :
    Turn number l entry (k.close other) := by
  unfold close
  split
  · rename_i hzero
    refine .shut (hzero ▸ hentry) ?_ ?_
    · rw [closeSession, hentries]
    · rw [closeSession]
  · rename_i hzero
    by_cases hother : other = number
    · subst hother
      refine .closed hentry ?_ ?_
      · rw [closeChannel, hentries]
      · simp [closeChannel]
    · refine .quiet (.dropped other) ?_ ?_ ?_
      · exact ⟨by simp [Action.turn, hother], by simpa using hzero⟩
      · rw [closeChannel, hentries]
      · simp [closeChannel, htable, Ne.symm hother]

theorem Step.turn (h : l.Step entry l') (number : UInt32) : Turn number l entry l' := by
  cases h with
  | @handed other message =>
      exact .quiet (.handed other message) ⟨rfl, nofun⟩ rfl rfl
  | @queued other message =>
      exact .quiet (.queued other message) ⟨rfl, nofun⟩ rfl rfl
  | @allocated other msgno book hopen _ =>
      refine .still rfl ?_
      by_cases hother : number = other
      · subst hother
        simp [hopen]
      · simp [hother]
  | @accepted frame book hopen =>
      have hunmoved := (Step.accepted hopen).unmoved
        (show Entry.receives frame (.accepted frame) from rfl)
      refine .quiet (.accepted frame) ⟨rfl, nofun⟩ ?_ (hunmoved.isOpen number)
      simp only [enter, setBook]
      split <;> rfl
  | answered => exact turn_open rfl rfl id rfl rfl
  | welcomed => exact turn_open rfl rfl id rfl rfl
  | agreed => exact turn_close rfl rfl rfl
  | closed => exact turn_close rfl rfl rfl
  | _ => exact .still rfl rfl

theorem Step.stays_closed (h : l.Step entry l') (hclosed : l.state = .closed) :
    l'.state = .closed := by
  have hclose : ∀ (k : Ledger) (number : UInt32), k.state = .closed →
      (k.close number).state = .closed := by
    intro k number hclosed
    unfold close
    split
    · rfl
    · exact hclosed
  cases h with
  | accepted =>
      simp only [enter, setBook]
      split <;> exact hclosed
  | greeted hawaits =>
      rw [hclosed] at hawaits
      cases hawaits
  | agreed => exact hclose _ _ hclosed
  | closed => exact hclose _ _ hclosed
  | _ => exact hclosed

theorem Step.closes_session (h : l.Step entry l') (hshut : entry.closes greetingChannel) :
    l'.state = .closed := by
  cases h with
  | agreed =>
      cases hshut
      rfl
  | closed =>
      cases hshut
      rfl
  | _ => exact hshut.elim

theorem Step.orderly (h : l.Step entry l') (hzero : number ≠ greetingChannel)
    (horderly : l.Orderly number)
    (hopens : entry.opens number → Vacant number l.entries)
    (hcloses : entry.closes number → (l.table number).isSome) :
    l'.Orderly number := by
  obtain ⟨halternates, hstanding, hturn, hvacant, hcut⟩ := horderly
  have hcut' : CutOff number l.entries → l'.state = .closed := fun hold =>
    h.stays_closed (hcut hold)
  cases h.turn number with
  | opened hentry hentries hopen =>
      refine ⟨?_, ?_, fun _ => ?_, fun hclosed => ?_, fun hcutoff => ?_⟩
      · rw [hentries]
        exact halternates.opened (hopens hentry)
      · rw [hentries, standing_opened, hopen]
      · rw [hentries, Vacant, turns_append]
        simp [turns, Action.turn]
      · rw [hclosed] at hopen
        cases hopen
      · rw [hentries, cutOff_snoc] at hcutoff
        exact hcut' (hcutoff.resolve_right (by simp))
  | closed hentry hentries hclosed =>
      have hopen := hcloses hentry
      refine ⟨?_, ?_, ?_, fun _ _ => ?_, fun hcutoff => ?_⟩
      · rw [hentries]
        exact halternates.closed (hstanding.trans hopen) (hturn hopen)
      · rw [hentries, standing_dropped (.inl rfl), hclosed]
        rfl
      · rw [hclosed]
        exact nofun
      · rw [hentries, Vacant, turns_append]
        simp [turns, Action.turn]
      · rw [hentries, cutOff_snoc] at hcutoff
        exact hcut' (hcutoff.resolve_right (by simp [hzero]))
  | shut hentry hentries hclosed =>
      have hnone : (Action.dropped greetingChannel).turn number = none := by
        simp [Action.turn, Ne.symm hzero]
      refine ⟨?_, ?_, ?_, fun _ hcutoff => ?_, fun _ => h.closes_session hentry⟩
      · rw [hentries]
        exact halternates.quiet hnone
      · rw [hentries, standing_dropped (.inr rfl), hclosed]
        rfl
      · rw [hclosed]
        exact nofun
      · -- the number was not in the table, or it would be cut off now
        rw [hentries, cutOff_snoc, not_or] at hcutoff
        obtain ⟨hbefore, hnow⟩ := hcutoff
        rw [hentries, Vacant, turns_quiet hnone]
        refine hvacant ?_ hbefore
        rw [← Option.not_isSome_iff_eq_none, ← hstanding]
        exact fun hopen => hnow ⟨rfl, hopen⟩
  | quiet action hquiet hentries hopen =>
      have hsame : CutOff number l'.entries ↔ CutOff number l.entries := by
        rw [hentries, cutOff_snoc]
        exact or_iff_left fun hnow => hquiet.2 hnow.1
      refine ⟨?_, ?_, ?_, fun hclosed hcutoff => ?_, fun hcutoff => hcut' (hsame.mp hcutoff)⟩
      · rw [hentries]
        exact halternates.quiet hquiet.1
      · rw [hentries, standing_quiet hquiet, hopen, hstanding]
      · rw [hentries, hopen, Vacant, turns_quiet hquiet.1]
        exact hturn
      · rw [hentries, Vacant, turns_quiet hquiet.1]
        rw [← Option.not_isSome_iff_eq_none, hopen, Option.not_isSome_iff_eq_none] at hclosed
        exact hvacant hclosed fun hold => hcutoff (hsame.mpr hold)
  | still hentries hopen =>
      refine ⟨by rwa [hentries], by rw [hentries, hopen, hstanding],
        by rw [hentries, hopen]; exact hturn, fun hclosed => ?_, ?_⟩
      · rw [← Option.not_isSome_iff_eq_none, hopen, Option.not_isSome_iff_eq_none] at hclosed
        rw [hentries]
        exact hvacant hclosed
      · rw [hentries]
        exact hcut'

/-- A number that is not in the table stays vacant until the session is closed. -/
theorem Step.vacant (h : l.Step entry l') (hshut : ¬ entry.closes greetingChannel)
    (hvacant : l.table number = none → Vacant number l.entries)
    (hclosed : l'.table number = none) : Vacant number l'.entries := by
  cases h.turn number with
  | opened _ _ hopen =>
      rw [hclosed] at hopen
      cases hopen
  | closed _ hentries _ =>
      rw [hentries, Vacant, turns_append]
      simp [turns, Action.turn]
  | shut hentry => exact absurd hentry hshut
  | quiet action hquiet hentries hopen =>
      rw [hclosed] at hopen
      rw [hentries, Vacant, turns_quiet hquiet.1]
      exact hvacant (Option.isSome_eq_false_iff.mp hopen.symm |> Option.isNone_iff_eq_none.mp)
  | still hentries hopen =>
      rw [hclosed] at hopen
      rw [hentries]
      exact hvacant (Option.isSome_eq_false_iff.mp hopen.symm |> Option.isNone_iff_eq_none.mp)

theorem Step.kept (h : l.Step entry l') (hopens : ¬ entry.opens number)
    (hcloses : ∀ other, ¬ entry.closes other) :
    (l'.table number).isSome = (l.table number).isSome ∧
      turns number l'.entries = turns number l.entries := by
  cases h.turn number with
  | opened hentry => exact absurd hentry hopens
  | closed hentry => exact absurd hentry (hcloses number)
  | shut hentry => exact absurd hentry (hcloses greetingChannel)
  | quiet action hquiet hentries hopen =>
      exact ⟨hopen, by rw [hentries, turns_quiet hquiet.1]⟩
  | still hentries hopen => exact ⟨hopen, by rw [hentries]⟩

theorem Step.pending_of {msgno : UInt32} {wanted : Pending} (h : l.Step entry l')
    (hstart : ∀ number profile, entry ≠ .askedStart msgno number profile)
    (hask : ∀ number, entry ≠ .askedClose msgno number)
    (hpending : l'.pending msgno = some wanted) : l.pending msgno = some wanted := by
  have hclose : ∀ (k : Ledger) (number : UInt32),
      (k.close number).pending = k.pending := by
    intro k number
    unfold close
    split <;> rfl
  cases h with
  | @askedStart other profile _ _ =>
      have hother : msgno ≠ other := by
        rintro rfl
        exact hstart _ _ rfl
      simpa [ask, reserve, hother] using hpending
  | @askedClose other number _ _ _ =>
      have hother : msgno ≠ other := by
        rintro rfl
        exact hask _ rfl
      simpa [ask, hother] using hpending
  | accepted =>
      simp only [enter, setBook] at hpending
      split at hpending <;> exact hpending
  | dismissed => exact pending_of_update_none hpending
  | answered => exact pending_of_update_none hpending
  | startRefused => exact pending_of_update_none hpending
  | closeRefused => exact pending_of_update_none hpending
  | agreed =>
      rw [hclose] at hpending
      exact pending_of_update_none hpending
  | closed => rwa [hclose] at hpending
  | _ => exact hpending

theorem Step.answered_pending {msgno : UInt32} {profile : Management.Profile}
    (h : l.Step (.answered msgno number profile) l') :
    l.pending msgno = some (.start number) := by
  cases h with
  | answered hpending => exact hpending

theorem Step.agreed_pending {msgno : UInt32}
    (h : l.Step (.agreed msgno number) l') :
    l.pending msgno = some (.close number) := by
  cases h with
  | agreed hpending => exact hpending

theorem Step.settled {msgno : UInt32} (h : l.Step entry l')
    (hsettles : (∃ other profile, entry = .answered msgno other profile) ∨
      ∃ other, entry = .agreed msgno other) : l'.pending msgno = none := by
  have hclose : ∀ (k : Ledger) (number : UInt32),
      (k.close number).pending = k.pending := by
    intro k number
    unfold close
    split <;> rfl
  rcases hsettles with ⟨other, profile, rfl⟩ | ⟨other, rfl⟩
  · cases h
    simp [report, openChannel, forget, settle]
  · cases h
    rw [hclose]
    simp [settle]

/-- Books in turn, about to take an answer to one request. -/
structure Awaits (number msgno : UInt32) (started agreed : Prop) (l : Ledger) : Prop where
  orderly : l.Orderly number
  vacant : started → l.pending msgno = some (.start number) → Vacant number l.entries
  isOpen : agreed → l.pending msgno = some (.close number) → (l.table number).isSome

theorem Step.awaits {msgno : UInt32} {started agreed : Prop} (h : l.Step entry l')
    (hzero : number ≠ greetingChannel)
    (hopens : entry.opens number →
      started ∧ ∃ profile, entry = .answered msgno number profile)
    (hcloses : ∀ other, entry.closes other → agreed ∧ entry = .agreed msgno other)
    (hstart : ∀ other profile, entry ≠ .askedStart msgno other profile)
    (hask : ∀ other, entry ≠ .askedClose msgno other)
    (hawaits : l.Awaits number msgno started agreed) :
    l'.Awaits number msgno started agreed := by
  have horderly : l'.Orderly number := by
    refine h.orderly hzero hawaits.orderly ?_ ?_
    · intro hentry
      obtain ⟨hstarted, profile, rfl⟩ := hopens hentry
      exact hawaits.vacant hstarted h.answered_pending
    · intro hentry
      obtain ⟨hagreed, rfl⟩ := hcloses number hentry
      exact hawaits.isOpen hagreed h.agreed_pending
  by_cases hsettles : (∃ other profile, entry = .answered msgno other profile) ∨
      ∃ other, entry = .agreed msgno other
  · have hsettled := h.settled hsettles
    refine ⟨horderly, ?_, ?_⟩ <;> rw [hsettled] <;> exact nofun
  · have hkept := h.kept
      (fun hentry => hsettles (.inl ⟨number, (hopens hentry).2⟩))
      fun other hentry => hsettles (.inr ⟨other, (hcloses other hentry).2⟩)
    obtain ⟨htable, hturns⟩ := hkept
    refine ⟨horderly, fun hstarted hpending => ?_, fun hagreed hpending => ?_⟩
    · rw [Vacant, hturns]
      exact hawaits.vacant hstarted (h.pending_of hstart hask hpending)
    · rw [htable]
      exact hawaits.isOpen hagreed (h.pending_of hstart hask hpending)

end Ledger

/-! ## Acts that keep the turns -/

/-- The session is not closed, or the channel was not open when it was. -/
def SessionCore.MayOpen (s : SessionCore) (number : UInt32) : Prop :=
  s.state = .closed → ¬ CutOff number s.history

/-- An answer to a start is taken for a channel that is not open and may be opened, and one
to a close for a channel that is open. -/
def SessionCore.TakesInTurn (s : SessionCore) (frame : DataFrame) : Prop :=
  frame.kind = .rpy →
    (∀ profile number, s.Hears frame (.profile profile) →
      s.pending frame.msgno = some (.start number) →
        s.channels number = none ∧ s.MayOpen number) ∧
    ∀ number, s.Hears frame .ok → s.pending frame.msgno = some (.close number) →
      number ≠ greetingChannel → (s.channels number).isSome

/-- A start is accepted for a channel that may be opened, and a close for one that is open;
so are the answers of the peer. -/
def Act.Orderly (trace : Trace) : Act → Prop
  | .call (.acceptStart channel _ _) =>
      trace.core.config.role.owns channel = false →
        trace.core.channels channel = none → trace.core.MayOpen channel
  | .call (.acceptClose channel msgno) =>
      channel ≠ greetingChannel → (trace.core.channels channel).isSome ∨
        Computation.Fails (SessionCore.reply .rpy msgno .ok) trace.core
  | .input octets => ∀ core frame,
      (trace.session.received octets).Meets core (.data frame) →
        core.TakesInTurn frame
  | _ => True

theorem entered_turns (number : UInt32) (history : List Action) :
    turns number (entered history) = turns number history := by
  unfold turns entered
  rw [List.filterMap_filter]
  congr 1
  funext action
  cases action <;> rfl

theorem entered_standing (number : UInt32) (history : List Action) :
    standing number (entered history) = standing number history := by
  induction history using List.reverseRecOn with
  | nil => rfl
  | append_singleton history action ih =>
      rw [entered_append, standing, standing, List.foldl_append, List.foldl_append,
        ← standing, ← standing, ih]
      cases action <;> rfl

theorem CutOff.of_entered {number : UInt32} {history : List Action}
    (h : CutOff number (entered history)) : CutOff number history := by
  induction history using List.reverseRecOn with
  | nil => exact h
  | append_singleton history action ih =>
      rw [cutOff_snoc]
      cases action with
      | wrote frame =>
          rw [entered_append, show entered [.wrote frame] = [] from rfl, List.append_nil] at h
          exact .inl (ih h)
      | _ =>
          rw [entered_append] at h
          rcases cutOff_snoc.mp h with hold | ⟨hnow, hstanding⟩
          · exact .inl (ih hold)
          · exact .inr ⟨hnow, by rwa [entered_standing] at hstanding⟩

theorem Alternates.of_entered {number : UInt32} {history : List Action}
    (h : Alternates number (entered history)) : Alternates number history := by
  refine ⟨fun before after heq => ?_, by rw [← entered_turns]; exact h.takes_turns⟩
  rw [← entered_standing]
  refine h.closes_standing (entered before) (entered after) ?_
  rw [heq, entered_append]
  rfl

namespace SessionCore

variable {s : SessionCore} {number : UInt32}

/-- A channel that is not open and may be opened has had all its openings closed. -/
theorem MayOpen.vacant (h : s.MayOpen number) (horderly : s.ledger.Orderly number)
    (hclosed : s.ledger.table number = none) : Vacant number s.ledger.entries :=
  horderly.vacant hclosed fun hcut => h (horderly.cut hcut) hcut.of_entered

theorem acceptStart_orderly {channel msgno : UInt32} {profile : Management.Profile}
    (hmay : s.config.role.owns channel = false → s.channels channel = none → s.MayOpen channel)
    (hzero : number ≠ greetingChannel) (h : s.ledger.Orderly number) :
    (Computation.final (Call.run (.acceptStart channel msgno profile)) s).ledger.Orderly
      number := by
  have hpath := keeps_call (.acceptStart channel msgno profile) s
  have hvacant : channel = number → s.ledger.role.owns number = false →
      s.ledger.table number = none → Vacant number s.ledger.entries := by
    rintro rfl howns hclosed
    exact (hmay howns (table_none_iff.mp hclosed)).vacant h hclosed
  refine (hpath.preserves (I := fun u : SessionCore => u.ledger.Orderly number ∧
    (channel = number → u.ledger.role.owns number = false →
      u.ledger.table number = none → Vacant number u.ledger.entries))
    ?_ ⟨h, hvacant⟩).1
  rintro u v entry hallowed hstep ⟨hu, hvacant⟩
  have hcloses : ∀ other, ¬ entry.closes other := by
    intro other hentry
    cases entry <;> first | exact hentry.elim | exact hallowed.elim
  refine ⟨hstep.orderly hzero hu ?_ fun hentry => absurd hentry (hcloses number), ?_⟩
  · intro hentry
    cases entry with
    | welcomed other =>
        obtain ⟨howns, hclosed⟩ := Ledger.Step.welcomed_closed hstep
        cases hentry
        exact hvacant hallowed.symm howns hclosed
    | answered => exact hallowed.elim
    | _ => exact hentry.elim
  · intro hchannel howns
    refine hstep.vacant (hcloses _) (hvacant hchannel ?_)
    rwa [← hstep.role]

theorem acceptClose_orderly {channel msgno : UInt32}
    (hin : channel ≠ greetingChannel → (s.channels channel).isSome ∨
      Computation.Fails (reply .rpy msgno .ok) s)
    (hzero : number ≠ greetingChannel) (h : s.ledger.Orderly number) :
    (Computation.final (Call.run (.acceptClose channel msgno)) s).ledger.Orderly number := by
  obtain ⟨t, hreply, hfinal⟩ := acceptClose_books channel msgno s
  -- the reply closes nothing, so the number is still there when it is closed
  obtain ⟨ht, hopen⟩ : t.ledger.Orderly number ∧
      ((s.channels number).isSome → (t.channels number).isSome) := by
    refine hreply.preserves (I := fun u : SessionCore => u.ledger.Orderly number ∧
      ((s.channels number).isSome → (u.channels number).isSome)) ?_ ⟨h, id⟩
    rintro u v entry hallowed hstep ⟨hu, hopen⟩
    refine ⟨hstep.orderly hzero hu ?_ ?_, fun hsome => ?_⟩
    · intro hentry
      cases entry <;> first | exact hentry.elim | exact hallowed.elim
    · intro hentry
      cases entry <;> first | exact hentry.elim | exact hallowed.elim
    · have hkept : (u.ledger.bookAt number).isSome →
          (v.ledger.bookAt number).isSome := hstep.bookAt_isSome
        (by rintro _ rfl; exact hallowed) (by rintro _ _ rfl; exact hallowed)
      simp only [Ledger.bookAt, hzero, if_false, table_ledger, Option.isSome_map] at hkept
      exact hkept (hopen hsome)
  change (Computation.final (acceptClose channel msgno) s).ledger.Orderly _
  rcases hfinal with hfinal | ⟨hwritten, hfinal⟩
  · rwa [hfinal]
  · rw [hfinal]
    refine (books_finishClose channel t).orderly hzero ht (fun hentry => hentry.elim)
      fun hentry => ?_
    obtain rfl : channel = number := hentry
    rw [table_ledger, Option.isSome_map]
    exact hopen ((hin hzero).resolve_right hwritten)

theorem call_orderly {trace : Trace} {call : Call}
    (hmeets : Act.Orderly trace (.call call)) (hzero : number ≠ greetingChannel)
    (h : trace.core.ledger.Orderly number) :
    (Computation.final call.run trace.core).ledger.Orderly number := by
  cases call with
  | acceptStart channel msgno profile => exact acceptStart_orderly hmeets hzero h
  | acceptClose channel msgno => exact acceptClose_orderly hmeets hzero h
  | _ =>
      refine (keeps_call _ trace.core).preserves
        (I := fun u : SessionCore => u.ledger.Orderly number) ?_ h
      intro u v entry hallowed hstep hu
      refine hstep.orderly hzero hu ?_ ?_ <;> intro hentry <;> cases entry <;>
        first | exact hentry.elim | exact hallowed.elim | cases hallowed

theorem handles_opens {frame : DataFrame} {failed : Prop} {entry : Entry}
    (h : Entry.handles s failed (.data frame) entry) (hopens : entry.opens number) :
    ∃ profile, s.Hears frame (.profile profile) ∧ frame.kind = .rpy ∧
      entry = .answered frame.msgno number profile := by
  cases entry with
  | answered =>
      obtain ⟨_, hhears, rfl, hkind, rfl⟩ := h
      cases hopens
      exact ⟨_, hhears, hkind, rfl⟩
  | welcomed =>
      obtain ⟨_, -, h⟩ := h
      exact h.elim
  | _ => exact hopens.elim

theorem handles_closes {frame : DataFrame} {failed : Prop} {entry : Entry}
    (h : Entry.handles s failed (.data frame) entry) (hcloses : entry.closes number) :
    s.Hears frame .ok ∧ frame.kind = .rpy ∧ entry = .agreed frame.msgno number := by
  cases entry with
  | agreed =>
      obtain ⟨_, hhears, rfl, hkind, rfl⟩ := h
      cases hcloses
      exact ⟨hhears, hkind, rfl⟩
  | closed =>
      obtain ⟨_, -, h⟩ := h
      exact h.elim
  | _ => exact hcloses.elim

theorem frame_orderly {frame : Frame} (hzero : number ≠ greetingChannel)
    (hturn : ∀ data, frame = .data data → s.TakesInTurn data)
    (h : s.ledger.Orderly number) :
    (Computation.final (handleFrame frame) s).ledger.Orderly number := by
  have hpath := keeps_handleFrame frame s
  cases frame with
  | seq seq =>
      refine hpath.preserves (I := fun u : SessionCore => u.ledger.Orderly number) ?_ h
      intro u v entry hallowed hstep hu
      refine hstep.orderly hzero hu ?_ ?_ <;> intro hentry <;> cases entry <;>
        first | exact hentry.elim | exact hallowed.elim
  | data frame =>
      have hturn := hturn frame rfl
      obtain ⟨started, hstarted⟩ : ∃ started : Prop, started ↔ frame.kind = .rpy ∧
          ∃ profile, s.Hears frame (.profile profile) := ⟨_, Iff.rfl⟩
      obtain ⟨agreed, hagreed⟩ : ∃ agreed : Prop, agreed ↔ frame.kind = .rpy ∧
          s.Hears frame .ok := ⟨_, Iff.rfl⟩
      have hfirst : s.ledger.Awaits number frame.msgno started agreed := by
        refine ⟨h, ?_, ?_⟩
        · intro hstart hpending
          obtain ⟨hkind, profile, hhears⟩ := hstarted.mp hstart
          obtain ⟨hclosed, hmay⟩ := (hturn hkind).1 profile number hhears hpending
          exact hmay.vacant h (table_none_iff.mpr hclosed)
        · intro h hpending
          obtain ⟨hkind, hhears⟩ := hagreed.mp h
          rw [table_ledger, Option.isSome_map]
          exact (hturn hkind).2 number hhears hpending hzero
      refine (hpath.preserves (I := fun u : SessionCore =>
        u.ledger.Awaits number frame.msgno started agreed) ?_ hfirst).orderly
      intro u v entry hallowed hstep hu
      refine Ledger.Step.awaits hstep hzero ?_ ?_ ?_ ?_ hu
      · intro hentry
        obtain ⟨profile, hhears, hkind, heq⟩ := handles_opens hallowed hentry
        exact ⟨hstarted.mpr ⟨hkind, profile, hhears⟩, profile, heq⟩
      · intro other hentry
        obtain ⟨hhears, hkind, heq⟩ := handles_closes hallowed hentry
        exact ⟨hagreed.mpr ⟨hkind, hhears⟩, heq⟩
      · rintro _ _ rfl
        obtain ⟨_, -, h⟩ := hallowed
        exact h
      · rintro _ rfl
        obtain ⟨_, -, h⟩ := hallowed
        exact h

end SessionCore

theorem fresh_orderly (config : Config) (number : UInt32) :
    (SessionCore.fresh config).ledger.Orderly number := by
  refine ⟨⟨?_, List.isChain_singleton _⟩, rfl, nofun, fun _ _ => ?_, fun hcut => ?_⟩
  · intro before after heq
    cases before <;> cases heq
  · exact (Option.some_ne_none true).symm
  · exact absurd hcut not_cutOff_nil

theorem Trace.Run.orderly {config : Config} {first last : Trace} {number : UInt32}
    (hfresh : Trace.Fresh config first) (hzero : number ≠ greetingChannel)
    (hrun : Trace.Run (fun trace act => act.Orderly trace) first last) :
    last.core.ledger.Orderly number := by
  refine hrun.keeps (I := fun s => s.ledger.Orderly number)
    (fun hmeets => SessionCore.call_orderly hmeets hzero) ?_ id ?_ ?_
  · intro trace input core frame hmeets hmet
    exact SessionCore.frame_orderly hzero fun data heq => hmeets core data (heq ▸ hmet)
  · exact fun h => ⟨h.alternates, h.standing_eq, h.open_turn, h.vacant, h.cut⟩
  · refine hfresh.books.preserves (I := fun u : SessionCore => u.ledger.Orderly number)
      ?_ (fresh_orderly config number)
    intro u v entry hallowed hstep hu
    refine hstep.orderly hzero hu ?_ ?_ <;> intro hentry <;> cases entry <;>
      first | exact hentry.elim | exact hallowed.elim

/-! ## What the layer above is told -/

namespace Trace

variable {meets : Trace → Act → Prop} {config : Config} {first last : Trace}
  {polled : List Event}

end Trace

end Vortice.Proto
