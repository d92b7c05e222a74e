import Vortice.Conn.Steps

/-!
# Who is waiting for a driver

A caller that has been heard is waiting in one table, or has been answered, and never both or
twice.  Once `run` is over nobody is waiting.
-/

namespace Vortice.Conn

open Vortice.Foundation Vortice.Proto

section Counting

variable {κ α : Type} [DecidableEq κ]

theorem count_map_insert (f : α → Ticket) (key : κ) (value : α) (table : Table κ α)
    (ticket : Ticket) :
    ((Table.values (table.insert key value)).map f).count ticket +
        ((table.lookup key).toList.map f).count ticket =
      ((Table.values table).map f).count ticket + [f value].count ticket := by
  have herase := ((Table.values_erase key table).map f).count_eq ticket
  rw [List.map_append, List.count_append] at herase
  rw [Table.values_insert, List.map_cons, ← List.singleton_append, List.count_append, herase]
  omega

theorem count_map_erase (f : α → Ticket) (key : κ) (table : Table κ α) (ticket : Ticket) :
    ((Table.values table).map f).count ticket =
      ((table.lookup key).toList.map f).count ticket +
        ((Table.values (table.erase key)).map f).count ticket := by
  rw [← List.count_append, ← List.map_append]
  exact ((Table.values_erase key table).map f).count_eq ticket

theorem count_insert (key : κ) (entered : Ticket) (table : Table κ Ticket) (ticket : Ticket) :
    (Table.values (table.insert key entered)).count ticket +
        (table.lookup key).toList.count ticket =
      (Table.values table).count ticket + [entered].count ticket := by
  simpa only [List.map_id, id] using count_map_insert id key entered table ticket

theorem count_erase (key : κ) (table : Table κ Ticket) (ticket : Ticket) :
    (Table.values table).count ticket =
      (table.lookup key).toList.count ticket + (Table.values (table.erase key)).count ticket := by
  simpa only [List.map_id] using count_map_erase id key table ticket

end Counting

/-- Everyone who is entered in a table. -/
def Routes.waiting (routes : Routes) : List Ticket :=
  Table.values routes.opens ++ Table.values routes.closes ++ routes.sessionClose.toList ++
    (Table.values routes.requests).map fun pending => pending.reply

namespace Driver

variable {H : Type} {router : Router H} {act : Act} {d d' : Driver H}

def waiting (d : Driver H) : List Ticket := d.ready.toList ++ d.routes.waiting

/-- Everyone who has been answered, in the order of the answers. -/
def settled (d : Driver H) : List Ticket := d.answered.map Prod.fst

/-- Every caller is waiting or has been answered, as often as it was heard. -/
def Accounted (d : Driver H) : Prop :=
  ∀ ticket, d.settled.count ticket + d.waiting.count ticket = d.callers.count ticket

theorem count_waiting (d : Driver H) (ticket : Ticket) :
    d.waiting.count ticket = d.ready.toList.count ticket +
      ((Table.values d.routes.opens).count ticket + (Table.values d.routes.closes).count ticket +
        d.routes.sessionClose.toList.count ticket +
        ((Table.values d.routes.requests).map fun pending => pending.reply).count ticket) := by
  simp only [waiting, Routes.waiting, List.count_append]

theorem settled_answerAny (d : Driver H) (found : Option Ticket) (answer : Answer) :
    (d.answerAny found answer).settled = d.settled ++ found.toList := by
  rw [answerAny_eq]
  cases found <;> simp [settled]

theorem settled_shutdown (d : Driver H) (ticket : Ticket) :
    d.shutdown.settled.count ticket = d.settled.count ticket + d.routes.waiting.count ticket := by
  simp only [settled, shutdown, Routes.waiting, List.map_append, List.map_map, List.count_append,
    Function.comp_def, List.map_id']
  omega

theorem Accounted.of_same (h : d.Accounted) (hanswered : d'.answered = d.answered)
    (hready : d'.ready = d.ready) (hopens : d'.routes.opens = d.routes.opens)
    (hcloses : d'.routes.closes = d.routes.closes)
    (hend : d'.routes.sessionClose = d.routes.sessionClose)
    (hrequests : d'.routes.requests = d.routes.requests) (hcallers : d'.callers = d.callers) :
    d'.Accounted := by
  intro ticket
  have := h ticket
  rw [count_waiting] at this ⊢
  rwa [settled, hanswered, hready, hopens, hcloses, hend, hrequests, hcallers]

/-- A caller is heard, and entered in the place of whoever was entered there. -/
theorem Accounted.entered (h : d.Accounted) (ticket : Ticket) {before : Option Ticket}
    (hsettled : d'.settled = d.settled ++ before.toList)
    (hcallers : d'.callers = d.callers ++ [ticket])
    (hwaiting : ∀ other, d'.waiting.count other + before.toList.count other =
      d.waiting.count other + [ticket].count other) : d'.Accounted := by
  intro other
  have := h other
  have := hwaiting other
  rw [hsettled, hcallers, List.count_append, List.count_append]
  omega

theorem Accounted.completed (h : d.Accounted) {before : Option Ticket}
    (hsettled : d'.settled = d.settled ++ before.toList) (hcallers : d'.callers = d.callers)
    (hwaiting : ∀ other, d.waiting.count other =
      before.toList.count other + d'.waiting.count other) : d'.Accounted := by
  intro other
  have := h other
  have := hwaiting other
  rw [hsettled, hcallers, List.count_append]
  omega

theorem Accounted.complete (h : d.Accounted) {event : Event} (hcompletes : completes event) :
    (d.handleEvent router event).Accounted := by
  cases event with
  | startRequested | closeRequested | messageReceived => cases hcompletes
  | greetingReceived greeting =>
      refine h.completed (settled_answerAny _ d.ready _) ?_ fun other => ?_ <;>
        rw [handleEvent, answerAny_eq]
      simp only [count_waiting, Option.toList_none, List.count_nil, Nat.zero_add]
  | channelOpened channel profile =>
      refine h.completed (settled_answerAny _ (d.routes.opens.lookup channel) _) ?_ fun other => ?_
        <;> rw [handleEvent, channelOpened, answerAny_eq]
      have := count_erase channel d.routes.opens other
      simp only [count_waiting]
      omega
  | startRefused channel error =>
      refine h.completed (settled_answerAny _ (d.routes.opens.lookup channel) _) ?_ fun other => ?_
        <;> rw [handleEvent, answerAny_eq]
      have := count_erase channel d.routes.opens other
      simp only [count_waiting]
      omega
  | channelClosed channel | closeRefused channel error =>
      refine h.completed (settled_answerAny _ (d.routes.closes.lookup channel) _) ?_ fun other => ?_
        <;> rw [handleEvent, answerAny_eq]
      have := count_erase channel d.routes.closes other
      simp only [count_waiting]
      omega
  | sessionClosed =>
      refine h.completed (settled_answerAny _ d.routes.sessionClose _) ?_ fun other => ?_ <;>
        rw [handleEvent, answerAny_eq]
      simp only [count_waiting, Option.toList_none, List.count_nil]
      omega

theorem Accounted.answerRequest (h : d.Accounted) {key : UInt32 × UInt32}
    {pending : PendingRequest} (hpending : d.routes.requests.lookup key = some pending)
    {kind : FrameKind} (hkind : kind ≠ .msg) (body : Octets) :
    (d.answerRequest key pending kind body).Accounted := by
  have herase := count_map_erase (fun pending => pending.reply) key d.routes.requests
  rw [hpending] at herase
  have hanswered : ∀ answer, Accounted (Driver.answer
      { d with routes := { d.routes with requests := d.routes.requests.erase key } }
      pending.reply answer) := by
    intro answer
    refine h.completed (settled_answerAny _ (some pending.reply) answer) rfl fun other => ?_
    have := herase other
    simp only [count_waiting, Driver.answer, Option.toList_some, List.map_cons,
      List.map_nil] at this ⊢
    omega
  cases kind with
  | rpy => exact hanswered _
  | err => exact hanswered _
  | nul => exact hanswered _
  | msg => exact absurd rfl hkind
  | ans =>
      intro other
      have := h other
      have := herase other
      have := count_map_insert (fun pending => pending.reply) key
        { pending with answers := pending.answers ++ [body] } (d.routes.requests.erase key) other
      simp only [count_waiting, Driver.answerRequest, settled, AList.lookup_erase,
        Option.toList_none,
        Option.toList_some, List.map_cons, List.map_nil, List.count_nil] at *
      omega

theorem Accounted.answered (h : d.Accounted) (ticket : Ticket) (answer : Answer) :
    ((d.hear ticket).answer ticket answer).Accounted := by
  intro other
  have := h other
  have hsettled : ((d.hear ticket).answer ticket answer).settled = d.settled ++ [ticket] :=
    settled_answerAny (d.hear ticket) (some ticket) answer
  change _ + d.waiting.count other = (d.callers ++ [ticket]).count other
  rw [hsettled, List.count_append, List.count_append]
  omega

theorem settled_over (d : Driver H) (ticket : Ticket) (answer : Answer) :
    (d.shutdown.answerAny d.ready answer).settled.count ticket =
      d.settled.count ticket + d.waiting.count ticket := by
  rw [settled_answerAny, List.count_append, settled_shutdown, waiting, List.count_append]
  omega

theorem Accounted.replace (h : d.Accounted) (config : Config) (ticket : Ticket) :
    ((d.hear ticket).replace config ticket).Accounted := by
  unfold Driver.replace
  split
  · exact (h.answered ticket .dropped).of_same rfl rfl rfl rfl rfl rfl rfl
  · intro other
    have := h other
    have hover := settled_over (d.hear ticket) other .dropped
    change _ = d.settled.count other + d.waiting.count other at hover
    simp only [answerAny_eq] at hover ⊢
    change (List.map Prod.fst _).count other + [ticket].count other =
      (d.callers ++ [ticket]).count other
    rw [List.count_append, ← this, ← hover]
    rfl

theorem settled_finish {result : Except Failure Unit} (hstage : d.stage = .returned result)
    (ticket : Ticket) :
    (d.tick router).settled.count ticket = d.settled.count ticket + d.waiting.count ticket := by
  have hshutdown := settled_shutdown (Driver.answerAny { d with ready := none } d.ready
    (.greeting (.error (Failure.ofEnd result)))) ticket
  rw [settled_answerAny, List.count_append] at hshutdown
  rw [tick_of_returned hstage]
  simp only [waiting, List.count_append, answerAny_eq] at hshutdown ⊢
  rw [← Nat.add_assoc]
  exact hshutdown

theorem Accounted.finish (h : d.Accounted) {result : Except Failure Unit}
    (hstage : d.stage = .returned result) : (d.tick router).Accounted := by
  intro other
  have := h other
  rw [settled_finish hstage, this]
  rw [tick_of_returned hstage, answerAny_eq]
  rfl

/-- A caller is entered in a table, and whoever it displaces is told that it was dropped. -/
theorem Accounted.await (h : d.Accounted) (ticket : Ticket) :
    (∀ number, ((d.hear ticket).awaitOpen number ticket).Accounted) ∧
      (∀ number, ((d.hear ticket).awaitClose number ticket).Accounted) ∧
      (∀ channel msgno, ((d.hear ticket).awaitReply channel msgno ticket).Accounted) ∧
      ((d.hear ticket).awaitEnd ticket).Accounted := by
  refine ⟨fun number => ?_, fun number => ?_, fun channel msgno => ?_, ?_⟩
  · refine h.entered ticket (settled_answerAny _ (d.routes.opens.lookup number) _) ?_
      fun other => ?_ <;>
      rw [awaitOpen, answerAny_eq]
    · rfl
    · have := count_insert number ticket d.routes.opens other
      simp only [count_waiting, hear]
      omega
  · refine h.entered ticket (settled_answerAny _ (d.routes.closes.lookup number) _) ?_
      fun other => ?_ <;>
      rw [awaitClose, answerAny_eq]
    · rfl
    · have := count_insert number ticket d.routes.closes other
      simp only [count_waiting, hear]
      omega
  · refine h.entered ticket (settled_answerAny _
      ((d.routes.requests.lookup (channel, msgno)).map PendingRequest.reply) _) ?_ fun other => ?_
      <;> rw [awaitReply, answerAny_eq]
    · rfl
    · have hcount := count_map_insert (fun pending => pending.reply) (channel, msgno)
        ⟨ticket, []⟩ d.routes.requests other
      change _ = _ + [ticket].count other at hcount
      have hlist : ((d.routes.requests.lookup (channel, msgno)).map
          PendingRequest.reply).toList = (d.routes.requests.lookup (channel, msgno)).toList.map
            fun pending => pending.reply := by
        cases d.routes.requests.lookup (channel, msgno) <;> rfl
      rw [hlist]
      simp only [count_waiting, hear]
      omega
  · refine h.entered ticket (settled_answerAny _ d.routes.sessionClose _) ?_ fun other => ?_ <;>
      rw [awaitEnd, answerAny_eq]
    · rfl
    · simp only [count_waiting, hear, Option.toList_some]
      omega

theorem Accounted.step (hstep : Step router act d d') (h : d.Accounted) : d'.Accounted := by
  have hcalled : ∀ call : Call, (d.call call).Accounted := fun _ =>
    h.of_same rfl rfl rfl rfl rfl rfl rfl
  cases hstep with
  | answer => exact h.answered _ _
  | awaitOpen => exact ((hcalled _).await _).1 _
  | awaitClose => exact ((hcalled _).await _).2.1 _
  | awaitReply => exact (((hcalled _).await _).2.2.1 _ _).of_same rfl rfl rfl rfl rfl rfl rfl
  | awaitEnd => exact ((hcalled _).await _).2.2.2
  | complete hcompletes => exact h.complete hcompletes
  | @reply channel message pending hkind hpending =>
      have hnoted : (d.note (.received channel message)).Accounted :=
        h.of_same rfl rfl rfl rfl rfl rfl rfl
      exact hnoted.answerRequest hpending hkind _
  | replace => exact h.replace _ _
  | finish hstage => exact h.finish hstage
  | _ => exact h.of_same rfl rfl rfl rfl rfl rfl rfl

/-- Every caller is answered once or is waiting, and when the loop has come to its end everyone
is answered. -/
theorem every_caller_is_answered {session : Session} {ready : Ticket} {last : Driver H}
    (hrun : Run (Driver.act router) (fun _ _ => True) (Driver.new session ready) last) :
    (last.settled ++ last.waiting).Perm last.callers ∧
      ∀ result, last.stage = .returned result → (last.tick router).settled.Perm last.callers := by
  have haccounted : last.Accounted :=
    preserves_of_steps (fun _ => Accounted.step) hrun fun ticket => by
      simp [Driver.new, settled, waiting, Routes.waiting, Routes.new]
  refine ⟨List.perm_iff_count.mpr fun ticket => ?_, fun result hstage =>
    List.perm_iff_count.mpr fun ticket => ?_⟩
  · rw [List.count_append, haccounted ticket]
  · rw [settled_finish hstage, haccounted ticket]

/-- A caller waits for a reply when the transport fails, and is answered then. -/
theorem waiting_caller_is_answered :
    ∃ session last, Session.new (Config.new .listener) = .ok session ∧
      last = replay (.agreeing false) session
        (opened ++ .command 2 (.request 2 [120]) :: idle ++ [.failed .closed]) ∧
      last.settled = [0, 1] ∧ (last.tick (.agreeing false)).settled.Perm last.callers := by
  have hrun : (Session.new (Config.new .listener)).toOption.any fun session =>
      let last := replay (.agreeing false) session
        (opened ++ .command 2 (.request 2 [120]) :: idle ++ [.failed .closed])
      last.settled = [0, 1] ∧ last.stage matches .returned _ := by
    decide +kernel
  obtain ⟨session, hnew⟩ := Session.new_ok (Config.new .listener)
  rw [hnew] at hrun
  obtain ⟨hsettled, hstage⟩ := of_decide_eq_true hrun
  refine ⟨session, _, hnew, rfl, hsettled, ?_⟩
  split at hstage
  · rename_i result hreturned
    exact (every_caller_is_answered (replay_run _ rfl)).2 result hreturned
  · cases hstage

end Driver

end Vortice.Conn
