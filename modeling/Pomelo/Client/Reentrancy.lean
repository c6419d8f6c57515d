import Mathlib.Logic.Relation
import Pomelo.Client.Delivery

/-!
# Polling under re-entrancy

`pc_client_poll` is cut into the pieces between which code of the user or of the transport can
run: its entry, a pass of its loop up to the callbacks of the event, and the end of
`pc__handle_event`. The callbacks may poll again, queue events and do whatever leaves the
queue of events alone (`PollRun.Step`); any such callbacks make `pc_client_poll` a run of these
steps (`Reentrant.poll`).
-/

namespace Pomelo

/-- What the polling thread is in the middle of. -/
inductive PollFrame where
  /-- The loop of `pc_client_poll`. -/
  | poll
  /-- `pc__handle_event`. -/
  | handle (event : PendingEvent)
  deriving DecidableEq

/-- A client with the frames its polling thread is in, innermost first, the events that have
been queued and those that have been taken to be handled, and whether the assertion of the
loop has failed. -/
structure PollRun where
  client : Client
  frames : List PollFrame
  queued : List PendingEvent
  handled : List PendingEvent
  failed : Bool

namespace PollRun

/-- After `pc_client_init`. -/
def start (evHandlers : List Nat) : PollRun where
  client := pcClientInit evHandlers
  frames := []
  queued := []
  handled := []
  failed := false

/-- Outside a poll, or in the handling of an event. -/
def UserCode (run : PollRun) : Prop := run.frames.head? ≠ some .poll

instance (run : PollRun) : Decidable run.UserCode := inferInstanceAs (Decidable (_ ≠ _))

/-- The entry of `pc_client_poll`. A poll that is inside another one returns. -/
def poll (run : PollRun) : PollRun :=
  if run.client.isInPoll then run
  else { run with client := { run.client with isInPoll := true }, frames := .poll :: run.frames }

/-- The loop of `pc_client_poll` up to the callbacks of the next event, or its end. -/
def next (run : PollRun) : PollRun :=
  match run.client.pendingEvQueue with
  | [] => { run with client := { run.client with isInPoll := false }, frames := run.frames.tail }
  | event :: rest =>
      { run with
        client := { run.client with pendingEvQueue := rest }
        frames := .handle event :: run.frames
        handled := run.handled ++ [event]
        failed := run.failed || !run.client.eventBusy event }

/-- The end of `pc__handle_event`. -/
def handleEnds (event : PendingEvent) (run : PollRun) : PollRun :=
  { run with client := run.client.releaseEvent event, frames := run.frames.tail }

/-- The event that is queued next. -/
def newEvent (data : EventData) (run : PollRun) : PendingEvent where
  slot := run.client.pendingEvents.findIdx? fun busy => !busy
  data

/-- `pc__trans_queue_event`, `pc__trans_queue_sent` or `pc__trans_queue_resp`. -/
def queue (data : EventData) (run : PollRun) : PollRun :=
  { run with
    client := run.client.queueEvent data
    queued := run.queued ++ [run.newEvent data] }

/-- The fields of a client that only the polling functions use are the same. -/
structure Apart (first second : Client) : Prop where
  pendingEvents : second.pendingEvents = first.pendingEvents
  pendingEvQueue : second.pendingEvQueue = first.pendingEvQueue
  isInPoll : second.isInPoll = first.isInPoll

/-- One piece of code runs. Other threads wait for `event_mutex` while one is in the loop. -/
inductive Step : PollRun → PollRun → Prop where
  | queue (run : PollRun) (user : run.UserCode) (data : EventData) : Step run (run.queue data)
  | poll (run : PollRun) (user : run.UserCode) : Step run run.poll
  | next (run : PollRun) {outer : List PollFrame} (innermost : run.frames = .poll :: outer) :
      Step run run.next
  | handleEnds (run : PollRun) {event : PendingEvent} {outer : List PollFrame}
      (innermost : run.frames = .handle event :: outer) : Step run (run.handleEnds event)
  /-- A request is issued, a callback of the user is found and called, or anything else. -/
  | other (run : PollRun) (user : run.UserCode) {client : Client}
      (apart : Apart run.client client) : Step run { run with client }

variable {run : PollRun}

/-- The event that is being handled. -/
def held (frames : List PollFrame) : List PendingEvent :=
  frames.filterMap fun
    | .handle event => some event
    | .poll => none

/-- The preallocated events that are busy are the ones among some events, each once. -/
structure Slots (pendingEvents : List Bool) (events : List PendingEvent) : Prop where
  distinct : (events.filterMap PendingEvent.slot).Nodup
  busy : ∀ slot, pendingEvents[slot]? = some true ↔ ∃ event ∈ events, event.slot = some slot

namespace Slots

variable {pendingEvents : List Bool} {events : List PendingEvent} {event : PendingEvent}

/-- A pool without events has no slot in use. -/
theorem of_idle (count : Nat) : Slots (List.replicate count false) [] where
  distinct := List.nodup_nil
  busy := by simp [List.getElem?_replicate]

/-- The order of the events does not matter for their slots. -/
theorem perm {other : List PendingEvent} (slots : Slots pendingEvents events)
    (same : events.Perm other) : Slots pendingEvents other where
  distinct := (same.filterMap _).nodup_iff.mp slots.distinct
  busy slot := (slots.busy slot).trans (by simp [same.mem_iff])

/-- A slot that is idle is given to a new event, or none is. -/
theorem add (slots : Slots pendingEvents events) (data : EventData) :
    Slots
      (match pendingEvents.findIdx? fun busy => !busy with
      | some slot => pendingEvents.set slot true
      | none => pendingEvents)
      (⟨pendingEvents.findIdx? fun busy => !busy, data⟩ :: events) := by
  cases search : pendingEvents.findIdx? fun busy => !busy with
  | none =>
      refine ⟨?_, fun slot => (slots.busy slot).trans ?_⟩
      · simpa using slots.distinct
      · simp
  | some index =>
      obtain ⟨bound, free, -⟩ := List.findIdx?_eq_some_iff_getElem.mp search
      have idle : ¬ pendingEvents[index]? = some true := by
        rw [List.getElem?_eq_getElem bound]
        simpa using free
      refine ⟨?_, fun slot => ?_⟩
      · change (index :: events.filterMap PendingEvent.slot).Nodup
        refine List.nodup_cons.mpr ⟨fun member => idle ((slots.busy index).mpr ?_), slots.distinct⟩
        exact List.mem_filterMap.mp member
      · dsimp only
        rw [List.getElem?_set]
        by_cases same : index = slot
        · subst same
          simp [bound]
        · simpa [same] using slots.busy slot

/-- The slot of an event is given back. -/
theorem release (slots : Slots pendingEvents (event :: events)) :
    Slots
      (match event.slot with
      | some slot => pendingEvents.set slot false
      | none => pendingEvents) events := by
  cases taken : event.slot with
  | none =>
      refine ⟨?_, fun slot => (slots.busy slot).trans ?_⟩
      · have distinct := slots.distinct
        rwa [List.filterMap_cons_none taken] at distinct
      · simp [taken]
  | some index =>
      have distinct := slots.distinct
      rw [List.filterMap_cons_some taken, List.nodup_cons] at distinct
      refine ⟨distinct.2, fun slot => ?_⟩
      have busy := slots.busy slot
      dsimp only
      rw [List.getElem?_set]
      by_cases same : index = slot
      · subst same
        have gone : ¬ ∃ other ∈ events, other.slot = some index := fun ⟨other, member, own⟩ =>
          distinct.1 (List.mem_filterMap.mpr ⟨other, member, own⟩)
        simp [gone]
      · rw [if_neg same, busy]
        simp [taken, same]

end Slots

/-- What every step keeps. -/
structure Inv (run : PollRun) : Prop where
  /-- A poll is the outermost frame, or there is none. -/
  frames : run.frames = [] ∨ run.frames = [.poll] ∨ ∃ event, run.frames = [.handle event, .poll]
  inPoll : run.client.isInPoll = true ↔ run.frames ≠ []
  order : run.handled ++ run.client.pendingEvQueue = run.queued
  slots : Slots run.client.pendingEvents (held run.frames ++ run.client.pendingEvQueue)
  asserted : run.failed = false

theorem inv_start (evHandlers : List Nat) : (start evHandlers).Inv where
  frames := .inl rfl
  inPoll := by simp [start, pcClientInit]
  order := rfl
  slots := Slots.of_idle _
  asserted := rfl

/-- An event that is queued takes a free slot, or is allocated. -/
theorem Inv.queue (inv : run.Inv) (data : EventData) : (run.queue data).Inv := by
  have queued : (run.client.queueEvent data).pendingEvQueue =
      run.client.pendingEvQueue ++ [run.newEvent data] := by
    rw [Client.queueEvent, newEvent]
    cases run.client.pendingEvents.findIdx? fun busy => !busy <;> rfl
  have slots : (run.client.queueEvent data).pendingEvents =
      match run.client.pendingEvents.findIdx? fun busy => !busy with
      | some slot => run.client.pendingEvents.set slot true
      | none => run.client.pendingEvents := by
    rw [Client.queueEvent]
    cases run.client.pendingEvents.findIdx? fun busy => !busy <;> rfl
  have inPoll : (run.client.queueEvent data).isInPoll = run.client.isInPoll := by
    rw [Client.queueEvent]
    split <;> rfl
  refine ⟨inv.frames, ?_, ?_, ?_, inv.asserted⟩
  · exact (iff_of_eq (congrArg (· = true) inPoll)).trans inv.inPoll
  · change run.handled ++ (run.client.queueEvent data).pendingEvQueue =
      run.queued ++ [run.newEvent data]
    rw [queued, ← List.append_assoc, inv.order]
  · change Slots (run.client.queueEvent data).pendingEvents
      (held run.frames ++ (run.client.queueEvent data).pendingEvQueue)
    rw [queued, slots, ← List.append_assoc]
    exact (inv.slots.add data).perm (List.perm_append_singleton ..).symm

/-- A poll that is called in the handling of an event returns at once. -/
theorem Inv.poll_nested (inv : run.Inv) (inside : run.frames ≠ []) : run.poll = run :=
  if_pos (inv.inPoll.mpr inside)

/-- Entering `pc_client_poll` leaves every event where it is. -/
theorem Inv.poll (inv : run.Inv) : run.poll.Inv := by
  rw [PollRun.poll]
  split
  · exact inv
  next outside =>
    have idle : run.frames = [] := by
      by_contra inside
      exact outside (inv.inPoll.mpr inside)
    refine ⟨.inr (.inl ?_), by simp, inv.order, inv.slots, inv.asserted⟩
    dsimp only
    rw [idle]

/-- The loop moves on to the next event, or leaves. -/
theorem Inv.next (inv : run.Inv) {outer : List PollFrame}
    (innermost : run.frames = .poll :: outer) : run.next.Inv := by
  have frames : run.frames = [.poll] := by
    rcases inv.frames with idle | loop | ⟨event, handling⟩
    · exact absurd (idle.symm.trans innermost) nofun
    · exact loop
    · exact absurd (handling.symm.trans innermost) nofun
  have order := inv.order
  have slots := inv.slots
  rw [frames] at slots
  rw [PollRun.next]
  split
  next empty =>
    rw [frames]
    exact ⟨.inl rfl, by simp, order, slots, inv.asserted⟩
  next event rest queued =>
    have slots : Slots run.client.pendingEvents (event :: rest) := queued ▸ slots
    have busy : run.client.eventBusy event = true := by
      rw [Client.eventBusy]
      split
      next slot taken =>
        exact decide_eq_true ((slots.busy slot).mpr ⟨event, List.mem_cons_self, taken⟩)
      next => rfl
    refine ⟨.inr (.inr ⟨event, ?_⟩), ?_, ?_, ?_, ?_⟩
    · dsimp only
      rw [frames]
    · exact ⟨fun _ => List.cons_ne_nil _ _, fun _ => inv.inPoll.mpr (by simp [innermost])⟩
    · rw [queued] at order
      rw [← order, List.append_assoc]
      rfl
    · dsimp only
      rw [frames]
      exact slots
    · dsimp only
      rw [inv.asserted, busy]
      rfl

/-- The event that has been handled gives its slot back. -/
theorem Inv.handleEnds (inv : run.Inv) {event : PendingEvent} {outer : List PollFrame}
    (innermost : run.frames = .handle event :: outer) : (run.handleEnds event).Inv := by
  have frames : run.frames = [.handle event, .poll] := by
    rcases inv.frames with idle | loop | ⟨other, handling⟩
    · exact absurd (idle.symm.trans innermost) nofun
    · exact absurd (loop.symm.trans innermost) nofun
    · have same := handling.symm.trans innermost
      obtain ⟨rfl⟩ := PollFrame.handle.inj (List.cons.inj same).1
      exact handling
  have slots := inv.slots
  rw [frames] at slots
  have released :
      Slots (run.client.releaseEvent event).pendingEvents run.client.pendingEvQueue := by
    have given : (run.client.releaseEvent event).pendingEvents =
        match event.slot with
        | some slot => run.client.pendingEvents.set slot false
        | none => run.client.pendingEvents := by
      rw [Client.releaseEvent]
      split <;> simp_all
    rw [given]
    exact Slots.release slots
  have queue : (run.client.releaseEvent event).pendingEvQueue = run.client.pendingEvQueue := by
    rw [Client.releaseEvent]
    split <;> rfl
  have inPoll : (run.client.releaseEvent event).isInPoll = run.client.isInPoll := by
    rw [Client.releaseEvent]
    split <;> rfl
  refine ⟨.inr (.inl ?_), ?_, ?_, ?_, inv.asserted⟩
  · rw [PollRun.handleEnds, frames]
    rfl
  · rw [PollRun.handleEnds, inPoll, frames]
    exact ⟨fun _ => List.cons_ne_nil _ _, fun _ => inv.inPoll.mpr (by simp [innermost])⟩
  · rw [PollRun.handleEnds, queue]
    exact inv.order
  · rw [PollRun.handleEnds, queue, frames]
    exact released

/-- What happens beside the queue of the events changes nothing. -/
theorem Inv.other (inv : run.Inv) {client : Client} (apart : Apart run.client client) :
    Inv { run with client } where
  frames := inv.frames
  inPoll := by
    rw [apart.isInPoll]
    exact inv.inPoll
  order := by
    rw [apart.pendingEvQueue]
    exact inv.order
  slots := by
    rw [apart.pendingEvents, apart.pendingEvQueue]
    exact inv.slots
  asserted := inv.asserted

/-- Every step keeps the invariant. -/
theorem inv_of_step {next : PollRun} (step : Step run next) (inv : run.Inv) : next.Inv := by
  cases step with
  | queue user data => exact inv.queue data
  | poll user => exact inv.poll
  | next innermost => exact inv.next innermost
  | handleEnds innermost => exact inv.handleEnds innermost
  | other user apart => exact inv.other apart

theorem inv_of_steps {first last : PollRun} (steps : Relation.ReflTransGen Step first last)
    (inv : first.Inv) : last.Inv := by
  induction steps with
  | refl => exact inv
  | tail _ step ih => exact inv_of_step step ih

/-- The invariant holds in every reachable state. -/
theorem inv_of_reachable {evHandlers : List Nat}
    (reached : Relation.ReflTransGen Step (start evHandlers) run) : run.Inv :=
  inv_of_steps reached (inv_start evHandlers)

/-- What holds of the polls of a run. -/
structure Disciplined (run : PollRun) : Prop where
  /-- Each event is handled once, in the order in which they were queued. -/
  order : run.handled ++ run.client.pendingEvQueue = run.queued
  /-- A poll is never inside another one. -/
  outermost : run.frames = [] ∨ run.frames = [.poll] ∨ ∃ event, run.frames = [.handle event, .poll]
  /-- Only that poll takes events out of the queue. -/
  taken : ∀ next, Step run next → next.handled ≠ run.handled → run.frames = [.poll]
  /-- A poll that is called inside it changes nothing. -/
  nested : run.frames ≠ [] → run.poll = run
  /-- A preallocated event is busy exactly while it is queued or being handled. -/
  busy : ∀ slot, run.client.pendingEvents[slot]? = some true ↔
    ∃ event, (event ∈ run.client.pendingEvQueue ∨ .handle event ∈ run.frames) ∧
      event.slot = some slot
  /-- The assertion of the loop holds. -/
  asserted : run.failed = false
  /-- When the poll returns, every event has been handled. -/
  returned : ∀ next, Step run next → run.frames ≠ [] → next.frames = [] →
    next.client.pendingEvQueue = [] ∧ next.client.isInPoll = false ∧ next.handled = next.queued

/-- An event that is held is being handled. -/
theorem mem_held {frames : List PollFrame} {event : PendingEvent} :
    event ∈ held frames ↔ .handle event ∈ frames := by
  refine List.mem_filterMap.trans ⟨?_, fun member => ⟨_, member, rfl⟩⟩
  rintro ⟨frame, member, same⟩
  cases frame with
  | poll => exact absurd same nofun
  | handle other => exact Option.some.inj same ▸ member

/-- **The poll loop under re-entrancy.** Whatever the callbacks do, the polls are disciplined. -/
theorem polls_disciplined_of_reachable {evHandlers : List Nat}
    (reached : Relation.ReflTransGen Step (start evHandlers) run) : run.Disciplined := by
  have inv := inv_of_reachable reached
  have loops {outer : List PollFrame} (innermost : run.frames = .poll :: outer) :
      run.frames = [.poll] := by
    rcases inv.frames with idle | loop | ⟨event, handling⟩
    · exact absurd (idle.symm.trans innermost) nofun
    · exact loop
    · exact absurd (handling.symm.trans innermost) nofun
  refine ⟨inv.order, inv.frames, ?_, inv.poll_nested, ?_, inv.asserted, ?_⟩
  · intro next step other
    cases step with
    | queue user data => exact absurd rfl other
    | poll user =>
        rw [PollRun.poll] at other
        split at other <;> exact absurd rfl other
    | next innermost => exact loops innermost
    | handleEnds innermost => exact absurd rfl other
    | other user apart => exact absurd rfl other
  · intro slot
    rw [inv.slots.busy slot]
    simp only [List.mem_append, mem_held, or_comm]
  · intro next step inside outside
    cases step with
    | queue user data => exact absurd outside inside
    | poll user => exact absurd (inv.poll_nested inside ▸ outside) inside
    | next innermost =>
        have order := inv.order
        rw [PollRun.next] at outside ⊢
        split at outside
        next empty =>
          rw [empty, List.append_nil] at order
          simp only [empty]
          exact ⟨trivial, trivial, order⟩
        next => exact absurd outside nofun
    | @handleEnds event outer innermost =>
        have ended := inv.handleEnds innermost
        rcases inv.frames with idle | loop | ⟨other, handling⟩
        · exact absurd idle inside
        · exact absurd (loop.symm.trans innermost) nofun
        · rw [PollRun.handleEnds, handling] at outside
          exact absurd outside nofun
    | other user apart => exact absurd outside inside

variable {σ : Type} {receiver : Receiver σ}

/-- The steps of a run lead to a client, and to the frames they started in. -/
def Leads (run : PollRun) (client : Client) : Prop :=
  ∃ next, Relation.ReflTransGen Step run next ∧ next.frames = run.frames ∧ next.client = client

/-- Callbacks of the user in which only such steps happen: they may poll, and queue events.
Looking up the name of a code is no callback. -/
structure Reentrant (receiver : Receiver σ) : Prop where
  change : ∀ act state, receiver.client (receiver.change act state) = act (receiver.client state)
  see : ∀ sight state (run : PollRun), run.client = receiver.client state → run.UserCode →
    run.Leads (receiver.client (receiver.see sight state))
  rcStr : ∀ rc state, receiver.client (receiver.see (.rcStrAssertion rc) state) =
    receiver.client state

namespace Leads

/-- A piece of code that does nothing. -/
theorem refl (run : PollRun) : run.Leads run.client := ⟨run, .refl, rfl, rfl⟩

/-- One piece of code after another. -/
theorem trans {first second : Client} (left : run.Leads first)
    (right : ∀ next : PollRun, next.frames = run.frames → next.client = first →
      Relation.ReflTransGen Step run next → next.Leads second) : run.Leads second := by
  obtain ⟨mid, early, frames, client⟩ := left
  obtain ⟨last, late, same, reached⟩ := right mid frames client early
  exact ⟨last, early.trans late, same.trans frames, reached⟩

/-- A piece of code that stays apart from the events. -/
theorem of_apart (user : run.UserCode) {client : Client} (apart : Apart run.client client) :
    run.Leads client := ⟨_, .single (.other run user apart), rfl, rfl⟩

end Leads

namespace Reentrant

/-- An assertion leads on whether it holds or not. -/
theorem assert (reentrant : Reentrant receiver) (holds : Bool) (sight : Sight) {state : σ}
    (client : run.client = receiver.client state) (user : run.UserCode) :
    run.Leads (receiver.client (receiver.assert holds sight state)) := by
  rw [Receiver.assert]
  split
  · exact client ▸ Leads.refl run
  · exact reentrant.see sight state run client user

/-- Something is done to the client that leaves the events alone. -/
theorem act (reentrant : Reentrant receiver) {act : Client → Client}
    (apart : ∀ client, Apart client (act client)) {state : σ}
    (client : run.client = receiver.client state) (user : run.UserCode) :
    run.Leads (receiver.client (receiver.change act state)) := by
  rw [reentrant.change, ← client]
  exact .of_apart user (apart run.client)

/-- Calling the handlers leads on for any code of the user. -/
theorem handlers (reentrant : Reentrant receiver) (sights : Nat → Sight) (handlers : List Nat)
    {state : σ} (client : run.client = receiver.client state) (user : run.UserCode) :
    run.Leads (receiver.client
      (handlers.foldl (fun state handler => receiver.see (sights handler) state) state)) := by
  induction handlers generalizing run state with
  | nil => exact client ▸ Leads.refl run
  | cons handler handlers ih =>
      have seen := reentrant.see (sights handler) state run client user
      refine seen.trans fun next frames same _ => ?_
      exact ih same (by rwa [UserCode, frames])

theorem client_pcClientRcStr (reentrant : Reentrant receiver) (rc : Int) (state : σ) :
    receiver.client (pcClientRcStr receiver rc state) = receiver.client state := by
  rw [pcClientRcStr, Receiver.assert]
  split
  · rfl
  · exact reentrant.rcStr rc state

/-- `pc_trans__fire_event_now` leads on for any code of the user. -/
theorem pcTransFireEventNow (reentrant : Reentrant receiver) (evType : Int)
    (arg1 arg2 : Option CStr) {state : σ} (client : run.client = receiver.client state)
    (user : run.UserCode) :
    run.Leads (receiver.client (Pomelo.pcTransFireEventNow receiver evType arg1 arg2 state)) := by
  rw [Pomelo.pcTransFireEventNow]
  split
  · exact client ▸ Leads.refl run
  next type _ =>
    split
    · rw [pcTransFire]
      have asserted := reentrant.assert ((receiver.client state).allows type)
        (.stateAssertion type (receiver.client state).state) client user
      refine asserted.trans fun next frames same _ => ?_
      have user : next.UserCode := by rwa [UserCode, frames]
      have fires (client : Client) : Apart client (client.fire type) := by
        cases type <;> exact ⟨rfl, rfl, rfl⟩
      refine (reentrant.act fires same user).trans fun last frames same _ => ?_
      exact reentrant.handlers (.event · type arg1 arg2) _ same (by rwa [UserCode, frames])
    · exact client ▸ Leads.refl run

/-- `pc_trans__trans_complete_now` leads on for any code of the user. -/
theorem pcTransCompleteNow (reentrant : Reentrant receiver) (kind : ReqKind) (key : Nat) (rc : Int)
    (resp : Option CStr) {state : σ} (client : run.client = receiver.client state)
    (user : run.UserCode) :
    run.Leads (receiver.client (Pomelo.pcTransCompleteNow receiver kind key rc resp state)) := by
  have modified (kind : ReqKind) (act : ReqPool → ReqPool) (client : Client) :
      Apart client (client.modifyPool kind act) := by
    cases kind <;> exact ⟨rfl, rfl, rfl⟩
  rw [Pomelo.pcTransCompleteNow]
  split
  · exact client ▸ Leads.refl run
  next target rest found =>
    have apart : Apart run.client rest := by
      rw [Client.take] at found
      split at found
      · exact absurd found nofun
      · obtain ⟨-, rfl⟩ := Prod.mk.inj (Option.some.inj found)
        exact client ▸ modified kind _ _
    have moved : run.Leads (receiver.client
        (receiver.change (fun _ => rest) (pcClientRcStr receiver rc state))) := by
      rw [reentrant.change]
      exact .of_apart user apart
    refine moved.trans fun next frames same _ => ?_
    have user : next.UserCode := by rwa [UserCode, frames]
    have called := reentrant.see (.completed kind target rc resp) _ next same user
    refine called.trans fun last frames same _ => ?_
    exact reentrant.act (modified kind _) same (by rwa [UserCode, frames])

/-- The dispatch of `pc__handle_event`. -/
theorem handle (reentrant : Reentrant receiver) (data : EventData) {state : σ}
    (client : run.client = receiver.client state) (user : run.UserCode) :
    run.Leads (receiver.client (data.handle receiver state)) := by
  cases data with
  | ev evType arg1 arg2 => exact reentrant.pcTransFireEventNow evType arg1 arg2 client user
  | notify seqNum rc =>
      rw [EventData.handle, reentrant.client_pcClientRcStr]
      exact reentrant.pcTransCompleteNow .notify seqNum rc none client user
  | req reqId rc resp =>
      rw [EventData.handle, reentrant.client_pcClientRcStr]
      exact reentrant.pcTransCompleteNow .request reqId rc resp client user

/-- The loop of `pc_client_poll`, if it gets to the end of the queue. -/
theorem pcClientPollLoop (reentrant : Reentrant receiver) {passes : Nat} {state : σ} (inv : run.Inv)
    {outer : List PollFrame} (innermost : run.frames = .poll :: outer)
    (client : run.client = receiver.client state)
    (ended :
      (receiver.client (Pomelo.pcClientPollLoop receiver passes state)).pendingEvQueue = []) :
    run.Leads (receiver.client (Pomelo.pcClientPollLoop receiver passes state)) := by
  induction passes generalizing run state with
  | zero => exact client ▸ Leads.refl run
  | succ passes ih =>
      rw [Pomelo.pcClientPollLoop] at ended ⊢
      split at ended
      next empty => exact client ▸ Leads.refl run
      next event rest queued =>
        have queued : run.client.pendingEvQueue = event :: rest := client ▸ queued
        have taken : run.next = { run with
            client := { run.client with pendingEvQueue := rest }
            frames := .handle event :: run.frames
            handled := run.handled ++ [event]
            failed := run.failed || !run.client.eventBusy event } := by
          rw [PollRun.next, queued]
        have nextInv := inv.next innermost
        have step := Step.next run innermost
        rw [taken] at nextInv step
        generalize popped : receiver.change (fun client => { client with pendingEvQueue := rest })
          state = begun at ended ⊢
        have begunClient : receiver.client begun = { run.client with pendingEvQueue := rest } := by
          rw [← popped, reentrant.change, client]
        have busy : (receiver.client begun).eventBusy event = true := by
          have asserted := (Bool.or_eq_false_iff.mp nextInv.asserted).2
          have busy : run.client.eventBusy event = true := by simpa using asserted
          rw [begunClient]
          exact busy
        simp only [Receiver.assert, busy, if_true] at ended ⊢
        have user : UserCode { run with
            client := { run.client with pendingEvQueue := rest }
            frames := .handle event :: run.frames
            handled := run.handled ++ [event]
            failed := run.failed || !run.client.eventBusy event } := nofun
        obtain ⟨late, steps, frames, same⟩ :=
          reentrant.handle event.data begunClient.symm user
        have closes := Step.handleEnds late frames
        have lateInv := inv_of_steps steps nextInv
        have overClient : (late.handleEnds event).client =
            receiver.client (pcHandleEvent receiver event begun) := by
          rw [pcHandleEvent, reentrant.change, PollRun.handleEnds, same]
        have overFrames : (late.handleEnds event).frames = run.frames := by
          rw [PollRun.handleEnds, frames]
          rfl
        obtain ⟨last, more, lastFrames, lastClient⟩ := ih (inv_of_step closes lateInv)
          (overFrames.trans innermost) overClient ended
        exact ⟨last, .head step (steps.trans (.head closes more)), lastFrames.trans overFrames,
          lastClient⟩

/-- `pc_client_poll`, if its loop ends, is a run of the pieces. -/
theorem pcClientPoll (reentrant : Reentrant receiver) {passes : Nat} {state : σ} (inv : run.Inv)
    (user : run.UserCode) (client : run.client = receiver.client state)
    (ended : (receiver.client (Pomelo.pcClientPoll receiver passes state)).pendingEvQueue = []) :
    run.Leads (receiver.client (Pomelo.pcClientPoll receiver passes state)) := by
  rw [Pomelo.pcClientPoll, ← client] at ended ⊢
  by_cases inside : run.client.isInPoll = true
  · rw [if_pos inside, ← client]
    exact Leads.refl run
  · rw [if_neg inside] at ended ⊢
    rw [reentrant.change] at ended ⊢
    have entered : run.poll = { run with
        client := { run.client with isInPoll := true }
        frames := .poll :: run.frames } := if_neg inside
    have begun := reentrant.change (fun client => { client with isInPoll := true }) state
    have step := Step.poll run user
    have pollInv := inv.poll
    rw [entered] at step pollInv
    rw [← client] at begun
    obtain ⟨late, steps, frames, same⟩ := reentrant.pcClientPollLoop pollInv rfl begun.symm ended
    have empty : late.client.pendingEvQueue = [] := by
      rw [same]
      exact ended
    have last := Step.next late frames
    have left : late.next = { late with
        client := { late.client with isInPoll := false }
        frames := late.frames.tail } := by
      rw [PollRun.next, empty]
    refine ⟨late.next, (Relation.ReflTransGen.head step steps).tail last, ?_, ?_⟩
    · rw [left, frames]
      rfl
    · rw [left, same]

end Reentrant

/-- Two events are queued, and the callback of the first one polls and queues a third. -/
def nestedPoll : PollRun :=
  let queued := ((start []).queue (.notify 1 0)).queue (.notify 2 0)
  let handling := queued.poll.next
  ((handling.poll.queue (.notify 3 0)).handleEnds ⟨some 0, .notify 1 0⟩).next

theorem polls_disciplined_of_reachable_nestedPoll : nestedPoll.Disciplined := by
  have queued := (Relation.ReflTransGen.single
    (Step.queue (start []) (by decide) (.notify 1 0))).tail (.queue _ (by decide) (.notify 2 0))
  have handling := (queued.tail (.poll _ (by decide))).tail (.next _ rfl)
  have called := (handling.tail (.poll _ (by decide))).tail (.queue _ (by decide) (.notify 3 0))
  exact polls_disciplined_of_reachable ((called.tail (.handleEnds _ rfl)).tail (.next _ rfl))

end PollRun

end Pomelo
