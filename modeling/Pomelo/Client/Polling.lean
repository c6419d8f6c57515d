import Pomelo.Client.Delivery

/-!
# Polling and direct delivery

A polling client keeps what the transport reports in a queue, and `pc_client_poll`
empties it. With callbacks that do nothing the order of the reports is all that
matters: whenever the queue has been emptied, the client is the one that the same
reports would have made by direct delivery.
-/

namespace Pomelo

/-- A client whose callbacks do nothing, with what has been seen so far. -/
structure Delivery where
  client : Client
  trace : List Sight

/-- Adds to the trace. -/
def Delivery.see (sight : Sight) (delivery : Delivery) : Delivery :=
  { delivery with trace := delivery.trace ++ [sight] }

/-- Acts on the client. -/
def Delivery.change (act : Client → Client) (delivery : Delivery) : Delivery :=
  { delivery with client := act delivery.client }

/-- Callbacks that do nothing. -/
def silent : Receiver Delivery where
  client := Delivery.client
  change := Delivery.change
  see := Delivery.see

@[simp] theorem silent_client : silent.client = Delivery.client := rfl
@[simp] theorem silent_change : silent.change = Delivery.change := rfl
@[simp] theorem silent_see : silent.see = Delivery.see := rfl

/-- The fields of a client that only the polling functions use. -/
structure EventBox where
  pendingEvents : List Bool
  pendingEvQueue : List PendingEvent
  isInPoll : Bool

namespace Delivery

/-- Exchanges the fields of the polling functions. -/
def setBox (box : EventBox) (delivery : Delivery) : Delivery :=
  delivery.change fun client => { client with
    pendingEvents := box.pendingEvents
    pendingEvQueue := box.pendingEvQueue
    isInPoll := box.isInPoll }

/-- The fields of the polling functions. -/
def box (delivery : Delivery) : EventBox where
  pendingEvents := delivery.client.pendingEvents
  pendingEvQueue := delivery.client.pendingEvQueue
  isInPoll := delivery.client.isInPoll

variable {delivery : Delivery}

@[simp] theorem setBox_setBox (first second : EventBox) :
    (delivery.setBox first).setBox second = delivery.setBox second := rfl

@[simp] theorem setBox_box : delivery.setBox delivery.box = delivery := rfl

/-- An assertion that holds is silent. -/
theorem assert_of (sight : Sight) {holds : Bool} (true : holds = true) :
    silent.assert holds sight delivery = delivery := if_pos true

/-- An assertion does not depend on the events that wait. -/
theorem assert_setBox (holds : Bool) (sight : Sight) (box : EventBox) :
    silent.assert holds sight (delivery.setBox box) =
      (silent.assert holds sight delivery).setBox box := by
  cases holds <;> rfl

theorem foldl_see_setBox (sights : Nat → Sight) (handlers : List Nat) (box : EventBox) :
    handlers.foldl (fun delivery handler => delivery.see (sights handler)) (delivery.setBox box) =
      (handlers.foldl (fun delivery handler => delivery.see (sights handler)) delivery).setBox box := by
  induction handlers generalizing delivery with
  | nil => rfl
  | cons handler handlers ih =>
      rw [List.foldl_cons, List.foldl_cons, ← ih]
      rfl

end Delivery

variable {delivery : Delivery}

/-- A known code has a string, so the assertion about it holds. -/
theorem pcClientRcStr_of_known {rc : Int} (known : rcKnown rc = true) :
    pcClientRcStr silent rc delivery = delivery := Delivery.assert_of _ known

/-- Handing an event over does not depend on the events that wait. -/
theorem pcTransFire_setBox (type : EvType) (arg1 arg2 : Option CStr) (box : EventBox) :
    pcTransFire silent type arg1 arg2 (delivery.setBox box) =
      (pcTransFire silent type arg1 arg2 delivery).setBox box := by
  have fired (delivery : Delivery) : (delivery.setBox box).change (Client.fire type) =
      (delivery.change (Client.fire type)).setBox box := by cases type <;> rfl
  have allowed : (delivery.setBox box).client.allows type = delivery.client.allows type := by
    cases type <;> rfl
  have state : (delivery.setBox box).client.state = delivery.client.state := rfl
  have handlers (delivery : Delivery) :
      (delivery.setBox box).client.evHandlers = delivery.client.evHandlers := rfl
  simp only [pcTransFire, silent_client, silent_change, silent_see]
  rw [allowed, state, Delivery.assert_setBox, fired, handlers, Delivery.foldl_see_setBox]

theorem pcTransFireEventNow_setBox (evType : Int) (arg1 arg2 : Option CStr) (box : EventBox) :
    pcTransFireEventNow silent evType arg1 arg2 (delivery.setBox box) =
      (pcTransFireEventNow silent evType arg1 arg2 delivery).setBox box := by
  unfold pcTransFireEventNow
  cases EvType.ofCode? evType with
  | none => rfl
  | some type =>
      dsimp only
      split
      · exact pcTransFire_setBox type arg1 arg2 box
      · rfl

/-- A request is found in its queue whatever events wait. -/
theorem take_setBox (kind : ReqKind) (key : Nat) (box : EventBox) :
    (delivery.setBox box).client.take kind key =
      (delivery.client.take kind key).map fun entry =>
        (entry.1, (Delivery.setBox box { delivery with client := entry.2 }).client) := by
  cases kind <;> simp only [Client.take, Delivery.setBox, Delivery.change, Client.pool] <;>
    split <;> rfl

theorem pcTransCompleteNow_setBox (kind : ReqKind) (key : Nat) (rc : Int) (resp : Option CStr)
    (box : EventBox) :
    pcTransCompleteNow silent kind key rc resp (delivery.setBox box) =
      (pcTransCompleteNow silent kind key rc resp delivery).setBox box := by
  unfold pcTransCompleteNow
  rw [silent_client, take_setBox]
  cases delivery.client.take kind key with
  | none => rfl
  | some entry =>
      simp only [Option.map_some, pcClientRcStr, Delivery.assert_setBox]
      cases kind <;> rfl

theorem EventData.handle_setBox (data : EventData) (box : EventBox) :
    data.handle silent (delivery.setBox box) = (data.handle silent delivery).setBox box := by
  cases data with
  | ev evType arg1 arg2 => exact pcTransFireEventNow_setBox evType arg1 arg2 box
  | notify seqNum rc =>
      rw [handle, pcTransSentNow, pcTransCompleteNow_setBox]
      exact Delivery.assert_setBox ..
  | req reqId rc resp =>
      rw [handle, pcTransRespNow, pcTransCompleteNow_setBox]
      exact Delivery.assert_setBox ..

/-- The preallocated events after one has been released. -/
def PendingEvent.clear (pendingEvents : List Bool) (event : PendingEvent) : List Bool :=
  match event.slot with
  | some slot => pendingEvents.set slot false
  | none => pendingEvents

/-- The events of a queue, handled one after another. -/
def handleAll (queue : List PendingEvent) (delivery : Delivery) : Delivery :=
  queue.foldl (fun delivery event => event.data.handle silent delivery) delivery

theorem handleAll_setBox (queue : List PendingEvent) (box : EventBox) :
    handleAll queue (delivery.setBox box) = (handleAll queue delivery).setBox box := by
  induction queue generalizing delivery with
  | nil => rfl
  | cons event queue ih =>
      rw [handleAll, List.foldl_cons, event.data.handle_setBox]
      exact ih

theorem change_releaseEvent (event : PendingEvent) :
    delivery.change (Client.releaseEvent event) = delivery.setBox
      { delivery.box with pendingEvents := event.clear delivery.client.pendingEvents } := by
  obtain ⟨slot, data⟩ := event
  cases slot <;> rfl

/-- Clearing a slot leaves the other events busy. -/
theorem eventBusy_clear {event other : PendingEvent} {client : Client}
    (apart : ∀ slot, event.slot = some slot → other.slot ≠ some slot)
    (busy : client.eventBusy other = true) :
    { client with pendingEvents := event.clear client.pendingEvents }.eventBusy other = true := by
  unfold Client.eventBusy at busy ⊢
  cases taken : other.slot with
  | none => rfl
  | some slot =>
      rw [taken] at busy
      cases cleared : event.slot with
      | none => simpa only [PendingEvent.clear, cleared] using busy
      | some index =>
          have ne : index ≠ slot := fun same => apart index cleared (same ▸ taken)
          simpa only [PendingEvent.clear, cleared, List.getElem?_set_ne ne] using busy

/-- A loop that makes enough passes handles every event and releases it. -/
theorem pcClientPollLoop_eq {passes : Nat} {queue : List PendingEvent}
    (queued : delivery.client.pendingEvQueue = queue) (enough : queue.length ≤ passes)
    (busy : ∀ event ∈ queue, delivery.client.eventBusy event = true)
    (distinct : (queue.filterMap PendingEvent.slot).Nodup) :
    pcClientPollLoop silent passes delivery = (handleAll queue delivery).setBox
      { pendingEvents := queue.foldl PendingEvent.clear delivery.client.pendingEvents
        pendingEvQueue := []
        isInPoll := delivery.client.isInPoll } := by
  induction queue generalizing delivery passes with
  | nil =>
      have stopped : pcClientPollLoop silent passes delivery = delivery := by
        cases passes with
        | zero => rfl
        | succ passes =>
            have empty : (silent.client delivery).pendingEvQueue = [] := queued
            rw [pcClientPollLoop, empty]
      rw [stopped, handleAll, List.foldl_nil, List.foldl_nil, ← queued]
      rfl
  | cons event rest ih =>
      obtain ⟨passes, rfl⟩ : ∃ more, passes = more + 1 :=
        ⟨passes - 1, by simp only [List.length_cons] at enough; omega⟩
      have taken : silent.change (fun client => { client with pendingEvQueue := rest }) delivery =
          delivery.setBox { delivery.box with pendingEvQueue := rest } := rfl
      have asserted : (silent.client (delivery.setBox
          { delivery.box with pendingEvQueue := rest })).eventBusy event = true :=
        busy event List.mem_cons_self
      have front : (silent.client delivery).pendingEvQueue = event :: rest := queued
      have released (delivery : Delivery) :
          silent.change (Client.releaseEvent event) delivery = delivery.setBox
            { delivery.box with pendingEvents := event.clear delivery.client.pendingEvents } :=
        change_releaseEvent event
      simp only [pcClientPollLoop, front, taken, Delivery.assert_of _ asserted, pcHandleEvent,
        event.data.handle_setBox, released, Delivery.setBox_setBox]
      rw [ih rfl (Nat.le_of_succ_le_succ enough)]
      · rw [handleAll_setBox, Delivery.setBox_setBox]
        rfl
      · intro other member
        refine eventBusy_clear (fun slot own same => ?_) (busy other (List.mem_cons_of_mem _ member))
        rw [List.filterMap_cons_some own, List.nodup_cons] at distinct
        exact distinct.1 (List.mem_filterMap.mpr ⟨other, member, same⟩)
      · exact distinct.sublist ((List.sublist_cons_self event rest).filterMap _)

/-- The codes that come with an event have names. -/
def EventData.rcKnown : EventData → Bool
  | .ev .. => true
  | .notify _ rc | .req _ rc _ => Pomelo.rcKnown rc

/-- The preallocated events that are busy are the ones in the queue, each once. -/
structure EventsSound (client : Client) : Prop where
  distinct : (client.pendingEvQueue.filterMap PendingEvent.slot).Nodup
  busy : ∀ slot, client.pendingEvents[slot]? = some true ↔
    ∃ event ∈ client.pendingEvQueue, event.slot = some slot
  known : ∀ event ∈ client.pendingEvQueue, event.data.rcKnown = true
  outside : client.isInPoll = false

variable {client : Client}

theorem EventsSound.eventBusy (sound : EventsSound client) :
    ∀ event ∈ client.pendingEvQueue, client.eventBusy event = true := by
  intro event member
  unfold Client.eventBusy
  cases taken : event.slot with
  | none => rfl
  | some slot => exact decide_eq_true ((sound.busy slot).mpr ⟨event, member, taken⟩)

/-- An event with a known code is queued soundly, in a slot of the pool or an allocated one. -/
theorem EventsSound.queueEvent (sound : EventsSound client) {data : EventData}
    (known : data.rcKnown = true) : EventsSound (client.queueEvent data) := by
  have known' (slot : Option Nat) :
      ∀ event ∈ client.pendingEvQueue ++ [PendingEvent.mk slot data], event.data.rcKnown = true := by
    intro event member
    rcases List.mem_append.mp member with member | member
    · exact sound.known event member
    · rw [List.mem_singleton.mp member]
      exact known
  unfold Client.queueEvent
  cases search : client.pendingEvents.findIdx? fun busy => !busy with
  | none =>
      refine ⟨?_, fun slot => (sound.busy slot).trans ?_, known' none, sound.outside⟩
      · simpa using sound.distinct
      · simp
  | some index =>
      obtain ⟨bound, free, -⟩ := List.findIdx?_eq_some_iff_getElem.mp search
      have idle : ¬ client.pendingEvents[index]? = some true := by
        rw [List.getElem?_eq_getElem bound]
        simpa using free
      refine ⟨?_, fun slot => ?_, known' (some index), sound.outside⟩
      · rw [List.filterMap_append, List.nodup_append]
        refine ⟨sound.distinct, List.nodup_singleton index, ?_⟩
        intro slot member other last same
        obtain ⟨event, inside, taken⟩ := List.mem_filterMap.mp member
        have own : other = index := by simpa using last
        exact idle ((sound.busy index).mpr ⟨event, inside, by rw [taken, same, own]⟩)
      · change (client.pendingEvents.set index true)[slot]? = some true ↔
          ∃ event ∈ client.pendingEvQueue ++ [PendingEvent.mk (some index) data],
            event.slot = some slot
        rw [List.getElem?_set]
        by_cases same : index = slot
        · subst same
          simp [bound]
        · simpa [same] using sound.busy slot

/-- Releasing every event of the queue leaves no preallocated event busy. -/
theorem EventsSound.foldl_clear (sound : EventsSound client) :
    client.pendingEvQueue.foldl PendingEvent.clear client.pendingEvents =
      List.replicate client.pendingEvents.length false := by
  have kept (queue : List PendingEvent) (pendingEvents : List Bool) (slot : Nat)
      (busy : (queue.foldl PendingEvent.clear pendingEvents)[slot]? = some true) :
      pendingEvents[slot]? = some true ∧ ∀ event ∈ queue, event.slot ≠ some slot := by
    induction queue generalizing pendingEvents with
    | nil => exact ⟨busy, fun _ member => absurd member List.not_mem_nil⟩
    | cons event queue ih =>
        obtain ⟨still, others⟩ := ih _ busy
        unfold PendingEvent.clear at still
        cases taken : event.slot with
        | none =>
            rw [taken] at still
            exact ⟨still, List.forall_mem_cons.mpr ⟨by simp [taken], others⟩⟩
        | some index =>
            rw [taken] at still
            simp only [List.getElem?_set] at still
            split at still
            · split at still <;> simp at still
            case isFalse ne =>
              refine ⟨still, List.forall_mem_cons.mpr ⟨fun same => ne ?_, others⟩⟩
              exact Option.some.inj (taken.symm.trans same)
  have length (queue : List PendingEvent) (pendingEvents : List Bool) :
      (queue.foldl PendingEvent.clear pendingEvents).length = pendingEvents.length := by
    induction queue generalizing pendingEvents with
    | nil => rfl
    | cons event queue ih =>
        rw [List.foldl_cons, ih, PendingEvent.clear]
        split
        · exact List.length_set
        · rfl
  refine List.eq_replicate_iff.mpr ⟨length _ _, fun busy member => ?_⟩
  cases busy with
  | false => rfl
  | true =>
      obtain ⟨slot, found⟩ := List.getElem?_of_mem member
      obtain ⟨busy, others⟩ := kept _ _ slot found
      obtain ⟨event, inside, taken⟩ := (sound.busy slot).mp busy
      exact absurd taken (others event inside)

/-- `pc_client_poll` with callbacks that do nothing. They queue no further events, so
the loop needs no more passes than there are events. -/
def pollSilent (delivery : Delivery) : Delivery :=
  pcClientPoll silent delivery.client.pendingEvQueue.length delivery

/-- What a poll makes of a delivery. -/
theorem pollSilent_eq (sound : EventsSound delivery.client) :
    pollSilent delivery = (handleAll delivery.client.pendingEvQueue delivery).setBox
      { pendingEvents := List.replicate delivery.client.pendingEvents.length false
        pendingEvQueue := []
        isInPoll := false } := by
  have outside : ¬ (silent.client delivery).isInPoll = true := by
    rw [show (silent.client delivery).isInPoll = false from sound.outside]
    exact Bool.false_ne_true
  have loop : pcClientPollLoop silent delivery.client.pendingEvQueue.length
      (delivery.setBox { delivery.box with isInPoll := true }) = _ :=
    pcClientPollLoop_eq rfl (Nat.le_refl _) sound.eventBusy sound.distinct
  rw [pollSilent, pcClientPoll, if_neg outside]
  refine (congrArg (Delivery.change fun client => { client with isInPoll := false }) loop).trans ?_
  rw [handleAll_setBox, ← sound.foldl_clear]
  rfl

/-- Nothing is pending. -/
structure Settled (client : Client) : Prop where
  queue : client.pendingEvQueue = []
  idle : client.pendingEvents = List.replicate client.pendingEvents.length false
  outside : client.isInPoll = false

/-- A settled client has nothing queued. -/
theorem Settled.sound (settled : Settled client) : EventsSound client where
  distinct := by
    rw [settled.queue]
    exact List.nodup_nil
  busy := by
    intro slot
    rw [settled.queue, settled.idle]
    simp [List.getElem?_replicate]
  known := by
    rw [settled.queue]
    exact fun _ member => absurd member List.not_mem_nil
  outside := settled.outside

/-- Polling settles the client. -/
theorem settled_pollSilent (sound : EventsSound delivery.client) :
    Settled (pollSilent delivery).client := by
  rw [pollSilent_eq sound]
  exact ⟨rfl, by simp [Delivery.setBox, Delivery.change], rfl⟩

/-- A poll with nothing pending does nothing. -/
theorem Settled.pollSilent (settled : Settled delivery.client) :
    pollSilent delivery = delivery := by
  rw [pollSilent_eq settled.sound, settled.queue, ← settled.idle, handleAll, List.foldl_nil]
  have box : delivery.box = ⟨delivery.client.pendingEvents, [], false⟩ := by
    rw [Delivery.box, settled.queue, settled.outside]
  rw [← box, Delivery.setBox_box]

/-- The codes that come with a report have names. -/
def Upcall.rcKnown : Upcall → Bool
  | .fireEvent .. => true
  | .sent _ rc | .resp _ rc _ => Pomelo.rcKnown rc

/-- What a report puts into the queue. -/
def Upcall.data? : Upcall → Option EventData
  | .fireEvent evType arg1 arg2 =>
      match EvType.ofCode? evType with
      | none => none
      | some type => if type.hasArgs arg1 arg2 then some (.ev evType arg1 arg2) else none
  | .sent seqNum rc => some (.notify seqNum rc)
  | .resp reqId rc answer => some (.req reqId rc answer)

/-- A report that is queued. -/
theorem Upcall.report_true (upcall : Upcall) (known : upcall.rcKnown = true) :
    upcall.report silent true delivery =
      match upcall.data? with
      | none => delivery
      | some data => delivery.change (Client.queueEvent data) := by
  cases upcall with
  | fireEvent evType arg1 arg2 =>
      simp only [report, pcTransFireEvent, if_true, pcTransQueueEvent, data?]
      cases EvType.ofCode? evType with
      | none => rfl
      | some type =>
          dsimp only
          split <;> rfl
  | sent seqNum rc =>
      exact congrArg (Delivery.change _) (pcClientRcStr_of_known known)
  | resp reqId rc answer =>
      exact congrArg (Delivery.change _) (pcClientRcStr_of_known known)

/-- A report that is delivered at once does what handling its event does. -/
theorem Upcall.report_false (upcall : Upcall) (known : upcall.rcKnown = true) :
    upcall.report silent false delivery =
      match upcall.data? with
      | none => delivery
      | some data => data.handle silent delivery := by
  cases upcall with
  | fireEvent evType arg1 arg2 =>
      simp only [report, pcTransFireEvent, Bool.false_eq_true, if_false, data?]
      cases type : EvType.ofCode? evType with
      | none => simp only [pcTransFireEventNow, type]
      | some type' =>
          cases args : type'.hasArgs arg1 arg2 with
          | true =>
              simp only [args, if_true]
              rfl
          | false =>
              simp only [pcTransFireEventNow, type, args, Bool.false_eq_true, if_false]
  | sent seqNum rc => exact (pcClientRcStr_of_known known).symm
  | resp reqId rc answer => exact (pcClientRcStr_of_known known).symm

/-- A known code is queued as it was. -/
theorem Upcall.rcKnown_data {upcall : Upcall} {data : EventData} (known : upcall.rcKnown = true)
    (queued : upcall.data? = some data) : data.rcKnown = true := by
  cases upcall with
  | fireEvent evType arg1 arg2 =>
      simp only [data?] at queued
      split at queued
      · exact absurd queued (by simp)
      · split at queued
        · exact Option.some.inj queued ▸ rfl
        · exact absurd queued (by simp)
  | sent seqNum rc => exact Option.some.inj queued ▸ known
  | resp reqId rc answer => exact Option.some.inj queued ▸ known

/-- Queueing a report before a poll is delivering it after the poll. -/
theorem pollSilent_report (sound : EventsSound delivery.client) {upcall : Upcall}
    (known : upcall.rcKnown = true) :
    EventsSound (upcall.report silent true delivery).client ∧
      pollSilent (upcall.report silent true delivery) =
        upcall.report silent false (pollSilent delivery) := by
  rw [upcall.report_true known, upcall.report_false known]
  cases queued : upcall.data? with
  | none => exact ⟨sound, rfl⟩
  | some data =>
      have next : EventsSound (delivery.change (Client.queueEvent data)).client :=
        sound.queueEvent (Upcall.rcKnown_data known queued)
      obtain ⟨slot, events, pushed⟩ : ∃ slot events, delivery.change (Client.queueEvent data) =
          delivery.setBox
            { pendingEvents := events
              pendingEvQueue := delivery.client.pendingEvQueue ++ [PendingEvent.mk slot data]
              isInPoll := delivery.client.isInPoll } ∧
            events.length = delivery.client.pendingEvents.length := by
        unfold Delivery.change Client.queueEvent
        split
        · exact ⟨_, _, rfl, List.length_set⟩
        · exact ⟨_, _, rfl, rfl⟩
      refine ⟨next, ?_⟩
      dsimp only
      rw [pollSilent_eq next, pollSilent_eq sound, data.handle_setBox, pushed.1,
        handleAll_setBox, Delivery.setBox_setBox]
      change (handleAll (delivery.client.pendingEvQueue ++ [PendingEvent.mk slot data]) delivery).setBox
        { pendingEvents := List.replicate events.length false
          pendingEvQueue := []
          isInPoll := false } = _
      rw [pushed.2, handleAll, List.foldl_append]
      rfl

/-- A step of a polling client: a report, or a call of `pc_client_poll`. -/
inductive PollingStep where
  | report (upcall : Upcall)
  | poll

/-- A polling client after some steps. -/
def runPolling (steps : List PollingStep) (delivery : Delivery) : Delivery :=
  steps.foldl (fun delivery step =>
    match step with
    | .report upcall => upcall.report silent true delivery
    | .poll => pollSilent delivery) delivery

/-- A client without polling after some reports. -/
def runDirect (upcalls : List Upcall) (delivery : Delivery) : Delivery :=
  upcalls.foldl (fun delivery upcall => upcall.report silent false delivery) delivery

/-- The reports among the steps. -/
def reports (steps : List PollingStep) : List Upcall :=
  steps.filterMap fun
    | .report upcall => some upcall
    | .poll => none

/-- Reports and polls, in whatever order, come to the same as reporting at once and polling
before. -/
theorem pollSilent_runPolling {steps : List PollingStep} (sound : EventsSound delivery.client)
    (known : ∀ upcall ∈ reports steps, upcall.rcKnown = true) :
    EventsSound (runPolling steps delivery).client ∧
      pollSilent (runPolling steps delivery) =
        runDirect (reports steps) (pollSilent delivery) := by
  induction steps generalizing delivery with
  | nil => exact ⟨sound, rfl⟩
  | cons step steps ih =>
      cases step with
      | report upcall =>
          have first := pollSilent_report sound (known upcall List.mem_cons_self)
          have rest := ih first.1 fun upcall member => known upcall (List.mem_cons_of_mem _ member)
          refine ⟨rest.1, rest.2.trans ?_⟩
          rw [first.2]
          rfl
      | poll =>
          have settled := settled_pollSilent sound
          have rest := ih settled.sound known
          exact ⟨rest.1, rest.2.trans (congrArg _ settled.pollSilent)⟩

/-- Whatever is queued and whenever it is polled for, a last poll leaves the client
and the trace as direct delivery does, and nothing pending. -/
theorem polling_eq_direct {steps : List PollingStep} (settled : Settled delivery.client)
    (known : ∀ upcall ∈ reports steps, upcall.rcKnown = true) :
    pollSilent (runPolling steps delivery) = runDirect (reports steps) delivery ∧
      Settled (pollSilent (runPolling steps delivery)).client := by
  obtain ⟨sound, same⟩ := pollSilent_runPolling settled.sound known
  exact ⟨same.trans (congrArg _ settled.pollSilent), settled_pollSilent sound⟩

/-- A connected client with a request and a notify that are pending. -/
def twoPending : Client :=
  let client := (pcClientInit [0, 1]).setState .connected
  let client := client.enqueue .request 7 (CStr.ofString "route") (CStr.ofString "\x7b\x7d") 5
  client.enqueue .notify 8 (CStr.ofString "route") (CStr.ofString "\x7b\x7d") 5

/-- The request is answered, and behind a poll the notify fails and the connection goes. -/
def answerPollLose : List PollingStep :=
  [.report (.resp 1 0 (some (CStr.ofString "\x7b\x7d"))), .poll, .report (.sent 1 (-2)),
    .report (.fireEvent EvType.unexpectedDisconnect.code (some (CStr.ofString "read")) none)]

/-- Both callbacks run, and both handlers of the event. -/
theorem polling_eq_direct_answerPollLose :
    (pollSilent (runPolling answerPollLose ⟨twoPending, []⟩)).trace.length = 4 ∧
      pollSilent (runPolling answerPollLose ⟨twoPending, []⟩) =
        runDirect (reports answerPollLose) ⟨twoPending, []⟩ ∧
      Settled (pollSilent (runPolling answerPollLose ⟨twoPending, []⟩)).client := by
  obtain ⟨same, settled⟩ := @polling_eq_direct ⟨twoPending, []⟩ answerPollLose ⟨rfl, rfl, rfl⟩
    (by decide)
  exact ⟨by decide +kernel, same, settled⟩

/-- A code without a name fails an assertion when it is queued, and goes unnoticed
when its id is not pending and it is delivered at once. -/
theorem polling_ne_direct_unknown_rc :
    pollSilent (runPolling [.report (.resp 1 1 none)] ⟨pcClientInit [], []⟩) ≠
      runDirect (reports [.report (.resp 1 1 none)]) ⟨pcClientInit [], []⟩ := by
  intro same
  have traces := congrArg Delivery.trace same
  revert traces
  decide +kernel

end Pomelo
