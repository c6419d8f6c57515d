import Pomelo.Transport.Phase

/-!
# What deliveries put into the queues

While something is delivered, messages can be queued: behind `write_wait_queue` once the
handshake is done, and behind `conn_pending_queue` before. The other queues stay as they
are, so that the loops over them come to an end and leave them empty.
-/

namespace Pomelo

open Transition Recorded

variable {env : Env} {first second third : Sys}

/-- The queue that messages are queued in while the transport is in a state. -/
def TcpState.inbox (state : TcpState) : WiQueue :=
  if state = .done then .writeWait else .connPending

/-- An inserted item is the last one of its queue. -/
theorem Core.items_insert (core : Core) (item : WriteItem) (queue : WiQueue) :
    (core.insert item).tcp.wq.items queue =
      if queue = core.tcp.state.inbox then core.tcp.wq.items queue ++ [item]
      else core.tcp.wq.items queue := by
  have allocated := WriteQueues.items_allocate item.slot core.tcp.wq queue
  rw [Core.insert, TcpState.inbox]
  by_cases done : core.tcp.state = .done
  · simp only [if_pos done]
    cases queue <;> first | exact allocated | exact congrArg (· ++ [item]) allocated
  · simp only [if_neg done]
    cases queue <;> first | exact allocated | exact congrArg (· ++ [item]) allocated

/-- It is in no queue that is being checked. -/
theorem Core.tmp_insert (core : Core) (item : WriteItem) :
    (core.insert item).tcp.wq.tmp = core.tcp.wq.tmp := by
  have allocated := WriteQueues.tmp_allocate item.slot core.tcp.wq
  rw [Core.insert]
  dsimp only
  split <;> exact allocated

theorem WriteQueues.tmpOf_congr {first second : WriteQueues} (tmp : second.tmp = first.tmp)
    (queue : WiQueue) : second.tmpOf queue = first.tmpOf queue := by
  rw [tmpOf, tmp]
  rfl

theorem WriteQueues.whole_congr {first second : WriteQueues} {queue : WiQueue}
    (tmp : second.tmp = first.tmp) (items : second.items queue = first.items queue) :
    second.whole queue = first.whole queue := by
  rw [whole, whole, tmpOf_congr tmp, items]

theorem Core.whole_insert (core : Core) (item : WriteItem) (queue : WiQueue) :
    (core.insert item).tcp.wq.whole queue =
      if queue = core.tcp.state.inbox then core.tcp.wq.whole queue ++ [item]
      else core.tcp.wq.whole queue := by
  rw [WriteQueues.whole, WriteQueues.whole, WriteQueues.tmpOf_congr (core.tmp_insert item),
    Core.items_insert]
  split
  · exact (List.append_assoc ..).symm
  · rfl

/-- Messages can have been queued. -/
structure Fills (first second : Sys) : Prop where
  state : second.state.tcp.state = first.state.tcp.state
  tmp : second.state.tcp.wq.tmp = first.state.tcp.wq.tmp
  items : ∀ queue, queue ≠ first.state.tcp.state.inbox →
    second.state.tcp.wq.items queue = first.state.tcp.wq.items queue

namespace Fills

theorem refl (sys : Sys) : Fills sys sys := ⟨rfl, rfl, fun _ _ => rfl⟩

theorem trans (left : Fills first second) (right : Fills second third) : Fills first third where
  state := right.state.trans left.state
  tmp := right.tmp.trans left.tmp
  items queue other :=
    (right.items queue (left.state.symm ▸ other)).trans (left.items queue other)

theorem of_wq (state : second.state.tcp.state = first.state.tcp.state)
    (wq : second.state.tcp.wq = first.state.tcp.wq) : Fills first second :=
  ⟨state, congrArg WriteQueues.tmp wq, fun _ _ => by rw [wq]⟩

theorem of_still (still : Still first second) : Fills first second := by
  refine of_wq ?_ still.wq
  have same := congrArg Transport.state still.conn
  exact same

theorem accept (item : WriteItem) (sys : Sys) : Fills sys (sys.accept item) where
  state := congrArg Link.state (Quiet.accept item sys).aside.link
  tmp := Core.tmp_insert sys.state item
  items queue other := (Core.items_insert sys.state item queue).trans (if_neg other)

/-- A delivery may fill the queues. -/
theorem of_deliver (deliver : Deliver env first second) : Fills first second := by
  rcases deliver.still_or_accepts with still | ⟨mid, item, before, -, after⟩
  · exact of_still still
  · exact ((of_still before).trans (accept item mid)).trans (of_still after)

theorem of_delivered (delivered : Delivered env first second) : Fills first second := by
  induction delivered with
  | refl => exact refl first
  | tail _ last ih => exact ih.trans (of_deliver last)

theorem recycle (item : WriteItem) (sys : Sys) : Fills sys (sys.wq (WriteQueues.recycle item)) :=
  ⟨rfl, WriteQueues.tmp_recycle item _, fun queue _ => WriteQueues.items_recycle item _ queue⟩

variable (env) in

/-- Dropping an item may, too, by what its callback does. -/
theorem dropItem (item : WriteItem) (rc : Int) (sys : Sys) :
    Fills sys (Pomelo.dropItem env item rc sys) :=
  (of_delivered (delivered_completeItem item rc sys)).trans (recycle item _)

variable (env) in
theorem fireEvent (type : EvType) (arg1 arg2 : Option CStr) (sys : Sys) :
    Fills sys (Pomelo.fireEvent env type arg1 arg2 sys) := by
  have noted : Fills sys (sys.note (.fire type)) := of_wq rfl rfl
  exact noted.trans (of_delivered (delivered_fireEvent type arg1 arg2 sys))

end Fills

/-- A queue is what it is set to. -/
theorem WriteQueues.items_setItems (queue : WiQueue) (items : List WriteItem)
    (queues : WriteQueues) : (queues.setItems queue items).items queue = items := by
  cases queue <;> rfl

/-- The others are what they were. -/
theorem WriteQueues.items_setItems_of_ne {queue other : WiQueue} (ne : other ≠ queue)
    (items : List WriteItem) (queues : WriteQueues) :
    (queues.setItems queue items).items other = queues.items other := by
  cases queue <;> cases other <;> first | rfl | exact absurd rfl ne

/-- What is put back at the end of a check. -/
theorem WriteQueues.items_endCheck (queue other : WiQueue) (queues : WriteQueues) :
    (queues.endCheck queue).items other =
      if other = queue then queues.whole queue else queues.items other := by
  cases queue <;> cases other <;> rfl

/-- When a check begins, the whole queue is yet to be looked through. -/
theorem WriteQueues.whole_beginCheck (queue : WiQueue) (queues : WriteQueues) (other : WiQueue) :
    (queues.beginCheck queue).whole other = queues.items other := by
  cases queue <;> cases other <;> rfl

/-- While no queue is being checked, all items are in their queue. -/
theorem WriteQueues.whole_of_tmp {queues : WriteQueues} (tmp : queues.tmp = none) (queue : WiQueue) :
    queues.whole queue = queues.items queue := by
  rw [whole, tmpOf, tmp]
  rfl

theorem WriteQueues.tmp_setItems (queue : WiQueue) (items : List WriteItem) (queues : WriteQueues) :
    (queues.setItems queue items).tmp = queues.tmp := by
  cases queue <;> rfl

/-- An item is taken off a queue. -/
theorem WriteQueues.whole_setItems {queues : WriteQueues} {queue : WiQueue} {item : WriteItem}
    {rest : List WriteItem} (items : queues.items queue = item :: rest) (other : WiQueue) :
    ((queues.setItems queue rest).whole other).Sublist (queues.whole other) := by
  rw [whole, whole, tmpOf_congr (tmp_setItems queue rest queues)]
  refine (List.Sublist.refl _).append ?_
  by_cases same : other = queue
  · subst same
    rw [items_setItems, items]
    exact List.sublist_cons_self ..
  · rw [items_setItems_of_ne same]

/-- An item that stays in the queue that is being checked is put aside. -/
theorem WriteQueues.whole_keep {queues : WriteQueues} {queue : WiQueue} {item : WriteItem}
    {rest : List WriteItem} (checked : queues.tmp.map Prod.fst = some queue)
    (items : queues.items queue = item :: rest) (other : WiQueue) :
    ((queues.setItems queue rest).keep item).whole other = queues.whole other := by
  obtain ⟨⟨which, kept⟩, tmp, rfl⟩ := Option.map_eq_some_iff.mp checked
  have kept : ((queues.setItems which rest).keep item).tmp = some (which, kept ++ [item]) := by
    rw [keep, tmp_setItems, tmp]
    rfl
  have left : ((queues.setItems which rest).keep item).items other =
      (queues.setItems which rest).items other := by
    cases other <;> rfl
  rw [whole, whole, left, tmpOf, kept, tmpOf, tmp]
  by_cases same : which = other
  · subst same
    simp [items_setItems, items]
  · rw [items_setItems_of_ne (Ne.symm same)]
    simp [same]

/-- The end of a check leaves all items in their queue. -/
theorem WriteQueues.whole_endCheck {queues : WriteQueues} {queue : WiQueue}
    (checked : queues.tmp.map Prod.fst = some queue) (other : WiQueue) :
    (queues.endCheck queue).whole other = queues.whole other := by
  obtain ⟨⟨which, kept⟩, tmp, rfl⟩ := Option.map_eq_some_iff.mp checked
  rw [whole_of_tmp rfl, items_endCheck]
  split
  next same => rw [same]
  next ne => simp [whole, tmpOf, tmp, Ne.symm ne]

/-- An answer only takes an item out of `resp_pending_queue`. -/
theorem WriteQueues.items_answer_of_ne (reqId : Nat) (queues : WriteQueues) {queue : WiQueue}
    (other : queue ≠ .respPending) : (queues.answer reqId).items queue = queues.items queue := by
  rw [WriteQueues.answer]
  split
  · rfl
  · rw [WriteQueues.items_recycle]
    cases queue <;> first | rfl | exact absurd rfl other

/-- An answer leaves the queue that is being checked. -/
theorem WriteQueues.tmp_answer (reqId : Nat) (queues : WriteQueues) :
    (queues.answer reqId).tmp = queues.tmp := by
  rw [WriteQueues.answer]
  split
  · rfl
  · exact WriteQueues.tmp_recycle ..

/-- An answer takes an item out of a queue at most. -/
theorem WriteQueues.items_answer_of_empty (reqId : Nat) {queues : WriteQueues} {queue : WiQueue}
    (empty : queues.items queue = []) : (queues.answer reqId).items queue = [] := by
  rw [WriteQueues.answer]
  split
  · exact empty
  · rw [WriteQueues.items_recycle]
    cases queue with
    | respPending =>
        have empty : queues.respPending = [] := empty
        simp only [items, empty, List.eraseP_nil]
    | _ => exact empty

variable (env) in
/-- A loop that takes a pass for each item leaves its queue empty, and does not touch
the others. -/
theorem dropItems_empties (queue : WiQueue) (rc : Int) (passes : Nat) (sys : Sys)
    (drained : queue ≠ sys.state.tcp.state.inbox)
    (enough : (sys.state.tcp.wq.items queue).length ≤ passes) :
    (dropItems env queue rc passes sys).state.tcp.wq.items queue = [] ∧
      ∀ other, other ≠ queue → other ≠ sys.state.tcp.state.inbox →
        (dropItems env queue rc passes sys).state.tcp.wq.items other =
          sys.state.tcp.wq.items other := by
  induction passes generalizing sys with
  | zero => exact ⟨List.length_eq_zero_iff.mp (Nat.le_zero.mp enough), fun _ _ _ => rfl⟩
  | succ passes ih =>
      rw [dropItems]
      split
      next items => exact ⟨items, fun _ _ _ => rfl⟩
      next item rest items =>
        have popped : Fills (sys.wq (WriteQueues.setItems queue rest))
            (dropItem env item rc (sys.wq (WriteQueues.setItems queue rest))) := .dropItem env _ _ _
        have left := (popped.items queue drained).trans (WriteQueues.items_setItems queue rest _)
        have fewer : rest.length ≤ passes := by
          rw [items, List.length_cons] at enough
          omega
        obtain ⟨emptied, others⟩ := ih (dropItem env item rc (sys.wq (WriteQueues.setItems queue rest)))
          (popped.state.symm ▸ drained) (left.symm ▸ fewer)
        refine ⟨emptied, fun other ne unfilled => ?_⟩
        exact ((others other ne (popped.state.symm ▸ unfilled)).trans
          (popped.items other unfilled)).trans (WriteQueues.items_setItems_of_ne ne rest _)

/-- Before the handshake is done, messages are queued behind `conn_pending_queue`. -/
theorem TcpState.inbox_of_ne_done {state : TcpState} (other : state ≠ .done) :
    state.inbox = .connPending := if_neg other

/-- The two loops of `tcp__reset` leave only what has been queued meanwhile. -/
theorem items_dropBoth (first : Sys) {second third : Sys} (rc : Int)
    (other : first.state.tcp.state ≠ .done) (waits : first.state.tcp.wq.writeWait = [])
    (written : second = dropItems env .writing rc first.state.tcp.wq.writing.length first)
    (answered : third = dropItems env .respPending rc second.state.tcp.wq.respPending.length second)
    {queue : WiQueue} (left : queue ≠ .connPending) : third.state.tcp.wq.items queue = [] := by
  have inbox := TcpState.inbox_of_ne_done other
  have quiet : Quiet first second := written ▸ .dropItems .writing rc _ first
  have same : second.state.tcp.state = first.state.tcp.state := congrArg Link.state quiet.aside.link
  have emptied := dropItems_empties env .writing rc _ first (inbox.symm ▸ nofun)
    (Nat.le_refl _)
  rw [show first.state.tcp.wq.items .writing = first.state.tcp.wq.writing from rfl, ← written]
    at emptied
  have drained := dropItems_empties env .respPending rc _ second
    (same ▸ inbox.symm ▸ nofun) (Nat.le_refl _)
  rw [show second.state.tcp.wq.items .respPending = second.state.tcp.wq.respPending from rfl,
    ← answered] at drained
  cases queue with
  | connPending => exact absurd rfl left
  | writing => exact (drained.2 .writing nofun (same ▸ inbox.symm ▸ nofun)).trans emptied.1
  | respPending => exact drained.1
  | writeWait =>
      have kept := drained.2 .writeWait nofun (same ▸ inbox.symm ▸ nofun)
      exact (kept.trans (emptied.2 .writeWait nofun (inbox.symm ▸ nofun))).trans waits

/-- Behind a reset only the messages that wait for the connection are left. -/
theorem items_resetItems (sys : Sys) (other : sys.state.tcp.state ≠ .done) {queue : WiQueue}
    (left : queue ≠ .connPending) : (resetItems env sys).state.tcp.wq.items queue = [] :=
  items_dropBoth ((sys.hold true).wq WriteQueues.gather) pcRcReset other rfl rfl rfl left

/-- `tcp__reset` leaves messages in `conn_pending_queue` at most. -/
theorem items_tcpReset (sys : Sys) {queue : WiQueue} (left : queue ≠ .connPending) :
    (tcpReset env sys).state.tcp.wq.items queue = [] := by
  have closed := link_closeSocket ((sys.note .reset).tcp Transport.stopAll).state
  have down : ((sys.note .reset).tcp Transport.stopAll).state.closeSocket.tcp.state ≠ .done := by
    have state : ((sys.note .reset).tcp Transport.stopAll).state.closeSocket.tcp.state = .notConn :=
      congrArg Link.state closed
    rw [state]
    nofun
  exact items_resetItems _ down left

end Pomelo
