import Pomelo.Transport.System

/-!
# What delivering leaves alone

Wherever a callback of the loop delivers something, code of the user runs in the middle
of it. `Deliver` is one step of that, and all that the transport does between two steps
of its own is a sequence of them. Code of the user can queue messages and signal the
loop; the rest of the transport stays as it is (`Deliver.still_or_accepts`). What holds
through such a sequence therefore rests on two facts: it does not see the rest, and a
message that is queued keeps it.
-/

namespace Pomelo

open Transition Recorded

variable {env : Env} {cond : Point → Core → Prop} {inv : Sys → Prop} {first second third : Sys}

/-- One step of a delivery. -/
inductive Deliver (env : Env) (sys : Sys) : Sys → Prop where
  | act (act : Act) : Deliver env sys (Pomelo.act env sys act)
  | see (sight : Sight) : Deliver env sys (sys.note (.sight sight))
  | fire (type : EvType) : Deliver env sys (sys.client (Client.fire type))
  | queue (data : EventData) : Deliver env sys (sys.client (Client.queueEvent data))
  | take {kind : ReqKind} {key : Nat} {target : PendingReq} {client : Client}
      (found : sys.state.client.take kind key = some (target, client)) :
      Deliver env sys (sys.client fun _ => client)
  | release (kind : ReqKind) (target : PendingReq) :
      Deliver env sys (sys.client fun client => client.modifyPool kind (ReqPool.release target))

/-- Any number of steps of a delivery. -/
abbrev Delivered (env : Env) : Sys → Sys → Prop := Relation.ReflTransGen (Deliver env)

/-- A loop delivers what its passes deliver. -/
theorem Delivered.foldl {ι : Type} {step : Sys → ι → Sys}
    (delivers : ∀ sys item, Delivered env sys (step sys item)) (items : List ι) (sys : Sys) :
    Delivered env sys (items.foldl step sys) := by
  induction items generalizing sys with
  | nil => exact .refl
  | cons item items ih => exact (delivers sys item).trans (ih (step sys item))

theorem delivered_act (sys : Sys) (act : Act) : Delivered env sys (Pomelo.act env sys act) :=
  .single (.act act)

/-- The end of a call of a thread is delivered. -/
theorem delivered_finishCall (sys : Sys) (call : Call) :
    Delivered env sys (finishCall env sys call) := by
  rw [finishCall]
  split
  · exact Delivered.foldl delivered_act _ sys
  · exact .refl

/-- What the user code does is delivered. -/
theorem delivered_upcall (sys : Sys) : Delivered env sys (upcall env sys) :=
  (Delivered.foldl delivered_act _ sys).trans (Delivered.foldl delivered_finishCall _ _)

/-- What a callback sees is delivered. -/
theorem delivered_see (sight : Sight) (sys : Sys) :
    Delivered env sys ((loopReceiver env).see sight sys) := by
  have noted : Delivered env sys (sys.note (.sight sight)) := .single (.see sight)
  cases sight with
  | event handler type arg1 arg2 => exact noted.trans (delivered_upcall _)
  | completed kind req rc resp => exact noted.trans (delivered_upcall _)
  | stateAssertion type state => exact noted
  | rcStrAssertion rc => exact noted
  | eventAssertion event => exact noted

theorem delivered_assert (holds : Bool) (sight : Sight) (sys : Sys) :
    Delivered env sys ((loopReceiver env).assert holds sight sys) := by
  rw [Receiver.assert]
  split
  · exact .refl
  · exact delivered_see sight sys

/-- An event is delivered to its handlers. -/
theorem delivered_pcTransFire (type : EvType) (arg1 arg2 : Option CStr) (sys : Sys) :
    Delivered env sys (pcTransFire (loopReceiver env) type arg1 arg2 sys) :=
  ((delivered_assert _ _ sys).tail (.fire type)).trans
    (Delivered.foldl (fun sys handler => delivered_see (.event handler type arg1 arg2) sys) _ _)

/-- The client is looked at before the assertion, which leaves it alone. -/
theorem client_pcClientRcStr (rc : Int) (sys : Sys) :
    (pcClientRcStr (loopReceiver env) rc sys).state.client = sys.state.client := by
  rw [pcClientRcStr, Receiver.assert]
  split <;> rfl

/-- A completion is delivered to the callback of its request. -/
theorem delivered_pcTransComplete (kind : ReqKind) (key : Nat) (rc : Int) (resp : Option CStr)
    (sys : Sys) :
    Delivered env sys (pcTransCompleteNow (loopReceiver env) kind key rc resp sys) := by
  rw [pcTransCompleteNow]
  cases found : ((loopReceiver env).client sys).take kind key with
  | none => exact .refl
  | some taken =>
      obtain ⟨target, client⟩ := taken
      have named : Delivered env sys (pcClientRcStr (loopReceiver env) rc sys) :=
        delivered_assert _ _ sys
      have found : (pcClientRcStr (loopReceiver env) rc sys).state.client.take kind key =
          some (target, client) := by
        rw [client_pcClientRcStr]
        exact found
      exact ((named.tail (.take found)).trans (delivered_see _ _)).tail (.release kind target)

/-- An event is delivered once the call is noted. -/
theorem delivered_fireEvent (type : EvType) (arg1 arg2 : Option CStr) (sys : Sys) :
    Delivered env (sys.note (.fire type)) (fireEvent env type arg1 arg2 sys) := by
  rw [fireEvent, pcTransFireEvent]
  split
  · rw [pcTransQueueEvent, EvType.ofCode?_code]
    dsimp only
    split
    · exact .single (.queue _)
    · exact .refl
  · rw [pcTransFireEventNow, EvType.ofCode?_code]
    dsimp only
    split
    · exact delivered_pcTransFire type arg1 arg2 _
    · exact .refl

/-- Through the queue of the polling client as well as at once. -/
theorem delivered_pcTransResp (reqId : Nat) (rc : Int) (resp : Option CStr) (sys : Sys) :
    Delivered env sys
      (pcTransResp (loopReceiver env) env.config.enablePolling reqId rc resp sys) := by
  rw [pcTransResp]
  split
  · exact (delivered_assert _ _ sys).tail (.queue _)
  · exact delivered_pcTransComplete .request reqId rc resp sys

theorem delivered_pcTransSent (seqNum : Nat) (rc : Int) (sys : Sys) :
    Delivered env sys (pcTransSent (loopReceiver env) env.config.enablePolling seqNum rc sys) := by
  rw [pcTransSent]
  split
  · exact (delivered_assert _ _ sys).tail (.queue _)
  · exact delivered_pcTransComplete .notify seqNum rc none sys

/-- An item is completed as what it is. -/
theorem delivered_completeItem (item : WriteItem) (rc : Int) (sys : Sys) :
    Delivered env sys (completeItem env item rc sys) := by
  rw [completeItem]
  split
  · exact delivered_pcTransResp item.reqId rc none sys
  · exact delivered_pcTransSent item.seqNum rc sys
  · exact .refl

/-- The fields of the transport that only the loop thread writes, apart from the write
queues. -/
def Transport.conn (tcp : Transport) : Transport :=
  { tcp with
    connAsync := false
    writeAsync := false
    disconnectAsync := false
    cleanupAsync := false
    host := none
    port := 0
    handshakeOpts := none
    wq := .init }

/-- The notes of calls, of what they see and of how they end. -/
def Point.ofUser : Point → Bool
  | .call .. | .returned .. | .sight _ | .crash _ => true
  | .assertion .sendReqId | .assertion .cleanupQueues => true
  | _ => false

/-- The loop thread's part of the transport and the queues are the same in all states
from the first to the second. -/
structure Still (first second : Sys) : Prop where
  conn : second.state.tcp.conn = first.state.tcp.conn
  wq : second.state.tcp.wq = first.state.tcp.wq
  nextBorn : second.state.nextBorn = first.state.nextBorn
  closed : second.state.closed = first.state.closed
  stored : second.state.stored = first.state.stored
  notes : ∃ new, second.notes = new ++ first.notes ∧ ∀ entry ∈ new, entry.1.ofUser ∧
    entry.2.tcp.conn = first.state.tcp.conn ∧ entry.2.tcp.wq = first.state.tcp.wq

namespace Still

theorem refl (sys : Sys) : Still sys sys :=
  ⟨rfl, rfl, rfl, rfl, rfl, [], rfl, fun _ member => absurd member List.not_mem_nil⟩

theorem trans (left : Still first second) (right : Still second third) : Still first third where
  conn := right.conn.trans left.conn
  wq := right.wq.trans left.wq
  nextBorn := right.nextBorn.trans left.nextBorn
  closed := right.closed.trans left.closed
  stored := right.stored.trans left.stored
  notes := by
    obtain ⟨early, before, earlyStill⟩ := left.notes
    obtain ⟨late, after, lateStill⟩ := right.notes
    refine ⟨late ++ early, by rw [after, before, List.append_assoc], fun entry member => ?_⟩
    rcases List.mem_append.mp member with inLate | inEarly
    · obtain ⟨ofUser, conn, wq⟩ := lateStill entry inLate
      exact ⟨ofUser, conn.trans left.conn, wq.trans left.wq⟩
    · exact earlyStill entry inEarly

/-- What leaves the notes, the queues and the socket. -/
theorem of_notes (notes : second.notes = first.notes)
    (conn : second.state.tcp.conn = first.state.tcp.conn)
    (wq : second.state.tcp.wq = first.state.tcp.wq)
    (nextBorn : second.state.nextBorn = first.state.nextBorn)
    (closed : second.state.closed = first.state.closed)
    (stored : second.state.stored = first.state.stored) : Still first second :=
  ⟨conn, wq, nextBorn, closed, stored, [], notes, fun _ member => absurd member List.not_mem_nil⟩

theorem note {point : Point} (ofUser : point.ofUser) (sys : Sys) : Still sys (sys.note point) :=
  ⟨rfl, rfl, rfl, rfl, rfl, [(point, sys.state)], rfl, fun entry member => by
    rw [List.mem_singleton.mp member]
    exact ⟨ofUser, rfl, rfl⟩⟩

theorem client (act : Client → Client) (sys : Sys) : Still sys (sys.client act) :=
  of_notes rfl rfl rfl rfl rfl rfl

/-- A change of the transport beside its queues and its socket. -/
theorem tcp {act : Transport → Transport} {sys : Sys}
    (conn : (act sys.state.tcp).conn = sys.state.tcp.conn)
    (wq : (act sys.state.tcp).wq = sys.state.tcp.wq) : Still sys (sys.tcp act) :=
  of_notes rfl conn wq rfl rfl rfl

theorem stage (id : Nat) (stage : Stage) (sys : Sys) : Still sys (sys.stage id stage) :=
  of_notes rfl rfl rfl rfl rfl rfl

theorem returns (id : Nat) (rc : Int) (sys : Sys) : Still sys (sys.returns id rc) :=
  (note rfl sys).trans (of_notes rfl rfl rfl rfl rfl rfl)

theorem crash (stop : Stop) (sys : Sys) : Still sys (sys.crash stop) :=
  (note rfl sys).trans (of_notes rfl rfl rfl rfl rfl rfl)

theorem assert (holds : Core → Bool) (site : TcpAssertion)
    (ofUser : (Point.assertion site).ofUser) (sys : Sys) : Still sys (sys.assert holds site) := by
  rw [Sys.assert]
  split
  · exact refl sys
  · exact note ofUser sys

/-- An assertion of the polling functions. -/
theorem pollAssert (holds : Bool) (sight : Sight) (sys : Sys) :
    Still sys (pollReceiver.assert holds sight sys) := by
  rw [Receiver.assert]
  split
  · exact refl sys
  · exact note rfl sys

/-- A loop is still if its passes are. -/
theorem foldl {ι : Type} {step : Sys → ι → Sys} (still : ∀ sys item, Still sys (step sys item))
    (items : List ι) (sys : Sys) : Still sys (items.foldl step sys) := by
  induction items generalizing sys with
  | nil => exact refl sys
  | cons item items ih => exact (still sys item).trans (ih (step sys item))

theorem fireEventNow (evType : Int) (arg1 arg2 : Option CStr) (sys : Sys) :
    Still sys (pcTransFireEventNow pollReceiver evType arg1 arg2 sys) := by
  rw [pcTransFireEventNow]
  split
  · exact refl sys
  next type _ =>
    split
    · exact ((pollAssert _ _ sys).trans (client _ _)).trans (foldl (fun sys handler =>
        (note rfl sys : Still sys (sys.note (.sight (.event handler type arg1 arg2))))) _ _)
    · exact refl sys

theorem afterPoll (id : Nat) (next : Option UserCall) (sys : Sys) :
    Still sys (Pomelo.afterPoll id next sys) := by
  unfold Pomelo.afterPoll
  split
  · exact returns id _ sys
  · exact stage id _ sys
  · exact stage id _ sys

theorem enterPoll (id : Nat) (next : Option UserCall) (sys : Sys) :
    Still sys (Pomelo.enterPoll id next sys) := by
  rw [Pomelo.enterPoll]
  split
  · exact afterPoll id next sys
  · exact (client _ sys).trans (stage id _ _)

theorem pollComplete (id : Nat) (event : PendingEvent) (next : Option UserCall) (kind : ReqKind)
    (key : Nat) (rc : Int) (resp : Option CStr) (sys : Sys) :
    Still sys (Pomelo.pollComplete id event next kind key rc resp sys) := by
  rw [Pomelo.pollComplete]
  split
  · exact stage id _ sys
  · exact (((pollAssert _ _ sys).trans (client _ _)).trans (note rfl _)).trans (stage id _ _)

theorem pollNext (id : Nat) (next : Option UserCall) (sys : Sys) :
    Still sys (Pomelo.pollNext id next sys) := by
  rw [Pomelo.pollNext]
  split
  · exact (client _ sys).trans (afterPoll id next _)
  · dsimp only
    split
    · exact (((client _ sys).trans (pollAssert _ _ _)).trans (fireEventNow ..)).trans (stage ..)
    · exact ((client _ sys).trans (pollAssert _ _ _)).trans (pollComplete ..)
    · exact ((client _ sys).trans (pollAssert _ _ _)).trans (pollComplete ..)

theorem pollHandled (id : Nat) (event : PendingEvent) (target : Option (ReqKind × PendingReq))
    (next : Option UserCall) (sys : Sys) :
    Still sys (Pomelo.pollHandled id event target next sys) := by
  cases target with
  | none => exact (client _ sys).trans (stage id _ _)
  | some target => exact ((client _ sys).trans (client _ _)).trans (stage id _ _)

theorem checkCall (id : Nat) (thread : Thread) (call : UserCall) (sys : Sys) :
    Still sys (Pomelo.checkCall id thread call sys) := by
  cases call with
  | poll => exact returns id _ sys
  | cleanup =>
      rw [Pomelo.checkCall]
      split
      · exact returns id _ sys
      split
      · exact crash _ sys
      split
      · exact returns id _ sys
      · exact (tcp rfl rfl).trans (stage id _ _)
  | api call =>
      cases call <;> unfold Pomelo.checkCall <;> dsimp only <;> split <;>
        first | exact returns id _ sys | exact stage id _ sys | exact crash _ sys

theorem trUvTcpSend (id : Nat) (kind : ReqKind) (req : PendingReq) (sys : Sys) :
    Still sys (Pomelo.trUvTcpSend env id kind req sys) := by
  rw [Pomelo.trUvTcpSend]
  split
  · exact crash _ sys
  split
  · exact stage id _ sys
  · dsimp only
    split
    · exact (assert _ .sendReqId rfl sys).trans (crash _ _)
    · exact (assert _ .sendReqId rfl sys).trans (stage id _ _)
    · exact (assert _ .sendReqId rfl sys).trans (stage id _ _)

theorem trUvTcpSendSignal (id : Nat) (sys : Sys) : Still sys (Pomelo.trUvTcpSendSignal id sys) := by
  rw [Pomelo.trUvTcpSendSignal]
  split
  · exact (tcp rfl rfl).trans (returns id _ _)
  · exact returns id _ sys

/-- Connecting leaves the loop to do it. -/
theorem trUvTcpConnect (id : Nat) (host : CStr) (port : Int) (handshakeOpts : Option CStr)
    (sys : Sys) : Still sys (Pomelo.trUvTcpConnect env id host port handshakeOpts sys) := by
  unfold Pomelo.trUvTcpConnect
  split
  · exact crash _ sys
  split
  · exact (tcp rfl rfl).trans (returns id _ _)
  split
  · exact (tcp rfl rfl).trans (stage id _ _)
  · exact crash _ sys
  · exact (tcp rfl rfl).trans (returns id _ _)

theorem trUvTcpDisconnect (id : Nat) (sys : Sys) : Still sys (Pomelo.trUvTcpDisconnect id sys) := by
  rw [Pomelo.trUvTcpDisconnect]
  split
  · exact crash _ sys
  · exact (tcp rfl rfl).trans (returns id _ _)

theorem pcReleaseTransport (id : Nat) (sys : Sys) :
    Still sys (Pomelo.pcReleaseTransport env id sys) := by
  rw [Pomelo.pcReleaseTransport]
  split
  · exact (client _ sys).trans (enterPoll id _ _)
  · exact (client _ sys).trans (stage id _ _)

theorem pcCleanedUp (id : Nat) (sys : Sys) : Still sys (Pomelo.pcCleanedUp id sys) :=
  ((assert _ .cleanupQueues rfl sys).trans (client _ _)).trans (returns id _ _)

end Still

/-- A message is queued: what the critical section of `tr_uv_tcp_send` does. -/
def Sys.accept (item : WriteItem) (sys : Sys) : Sys :=
  (sys.note (.accepted item)).change fun core => core.insert item

/-- The item that a critical section queues. -/
def Core.Accepts (core : Core) (item : WriteItem) : Prop :=
  ∃ id kind req buf, (∃ call ∈ core.calls, call.id = id ∧ call.stage = .insert kind req buf) ∧
    item = core.newItem req buf

/-- A stage of a call other than a critical section leaves the transport alone. -/
theorem still_runStage {id : Nat} {thread : Thread} {stage : Stage}
    (other : ∀ kind req buf, stage ≠ .insert kind req buf) (sys : Sys) :
    Still sys (runStage env id thread stage sys) := by
  cases stage with
  | start call =>
      rw [runStage]
      split
      · exact Still.enterPoll ..
      · exact Still.checkCall ..
  | check call => exact Still.checkCall ..
  | link kind route msg timeout => exact (Still.client _ sys).trans (Still.stage id _ _)
  | send kind req => exact Still.trUvTcpSend ..
  | insert kind req buf => exact absurd rfl (other kind req buf)
  | signal kind req => exact Still.trUvTcpSendSignal ..
  | sendFailed kind req rc => exact (Still.client _ sys).trans (Still.returns id _ _)
  | setConnecting host port handshakeOpts => exact (Still.client _ sys).trans (Still.stage id _ _)
  | connect host port handshakeOpts => exact Still.trUvTcpConnect ..
  | connectFailed rc => exact (Still.client _ sys).trans (Still.returns id _ _)
  | setDisconnecting => exact (Still.client _ sys).trans (Still.stage id _ _)
  | disconnect => exact Still.trUvTcpDisconnect ..
  | polling next => exact Still.pollNext ..
  | handling event target next => exact Still.pollHandled ..
  | joining => exact Still.pcReleaseTransport ..
  | cleanedUp => exact Still.pcCleanedUp ..

/-- A step of a delivery either leaves the transport alone, or it is the critical section
of `tr_uv_tcp_send` and queues a message. -/
theorem Deliver.still_or_accepts (deliver : Deliver env first second) :
    Still first second ∨ ∃ mid item, Still first mid ∧ mid.state.Accepts item ∧
      Still (mid.accept item) second := by
  cases deliver with
  | see sight => exact .inl (Still.note rfl first)
  | fire type => exact .inl (Still.client _ first)
  | queue data => exact .inl (Still.client _ first)
  | take found => exact .inl (Still.client _ first)
  | release kind target => exact .inl (Still.client _ first)
  | act act =>
      cases act with
      | begin thread call => exact .inl (Still.of_notes rfl rfl rfl rfl rfl rfl)
      | tick seconds => exact .inl (Still.of_notes rfl rfl rfl rfl rfl rfl)
      | advance id =>
          rw [Pomelo.act, advance]
          cases found : first.state.calls.find? fun call => call.id = id with
          | none => exact .inl (Still.refl first)
          | some call =>
              dsimp only
              split
              · exact .inl (Still.refl first)
              have noted : Still first (first.note (.call id call.stage)) := Still.note rfl first
              by_cases other : ∀ kind req buf, call.stage ≠ .insert kind req buf
              · exact .inl (noted.trans (still_runStage other _))
              simp only [not_forall, not_not] at other
              obtain ⟨kind, req, buf, stage⟩ := other
              refine .inr ⟨_, _, noted, ⟨id, kind, req, buf, ⟨call, List.mem_of_find?_eq_some found,
                by simpa using List.find?_some found, stage⟩, rfl⟩, ?_⟩
              rw [stage]
              exact Still.stage id _ _

/-- The notes so far are kept. -/
theorem Still.suffix (still : Still first second) : first.notes <:+ second.notes := by
  obtain ⟨new, notes, -⟩ := still.notes
  exact ⟨new, notes.symm⟩

/-- What a user thread adds are notes of a user. -/
theorem Still.adds (still : Still first second) : Adds Point.ofUser first second := by
  obtain ⟨new, notes, ofUser⟩ := still.notes
  exact ⟨new, notes, fun entry member => (ofUser entry member).1⟩

/-- What does not see the calls and is kept when a message is queued holds through a
delivery. -/
theorem keeps_deliver (still : ∀ {first second}, Still first second → inv first → inv second)
    (accept : ∀ {sys item}, sys.state.Accepts item → cond (.accepted item) sys.state → inv sys →
      inv (sys.accept item))
    (deliver : Deliver env first second) : Keeps cond inv first second := by
  rcases deliver.still_or_accepts with same | ⟨mid, item, before, accepts, after⟩
  · exact ⟨same.suffix, fun _ => still same⟩
  · have queued : Keeps cond inv mid (mid.accept item) :=
      ⟨List.suffix_cons _ _, fun meets start =>
        accept accepts (meets (.accepted item, mid.state) (List.mem_cons_self ..)) start⟩
    exact (Leads.trans ⟨before.suffix, fun _ => still before⟩ queued).trans
      ⟨after.suffix, fun _ => still after⟩

/-- A property that one step of a delivery keeps is kept by any number. -/
theorem keeps_delivered (deliver : ∀ {first second}, Deliver env first second → Keeps cond inv first second)
    (delivered : Delivered env first second) : Keeps cond inv first second := by
  induction delivered with
  | refl => exact Leads.refl first
  | tail _ last ih => exact ih.trans (deliver last)

section Loops

variable (deliver : ∀ {first second}, Deliver env first second → Keeps cond inv first second)
  (recycle : ∀ {sys : Sys} {item}, inv sys → inv (sys.wq (WriteQueues.recycle item)))

include deliver recycle

/-- Dropping an item is a delivery, and gives the item back. -/
theorem keeps_dropItem (item : WriteItem) (rc : Int) (sys : Sys) :
    Keeps cond inv sys (dropItem env item rc sys) :=
  (keeps_delivered deliver (delivered_completeItem item rc sys)).trans
    ⟨List.suffix_refl _, fun _ => recycle⟩

/-- A loop that drops a queue is one delivery after another. -/
theorem keeps_dropItems {queue : WiQueue}
    (pop : ∀ {sys : Sys} {item rest}, sys.state.tcp.wq.items queue = item :: rest → inv sys →
      inv (sys.wq (WriteQueues.setItems queue rest)))
    (rc : Int) (passes : Nat) (sys : Sys) :
    Keeps cond inv sys (dropItems env queue rc passes sys) := by
  induction passes generalizing sys with
  | zero => exact Leads.refl sys
  | succ passes ih =>
      rw [dropItems]
      split
      · exact Leads.refl sys
      next item rest items =>
        have popped : Keeps cond inv sys (sys.wq (WriteQueues.setItems queue rest)) :=
          ⟨List.suffix_refl _, fun _ => pop items⟩
        exact (popped.trans (keeps_dropItem deliver recycle item rc _)).trans (ih _)

theorem keeps_finishWrites
    (pop : ∀ {sys : Sys} {item rest}, sys.state.tcp.wq.writing = item :: rest → inv sys →
      inv (sys.wq (WriteQueues.setItems .writing rest)))
    (await : ∀ {sys : Sys} {item rest}, sys.state.tcp.wq.writing = item :: rest →
      item.type = .resp → inv sys → inv ((sys.wq (WriteQueues.setItems .writing rest)).wq
        fun queues => { queues with respPending := queues.respPending ++ [item] }))
    (rc : Int) (passes : Nat) (sys : Sys) :
    Keeps cond inv sys (finishWrites env rc passes sys) := by
  induction passes generalizing sys with
  | zero => exact Leads.refl sys
  | succ passes ih =>
      rw [finishWrites]
      split
      · exact Leads.refl sys
      next item rest items =>
        have popped : Keeps cond inv sys (sys.wq (WriteQueues.setItems .writing rest)) :=
          ⟨List.suffix_refl _, fun _ => pop items⟩
        dsimp only
        split
        next waits =>
          have moved : Keeps cond inv sys ((sys.wq (WriteQueues.setItems .writing rest)).wq
              fun queues => { queues with respPending := queues.respPending ++ [item] }) :=
            ⟨List.suffix_refl _, fun _ => await items waits.2⟩
          exact moved.trans (ih _)
        next => exact (popped.trans (keeps_dropItem deliver recycle item rc _)).trans (ih _)

theorem keeps_checkQueueLoop {queue : WiQueue} {ct : Nat}
    (crash : ∀ {sys : Sys} {stop}, inv sys → inv (sys.crash stop))
    (pop : ∀ {sys : Sys} {item rest}, sys.state.tcp.wq.items queue = item :: rest →
      item.expired ct → inv sys → inv (sys.wq (WriteQueues.setItems queue rest)))
    (keep : ∀ {sys : Sys} {item rest}, sys.state.tcp.wq.items queue = item :: rest → inv sys →
      inv ((sys.wq (WriteQueues.setItems queue rest)).wq (WriteQueues.keep item)))
    (passes : Nat) (cont : Bool) (sys : Sys) :
    Keeps cond inv sys (checkQueueLoop env queue ct passes cont sys).1 := by
  induction passes generalizing cont sys with
  | zero => exact ⟨List.suffix_cons _ _, fun _ => crash⟩
  | succ passes ih =>
      rw [checkQueueLoop]
      split
      · exact Leads.refl sys
      next item rest items =>
        dsimp only
        split
        next expired =>
          have popped : Keeps cond inv sys (sys.wq (WriteQueues.setItems queue rest)) :=
            ⟨List.suffix_refl _, fun _ => pop items expired⟩
          exact (popped.trans (keeps_dropItem deliver recycle item pcRcTimeout _)).trans (ih _ _)
        next =>
          have kept : Keeps cond inv sys
              ((sys.wq (WriteQueues.setItems queue rest)).wq (WriteQueues.keep item)) :=
            ⟨List.suffix_refl _, fun _ => keep items⟩
          exact kept.trans (ih _ _)

end Loops

/-- The notes of a delivery. -/
def Point.ofDelivery : Point → Bool
  | .accepted _ => true
  | point => point.ofUser

/-- A note of a user is a note of a delivery. -/
theorem Point.ofDelivery_of_ofUser {point : Point} (ofUser : point.ofUser) : point.ofDelivery := by
  cases point <;> first | exact ofUser | rfl

/-- Only the queues, the calls and the client can differ. -/
structure Quiet (first second : Sys) : Prop where
  conn : second.state.tcp.conn = first.state.tcp.conn
  closed : second.state.closed = first.state.closed
  stored : second.state.stored = first.state.stored
  notes : Adds Point.ofDelivery first second

namespace Quiet

theorem refl (sys : Sys) : Quiet sys sys := ⟨rfl, rfl, rfl, .refl sys⟩

theorem trans (left : Quiet first second) (right : Quiet second third) : Quiet first third :=
  ⟨right.conn.trans left.conn, right.closed.trans left.closed, right.stored.trans left.stored,
    left.notes.trans right.notes⟩

/-- What leaves the notes and the socket. -/
theorem of_notes (notes : second.notes = first.notes)
    (conn : second.state.tcp.conn = first.state.tcp.conn)
    (closed : second.state.closed = first.state.closed)
    (stored : second.state.stored = first.state.stored) : Quiet first second :=
  ⟨conn, closed, stored, .of_notes notes⟩

theorem wq (act : WriteQueues → WriteQueues) (sys : Sys) : Quiet sys (sys.wq act) :=
  of_notes rfl rfl rfl rfl

theorem hold (held : Bool) (sys : Sys) : Quiet sys (sys.hold held) :=
  of_notes rfl rfl rfl rfl

theorem crash (stop : Stop) (sys : Sys) : Quiet sys (sys.crash stop) :=
  ⟨rfl, rfl, rfl, Adds.note rfl sys⟩

theorem of_still (still : Still first second) : Quiet first second where
  conn := still.conn
  closed := still.closed
  stored := still.stored
  notes := by
    obtain ⟨new, notes, ofUser⟩ := still.notes
    exact ⟨new, notes, fun entry member => Point.ofDelivery_of_ofUser (ofUser entry member).1⟩

theorem accept (item : WriteItem) (sys : Sys) : Quiet sys (sys.accept item) := by
  refine ⟨?_, rfl, rfl, Adds.note rfl sys⟩
  change (sys.state.insert item).tcp.conn = _
  rw [Core.insert]
  dsimp only
  split <;> rfl

theorem of_deliver (deliver : Deliver env first second) : Quiet first second := by
  rcases deliver.still_or_accepts with still | ⟨mid, item, before, -, after⟩
  · exact of_still still
  · exact ((of_still before).trans (accept item mid)).trans (of_still after)

theorem of_delivered (delivered : Delivered env first second) : Quiet first second := by
  induction delivered with
  | refl => exact refl first
  | tail _ last ih => exact ih.trans (of_deliver last)

/-- The rules for the loops apply to `Quiet` itself. -/
theorem of_keeps (keeps : Keeps (fun _ _ => True) (Quiet first) first second) :
    Quiet first second :=
  keeps.holds (fun _ _ => trivial) (refl first)

/-- The rule for the loops, from any state on. -/
theorem keeps_deliver {start first second : Sys} (deliver : Deliver env first second) :
    Keeps (fun _ _ => True) (Quiet start) first second :=
  ⟨(of_deliver deliver).notes.suffix, fun _ quiet => quiet.trans (of_deliver deliver)⟩

theorem dropItems (queue : WiQueue) (rc : Int) (passes : Nat) (sys : Sys) :
    Quiet sys (Pomelo.dropItems env queue rc passes sys) :=
  of_keeps (keeps_dropItems keeps_deliver (fun quiet => quiet.trans (wq _ _))
    (fun _ quiet => quiet.trans (wq _ _)) rc passes sys)

theorem finishWrites (rc : Int) (passes : Nat) (sys : Sys) :
    Quiet sys (Pomelo.finishWrites env rc passes sys) :=
  of_keeps (keeps_finishWrites keeps_deliver (fun quiet => quiet.trans (wq _ _))
    (fun _ quiet => quiet.trans (wq _ _))
    (fun _ _ quiet => (quiet.trans (wq _ _)).trans (wq _ _)) rc passes sys)

theorem checkQueueLoop (queue : WiQueue) (ct passes : Nat) (cont : Bool) (sys : Sys) :
    Quiet sys (Pomelo.checkQueueLoop env queue ct passes cont sys).1 :=
  of_keeps (keeps_checkQueueLoop keeps_deliver (fun quiet => quiet.trans (wq _ _))
    (fun quiet => quiet.trans (crash _ _)) (fun _ _ quiet => quiet.trans (wq _ _))
    (fun _ quiet => (quiet.trans (wq _ _)).trans (wq _ _)) passes cont sys)

variable (env) in

/-- The reset of the items is quiet. -/
theorem resetItems (sys : Sys) : Quiet sys (Pomelo.resetItems env sys) :=
  ((((hold true sys).trans (wq _ _)).trans (dropItems ..)).trans (dropItems ..)).trans (hold ..)

theorem tcpCheckQueueTimeout (queue : WiQueue) (cont : Bool) (sys : Sys) :
    Quiet sys (Pomelo.tcpCheckQueueTimeout env queue cont sys).1 :=
  ((wq _ sys).trans (checkQueueLoop ..)).trans (wq _ _)

/-- A quiet step leaves the flag that a write is under way. -/
theorem isWriting (quiet : Quiet first second) :
    second.state.tcp.isWriting = first.state.tcp.isWriting := by
  have same := congrArg Transport.isWriting quiet.conn
  exact same

end Quiet

variable (env) in

theorem quiet_fireEvent (type : EvType) (arg1 arg2 : Option CStr) (sys : Sys) :
    Quiet (sys.note (.fire type)) (fireEvent env type arg1 arg2 sys) :=
  .of_delivered (delivered_fireEvent type arg1 arg2 sys)

end Pomelo
