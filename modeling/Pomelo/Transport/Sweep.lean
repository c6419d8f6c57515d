import Pomelo.Linked.Sweep
import Pomelo.Transport.Queues

/-!
# The check for timeouts

`tcp__check_queue_timeout` takes the items off a queue one by one, drops those whose time is
over, and puts the others back. What is delivered meanwhile can queue further messages, but
none whose time is over (`Admitting`), so the loop ends, and what it leaves are the items that
are to stay (`checkQueue_partitions`).
-/

namespace Pomelo

open Transition Recorded Linked

variable {env : Env} {first second last : Sys} {ct : Nat}

/-- The timeout of a call that has passed its check. -/
def Stage.timeout? : Stage → Option Int
  | .link _ _ _ timeout => some timeout
  | .send _ req | .insert _ req _ | .signal _ req | .sendFailed _ req _ => some req.timeout
  | _ => none

/-- A stage is not behind the check, or the timeout has passed it. -/
def Stage.Admitted (stage : Stage) : Prop :=
  ∀ timeout ∈ stage.timeout?, Client.invalidTimeout timeout = false

/-- The clock has reached a time, and the calls under way have admitted timeouts. -/
structure Admitting (ct : Nat) (sys : Sys) : Prop where
  later : ct ≤ sys.state.clock
  calls : ∀ call ∈ sys.state.calls, call.stage.Admitted

namespace Admitting

/-- The calls and the clock decide. -/
theorem congr (admitting : Admitting ct first) (clock : second.state.clock = first.state.clock)
    (calls : second.state.calls = first.state.calls) : Admitting ct second :=
  ⟨clock ▸ admitting.later, calls ▸ admitting.calls⟩

/-- A call goes on to a stage of the same kind. -/
theorem stage (admitting : Admitting ct first) (id : Nat) {stage : Stage}
    (admitted : stage.Admitted) : Admitting ct (first.stage id stage) where
  later := admitting.later
  calls call member := by
    obtain ⟨old, known, rfl⟩ := List.mem_map.mp member
    split
    · exact admitted
    · exact admitting.calls old known

/-- A call that returns admits nothing more. -/
theorem returns (admitting : Admitting ct first) (id : Nat) (rc : Int) :
    Admitting ct (first.returns id rc) where
  later := admitting.later
  calls call member := admitting.calls call (List.mem_of_mem_filter member)

theorem client (admitting : Admitting ct first) (act : Client → Client) :
    Admitting ct (first.client act) := admitting.congr rfl rfl

theorem note (admitting : Admitting ct first) (point : Point) : Admitting ct (first.note point) :=
  admitting.congr rfl rfl

theorem tcp (admitting : Admitting ct first) (act : Transport → Transport) :
    Admitting ct (first.tcp act) := admitting.congr rfl rfl

theorem wq (admitting : Admitting ct first) (act : WriteQueues → WriteQueues) :
    Admitting ct (first.wq act) := admitting.congr rfl rfl

theorem assert (admitting : Admitting ct first) (holds : Core → Bool) (site : TcpAssertion) :
    Admitting ct (first.assert holds site) :=
  admitting.congr (by rw [Sys.state_assert]) (by rw [Sys.state_assert])

/-- An assertion of the polling functions. -/
theorem pollAssert (admitting : Admitting ct first) (holds : Bool) (sight : Sight) :
    Admitting ct (pollReceiver.assert holds sight first) := by
  rw [Receiver.assert]
  split
  · exact admitting
  · exact admitting.congr rfl rfl

theorem fireEventNow (admitting : Admitting ct first) (evType : Int) (arg1 arg2 : Option CStr) :
    Admitting ct (pcTransFireEventNow pollReceiver evType arg1 arg2 first) := by
  have seen (handlers : List Nat) (type : EvType) {sys : Sys} (admitting : Admitting ct sys) :
      Admitting ct (handlers.foldl
        (fun sys handler => pollReceiver.see (.event handler type arg1 arg2) sys) sys) := by
    induction handlers generalizing sys with
    | nil => exact admitting
    | cons handler handlers ih => exact ih (admitting.congr rfl rfl)
  rw [pcTransFireEventNow]
  split
  · exact admitting
  next type _ =>
    split
    · exact seen _ type ((admitting.pollAssert _ _).client (Client.fire type))
    · exact admitting

theorem afterPoll (admitting : Admitting ct first) (id : Nat) (next : Option UserCall) :
    Admitting ct (Pomelo.afterPoll id next first) := by
  unfold Pomelo.afterPoll
  split
  · exact admitting.returns id _
  · exact admitting.stage id nofun
  · exact admitting.stage id nofun

theorem enterPoll (admitting : Admitting ct first) (id : Nat) (next : Option UserCall) :
    Admitting ct (Pomelo.enterPoll id next first) := by
  rw [Pomelo.enterPoll]
  split
  · exact admitting.afterPoll id next
  · exact (admitting.client _).stage id (by rintro _ ⟨⟩)

theorem pollComplete (admitting : Admitting ct first) (id : Nat) (event : PendingEvent)
    (next : Option UserCall) (kind : ReqKind) (key : Nat) (rc : Int) (resp : Option CStr) :
    Admitting ct (Pomelo.pollComplete id event next kind key rc resp first) := by
  rw [Pomelo.pollComplete]
  split
  · exact admitting.stage id (by rintro _ ⟨⟩)
  next target client _ =>
    exact (((admitting.pollAssert (rcKnown rc) (.rcStrAssertion rc)).client fun _ => client).note
      (.sight (.completed kind target rc resp))).stage id (by rintro _ ⟨⟩)

theorem pollNext (admitting : Admitting ct first) (id : Nat) (next : Option UserCall) :
    Admitting ct (Pomelo.pollNext id next first) := by
  rw [Pomelo.pollNext]
  split
  · exact (admitting.client _).afterPoll id next
  · dsimp only
    split
    · exact (((admitting.client _).pollAssert _ _).fireEventNow _ _ _).stage id (by rintro _ ⟨⟩)
    · exact ((admitting.client _).pollAssert _ _).pollComplete ..
    · exact ((admitting.client _).pollAssert _ _).pollComplete ..

/-- A call that is checked takes the clock as it is. -/
theorem checkCall (admitting : Admitting ct first) (id : Nat) (thread : Thread) (call : UserCall) :
    Admitting ct (Pomelo.checkCall id thread call first) := by
  cases call with
  | poll => exact admitting.returns id _
  | cleanup =>
      rw [Pomelo.checkCall]
      split
      · exact admitting.returns id _
      split
      · exact admitting.congr rfl rfl
      split
      · exact admitting.returns id _
      · exact (admitting.tcp _).stage id (by rintro _ ⟨⟩)
  | api call =>
      cases call with
      | send kind args timeout =>
          unfold Pomelo.checkCall
          dsimp only
          split
          · exact admitting.returns id _
          next passed =>
            refine admitting.stage id ?_
            rintro _ ⟨⟩
            exact Bool.eq_false_iff.mpr (Client.sendCheck_eq_none.mp passed).2.2
          · exact admitting.returns id _
      | connect host port handshakeOpts =>
          unfold Pomelo.checkCall
          dsimp only
          split
          · exact admitting.returns id _
          · exact admitting.stage id (by rintro _ ⟨⟩)
          · exact admitting.returns id _
      | disconnect =>
          unfold Pomelo.checkCall
          dsimp only
          split
          · exact admitting.returns id _
          · exact admitting.stage id (by rintro _ ⟨⟩)
      | connQuality =>
          unfold Pomelo.checkCall
          dsimp only
          split
          · exact admitting.returns id _
          · exact admitting.congr rfl rfl
      | transData =>
          unfold Pomelo.checkCall
          dsimp only
          split
          · exact admitting.returns id _
          · exact admitting.congr rfl rfl

/-- The call that inserts is over. -/
theorem insert (admitting : Admitting ct first) (id : Nat) {kind : ReqKind} {req : PendingReq}
    {buf : UvBuf} (admitted : (Stage.insert kind req buf).Admitted) :
    Admitting ct (trUvTcpSendInsert id kind req buf first) := by
  have inserted : Admitting ct (first.accept (first.state.newItem req buf)) := by
    refine admitting.congr ?_ ?_ <;> rfl
  exact inserted.stage id admitted

variable (env) in

/-- A stage is followed by stages of its kind. -/
theorem runStage (admitting : Admitting ct first) (id : Nat) (thread : Thread) {stage : Stage}
    (admitted : stage.Admitted) : Admitting ct (Pomelo.runStage env id thread stage first) := by
  cases stage with
  | start call =>
      rw [Pomelo.runStage]
      split
      · exact admitting.enterPoll id _
      · exact admitting.checkCall id thread call
  | check call => exact admitting.checkCall id thread call
  | link kind route msg timeout =>
      have linked : (Stage.send kind
          (first.state.client.newReq kind id route msg timeout)).Admitted := by
        rintro _ ⟨⟩
        exact admitted timeout rfl
      exact (admitting.client _).stage id linked
  | send kind req =>
      rw [Pomelo.runStage, trUvTcpSend]
      split
      · exact admitting.congr rfl rfl
      split
      · exact admitting.stage id admitted
      dsimp only
      split
      · exact (admitting.assert _ _).congr rfl rfl
      · exact (admitting.assert _ _).stage id admitted
      · exact (admitting.assert _ _).stage id admitted
  | insert kind req buf => exact admitting.insert id admitted
  | signal kind req =>
      rw [Pomelo.runStage, trUvTcpSendSignal]
      split
      · exact (admitting.tcp _).returns id _
      · exact admitting.returns id _
  | sendFailed kind req rc => exact (admitting.client _).returns id _
  | setConnecting host port handshakeOpts => exact (admitting.client _).stage id (by rintro _ ⟨⟩)
  | connect host port handshakeOpts =>
      rw [Pomelo.runStage]
      unfold trUvTcpConnect
      split
      · exact admitting.congr rfl rfl
      split
      · exact (admitting.tcp _).returns id _
      split
      · exact (admitting.tcp _).stage id (by rintro _ ⟨⟩)
      · exact admitting.congr rfl rfl
      · exact (admitting.tcp _).returns id _
  | connectFailed rc => exact (admitting.client _).returns id _
  | setDisconnecting => exact (admitting.client _).stage id (by rintro _ ⟨⟩)
  | disconnect =>
      rw [Pomelo.runStage, trUvTcpDisconnect]
      split
      · exact admitting.congr rfl rfl
      · exact (admitting.tcp _).returns id _
  | polling next => exact admitting.pollNext id next
  | handling event target next =>
      cases target with
      | none => exact (admitting.client _).stage id (by rintro _ ⟨⟩)
      | some target => exact ((admitting.client _).client _).stage id (by rintro _ ⟨⟩)
  | joining =>
      rw [Pomelo.runStage, pcReleaseTransport]
      split
      · exact (admitting.client _).enterPoll id _
      · exact (admitting.client _).stage id (by rintro _ ⟨⟩)
  | cleanedUp => exact ((admitting.assert _ _).client _).returns id _

end Admitting

/-- A message that is queued now has time left. -/
theorem Admitting.newItem (admitting : Admitting ct first) {req : PendingReq}
    (admitted : Client.invalidTimeout req.timeout = false) (buf : UvBuf) :
    (first.state.newItem req buf).expired ct = false := by
  have later := admitting.later
  change (decide (req.timeout ≠ pcWithoutTimeout) &&
    decide ((ct : Int) > first.state.clock + req.timeout)) = false
  simp only [Client.invalidTimeout, Bool.and_eq_false_iff, decide_eq_false_iff_not] at admitted ⊢
  omega

/-- Messages can have been queued behind the items of a queue, and none of them is over. -/
structure Extends (queue : WiQueue) (ct : Nat) (first second : Sys) (new : List WriteItem) :
    Prop where
  items : second.state.tcp.wq.items queue = first.state.tcp.wq.items queue ++ new
  tmp : second.state.tcp.wq.tmp = first.state.tcp.wq.tmp
  alive : ∀ item ∈ new, item.expired ct = false
  admitting : Admitting ct second

namespace Extends

variable {queue : WiQueue} {new more : List WriteItem}

theorem of_wq (admitting : Admitting ct second) (wq : second.state.tcp.wq = first.state.tcp.wq) :
    Extends queue ct first second [] where
  items := by rw [wq, List.append_nil]
  tmp := congrArg WriteQueues.tmp wq
  alive _ member := absurd member List.not_mem_nil
  admitting := admitting

theorem trans (left : Extends queue ct first second new)
    (right : Extends queue ct second last more) : Extends queue ct first last (new ++ more) where
  items := by rw [right.items, left.items, List.append_assoc]
  tmp := right.tmp.trans left.tmp
  alive item member := (List.mem_append.mp member).elim (left.alive item) (right.alive item)
  admitting := right.admitting

/-- The critical section of `tr_uv_tcp_send`. -/
theorem insert (admitting : Admitting ct first) (id : Nat) {kind : ReqKind} {req : PendingReq}
    {buf : UvBuf} (admitted : (Stage.insert kind req buf).Admitted) :
    ∃ new, Extends queue ct first (trUvTcpSendInsert id kind req buf first) new := by
  have items := first.state.items_insert (first.state.newItem req buf) queue
  have tmp := first.state.tmp_insert (first.state.newItem req buf)
  have ended := admitting.insert id admitted
  have alive := admitting.newItem (admitted req.timeout rfl) buf
  by_cases inbox : queue = first.state.tcp.state.inbox
  · rw [if_pos inbox] at items
    refine ⟨[first.state.newItem req buf], items, tmp, fun item member => ?_, ended⟩
    rwa [List.mem_singleton.mp member]
  · rw [if_neg inbox] at items
    exact ⟨[], items.trans (List.append_nil _).symm, tmp,
      fun item member => absurd member List.not_mem_nil, ended⟩

/-- A delivery puts new items behind the queue. -/
theorem of_deliver (deliver : Deliver env first second) (admitting : Admitting ct first) :
    ∃ new, Extends queue ct first second new := by
  cases deliver with
  | see sight => exact ⟨[], .of_wq (admitting.note _) rfl⟩
  | fire type => exact ⟨[], .of_wq (admitting.client _) rfl⟩
  | queue data => exact ⟨[], .of_wq (admitting.client _) rfl⟩
  | take found => exact ⟨[], .of_wq (admitting.client _) rfl⟩
  | release kind target => exact ⟨[], .of_wq (admitting.client _) rfl⟩
  | act act =>
      cases act with
      | begin thread call =>
          refine ⟨[], .of_wq ⟨admitting.later, fun call member => ?_⟩ rfl⟩
          rcases List.mem_append.mp member with known | fresh
          · exact admitting.calls call known
          · rw [List.mem_singleton.mp fresh]
            nofun
      | tick seconds =>
          exact ⟨[], .of_wq ⟨Nat.le_add_right_of_le admitting.later, admitting.calls⟩ rfl⟩
      | advance id =>
          rw [Pomelo.act, advance]
          cases found : first.state.calls.find? fun call => call.id = id with
          | none => exact ⟨[], .of_wq admitting rfl⟩
          | some call =>
              dsimp only
              split
              · exact ⟨[], .of_wq admitting rfl⟩
              have noted := admitting.note (.call id call.stage)
              have admitted := admitting.calls call (List.mem_of_find?_eq_some found)
              by_cases other : ∀ kind req buf, call.stage ≠ .insert kind req buf
              · have still := @still_runStage env id call.thread _ other
                  (first.note (.call id call.stage))
                exact ⟨[], .of_wq (noted.runStage env id call.thread admitted) still.wq⟩
              simp only [not_forall, not_not] at other
              obtain ⟨kind, req, buf, stage⟩ := other
              rw [stage] at admitted noted ⊢
              obtain ⟨new, inserted⟩ := @insert (first.note _) ct queue noted id kind req buf
                admitted
              exact ⟨new, inserted.items, inserted.tmp, inserted.alive, inserted.admitting⟩

theorem of_delivered (delivered : Delivered env first second) (admitting : Admitting ct first) :
    ∃ new, Extends queue ct first second new := by
  induction delivered with
  | refl => exact ⟨[], .of_wq admitting rfl⟩
  | tail _ deliver ih =>
      obtain ⟨new, extends_⟩ := ih
      obtain ⟨more, extends'⟩ := of_deliver deliver extends_.admitting
      exact ⟨_, extends_.trans extends'⟩

variable (env) in

theorem dropItem (admitting : Admitting ct first) (item : WriteItem) (rc : Int) :
    ∃ new, Extends queue ct first (Pomelo.dropItem env item rc first) new := by
  obtain ⟨new, completed⟩ := @of_delivered env _ _ ct queue
    (delivered_completeItem item rc first) admitting
  refine ⟨new, ?_, ?_, completed.alive, completed.admitting.congr rfl rfl⟩
  · exact (WriteQueues.items_recycle item _ queue).trans completed.items
  · exact (WriteQueues.tmp_recycle item _).trans completed.tmp

end Extends

/-- The passes of the loop of `tcp__check_queue_timeout` until its queue is empty. -/
inductive Sweeps (env : Env) (queue : WiQueue) (ct : Nat) :
    Sys → List (Pass WriteItem) → Sys → Prop where
  | nil {sys : Sys} (empty : sys.state.tcp.wq.items queue = []) : Sweeps env queue ct sys [] sys
  | keep {first last : Sys} {item : WriteItem} {rest : List WriteItem}
      {passes : List (Pass WriteItem)} (items : first.state.tcp.wq.items queue = item :: rest)
      (alive : item.expired ct = false)
      (later : Sweeps env queue ct
        ((first.wq (WriteQueues.setItems queue rest)).wq (WriteQueues.keep item)) passes last) :
      Sweeps env queue ct first (.keep item :: passes) last
  | drop {first last : Sys} {item : WriteItem} {rest new : List WriteItem}
      {passes : List (Pass WriteItem)} (items : first.state.tcp.wq.items queue = item :: rest)
      (expired : item.expired ct = true)
      (linked : (dropItem env item pcRcTimeout
        (first.wq (WriteQueues.setItems queue rest))).state.tcp.wq.items queue = rest ++ new)
      (later : Sweeps env queue ct
        (dropItem env item pcRcTimeout (first.wq (WriteQueues.setItems queue rest))) passes last) :
      Sweeps env queue ct first (.drop item new :: passes) last

namespace Sweeps

variable {queue : WiQueue} {old new : List WriteItem} {passes : List (Pass WriteItem)}

/-- The queue is what is left of it. -/
theorem items_keep (item : WriteItem) (rest : List WriteItem) (sys : Sys) :
    ((sys.wq (WriteQueues.setItems queue rest)).wq
      (WriteQueues.keep item)).state.tcp.wq.items queue = rest := by
  cases queue <;> rfl

variable (env) in
/-- When nothing is over, the loop ends. -/
theorem exists_of_alive (alive : ∀ item ∈ new, item.expired ct = false)
    (items : first.state.tcp.wq.items queue = new) :
    ∃ passes last, Sweeps env queue ct first passes last := by
  induction new generalizing first with
  | nil => exact ⟨[], first, .nil items⟩
  | cons item rest ih =>
      obtain ⟨passes, last, later⟩ := ih
        (fun other member => alive other (List.mem_cons_of_mem _ member))
        (items_keep item rest first)
      exact ⟨_, last, .keep items (alive item List.mem_cons_self) later⟩

variable (env) in
/-- The loop ends: only the items that were there at the start can be over, so what is queued
meanwhile is put aside in the end. -/
theorem exists_of_admitting (admitting : Admitting ct first)
    (alive : ∀ item ∈ new, item.expired ct = false)
    (items : first.state.tcp.wq.items queue = old ++ new) :
    ∃ passes last, Sweeps env queue ct first passes last := by
  induction old generalizing first new with
  | nil => exact exists_of_alive env alive items
  | cons item rest ih =>
      cases expired : item.expired ct with
      | false =>
          have kept := (admitting.wq (WriteQueues.setItems queue (rest ++ new))).wq
            (WriteQueues.keep item)
          obtain ⟨passes, last, later⟩ := ih kept alive (items_keep item (rest ++ new) first)
          exact ⟨_, last, .keep items expired later⟩
      | true =>
          have taken := admitting.wq (WriteQueues.setItems queue (rest ++ new))
          obtain ⟨more, dropped⟩ := @Extends.dropItem env _ ct queue taken item pcRcTimeout
          have left := WriteQueues.items_setItems queue (rest ++ new) first.state.tcp.wq
          have linked := dropped.items.trans (congrArg (· ++ more) left)
          have stay : ∀ other ∈ new ++ more, other.expired ct = false := fun other member =>
            (List.mem_append.mp member).elim (alive other) (dropped.alive other)
          obtain ⟨passes, last, later⟩ := ih dropped.admitting stay
            (linked.trans (List.append_assoc ..))
          exact ⟨_, last, .drop items expired linked later⟩

/-- The queue is empty behind the passes. -/
theorem empty (sweeps : Sweeps env queue ct first passes last) :
    last.state.tcp.wq.items queue = [] := by
  induction sweeps with
  | nil empty => exact empty
  | keep items alive later ih => exact ih
  | drop items expired linked later ih => exact ih

/-- The loop as it runs, if it may take enough passes. -/
theorem checkQueueLoop_eq (sweeps : Sweeps env queue ct first passes last) {enough : Nat}
    (bound : passes.length < enough) (cont : Bool) :
    checkQueueLoop env queue ct enough cont first =
      (last, cont || (passes.flatMap Pass.kept).any WriteItem.timed) := by
  induction sweeps generalizing enough cont with
  | @nil sys empty =>
      obtain ⟨enough, rfl⟩ := Nat.exists_eq_add_of_lt bound
      rw [checkQueueLoop, empty]
      simp
  | @keep first last item rest passes items alive later ih =>
      cases enough with
      | zero => exact absurd bound (Nat.not_lt_zero _)
      | succ enough =>
          rw [checkQueueLoop, items]
          dsimp only
          rw [if_neg (Bool.eq_false_iff.mp alive), ih (Nat.succ_lt_succ_iff.mp bound),
            List.flatMap_cons, Pass.kept, List.singleton_append, List.any_cons, Bool.or_assoc]
  | @drop first last item rest new passes items expired linked later ih =>
      cases enough with
      | zero => exact absurd bound (Nat.not_lt_zero _)
      | succ enough =>
          rw [checkQueueLoop, items]
          dsimp only
          rw [if_pos expired, ih (Nat.succ_lt_succ_iff.mp bound), List.flatMap_cons, Pass.kept,
            List.nil_append]

/-- What is put aside while a queue is checked. -/
theorem tmp (sweeps : Sweeps env queue ct first passes last) (admitting : Admitting ct first)
    {aside : List WriteItem} (checked : first.state.tcp.wq.tmp = some (queue, aside)) :
    last.state.tcp.wq.tmp = some (queue, aside ++ passes.flatMap Pass.kept) := by
  induction sweeps generalizing aside with
  | nil empty => rwa [List.flatMap_nil, List.append_nil]
  | @keep first last item rest passes items alive later ih =>
      have kept : ((first.wq (WriteQueues.setItems queue rest)).wq
          (WriteQueues.keep item)).state.tcp.wq.tmp = some (queue, aside ++ [item]) := by
        change ((first.state.tcp.wq.setItems queue rest).keep item).tmp = _
        rw [WriteQueues.keep, WriteQueues.tmp_setItems, checked]
        rfl
      rw [ih (admitting.congr rfl rfl) kept, List.append_assoc]
      rfl
  | @drop first last item rest new passes items expired linked later ih =>
      have taken := admitting.wq (WriteQueues.setItems queue rest)
      obtain ⟨more, dropped⟩ := @Extends.dropItem env _ ct queue taken item pcRcTimeout
      have same : (first.wq (WriteQueues.setItems queue rest)).state.tcp.wq.tmp =
          first.state.tcp.wq.tmp := WriteQueues.tmp_setItems queue rest _
      exact ih dropped.admitting (dropped.tmp.trans (same.trans checked))

/-- What becomes of the items: those that are over are dropped, in their order, and the others
are kept, with what has been queued meanwhile behind them, which is not over. -/
theorem outcome (sweeps : Sweeps env queue ct first passes last) (admitting : Admitting ct first) :
    passes.flatMap Pass.dropped =
        (first.state.tcp.wq.items queue).filter (WriteItem.expired · ct) ∧
      passes.flatMap Pass.kept =
        (first.state.tcp.wq.items queue).filter (fun item => !item.expired ct) ++
          passes.flatMap Pass.new ∧
      ∀ item ∈ passes.flatMap Pass.new, item.expired ct = false := by
  induction sweeps with
  | nil empty => simp [empty]
  | @keep first last item rest passes items alive later ih =>
      obtain ⟨dropped, kept, fresh⟩ := ih (admitting.congr rfl rfl)
      rw [items_keep] at dropped kept
      rw [items]
      refine ⟨?_, ?_, fresh⟩
      · simp [Pass.dropped, alive, dropped]
      · simp [Pass.kept, Pass.new, alive, kept]
  | @drop first last item rest new passes items expired linked later ih =>
      have taken := admitting.wq (WriteQueues.setItems queue rest)
      obtain ⟨more, deliver⟩ := @Extends.dropItem env _ ct queue taken item pcRcTimeout
      have left := WriteQueues.items_setItems queue rest first.state.tcp.wq
      have same : more = new := List.append_cancel_left
        ((deliver.items.trans (congrArg (· ++ more) left)).symm.trans linked)
      have alive : ∀ item ∈ new, item.expired ct = false := same ▸ deliver.alive
      obtain ⟨dropped, kept, fresh⟩ := ih deliver.admitting
      rw [linked] at dropped kept
      have stays : new.filter (fun item => !item.expired ct) = new :=
        List.filter_eq_self.mpr fun other member => by rw [alive other member]; rfl
      have goes : new.filter (WriteItem.expired · ct) = [] :=
        List.filter_eq_nil_iff.mpr fun other member => by simp [alive other member]
      rw [List.filter_append, goes, List.append_nil] at dropped
      rw [List.filter_append, stays] at kept
      rw [items]
      refine ⟨?_, ?_, ?_⟩
      · simp [Pass.dropped, expired, dropped]
      · simp [Pass.kept, Pass.new, expired, kept]
      · intro other member
        rw [List.flatMap_cons] at member
        exact (List.mem_append.mp member).elim (alive other) (fresh other)

end Sweeps

/-- The item has no timeout, or it has time left. -/
def WriteItem.Stays (ct : Nat) (item : WriteItem) : Prop :=
  item.timeout = pcWithoutTimeout ∨ (ct : Int) ≤ item.ts + item.timeout

instance (item : WriteItem) : Decidable (item.Stays ct) := inferInstanceAs (Decidable (_ ∨ _))

/-- An item expires unless it stays. -/
theorem WriteItem.expired_eq (item : WriteItem) : item.expired ct = !decide (item.Stays ct) := by
  by_cases stays : item.Stays ct
  · rw [decide_eq_true stays, Bool.not_true, expired, timed]
    unfold Stays at stays
    simp only [Bool.and_eq_false_iff, decide_eq_false_iff_not, not_not]
    omega
  · rw [decide_eq_false stays, Bool.not_false, expired, timed]
    unfold Stays at stays
    simp only [Bool.and_eq_true, decide_eq_true_eq]
    omega

/-- Where the items of the passes are: an item that is linked has an address of its own. -/
structure Placement (α : Type) (head spare : α) (passes : List (Pass WriteItem))
    (items : List WriteItem) where
  start : List (α × WriteItem)
  trace : List (Pass (α × WriteItem))
  items : start.map Prod.snd = items
  passes : trace.map (Pass.map Prod.snd) = passes
  empties : Pass.Empties trace start
  fresh : Pass.Fresh head spare (trace.map (Pass.map Prod.fst)) (start.map Prod.fst) []

/-- What the check makes of a queue, in the passes of its loop. -/
structure Partitions (env : Env) (queue : WiQueue) (cont : Bool) (first : Sys)
    (passes : List (Pass WriteItem)) (last : Sys) (result : Bool) : Prop where
  /-- The loop goes from the start of the check to its end. -/
  sweeps : ∃ swept, Sweeps env queue first.state.clock (first.wq (WriteQueues.beginCheck queue))
    passes swept ∧ last = swept.wq (WriteQueues.endCheck queue)
  /-- Each item that does not stay is dropped once, in the order of the queue. -/
  dropped : passes.flatMap Pass.dropped = (first.state.tcp.wq.items queue).filter fun item =>
    !decide (item.Stays first.state.clock)
  /-- The others are left in their order, and new ones behind them. -/
  items : last.state.tcp.wq.items queue = ((first.state.tcp.wq.items queue).filter fun item =>
    decide (item.Stays first.state.clock)) ++ passes.flatMap Pass.new
  stays : ∀ item ∈ last.state.tcp.wq.items queue, item.Stays first.state.clock
  cont : result = (cont || (last.state.tcp.wq.items queue).any WriteItem.timed)
  /-- The assignments of the loop and of the splice link these items, wherever they are. -/
  ring : ∀ {α : Type} [DecidableEq α] {links : Links α} {head spare : α}
    (place : Placement α head spare passes (first.state.tcp.wq.items queue)),
    links.Ring head (place.start.map Prod.fst) → spare ∉ head :: place.start.map Prod.fst →
      ∃ left : List (α × WriteItem), left.map Prod.snd = last.state.tcp.wq.items queue ∧
        (links.run (init spare ++
          (place.trace.map (Pass.map Prod.fst)).flatMap (Pass.assigns head spare) ++
            add head spare ++ init spare)).Ring head (left.map Prod.fst)

/-- The number of passes that are allowed has no part in what is delivered. -/
theorem dropItem_passes (env : Env) (allowed : Nat) (item : WriteItem) (rc : Int) (sys : Sys) :
    dropItem { env with passes := allowed } item rc sys = dropItem env item rc sys := rfl

/-- With passes enough more of them change nothing. -/
theorem checkQueueLoop_passes (env : Env) (allowed : Nat) (queue : WiQueue) (ct enough : Nat)
    (cont : Bool) (sys : Sys) :
    checkQueueLoop { env with passes := allowed } queue ct enough cont sys =
      checkQueueLoop env queue ct enough cont sys := by
  induction enough generalizing cont sys with
  | zero => rfl
  | succ enough ih =>
      rw [checkQueueLoop, checkQueueLoop]
      simp only [dropItem_passes, ih]

/-- **The timeout sweep is a stable partition.** The check ends: from some number of passes on
that it may take it has one outcome, which parts the queue into what is dropped and what is
left. -/
theorem checkQueue_partitions (queue : WiQueue) (cont : Bool) {first : Sys}
    (admitted : ∀ call ∈ first.state.calls, call.stage.Admitted) :
    ∃ passes last result, Partitions env queue cont first passes last result ∧
      ∀ allowed, passes.length < allowed →
        tcpCheckQueueTimeout { env with passes := allowed } queue cont first = (last, result) := by
  have admitting : Admitting first.state.clock (first.wq (WriteQueues.beginCheck queue)) :=
    ⟨Nat.le_refl _, admitted⟩
  have begun : (first.wq (WriteQueues.beginCheck queue)).state.tcp.wq.items queue =
      first.state.tcp.wq.items queue := by
    cases queue <;> rfl
  obtain ⟨passes, swept, sweeps⟩ : ∃ passes swept, Sweeps env queue first.state.clock
      (first.wq (WriteQueues.beginCheck queue)) passes swept :=
    Sweeps.exists_of_admitting env admitting (fun _ member => absurd member List.not_mem_nil)
      (List.append_nil _).symm
  obtain ⟨dropped, kept, fresh⟩ := sweeps.outcome admitting
  have tmp := sweeps.tmp admitting rfl
  have left : (swept.wq (WriteQueues.endCheck queue)).state.tcp.wq.items queue =
      passes.flatMap Pass.kept := by
    have whole := WriteQueues.items_endCheck queue queue swept.state.tcp.wq
    rw [if_pos rfl, WriteQueues.whole, WriteQueues.tmpOf, tmp, sweeps.empty,
      List.append_nil] at whole
    exact whole.trans (if_pos rfl)
  simp only [begun, WriteItem.expired_eq, Bool.not_not] at dropped kept
  have stays {item : WriteItem} (member : item ∈ passes.flatMap Pass.kept) :
      item.Stays first.state.clock := by
    rw [kept] at member
    rcases List.mem_append.mp member with old | new
    · exact of_decide_eq_true (List.mem_filter.mp old).2
    · have alive := fresh item new
      rw [WriteItem.expired_eq] at alive
      exact by simpa using alive
  refine ⟨passes, swept.wq (WriteQueues.endCheck queue),
    cont || (passes.flatMap Pass.kept).any WriteItem.timed, ?_, fun allowed bound => ?_⟩
  · refine ⟨⟨swept, sweeps, rfl⟩, dropped, left.trans kept, fun item member => ?_, ?_, ?_⟩
    · exact stays (left ▸ member)
    · rw [left]
    · intro α _ links head spare place ring apart
      have linked := ring.sweep apart (place.empties.map Prod.fst) place.fresh
      refine ⟨place.trace.flatMap Pass.kept, ?_, ?_⟩
      · rw [left, ← Pass.flatMap_kept_map, place.passes]
      · rwa [Pass.flatMap_kept_map] at linked
  · have looped := sweeps.checkQueueLoop_eq bound cont
    rw [tcpCheckQueueTimeout]
    dsimp only
    rw [checkQueueLoop_passes]
    exact congrArg (fun result : Sys × Bool =>
      (result.1.wq (WriteQueues.endCheck queue), result.2)) looped

/-- A user who sends the first message again when it is completed. -/
def sendsAgain (sys : Sys) : List Act :=
  match sys.notes with
  | (.sight (.completed .notify req _ _), _) :: _ =>
      if req.call = 1 then [.begin .loop (.api (.send .notify (some (req.route, req.msg)) 5))]
      else []
  | _ => []

/-- Two messages wait, and the time of the first is over. -/
def overdueSample : Sys :=
  sampleRun sendsAgain (handshakeAnswered ++ messageSent 1 .notify 5 ++
    messageSent 2 .request 60 ++ [.tick 10]) (by decide +kernel)

/-- The first message is dropped, the second one stays, and the new one is behind it. -/
theorem checkQueue_partitions_overdue :
    (overdueSample.state.tcp.wq.writeWait.map fun item =>
      (item.seqNum, decide (item.Stays overdueSample.state.clock))) = [(0, false), (1, true)] ∧
      ((tcpCheckQueueTimeout (.sample sendsAgain) .writeWait false
        overdueSample).1.state.tcp.wq.writeWait.map fun item =>
          (item.seqNum, decide (item.Stays overdueSample.state.clock))) = [(1, true), (2, true)] ∧
      ∃ passes last result,
        Partitions (.sample sendsAgain) .writeWait false overdueSample passes last result ∧
          ∀ allowed, passes.length < allowed →
            tcpCheckQueueTimeout { Env.sample sendsAgain with passes := allowed } .writeWait false
              overdueSample = (last, result) := by
  have calls : overdueSample.state.calls = [] := by decide +kernel
  refine ⟨by decide +kernel, by decide +kernel,
    checkQueue_partitions .writeWait false fun call member => ?_⟩
  rw [calls] at member
  exact absurd member List.not_mem_nil

end Pomelo
