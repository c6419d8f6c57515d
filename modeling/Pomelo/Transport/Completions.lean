import Pomelo.Client.Pool
import Pomelo.Transport.Users

/-!
# No call is completed twice

A call links one entry in one queue, and whatever takes the entry out of the queue takes the call
with it. So over a whole run the callback of a call runs at most once, for the entry that the call
has linked, on whatever threads calls are made and whatever their callbacks do.
-/

namespace Pomelo

open Transition Recorded

variable {env : Env} {first second third : Sys}

/-- The calls whose callbacks have been started, the last one first. -/
def completedCalls (notes : List (Point × Core)) : List Nat :=
  notes.filterMap fun entry =>
    match entry.1 with
    | .sight (.completed _ req _ _) => some req.call
    | _ => none

/-- The call of an entry went on to link it, with the arguments that the entry has. -/
def Linked (notes : List (Point × Core)) (kind : ReqKind) (req : PendingReq) : Prop :=
  ∃ core, (.call req.call (.link kind req.route req.msg req.timeout), core) ∈ notes

/-- The notes of anything but a completion. -/
def Point.uncompleted : Point → Bool
  | .sight (.completed ..) => false
  | _ => true

theorem Point.uncompleted_of_apart {point : Point} (apart : point.apart) : point.uncompleted := by
  cases point with
  | sight sight => cases sight <;> first | rfl | exact absurd apart Bool.false_ne_true
  | _ => rfl

/-- A note that completes nothing is not counted. -/
theorem completedCalls_cons {point : Point} (uncompleted : point.uncompleted) (core : Core)
    (notes : List (Point × Core)) :
    completedCalls ((point, core) :: notes) = completedCalls notes := by
  cases point with
  | sight sight =>
      cases sight with
      | completed => exact absurd uncompleted Bool.false_ne_true
      | _ => rfl
  | _ => rfl

theorem completedCalls_adds (adds : Adds Point.uncompleted first second) :
    completedCalls second.notes = completedCalls first.notes := by
  apply adds.induct (fun notes => completedCalls notes = completedCalls first.notes) rfl
  intro event state notes uncompleted same
  rw [completedCalls_cons uncompleted, same]

/-- The stages of a call that has linked its entry. -/
def Stage.sends : Stage → Bool
  | .send .. | .insert .. | .signal .. | .sendFailed .. => true
  | _ => false

/-- The calls that are linked or have been completed. -/
def Sys.usedCalls (sys : Sys) : List Nat :=
  sys.state.client.linkedCalls ++ completedCalls sys.notes

/-- The invariant of the entries. -/
structure Once (sys : Sys) : Prop where
  distinct : sys.usedCalls.Nodup
  used : ∀ call ∈ sys.usedCalls, call < sys.state.nextCall
  calls : ∀ call ∈ sys.state.calls, call.id < sys.state.nextCall
  fresh : ∀ call ∈ sys.state.calls, call.stage.sends = false → call.id ∉ sys.usedCalls
  entries : ∀ kind, ∀ req ∈ (sys.state.client.pool kind).queue, Linked sys.notes kind req
  completions : ∀ kind req rc resp core earlier,
    (.sight (.completed kind req rc resp), core) :: earlier <:+ sys.notes → Linked earlier kind req

/-- A linked request stays linked in a longer record. -/
theorem Linked.mono {notes more : List (Point × Core)} {kind : ReqKind} {req : PendingReq}
    (linked : Linked notes kind req) (suffix : notes <:+ more) : Linked more kind req := by
  obtain ⟨core, member⟩ := linked
  exact ⟨core, suffix.subset member⟩

theorem Apart.pollAssert (holds : Bool) {sight : Sight} (apart : (Point.sight sight).apart)
    (sys : Sys) : Apart sys (pollReceiver.assert holds sight sys) := by
  unfold Receiver.assert
  split
  · exact .refl sys
  · exact .note apart sys

/-- A call goes on or returns. If it has not linked its entry before it can do anything, if it
has it goes on to a stage of the sending. -/
structure Moves (id : Nat) (sends : Bool) (first second : Sys) : Prop where
  queue : ∀ kind, ((second.state.client.pool kind).queue).Sublist
    (first.state.client.pool kind).queue
  nextCall : second.state.nextCall = first.state.nextCall
  calls : ∀ call ∈ second.state.calls, call ∈ first.state.calls ∨
    call.id = id ∧ (call.stage.sends = false → sends = false)
  notes : Adds Point.uncompleted first second

namespace Moves

variable {id : Nat} {sends : Bool}

/-- What stays apart moves no call. -/
theorem of_apart (apart : Apart first second) : Moves id sends first second where
  queue kind := by rw [apart.pool kind]
  nextCall := apart.nextCall
  calls call member := .inl (apart.calls ▸ member)
  notes := apart.notes.mono fun _ => Point.uncompleted_of_apart

theorem trans (left : Moves id sends first second) (right : Moves id sends second third) :
    Moves id sends first third where
  queue kind := (right.queue kind).trans (left.queue kind)
  nextCall := right.nextCall.trans left.nextCall
  calls call member := (right.calls call member).elim (left.calls call) .inr
  notes := left.notes.trans right.notes

/-- A call goes on to a stage that sends only if it may. -/
theorem stage {stage : Stage} (allowed : stage.sends = false → sends = false) (sys : Sys) :
    Moves id sends sys (sys.stage id stage) where
  queue _ := List.Sublist.refl _
  nextCall := rfl
  calls _ member := by
    obtain ⟨other, inside, rfl⟩ := List.mem_map.mp member
    split
    next same => exact .inr ⟨same, allowed⟩
    · exact .inl inside
  notes := .of_notes rfl

/-- The call that may send goes on to any stage. -/
theorem sending {stage : Stage} (sending : stage.sends) (sys : Sys) :
    Moves id true sys (sys.stage id stage) :=
  .stage (fun other => sending.symm.trans other) sys

theorem returns (rc : Int) (sys : Sys) : Moves id sends sys (sys.returns id rc) where
  queue _ := List.Sublist.refl _
  nextCall := rfl
  calls _ member := .inl (List.mem_of_mem_filter member)
  notes := .note rfl sys

/-- Entries are taken out of a queue. -/
theorem client {act : Client → Client} {sys : Sys}
    (queue : ∀ kind, (((act sys.state.client).pool kind).queue).Sublist
      (sys.state.client.pool kind).queue) : Moves id sends sys (sys.client act) :=
  ⟨queue, rfl, fun _ member => .inl member, .of_notes rfl⟩

/-- What leaves the pools moves no request. -/
theorem unchanged {act : Client → Client} {sys : Sys}
    (pool : ∀ kind, (act sys.state.client).pool kind = sys.state.client.pool kind) :
    Moves id sends sys (sys.client act) :=
  of_apart (.client pool)

theorem crash (stop : Stop) (sys : Sys) : Moves id sends sys (sys.crash stop) :=
  of_apart (.crash stop sys)

theorem assert (holds : Core → Bool) (site : TcpAssertion) (sys : Sys) :
    Moves id sends sys (sys.assert holds site) := of_apart (.assert holds site sys)

theorem tcp (act : Transport → Transport) (sys : Sys) : Moves id sends sys (sys.tcp act) :=
  of_apart (.tcp act sys)

/-- Firing an event moves no request. -/
theorem fireEventNow (evType : Int) (arg1 arg2 : Option CStr) (sys : Sys) :
    Moves id sends sys (pcTransFireEventNow pollReceiver evType arg1 arg2 sys) := by
  unfold pcTransFireEventNow
  split
  · exact of_apart (.refl sys)
  next type _ =>
    split
    · have seen (handlers : List Nat) (sys : Sys) : Moves id sends sys (handlers.foldl
          (fun sys handler => sys.note (.sight (.event handler type arg1 arg2))) sys) := by
        induction handlers generalizing sys with
        | nil => exact of_apart (.refl sys)
        | cons handler handlers ih => exact (of_apart (.note rfl sys)).trans (ih _)
      exact (of_apart ((Apart.pollAssert _ rfl sys).trans (.fire type _))).trans (seen _ _)
    · exact of_apart (.refl sys)

theorem afterPoll (next : Option UserCall) (sys : Sys) :
    Moves id false sys (Pomelo.afterPoll id next sys) := by
  unfold Pomelo.afterPoll
  split
  · exact returns _ sys
  · exact stage (fun _ => rfl) sys
  · exact stage (fun _ => rfl) sys

theorem enterPoll (next : Option UserCall) (sys : Sys) :
    Moves id false sys (Pomelo.enterPoll id next sys) := by
  unfold Pomelo.enterPoll
  split
  · exact afterPoll next sys
  · exact (unchanged fun _ => rfl).trans (stage (fun _ => rfl) _)

/-- A call that is refused is over. -/
theorem checkCall (thread : Thread) (call : UserCall) (sys : Sys) :
    Moves id false sys (Pomelo.checkCall id thread call sys) := by
  cases call with
  | poll => exact returns _ sys
  | cleanup =>
      rw [Pomelo.checkCall]
      split
      · exact returns _ sys
      split
      · exact crash _ sys
      split
      · exact returns _ sys
      · exact (tcp _ sys).trans (stage (fun _ => rfl) _)
  | api call =>
      cases call <;> unfold Pomelo.checkCall <;> dsimp only <;> split <;>
        first | exact returns _ sys | exact stage (fun _ => rfl) sys | exact crash _ sys

/-- The call hands its item over. -/
theorem trUvTcpSend (kind : ReqKind) (req : PendingReq) (sys : Sys) :
    Moves id true sys (Pomelo.trUvTcpSend env id kind req sys) := by
  unfold Pomelo.trUvTcpSend
  split
  · exact crash _ sys
  split
  · exact sending rfl sys
  · dsimp only
    split
    · exact (assert _ _ sys).trans (crash _ _)
    · exact (assert _ _ sys).trans (sending rfl _)
    · exact (assert _ _ sys).trans (sending rfl _)

theorem trUvTcpSendInsert (kind : ReqKind) (req : PendingReq) (buf : UvBuf) (sys : Sys) :
    Moves id true sys (Pomelo.trUvTcpSendInsert id kind req buf sys) := by
  have inserted (sys : Sys) (item : WriteItem) :
      Apart sys (sys.change fun core => core.insert item) :=
    ⟨fun _ => rfl, rfl, rfl, .of_notes rfl⟩
  unfold Pomelo.trUvTcpSendInsert
  dsimp only
  exact (of_apart ((Apart.note rfl sys).trans (inserted _ _))).trans (sending rfl _)

theorem trUvTcpSendSignal (sys : Sys) : Moves id sends sys (Pomelo.trUvTcpSendSignal id sys) := by
  unfold Pomelo.trUvTcpSendSignal
  dsimp only
  split
  · exact (tcp _ sys).trans (returns _ _)
  · exact returns _ sys

/-- What is linked through the node of an entry is taken out of the queue. -/
theorem pcRollback (kind : ReqKind) (req : PendingReq) (rc : Int) (sys : Sys) :
    Moves id sends sys (Pomelo.pcRollback id kind req rc sys) := by
  have erased (pool : ReqPool) : (pool.rollback req).queue.Sublist pool.queue := by
    unfold ReqPool.rollback
    rw [ReqPool.queue_setSlot]
    exact List.eraseP_sublist
  unfold Pomelo.pcRollback
  apply (client _).trans (returns _ _)
  intro other
  by_cases same : other = kind
  · subst same
    rw [Client.pool_modifyPool_self]
    exact erased _
  · rw [Client.pool_modifyPool_of_ne _ same]

theorem trUvTcpConnect (host : CStr) (port : Int) (handshakeOpts : Option CStr) (sys : Sys) :
    Moves id false sys (Pomelo.trUvTcpConnect env id host port handshakeOpts sys) := by
  unfold Pomelo.trUvTcpConnect
  split
  · exact crash _ sys
  split
  · exact (tcp _ sys).trans (returns _ _)
  split
  · exact (tcp _ sys).trans (stage (fun _ => rfl) _)
  · exact crash _ sys
  · exact (tcp _ sys).trans (returns _ _)

theorem trUvTcpDisconnect (sys : Sys) : Moves id sends sys (Pomelo.trUvTcpDisconnect id sys) := by
  unfold Pomelo.trUvTcpDisconnect
  split
  · exact crash _ sys
  · exact (tcp _ sys).trans (returns _ _)

/-- The callback of an event is over. -/
theorem pollHandled (event : PendingEvent) (target : Option (ReqKind × PendingReq))
    (next : Option UserCall) (sys : Sys) :
    Moves id false sys (Pomelo.pollHandled id event target next sys) := by
  have released (event : PendingEvent) (sys : Sys) :
      Moves id false sys (sys.client (Client.releaseEvent event)) := by
    apply unchanged
    intro kind
    unfold Client.releaseEvent
    split <;> rfl
  cases target with
  | none => exact (released event sys).trans (stage (fun _ => rfl) _)
  | some target =>
      obtain ⟨kind, req⟩ := target
      have freed : Moves id false sys (sys.client fun client =>
          client.modifyPool kind (ReqPool.release req)) := by
        apply client
        intro other
        by_cases same : other = kind
        · subst same
          rw [Client.pool_modifyPool_self, ReqPool.queue_release]
        · rw [Client.pool_modifyPool_of_ne _ same]
      exact (freed.trans (released event _)).trans (stage (fun _ => rfl) _)

/-- A stage other than linking an entry and polling. -/
theorem runStage {thread : Thread} {stage : Stage}
    (links : ∀ kind route msg timeout, stage ≠ .link kind route msg timeout)
    (polls : ∀ next, stage ≠ .polling next) (sys : Sys) :
    Moves id stage.sends sys (Pomelo.runStage env id thread stage sys) := by
  cases stage with
  | start call =>
      rw [Pomelo.runStage]
      split
      · exact enterPoll _ sys
      · exact checkCall thread call sys
  | check call => exact checkCall thread call sys
  | link kind route msg timeout => exact absurd rfl (links kind route msg timeout)
  | send kind req => exact trUvTcpSend kind req sys
  | insert kind req buf => exact trUvTcpSendInsert kind req buf sys
  | signal kind req => exact trUvTcpSendSignal sys
  | sendFailed kind req rc => exact pcRollback kind req rc sys
  | setConnecting host port handshakeOpts =>
      exact (unchanged fun _ => rfl).trans (.stage (fun _ => rfl) _)
  | connect host port handshakeOpts => exact trUvTcpConnect host port handshakeOpts sys
  | connectFailed rc => exact (unchanged fun _ => rfl).trans (returns _ _)
  | setDisconnecting => exact (unchanged fun _ => rfl).trans (.stage (fun _ => rfl) _)
  | disconnect => exact trUvTcpDisconnect sys
  | polling next => exact absurd rfl (polls next)
  | handling event target next => exact pollHandled event target next sys
  | joining =>
      rw [Pomelo.runStage, pcReleaseTransport]
      split
      · exact (unchanged fun _ => rfl).trans (enterPoll _ _)
      · exact (unchanged fun _ => rfl).trans (.stage (fun _ => rfl) _)
  | cleanedUp =>
      exact ((assert _ _ sys).trans (unchanged fun _ => rfl)).trans (returns _ _)

end Moves

namespace Once

variable {id : Nat} {kind : ReqKind}

/-- At the start nothing is completed. -/
theorem init (evHandlers : List Nat) (tcp : Transport) (stored : Option CStr) :
    Once (Sys.init evHandlers tcp stored) where
  distinct := List.nodup_nil
  used _ member := absurd member List.not_mem_nil
  calls _ member := absurd member List.not_mem_nil
  fresh _ member := absurd member List.not_mem_nil
  entries kind req member := by cases kind <;> exact absurd member List.not_mem_nil
  completions _ _ _ _ _ _ suffix := absurd (List.suffix_nil.mp suffix) (List.cons_ne_nil _ _)

/-- What the completions in the record go back to is older than they are. -/
theorem completions_adds (once : Once first) (adds : Adds Point.uncompleted first second) :
    ∀ kind req rc resp core earlier,
      (.sight (.completed kind req rc resp), core) :: earlier <:+ second.notes →
        Linked earlier kind req := by
  apply adds.induct (fun notes => ∀ kind req rc resp core earlier,
    (.sight (.completed kind req rc resp), core) :: earlier <:+ notes →
      Linked earlier kind req) once.completions
  intro event state notes uncompleted holds kind req rc resp core earlier suffix
  rcases List.suffix_cons_iff.mp suffix with same | older
  · obtain ⟨rfl, -⟩ := Prod.mk.inj (List.cons.inj same).1
    exact absurd uncompleted Bool.false_ne_true
  · exact holds kind req rc resp core earlier older

/-- One call goes on, and links no entry. -/
theorem moves {sends : Bool} (once : Once first) (moved : Moves id sends first second)
    (under : ∃ call ∈ first.state.calls, call.id = id ∧ call.stage.sends = sends) :
    Once second := by
  have used : second.usedCalls.Sublist first.usedCalls := by
    unfold Sys.usedCalls
    rw [completedCalls_adds moved.notes]
    exact (((moved.queue .request).append (moved.queue .notify)).map _).append_right _
  obtain ⟨caller, inside, own, stage⟩ := under
  refine ⟨once.distinct.sublist used, fun call member => ?_, fun call member => ?_,
    fun call member unsent => ?_, fun kind req member => ?_, once.completions_adds moved.notes⟩
  · rw [moved.nextCall]
    exact once.used call (used.subset member)
  · rw [moved.nextCall]
    rcases moved.calls call member with old | ⟨same, -⟩
    · exact once.calls call old
    · rw [same, ← own]
      exact once.calls caller inside
  · rcases moved.calls call member with old | ⟨same, early⟩
    · exact fun again => once.fresh call old unsent (used.subset again)
    · rw [same, ← own]
      have before : caller.stage.sends = false := stage.trans (early unsent)
      exact fun again => once.fresh caller inside before (used.subset again)
  · exact (once.entries kind req ((moved.queue kind).subset member)).mono moved.notes.suffix

/-- Nothing of it happens to a call. -/
theorem apart (once : Once first) (apart : Apart first second) : Once second := by
  have adds : Adds Point.uncompleted first second :=
    apart.notes.mono fun _ => Point.uncompleted_of_apart
  have used : second.usedCalls = first.usedCalls := by
    unfold Sys.usedCalls Client.linkedCalls
    rw [completedCalls_adds adds]
    have requests : second.state.client.requests = first.state.client.requests :=
      apart.pool .request
    have notifies : second.state.client.notifies = first.state.client.notifies :=
      apart.pool .notify
    rw [requests, notifies]
  refine ⟨?_, ?_, ?_, ?_, ?_, once.completions_adds adds⟩
  · rw [used]
    exact once.distinct
  · rw [used, apart.nextCall]
    exact once.used
  · rw [apart.calls, apart.nextCall]
    exact once.calls
  · rw [used, apart.calls]
    exact once.fresh
  · intro kind req member
    rw [apart.pool kind] at member
    exact (once.entries kind req member).mono adds.suffix

/-- An entry is taken out of its queue, and its callback is started. -/
theorem complete {sys : Sys} {key : Nat} {target : PendingReq} {client : Client}
    (once : Once sys) (found : sys.state.client.take kind key = some (target, client)) (rc : Int)
    (resp : Option CStr) :
    Once ((sys.client fun _ => client).note (.sight (.completed kind target rc resp))) := by
  obtain ⟨rest, taken, rfl⟩ : ∃ rest, (sys.state.client.pool kind).take kind key =
      some (target, rest) ∧ client = sys.state.client.modifyPool kind fun _ => rest := by
    unfold Client.take at found
    split at found
    · exact absurd found (by simp)
    next req pool taken =>
      obtain ⟨rfl, rfl⟩ := Prod.mk.inj (Option.some.inj found)
      exact ⟨pool, taken, rfl⟩
  obtain ⟨before, after, split, left, -, -⟩ := ReqPool.take_split taken
  have queue : rest.queue = before ++ after := by rw [left]
  have moved : ((sys.state.client.modifyPool kind fun _ => rest).linkedCalls ++
      target.call :: completedCalls sys.notes).Perm sys.usedCalls :=
    List.perm_middle.trans (List.Perm.append_right (completedCalls sys.notes)
      (Client.linkedCalls_split split queue).symm)
  have linked : Linked sys.notes kind target := by
    apply once.entries kind target
    rw [split]
    exact List.mem_append_right _ List.mem_cons_self
  refine ⟨moved.nodup_iff.mpr once.distinct, fun call member => ?_, once.calls,
    fun call member unsent again => ?_, fun other req member => ?_, ?_⟩
  · exact once.used call (moved.mem_iff.mp member)
  · exact once.fresh call member unsent (moved.mem_iff.mp again)
  · apply Linked.mono _ (List.suffix_cons _ sys.notes)
    by_cases same : other = kind
    · subst same
      have member : req ∈ rest.queue := by simpa [Sys.client] using member
      apply once.entries other req
      rw [split]
      rw [queue] at member
      exact (List.mem_append.mp member).elim (List.mem_append_left _)
        fun member => List.mem_append_right _ (List.mem_cons_of_mem _ member)
    · have member : req ∈ (sys.state.client.pool other).queue := by
        simpa [Sys.client, Client.pool_modifyPool_of_ne _ same] using member
      exact once.entries other req member
  · intro other req code text core earlier suffix
    rcases List.suffix_cons_iff.mp suffix with same | older
    · obtain ⟨note, rfl⟩ := List.cons.inj same
      cases note
      exact linked
    · exact once.completions other req code text core earlier older

/-- The queues keep their entries. -/
theorem release {sys : Sys} (once : Once sys) (target : PendingReq) :
    Once (sys.client fun client => client.modifyPool kind (ReqPool.release target)) := by
  have queue (other : ReqKind) : ((sys.state.client.modifyPool kind
      (ReqPool.release target)).pool other).queue = (sys.state.client.pool other).queue := by
    by_cases same : other = kind
    · subst same
      rw [Client.pool_modifyPool_self, ReqPool.queue_release]
    · rw [Client.pool_modifyPool_of_ne _ same]
  have linked : (sys.state.client.modifyPool kind (ReqPool.release target)).linkedCalls =
      sys.state.client.linkedCalls := by
    unfold Client.linkedCalls
    exact congrArg (List.map PendingReq.call) (congrArg₂ (· ++ ·) (queue .request) (queue .notify))
  have used : (sys.client fun client =>
      client.modifyPool kind (ReqPool.release target)).usedCalls = sys.usedCalls :=
    congrArg (· ++ completedCalls sys.notes) linked
  refine ⟨?_, ?_, once.calls, ?_, fun other req member => ?_, once.completions⟩
  · rw [used]
    exact once.distinct
  · rw [used]
    exact once.used
  · rw [used]
    exact once.fresh
  · have member : req ∈ (sys.state.client.pool other).queue := (queue other) ▸ member
    exact once.entries other req member

/-- A call begins, under a number that nothing has. -/
theorem beginCall (once : Once first) (thread : Thread) (call : UserCall) :
    Once (Pomelo.beginCall thread call first) where
  distinct := once.distinct
  used other member := Nat.lt_succ_of_lt (once.used other member)
  calls other member := by
    rcases List.mem_append.mp member with old | new
    · exact Nat.lt_succ_of_lt (once.calls other old)
    · rw [List.mem_singleton.mp new]
      exact Nat.lt_succ_self _
  fresh other member unsent := by
    rcases List.mem_append.mp member with old | new
    · exact once.fresh other old unsent
    · rw [List.mem_singleton.mp new]
      exact fun again => absurd (once.used _ again) (lt_irrefl _)
  entries := once.entries
  completions := once.completions

/-- A call links its entry. -/
theorem link {route msg : CStr} {timeout : Int} {sys : Sys} (once : Once sys)
    (under : ∃ call ∈ sys.state.calls, call.id = id ∧ call.stage.sends = false)
    (noted : ∃ core, (.call id (.link kind route msg timeout), core) ∈ sys.notes) :
    Once (pcLink id kind route msg timeout sys) := by
  obtain ⟨caller, inside, own, early⟩ := under
  have used : (pcLink id kind route msg timeout sys).usedCalls.Perm (id :: sys.usedCalls) :=
    (sys.state.client.linkedCalls_enqueue id route msg timeout).append_right
      (completedCalls sys.notes)
  have unused : id ∉ sys.usedCalls := own ▸ once.fresh caller inside early
  have stages : ∀ call ∈ (pcLink id kind route msg timeout sys).state.calls,
      call ∈ sys.state.calls ∧ call.id ≠ id ∨ call.id = id ∧ call.stage.sends := by
    intro call member
    obtain ⟨other, inside, rfl⟩ := List.mem_map.mp member
    split
    next same => exact .inr ⟨same, rfl⟩
    next ne => exact .inl ⟨inside, ne⟩
  refine ⟨?_, fun call member => ?_, fun call member => ?_, fun call member unsent => ?_,
    fun other req member => ?_, once.completions⟩
  · rw [used.nodup_iff, List.nodup_cons]
    exact ⟨unused, once.distinct⟩
  · rcases List.mem_cons.mp (used.mem_iff.mp member) with rfl | old
    · exact own ▸ once.calls caller inside
    · exact once.used call old
  · rcases stages call member with ⟨old, -⟩ | ⟨same, -⟩
    · exact once.calls call old
    · rw [same, ← own]
      exact once.calls caller inside
  · rcases stages call member with ⟨old, other⟩ | ⟨-, sent⟩
    · intro again
      rcases List.mem_cons.mp (used.mem_iff.mp again) with same | again
      · exact other same
      · exact once.fresh call old unsent again
    · exact absurd (sent.symm.trans unsent) (by simp)
  · have member : req ∈ ((sys.state.client.enqueue kind id route msg timeout).pool other).queue :=
      member
    by_cases same : other = kind
    · subst same
      rw [Client.pool_enqueue_self, ReqPool.queue_link] at member
      rcases List.mem_append.mp member with old | new
      · exact once.entries other req old
      · rw [List.mem_singleton.mp new]
        exact noted
    · rw [Client.pool_enqueue_of_ne _ _ _ _ same] at member
      exact once.entries other req member

/-- The search for the entry of an event, in a poll. -/
theorem pollComplete {sys : Sys} (once : Once sys) (event : PendingEvent) (next : Option UserCall)
    (key : Nat) (rc : Int) (resp : Option CStr)
    (under : ∃ call ∈ sys.state.calls, call.id = id ∧ call.stage.sends = false) :
    Once (Pomelo.pollComplete id event next kind key rc resp sys) := by
  unfold Pomelo.pollComplete
  split
  · exact once.moves (.stage (fun _ => rfl) sys) under
  next target client found =>
    have named : Apart sys (pcClientRcStr pollReceiver rc sys) := .pollAssert _ rfl sys
    have same : (pcClientRcStr pollReceiver rc sys).state.client = sys.state.client := by
      unfold pcClientRcStr Receiver.assert
      split <;> rfl
    rw [← same] at found
    apply ((once.apart named).complete found rc resp).moves (.stage (fun _ => rfl) _)
    rw [← named.calls] at under
    exact under

/-- One pass of a poll, up to the callback. -/
theorem pollNext {sys : Sys} (once : Once sys) (next : Option UserCall)
    (under : ∃ call ∈ sys.state.calls, call.id = id ∧ call.stage.sends = false) :
    Once (Pomelo.pollNext id next sys) := by
  unfold Pomelo.pollNext
  split
  · have left : Moves id false sys
        (sys.client fun client => { client with isInPoll := false }) := .unchanged fun _ => rfl
    exact once.moves (left.trans (.afterPoll next _)) under
  next event rest queue =>
    have taken (rest : List PendingEvent) : Apart sys (pollReceiver.assert
        ((sys.client fun client => { client with pendingEvQueue := rest }).state.client.eventBusy
          event) (.eventAssertion event)
        (sys.client fun client => { client with pendingEvQueue := rest })) :=
      (Apart.client fun _ => rfl).trans (.pollAssert _ rfl _)
    have once := once.apart (taken rest)
    rw [← (taken rest).calls] at under
    dsimp only
    split
    · exact once.moves ((Moves.fireEventNow _ _ _ _).trans (.stage (fun _ => rfl) _)) under
    · exact once.pollComplete _ _ _ _ _ under
    · exact once.pollComplete _ _ _ _ _ under

/-- Code of the user, or the clock. -/
theorem act (once : Once first) (act : Act) : Once (Pomelo.act env first act) := by
  cases act with
  | begin thread call => exact once.beginCall thread call
  | tick seconds => exact once.apart ⟨fun _ => rfl, rfl, rfl, .of_notes rfl⟩
  | advance id =>
      rw [Pomelo.act]
      unfold advance
      split
      · exact once
      next call found =>
      split
      · exact once
      have inside := List.mem_of_find?_eq_some found
      have own : call.id = id := by simpa using List.find?_some found
      have noted : Moves id call.stage.sends first (first.note (.call id call.stage)) :=
        ⟨fun _ => .refl _, rfl, fun _ member => .inl member, .note rfl first⟩
      have under : ∃ caller ∈ (first.note (.call id call.stage)).state.calls,
          caller.id = id ∧ caller.stage.sends = call.stage.sends := ⟨call, inside, own, rfl⟩
      have once := once.moves noted ⟨call, inside, own, rfl⟩
      cases stage : call.stage with
      | link kind route msg timeout =>
          rw [stage] at once under
          exact once.link under ⟨_, List.mem_cons_self⟩
      | polling next =>
          rw [stage] at once under
          exact once.pollNext next under
      | _ =>
          rw [stage] at once under
          exact once.moves (.runStage (by simp) (by simp) _) under

/-- Every step of a user thread keeps the invariant. -/
theorem userStep (step : UserStep env first second) (once : Once first) : Once second := by
  cases step with
  | apart apart => exact once.apart apart
  | act act => exact once.act act
  | complete found rc resp => exact once.complete found rc resp
  | release kind target => exact once.release target

/-- The invariant holds in every reachable state. -/
theorem of_reachable {sys : Sys} (reached : Reachable env sys) : Once sys := by
  obtain ⟨evHandlers, tcp, stored, -, ran⟩ := reached
  exact holds_of_reachable (init evHandlers tcp stored) (keeps_of_userStep userStep) ran
    fun _ _ => trivial

end Once

/-- In every run, on whatever threads calls are made and whatever the callbacks do: the callback
of a call is started once at most, and when it is, that very call has linked an entry before, with
the route, the message and the timeout that the callback is for. A call whose entry is still
linked has not been completed. -/
theorem completed_once {sys : Sys} (reached : Reachable env sys) :
    (completedCalls sys.notes).Nodup ∧
    (∀ kind req rc resp core earlier,
      (.sight (.completed kind req rc resp), core) :: earlier <:+ sys.notes →
        Linked earlier kind req) ∧
    ∀ kind, ∀ req ∈ (sys.state.client.pool kind).queue, req.call ∉ completedCalls sys.notes := by
  have once : Once sys := .of_reachable reached
  obtain ⟨-, completed, apart⟩ := List.nodup_append.mp once.distinct
  refine ⟨completed, once.completions, fun kind req member again => ?_⟩
  exact apart req.call (Client.mem_linkedCalls.mpr ⟨kind, req, member, rfl⟩) req.call again rfl

/-- A notify has been written, and a request behind it waits. -/
theorem completed_once_requestWaits :
    ∃ sys, SampleEnds (fun _ => []) (notifyInFlight ++ messageSent 2 .request 5 ++
      [.loop (.writeDone 0)]) sys ∧ completedCalls sys.notes = [1] ∧
      sys.state.client.requests.queue.map PendingReq.call = [2] ∧
      (completedCalls sys.notes).Nodup ∧
      ∀ kind, ∀ req ∈ (sys.state.client.pool kind).queue, req.call ∉ completedCalls sys.notes := by
  obtain ⟨sys, ends, completed, pending⟩ := exists_sampleEnds (fun _ => [])
    (notifyInFlight ++ messageSent 2 .request 5 ++ [.loop (.writeDone 0)])
    (fun sys => completedCalls sys.notes = [1] ∧
      sys.state.client.requests.queue.map PendingReq.call = [2]) (by decide +kernel)
  obtain ⟨once, -, apart⟩ := completed_once ends.reachable
  exact ⟨sys, ends, completed, pending, once, apart⟩

end Pomelo
