import Pomelo.Client.Api
import Mathlib.Data.List.Perm.Basic
import Mathlib.Logic.Relation

/-!
# The discipline of the pools

One thread runs the request and notify functions of the client with any nesting:
a callback may make calls, and so may everything that the transport does inside
`send`. What the thread is in the middle of is a stack of frames. In every state
that can be reached a preallocated slot is busy exactly as long as an entry holds
it, and every call ends in one way.
-/

namespace Pomelo

namespace ReqPool

variable {pool : ReqPool} {held : List PendingReq} {req : PendingReq}

/-- The slots of a pool agree with the entries that hold a node of it. -/
structure Sound (pool : ReqPool) (held : List PendingReq) : Prop where
  distinct : (held.map PendingReq.node).Nodup
  owned : ∀ req ∈ held, ∀ call, req.node = .heap call → call = req.call
  range : ∀ req ∈ held, ∀ index, req.node = .slot index → index < pool.slots.length
  busy : ∀ index slot, pool.slots[index]? = some slot →
    (slot.busy = true ↔ ∃ req ∈ held, req.node = .slot index)
  idle : ∀ slot ∈ pool.slots, slot.busy = false → slot.route = none ∧ slot.msg = none

/-- The order in which the requests are held does not matter. -/
theorem Sound.perm {other : List PendingReq} (sound : pool.Sound held) (same : held.Perm other) :
    pool.Sound other where
  distinct := (same.map _).nodup_iff.mp sound.distinct
  owned := fun req member => sound.owned req (same.mem_iff.mpr member)
  range := fun req member => sound.range req (same.mem_iff.mpr member)
  busy := fun index slot found => by
    simpa only [same.mem_iff] using sound.busy index slot found
  idle := sound.idle

/-- The order of the queue is no matter. -/
theorem Sound.withQueue (sound : pool.Sound held) (queue : List PendingReq) :
    { pool with queue }.Sound held :=
  ⟨sound.distinct, sound.owned, sound.range, sound.busy, sound.idle⟩

theorem sound_init (count : Nat) : (init count).Sound [] where
  distinct := List.nodup_nil
  owned := fun _ member => absurd member List.not_mem_nil
  range := fun _ member => absurd member List.not_mem_nil
  busy := by
    intro index slot found
    obtain ⟨-, rfl⟩ := List.mem_replicate.mp (List.mem_of_getElem? found)
    simp [ReqSlot.idle]
  idle := by
    intro slot member _
    obtain ⟨-, rfl⟩ := List.mem_replicate.mp member
    exact ⟨rfl, rfl⟩

/-- The slot that is handed out is idle. -/
theorem not_busy_of_firstIdle {index : Nat} (found : pool.firstIdle = some index) :
    ∃ slot, pool.slots[index]? = some slot ∧ slot.busy = false := by
  obtain ⟨bound, free, -⟩ := List.findIdx?_eq_some_iff_getElem.mp found
  exact ⟨pool.slots[index], List.getElem?_eq_getElem bound, by simpa using free⟩

/-- Nobody holds the node that is handed out. -/
theorem Sound.nextNode_free (sound : pool.Sound held) {call : Nat}
    (fresh : call ∉ held.map PendingReq.call) :
    pool.nextNode call ∉ held.map PendingReq.node := by
  intro member
  obtain ⟨req, inside, same⟩ := List.mem_map.mp member
  rw [nextNode] at same
  cases found : pool.firstIdle with
  | none =>
      rw [found] at same
      exact fresh (List.mem_map.mpr ⟨req, inside, (sound.owned req inside call same).symm⟩)
  | some index =>
      rw [found] at same
      obtain ⟨slot, at_index, idle⟩ := not_busy_of_firstIdle found
      have busy := (sound.busy index slot at_index).mpr ⟨req, inside, same⟩
      rw [idle] at busy
      exact Bool.false_ne_true busy

/-- The slots after a write to one node. -/
theorem getElem?_setSlot {node : ReqNode} {slot : ReqSlot} {index : Nat} {found : ReqSlot}
    (get : (pool.setSlot node slot).slots[index]? = some found) :
    (node = .slot index ∧ found = slot) ∨ (node ≠ .slot index ∧ pool.slots[index]? = some found) := by
  cases node with
  | heap call => exact .inr ⟨ReqNode.noConfusion, get⟩
  | slot written =>
      change (pool.slots.set written slot)[index]? = some found at get
      rw [List.getElem?_set] at get
      by_cases same : written = index
      · rw [if_pos same] at get
        split at get
        · exact .inl ⟨congrArg _ same, (Option.some.inj get).symm⟩
        · exact absurd get (by simp)
      · rw [if_neg same] at get
        exact .inr ⟨fun equal => same (ReqNode.slot.inj equal), get⟩

@[simp] theorem length_setSlot (node : ReqNode) (slot : ReqSlot) :
    (pool.setSlot node slot).slots.length = pool.slots.length := by
  cases node with
  | slot index => exact List.length_set
  | heap call => rfl

/-- A slot of the pool that has been changed is the new one or an old one. -/
theorem mem_setSlot {node : ReqNode} {slot found : ReqSlot}
    (member : found ∈ (pool.setSlot node slot).slots) : found = slot ∨ found ∈ pool.slots := by
  cases node with
  | heap call => exact .inr member
  | slot written => exact (List.mem_or_eq_of_mem_set member).symm

/-- Linking a request takes the slot it has been given. -/
theorem Sound.link (sound : pool.Sound held) (node : req.node = pool.nextNode req.call)
    (fresh : req.call ∉ held.map PendingReq.call) : (pool.link req).Sound (req :: held) where
  distinct := by
    rw [List.map_cons, List.nodup_cons]
    exact ⟨node ▸ sound.nextNode_free fresh, sound.distinct⟩
  owned := by
    intro other member call heap
    rcases List.mem_cons.mp member with rfl | member
    · rw [node, nextNode] at heap
      split at heap
      · exact absurd heap ReqNode.noConfusion
      · exact (ReqNode.heap.inj heap).symm
    · exact sound.owned other member call heap
  range := by
    intro other member index slot
    rw [ReqPool.link, length_setSlot]
    rcases List.mem_cons.mp member with rfl | member
    · rw [node, nextNode] at slot
      split at slot
      case h_1 found =>
        cases slot
        exact (List.findIdx?_eq_some_iff_getElem.mp found).1
      case h_2 => exact absurd slot ReqNode.noConfusion
    · exact sound.range other member index slot
  busy := by
    intro index slot found
    rcases getElem?_setSlot found with ⟨own, rfl⟩ | ⟨other, found⟩
    · exact ⟨fun _ => ⟨req, List.mem_cons_self, own⟩, fun _ => rfl⟩
    · rw [sound.busy index slot found, List.exists_mem_cons_iff]
      exact (or_iff_right other).symm
  idle := by
    intro slot member free
    rcases mem_setSlot member with rfl | member
    · exact absurd free (by simp)
    · exact sound.idle slot member free

/-- Releasing a request gives its slot back. -/
theorem Sound.release (sound : pool.Sound (req :: held)) : (pool.release req).Sound held where
  distinct := (List.nodup_cons.mp sound.distinct).2
  owned := fun other member => sound.owned other (List.mem_cons_of_mem _ member)
  range := fun other member index slot => by
    rw [ReqPool.release, length_setSlot]
    exact sound.range other (List.mem_cons_of_mem _ member) index slot
  busy := by
    intro index slot found
    have free := (List.nodup_cons.mp sound.distinct).1
    rcases getElem?_setSlot found with ⟨own, rfl⟩ | ⟨other, found⟩
    · refine ⟨fun busy => absurd busy (by simp [ReqSlot.idle]), ?_⟩
      rintro ⟨holder, member, same⟩
      exact absurd (List.mem_map.mpr ⟨holder, member, same.trans own.symm⟩) free
    · rw [sound.busy index slot found, List.exists_mem_cons_iff]
      exact or_iff_right other
  idle := by
    intro slot member free
    rcases mem_setSlot member with rfl | member
    · exact ⟨rfl, rfl⟩
    · exact sound.idle slot member free

/-- What `take` finds, and what it leaves. -/
theorem take_split {kind : ReqKind} {key : Nat} {target : PendingReq} {rest : ReqPool}
    (found : pool.take kind key = some (target, rest)) :
    ∃ before after, pool.queue = before ++ target :: after ∧
      rest = { pool with queue := before ++ after } ∧ target.key kind = key ∧
      ∀ other ∈ before, other.key kind ≠ key := by
  rw [take] at found
  cases search : pool.queue.find? fun req => req.key kind = key with
  | none => simp [search] at found
  | some first =>
      simp only [search, Option.some.injEq, Prod.mk.injEq] at found
      obtain ⟨rfl, rfl⟩ := found
      obtain ⟨matched, before, after, split, others⟩ := List.find?_eq_some_iff_append.mp search
      have earlier : ∀ other ∈ before, other.key kind ≠ key := by simpa using others
      refine ⟨before, after, split, ?_, of_decide_eq_true matched, earlier⟩
      rw [split, List.eraseP_append_right _ (by simpa using earlier), List.eraseP_cons_of_pos]
      exact matched

/-- Nothing is found under a key that no entry has. -/
theorem take_eq_none {kind : ReqKind} {key : Nat} (absent : ∀ req ∈ pool.queue, req.key kind ≠ key) :
    pool.take kind key = none := by
  have search : pool.queue.find? (fun req => req.key kind = key) = none :=
    List.find?_eq_none.mpr fun req member => by simpa using absent req member
  rw [take, search]

/-- The rollback of a linked entry takes out that entry only. -/
theorem rollback_split {before after : List PendingReq}
    (split : pool.queue = before ++ req :: after)
    (distinct : (pool.queue.map PendingReq.node).Nodup) :
    pool.rollback req = { pool with queue := before ++ after }.release req := by
  have others : ∀ other ∈ before, ¬ decide (other.node = req.node) = true := by
    intro other member same
    rw [split, List.map_append, List.map_cons, List.nodup_append] at distinct
    exact distinct.2.2 other.node (List.mem_map.mpr ⟨other, member, rfl⟩) req.node
      List.mem_cons_self (of_decide_eq_true same)
  rw [rollback, split, List.eraseP_append_right _ others, List.eraseP_cons_of_pos]
  · rfl
  · exact decide_eq_true rfl

@[simp] theorem queue_setSlot (node : ReqNode) (slot : ReqSlot) :
    (pool.setSlot node slot).queue = pool.queue := by
  cases node <;> rfl

@[simp] theorem queue_link : (pool.link req).queue = pool.queue ++ [req] := queue_setSlot ..

@[simp] theorem queue_release : (pool.release req).queue = pool.queue := queue_setSlot ..

end ReqPool

namespace Client

variable {client : Client} {kind : ReqKind}

@[simp] theorem pool_modifyPool_self (act : ReqPool → ReqPool) :
    (client.modifyPool kind act).pool kind = act (client.pool kind) := by
  cases kind <;> rfl

/-- What is done to one pool leaves the other. -/
theorem pool_modifyPool_of_ne {other : ReqKind} (act : ReqPool → ReqPool) (ne : other ≠ kind) :
    (client.modifyPool kind act).pool other = client.pool other := by
  cases kind <;> cases other <;> first | rfl | exact absurd rfl ne

/-- A request is linked at the tail of its own pool. -/
theorem pool_enqueue_self (client : Client) (kind : ReqKind) (call : Nat) (route msg : CStr)
    (timeout : Int) : (client.enqueue kind call route msg timeout).pool kind =
      (client.pool kind).link (client.newReq kind call route msg timeout) := by
  cases kind <;> rfl

theorem pool_enqueue_of_ne {other : ReqKind} (call : Nat) (route msg : CStr) (timeout : Int)
    (ne : other ≠ kind) :
    (client.enqueue kind call route msg timeout).pool other = client.pool other := by
  cases kind <;> cases other <;> first | rfl | exact absurd rfl ne

/-- The calls whose entries are linked. -/
def linkedCalls (client : Client) : List Nat :=
  (client.requests.queue ++ client.notifies.queue).map PendingReq.call

/-- An entry of one of the queues. -/
theorem mem_linkedCalls {call : Nat} :
    call ∈ client.linkedCalls ↔ ∃ kind, ∃ req ∈ (client.pool kind).queue, req.call = call := by
  simp only [linkedCalls, List.mem_map, List.mem_append]
  constructor
  · rintro ⟨req, member | member, same⟩
    · exact ⟨.request, req, member, same⟩
    · exact ⟨.notify, req, member, same⟩
  · rintro ⟨kind, req, member, same⟩
    cases kind with
    | request => exact ⟨req, .inl member, same⟩
    | notify => exact ⟨req, .inr member, same⟩

/-- Taking an entry out of a queue takes out its call. -/
theorem linkedCalls_split {act : ReqPool → ReqPool} {before after : List PendingReq}
    {req : PendingReq} (split : (client.pool kind).queue = before ++ req :: after)
    (rest : (act (client.pool kind)).queue = before ++ after) :
    client.linkedCalls.Perm (req.call :: (client.modifyPool kind act).linkedCalls) := by
  cases kind with
  | request =>
      have same : client.requests.queue = before ++ req :: after := split
      have left : (act client.requests).queue = before ++ after := rest
      simp only [linkedCalls, modifyPool, same, left, List.map_append, List.map_cons,
        List.append_assoc, List.cons_append]
      exact List.perm_middle
  | notify =>
      have same : client.notifies.queue = before ++ req :: after := split
      have left : (act client.notifies).queue = before ++ after := rest
      simp only [linkedCalls, modifyPool, same, left, List.map_append, List.map_cons,
        ← List.append_assoc]
      exact List.perm_middle

/-- Linking a new entry adds its call. -/
theorem linkedCalls_enqueue (call : Nat) (route msg : CStr) (timeout : Int) :
    (client.enqueue kind call route msg timeout).linkedCalls.Perm (call :: client.linkedCalls) := by
  have linked := client.pool_enqueue_self kind call route msg timeout
  cases kind with
  | request =>
      have same : (client.enqueue .request call route msg timeout).requests.queue =
          client.requests.queue ++ [client.newReq .request call route msg timeout] :=
        (congrArg ReqPool.queue linked).trans ReqPool.queue_link
      have other : (client.enqueue .request call route msg timeout).notifies = client.notifies := rfl
      simp only [linkedCalls, same, other, List.map_append, List.map_cons,
        List.append_assoc, List.cons_append, List.nil_append]
      exact List.perm_middle
  | notify =>
      have same : (client.enqueue .notify call route msg timeout).notifies.queue =
          client.notifies.queue ++ [client.newReq .notify call route msg timeout] :=
        (congrArg ReqPool.queue linked).trans ReqPool.queue_link
      have other : (client.enqueue .notify call route msg timeout).requests = client.requests := rfl
      simp only [linkedCalls, same, other, List.map_append, List.map_cons, List.map_nil,
        ← List.append_assoc]
      exact List.perm_append_comm

end Client

/-- What the thread is in the middle of: `trans->send` for an entry, or the
callback of an entry. -/
inductive PoolFrame where
  | send (kind : ReqKind) (req : PendingReq)
  | callback (kind : ReqKind) (req : PendingReq)
  deriving DecidableEq

/-- A client with what one thread has done to it: the frames it is in, innermost
first, the codes that calls have returned, the calls whose callback has been
started and the calls whose node has been given back. -/
structure PoolRun where
  client : Client
  frames : List PoolFrame
  nextCall : Nat
  returned : List (Nat × Int)
  started : List Nat
  released : List Nat

namespace PoolRun

/-- After `pc_client_init`. -/
def start (evHandlers : List Nat) : PoolRun where
  client := pcClientInit evHandlers
  frames := []
  nextCall := 0
  returned := []
  started := []
  released := []

/-- A call of `pc_request_with_timeout` or `pc_notify_with_timeout`, up to its return
or to its `trans->send`. -/
def call (kind : ReqKind) (args : Option (CStr × CStr)) (timeout : Int) (run : PoolRun) : PoolRun :=
  match run.client.sendCheck kind args timeout, args with
  | none, some (route, msg) =>
      { run with
        client := run.client.enqueue kind run.nextCall route msg timeout
        frames := .send kind (run.client.newReq kind run.nextCall route msg timeout) :: run.frames
        nextCall := run.nextCall + 1 }
  | none, none => run
  | some rc, _ =>
      { run with
        nextCall := run.nextCall + 1
        returned := (run.nextCall, rc) :: run.returned }

/-- The end of the call whose `trans->send` is the innermost frame. -/
def sendReturns (rc : Int) (run : PoolRun) : PoolRun :=
  match run.frames with
  | .send kind req :: frames =>
      if rc ≠ pcRcOk then
        { run with
          client := run.client.modifyPool kind (ReqPool.rollback req)
          frames
          returned := (req.call, rc) :: run.returned
          released := req.call :: run.released }
      else
        { run with frames, returned := (req.call, rc) :: run.returned }
  | _ => run

/-- `pc__trans_resp` or `pc__trans_sent`, up to the callback. -/
def upcall (kind : ReqKind) (key : Nat) (run : PoolRun) : PoolRun :=
  match run.client.take kind key with
  | none => run
  | some (target, client) =>
      { run with
        client
        frames := .callback kind target :: run.frames
        started := target.call :: run.started }

/-- The end of `pc__trans_resp` or `pc__trans_sent`, when the callback has returned. -/
def callbackReturns (run : PoolRun) : PoolRun :=
  match run.frames with
  | .callback kind target :: frames =>
      { run with
        client := run.client.modifyPool kind (ReqPool.release target)
        frames
        released := target.call :: run.released }
  | _ => run

/-- One step. The transport's `send` returns any code, `PC_RC_OK` if the message has
been completed inside it. The client state may change at any time. -/
inductive Step : PoolRun → PoolRun → Prop where
  | state (run : PoolRun) (state : ClientState) :
      Step run { run with client := run.client.setState state }
  | call (run : PoolRun) (kind : ReqKind) (args : Option (CStr × CStr)) (timeout : Int) :
      Step run (run.call kind args timeout)
  | sendReturns (run : PoolRun) (rc : Int) {kind : ReqKind} {req : PendingReq}
      {frames : List PoolFrame} (innermost : run.frames = .send kind req :: frames)
      (completed : req.call ∈ run.started → rc = pcRcOk) : Step run (run.sendReturns rc)
  | upcall (run : PoolRun) (kind : ReqKind) (key : Nat) : Step run (run.upcall kind key)
  | callbackReturns (run : PoolRun) : Step run run.callbackReturns

/-- The entries of a kind whose callback is running. -/
def running (kind : ReqKind) (frames : List PoolFrame) : List PendingReq :=
  frames.filterMap fun
    | .callback other req => if other = kind then some req else none
    | .send _ _ => none

/-- The calls whose callback is running. -/
def runningCalls (frames : List PoolFrame) : List Nat :=
  frames.filterMap fun
    | .callback _ req => some req.call
    | .send _ _ => none

/-- The calls whose `trans->send` is running. -/
def sendingCalls (frames : List PoolFrame) : List Nat :=
  frames.filterMap fun
    | .send _ req => some req.call
    | .callback _ _ => none

/-- The calls with an entry, each where its entry is. -/
def calls (run : PoolRun) : List Nat :=
  run.client.linkedCalls ++ runningCalls run.frames ++ run.released

/-- What every step keeps. -/
structure Inv (run : PoolRun) : Prop where
  sound : ∀ kind, (run.client.pool kind).Sound
    ((run.client.pool kind).queue ++ running kind run.frames)
  nodup : run.calls.Nodup
  below : ∀ call ∈ run.calls ++ sendingCalls run.frames, call < run.nextCall
  startedNodup : run.started.Nodup
  started : ∀ call ∈ run.started, call ∈ runningCalls run.frames ++ run.released
  failed : ∀ call rc, (call, rc) ∈ run.returned → rc ≠ pcRcOk →
    call ∉ run.client.linkedCalls ∧ call ∉ run.started ∧ call < run.nextCall
  sending : ∀ kind req, .send kind req ∈ run.frames →
    req ∈ (run.client.pool kind).queue ∨ req.call ∈ run.started
  sendingNodup : (sendingCalls run.frames).Nodup

variable {run : PoolRun}

/-- A fresh client has no request and no running call. -/
theorem inv_start (evHandlers : List Nat) : (start evHandlers).Inv where
  sound := fun kind => by cases kind <;> exact ReqPool.sound_init _
  nodup := List.nodup_nil
  below := fun _ member => absurd member List.not_mem_nil
  startedNodup := List.nodup_nil
  started := fun _ member => absurd member List.not_mem_nil
  failed := fun _ _ member => absurd member List.not_mem_nil
  sending := fun _ _ member => absurd member List.not_mem_nil
  sendingNodup := List.nodup_nil

/-- A call that has been started is not linked. -/
theorem Inv.not_started (inv : run.Inv) {call : Nat} (linked : call ∈ run.client.linkedCalls) :
    call ∉ run.started := by
  intro started
  have nodup := inv.nodup
  rw [calls, List.append_assoc, List.nodup_append] at nodup
  exact nodup.2.2 call linked call (inv.started call started) rfl

/-- Entries of one pool have different calls. -/
theorem Inv.held_fresh (inv : run.Inv) (kind : ReqKind) :
    run.nextCall ∉ ((run.client.pool kind).queue ++ running kind run.frames).map PendingReq.call := by
  intro member
  obtain ⟨req, inside, same⟩ := List.mem_map.mp member
  have known : req.call ∈ run.calls := by
    rcases List.mem_append.mp inside with linked | held
    · have linked := Client.mem_linkedCalls.mpr ⟨kind, req, linked, rfl⟩
      exact List.mem_append_left _ (List.mem_append_left _ linked)
    · refine List.mem_append_left _ (List.mem_append_right _ ?_)
      obtain ⟨frame, inside, same⟩ := List.mem_filterMap.mp held
      refine List.mem_filterMap.mpr ⟨frame, inside, ?_⟩
      cases frame with
      | send _ _ => exact absurd same (by simp)
      | callback other target =>
          simp only [Option.ite_none_right_eq_some, Option.some.injEq] at same
          exact congrArg (fun req => some req.call) same.2
  have bound := inv.below req.call (List.mem_append_left _ known)
  exact absurd (same ▸ bound) (Nat.lt_irrefl _)

/-- The state of the client plays no part in the invariant. -/
theorem Inv.state (inv : run.Inv) (state : ClientState) :
    Inv { run with client := run.client.setState state } where
  sound := fun kind => by cases kind with
    | request => exact inv.sound .request
    | notify => exact inv.sound .notify
  nodup := inv.nodup
  below := inv.below
  startedNodup := inv.startedNodup
  started := inv.started
  failed := inv.failed
  sending := fun kind req member => by cases kind with
    | request => exact inv.sending .request req member
    | notify => exact inv.sending .notify req member
  sendingNodup := inv.sendingNodup

@[simp] theorem running_send_cons (kind other : ReqKind) (req : PendingReq)
    (frames : List PoolFrame) : running kind (.send other req :: frames) = running kind frames := rfl

@[simp] theorem running_callback_cons_self (kind : ReqKind) (req : PendingReq)
    (frames : List PoolFrame) :
    running kind (.callback kind req :: frames) = req :: running kind frames := by
  simp [running]

/-- A callback of the other pool holds nothing of this one. -/
theorem running_callback_cons_of_ne {kind other : ReqKind} (ne : kind ≠ other) (req : PendingReq)
    (frames : List PoolFrame) :
    running kind (.callback other req :: frames) = running kind frames := by
  simp [running, Ne.symm ne]

/-- A call that is refused. -/
theorem Inv.refused (inv : run.Inv) (rc : Int) :
    Inv { run with
      nextCall := run.nextCall + 1
      returned := (run.nextCall, rc) :: run.returned } where
  sound := inv.sound
  nodup := inv.nodup
  below := fun call member => Nat.lt_succ_of_lt (inv.below call member)
  startedNodup := inv.startedNodup
  started := inv.started
  failed := by
    intro call other member error
    have fresh : run.nextCall ∉ run.calls ++ sendingCalls run.frames :=
      fun member => Nat.lt_irrefl _ (inv.below _ member)
    simp only [calls, List.mem_append, not_or] at fresh
    rcases List.mem_cons.mp member with same | member
    · obtain ⟨rfl, rfl⟩ := Prod.mk.inj same
      refine ⟨fresh.1.1.1, fun started => ?_, Nat.lt_succ_self _⟩
      rcases List.mem_append.mp (inv.started _ started) with member | member
      · exact fresh.1.1.2 member
      · exact fresh.1.2 member
    · obtain ⟨linked, started, bound⟩ := inv.failed call other member error
      exact ⟨linked, started, Nat.lt_succ_of_lt bound⟩
  sending := inv.sending
  sendingNodup := inv.sendingNodup

/-- A call that links its entry. -/
theorem Inv.enqueue (inv : run.Inv) (kind : ReqKind) (route msg : CStr) (timeout : Int) :
    Inv { run with
      client := run.client.enqueue kind run.nextCall route msg timeout
      frames := .send kind (run.client.newReq kind run.nextCall route msg timeout) :: run.frames
      nextCall := run.nextCall + 1 } := by
  have fresh : run.nextCall ∉ run.calls ++ sendingCalls run.frames :=
    fun member => Nat.lt_irrefl _ (inv.below _ member)
  have moved : (run.client.enqueue kind run.nextCall route msg timeout).linkedCalls.Perm
      (run.nextCall :: run.client.linkedCalls) := Client.linkedCalls_enqueue ..
  have all : calls { run with
      client := run.client.enqueue kind run.nextCall route msg timeout
      frames := .send kind (run.client.newReq kind run.nextCall route msg timeout) :: run.frames
      nextCall := run.nextCall + 1 } |>.Perm (run.nextCall :: run.calls) :=
    (moved.append_right _).append_right _
  simp only [List.mem_append, not_or] at fresh
  refine ⟨fun other => ?_, ?_, ?_, inv.startedNodup, inv.started, ?_, ?_, ?_⟩
  · by_cases same : other = kind
    · subst same
      rw [Client.pool_enqueue_self, ReqPool.queue_link, running_send_cons]
      refine ((inv.sound other).link rfl (inv.held_fresh other)).perm ?_
      rw [List.append_assoc, List.singleton_append]
      exact List.perm_middle.symm
    · rw [Client.pool_enqueue_of_ne _ _ _ _ same]
      exact inv.sound other
  · exact all.nodup_iff.mpr (List.nodup_cons.mpr ⟨fresh.1, inv.nodup⟩)
  · intro call member
    rcases List.mem_append.mp member with member | member
    · rcases List.mem_cons.mp (all.mem_iff.mp member) with rfl | member
      · exact Nat.lt_succ_self _
      · exact Nat.lt_succ_of_lt (inv.below call (List.mem_append_left _ member))
    · rcases List.mem_cons.mp member with rfl | member
      · exact Nat.lt_succ_self _
      · exact Nat.lt_succ_of_lt (inv.below call (List.mem_append_right _ member))
  · intro call rc member error
    obtain ⟨linked, started, bound⟩ := inv.failed call rc member error
    refine ⟨fun member => ?_, started, Nat.lt_succ_of_lt bound⟩
    rcases List.mem_cons.mp (moved.mem_iff.mp member) with rfl | member
    · exact Nat.lt_irrefl _ bound
    · exact linked member
  · intro other req member
    rcases List.mem_cons.mp member with same | member
    · obtain ⟨rfl, rfl⟩ := PoolFrame.send.inj same
      rw [Client.pool_enqueue_self, ReqPool.queue_link]
      exact .inl (List.mem_append_right _ List.mem_cons_self)
    · refine (inv.sending other req member).imp_left fun linked => ?_
      by_cases same : other = kind
      · subst same
        rw [Client.pool_enqueue_self, ReqPool.queue_link]
        exact List.mem_append_left _ linked
      · rw [Client.pool_enqueue_of_ne _ _ _ _ same]
        exact linked
  · exact List.nodup_cons.mpr ⟨fresh.2, inv.sendingNodup⟩

/-- A call of the user is refused, or enqueues and hands over one item. -/
theorem Inv.call (inv : run.Inv) (kind : ReqKind) (args : Option (CStr × CStr)) (timeout : Int) :
    (run.call kind args timeout).Inv := by
  unfold PoolRun.call
  split
  · exact inv.enqueue ..
  · exact inv
  · exact inv.refused _

/-- Running callbacks have their calls among the running calls. -/
theorem runningCalls_callback_cons (kind : ReqKind) (req : PendingReq) (frames : List PoolFrame) :
    runningCalls (.callback kind req :: frames) = req.call :: runningCalls frames := rfl

/-- A call that is sending runs no callback. -/
theorem runningCalls_send_cons (kind : ReqKind) (req : PendingReq) (frames : List PoolFrame) :
    runningCalls (.send kind req :: frames) = runningCalls frames := rfl

/-- Taking an entry out of its queue leaves the other sends as they were. -/
theorem Inv.sending_split (inv : run.Inv) {kind : ReqKind} {target : PendingReq}
    {before after : List PendingReq} (act : ReqPool → ReqPool)
    (split : (run.client.pool kind).queue = before ++ target :: after)
    (rest : (act (run.client.pool kind)).queue = before ++ after)
    {other : ReqKind} {req : PendingReq} (member : .send other req ∈ run.frames) :
    req ∈ ((run.client.modifyPool kind act).pool other).queue ∨ req.call ∈ run.started ∨
      other = kind ∧ req = target := by
  rcases inv.sending other req member with linked | started
  · by_cases same : other = kind
    · subst same
      rw [Client.pool_modifyPool_self, rest]
      rw [split, List.mem_append, List.mem_cons] at linked
      rcases linked with linked | rfl | linked
      · exact .inl (List.mem_append_left _ linked)
      · exact .inr (.inr ⟨rfl, rfl⟩)
      · exact .inl (List.mem_append_right _ linked)
    · rw [Client.pool_modifyPool_of_ne _ same]
      exact .inl linked
  · exact .inr (.inl started)

/-- The start of a callback. -/
theorem Inv.upcall (inv : run.Inv) (kind : ReqKind) (key : Nat) : (run.upcall kind key).Inv := by
  unfold PoolRun.upcall Client.take
  cases found : (run.client.pool kind).take kind key with
  | none => exact inv
  | some entry =>
      obtain ⟨target, pool⟩ := entry
      obtain ⟨before, after, split, same_pool, -, -⟩ := ReqPool.take_split found
      have rest : pool.queue = before ++ after := congrArg ReqPool.queue same_pool
      have moved : run.client.linkedCalls.Perm
          (target.call :: (run.client.modifyPool kind fun _ => pool).linkedCalls) :=
        Client.linkedCalls_split split rest
      have linked : target.call ∈ run.client.linkedCalls := moved.mem_iff.mpr List.mem_cons_self
      have all : ((run.client.modifyPool kind fun _ => pool).linkedCalls ++
          runningCalls (.callback kind target :: run.frames) ++ run.released).Perm run.calls := by
        rw [calls, runningCalls_callback_cons]
        exact (List.perm_middle.trans (moved.symm.append_right _)).append_right _
      refine ⟨fun other => ?_, all.nodup_iff.mpr inv.nodup, ?_, ?_, ?_, ?_, ?_, inv.sendingNodup⟩
      · by_cases same : other = kind
        · subst same
          rw [Client.pool_modifyPool_self, rest, running_callback_cons_self]
          have sound := (inv.sound other).withQueue (before ++ after)
          rw [split] at sound
          refine same_pool ▸ sound.perm ?_
          rw [List.append_assoc, List.cons_append]
          refine List.perm_middle.trans (List.Perm.trans ?_ List.perm_middle.symm)
          rw [List.append_assoc]
        · rw [Client.pool_modifyPool_of_ne _ same, running_callback_cons_of_ne same]
          exact inv.sound other
      · intro call member
        rcases List.mem_append.mp member with member | member
        · exact inv.below call (List.mem_append_left _ (all.mem_iff.mp member))
        · exact inv.below call (List.mem_append_right _ member)
      · exact List.nodup_cons.mpr ⟨inv.not_started linked, inv.startedNodup⟩
      · intro call member
        rw [runningCalls_callback_cons, List.cons_append, List.mem_cons]
        exact (List.mem_cons.mp member).imp_right fun started => inv.started call started
      · intro call rc member error
        obtain ⟨unlinked, unstarted, bound⟩ := inv.failed call rc member error
        have other : call ≠ target.call := fun same => unlinked (same ▸ linked)
        refine ⟨fun member => ?_, fun member => ?_, bound⟩
        · exact unlinked (moved.mem_iff.mpr (List.mem_cons_of_mem _ member))
        · exact (List.mem_cons.mp member).elim other unstarted
      · intro other req member
        rcases List.mem_cons.mp member with same | member
        · exact absurd same PoolFrame.noConfusion
        · rcases inv.sending_split (fun _ => pool) split rest member with linked | started | ⟨-, rfl⟩
          · exact .inl linked
          · exact .inr (List.mem_cons_of_mem _ started)
          · exact .inr List.mem_cons_self

/-- The end of a callback. -/
theorem Inv.callbackReturns (inv : run.Inv) : run.callbackReturns.Inv := by
  unfold PoolRun.callbackReturns
  split
  case h_2 => exact inv
  case h_1 kind target frames top =>
      have linked : (run.client.modifyPool kind (ReqPool.release target)).linkedCalls =
          run.client.linkedCalls := by
        cases kind with
        | request => simp only [Client.linkedCalls, Client.modifyPool, ReqPool.queue_release]
        | notify => simp only [Client.linkedCalls, Client.modifyPool, ReqPool.queue_release]
      have all : (run.client.linkedCalls ++ runningCalls frames ++
          target.call :: run.released).Perm run.calls := by
        rw [calls, top, runningCalls_callback_cons]
        exact List.perm_middle.trans (List.perm_middle.symm.append_right _)
      have queue (other : ReqKind) :
          ((run.client.modifyPool kind (ReqPool.release target)).pool other).queue =
            (run.client.pool other).queue := by
        by_cases same : other = kind
        · subst same
          rw [Client.pool_modifyPool_self, ReqPool.queue_release]
        · rw [Client.pool_modifyPool_of_ne _ same]
      refine ⟨fun other => ?_, ?_, ?_, inv.startedNodup, ?_, ?_, ?_, ?_⟩
      · have sound := inv.sound other
        rw [top] at sound
        rw [queue]
        by_cases same : other = kind
        · subst same
          rw [Client.pool_modifyPool_self]
          rw [running_callback_cons_self] at sound
          exact (sound.perm List.perm_middle).release
        · rw [Client.pool_modifyPool_of_ne _ same]
          rw [running_callback_cons_of_ne same] at sound
          exact sound
      · rw [calls, linked]
        exact all.nodup_iff.mpr inv.nodup
      · intro call member
        rw [calls, linked] at member
        refine inv.below call (List.mem_append.mpr ?_)
        rw [top]
        exact (List.mem_append.mp member).imp_left all.mem_iff.mp
      · intro call member
        have known := inv.started call member
        rw [top, runningCalls_callback_cons, List.cons_append] at known
        exact List.perm_middle.mem_iff.mpr known
      · rw [linked]
        exact inv.failed
      · intro other req member
        rw [queue]
        exact inv.sending other req (top ▸ List.mem_cons_of_mem _ member)
      · have nodup := inv.sendingNodup
        rw [top] at nodup
        exact nodup

/-- The end of a call. -/
theorem Inv.sendReturns (inv : run.Inv) {rc : Int} {kind : ReqKind} {req : PendingReq}
    {frames : List PoolFrame} (innermost : run.frames = .send kind req :: frames)
    (completed : req.call ∈ run.started → rc = pcRcOk) : (run.sendReturns rc).Inv := by
  have sendingNodup := inv.sendingNodup
  rw [innermost] at sendingNodup
  obtain ⟨alone, others⟩ := List.nodup_cons.mp sendingNodup
  have known (call : Nat) (member : call ∈ sendingCalls frames) :
      call ∈ sendingCalls run.frames := by
    rw [innermost]
    exact List.mem_cons_of_mem _ member
  have running_eq (other : ReqKind) : running other run.frames = running other frames := by
    rw [innermost, running_send_cons]
  have runningCalls_eq : runningCalls run.frames = runningCalls frames := by
    rw [innermost, runningCalls_send_cons]
  have own : req.call < run.nextCall := by
    refine inv.below _ (List.mem_append_right _ ?_)
    rw [innermost]
    exact List.mem_cons_self
  simp only [PoolRun.sendReturns, innermost]
  split
  case isFalse fine =>
      refine ⟨fun other => running_eq other ▸ inv.sound other, ?_, ?_, inv.startedNodup, ?_, ?_, ?_,
        others⟩
      · have nodup := inv.nodup
        rw [calls, runningCalls_eq] at nodup
        exact nodup
      · intro call member
        refine inv.below call (List.mem_append.mpr ?_)
        rw [calls, runningCalls_eq]
        exact (List.mem_append.mp member).imp_right (known call)
      · intro call member
        exact runningCalls_eq ▸ inv.started call member
      · intro call other member error
        rcases List.mem_cons.mp member with same | member
        · exact absurd ((Prod.mk.inj same).2 ▸ error) fine
        · exact inv.failed call other member error
      · intro other entry member
        exact inv.sending other entry (innermost ▸ List.mem_cons_of_mem _ member)
  case isTrue error =>
      have unstarted : req.call ∉ run.started := fun started => error (completed started)
      have linked : req ∈ (run.client.pool kind).queue :=
        (inv.sending kind req (innermost ▸ List.mem_cons_self)).resolve_right unstarted
      obtain ⟨before, after, split⟩ := List.append_of_mem linked
      have distinct := (inv.sound kind).distinct
      rw [List.map_append, List.nodup_append] at distinct
      have rollback := ReqPool.rollback_split split distinct.1
      have rest : (ReqPool.rollback req (run.client.pool kind)).queue = before ++ after := by
        rw [rollback, ReqPool.queue_release]
      have moved := Client.linkedCalls_split split rest
      have all : ((run.client.modifyPool kind (ReqPool.rollback req)).linkedCalls ++
          runningCalls frames ++ req.call :: run.released).Perm run.calls := by
        rw [calls, runningCalls_eq]
        exact List.perm_middle.trans ((moved.symm.append_right _).append_right _)
      refine ⟨fun other => ?_, all.nodup_iff.mpr inv.nodup, ?_, inv.startedNodup, ?_, ?_, ?_, others⟩
      · by_cases same : other = kind
        · subst same
          rw [Client.pool_modifyPool_self, rest, rollback]
          have sound := inv.sound other
          rw [running_eq, split, List.append_assoc, List.cons_append] at sound
          refine ((sound.perm List.perm_middle).withQueue (before ++ after)).release.perm ?_
          rw [List.append_assoc]
        · rw [Client.pool_modifyPool_of_ne _ same]
          exact running_eq other ▸ inv.sound other
      · intro call member
        refine inv.below call (List.mem_append.mpr ?_)
        exact (List.mem_append.mp member).imp all.mem_iff.mp (known call)
      · intro call member
        have started := inv.started call member
        rw [runningCalls_eq] at started
        exact List.perm_middle.mem_iff.mpr (List.mem_cons_of_mem _ started)
      · intro call other member wrong
        have nodup := moved.nodup_iff.mp (List.nodup_append.mp (List.nodup_append.mp inv.nodup).1).1
        rcases List.mem_cons.mp member with same | member
        · obtain ⟨rfl, -⟩ := Prod.mk.inj same
          exact ⟨(List.nodup_cons.mp nodup).1, unstarted, own⟩
        · obtain ⟨unlinked, started, bound⟩ := inv.failed call other member wrong
          exact ⟨fun member => unlinked (moved.mem_iff.mpr (List.mem_cons_of_mem _ member)), started,
            bound⟩
      · intro other entry member
        have frame : PoolFrame.send other entry ∈ run.frames :=
          innermost ▸ List.mem_cons_of_mem _ member
        rcases inv.sending_split (ReqPool.rollback req) split rest frame with linked | started | ⟨rfl, rfl⟩
        · exact .inl linked
        · exact .inr started
        · exact (alone (List.mem_filterMap.mpr ⟨_, member, rfl⟩)).elim

/-- Every step of a client and its transport keeps the invariant. -/
theorem inv_of_step {next : PoolRun} (step : Step run next) (inv : run.Inv) : next.Inv := by
  cases step with
  | state state => exact inv.state state
  | call kind args timeout => exact inv.call kind args timeout
  | sendReturns rc innermost completed => exact inv.sendReturns innermost completed
  | upcall kind key => exact inv.upcall kind key
  | callbackReturns => exact inv.callbackReturns

/-- The invariant holds in every reachable state. -/
theorem inv_of_reachable {handlers : List Nat}
    (reached : Relation.ReflTransGen Step (start handlers) run) : run.Inv := by
  induction reached with
  | refl => exact inv_start handlers
  | tail _ step ih => exact inv_of_step step ih

/-- The discipline of the pools in one state. -/
structure Disciplined (run : PoolRun) : Prop where
  /-- A slot is busy exactly when an entry in it is linked or has its callback running. -/
  busy : ∀ kind index slot, (run.client.pool kind).slots[index]? = some slot →
    (slot.busy = true ↔
      (∃ req ∈ (run.client.pool kind).queue, req.node = .slot index) ∨
      (∃ req, .callback kind req ∈ run.frames ∧ req.node = .slot index))
  /-- The assertion of the allocation holds for every slot it may choose. -/
  idle : ∀ kind, ∀ slot ∈ (run.client.pool kind).slots, slot.busy = false →
    slot.route = none ∧ slot.msg = none
  /-- The callback of a call that returned an error has not run, and its entry is not linked. -/
  failed : ∀ call rc, (call, rc) ∈ run.returned → rc ≠ pcRcOk →
    call ∉ run.started ∧ call ∉ run.client.linkedCalls
  /-- No callback is run twice. -/
  once : run.started.Nodup
  /-- No node is given back twice. -/
  releasedOnce : run.released.Nodup
  /-- A rollback gives back the node of the failed message and takes it out of its
  queue; the other entries keep their places. -/
  rollback : ∀ kind req frames rc, run.frames = .send kind req :: frames →
    req.call ∉ run.started → rc ≠ pcRcOk →
    (∃ before after, (run.client.pool kind).queue = before ++ req :: after ∧
      ((run.sendReturns rc).client.pool kind).queue = before ++ after) ∧
    (∀ other, other ≠ kind → (run.sendReturns rc).client.pool other = run.client.pool other) ∧
    (∀ index, req.node = .slot index →
      ((run.sendReturns rc).client.pool kind).slots[index]? = some .idle) ∧
    (run.sendReturns rc).released = req.call :: run.released
  /-- An upcall with an id that is not pending changes nothing. -/
  unmatched : ∀ kind key, (∀ req ∈ (run.client.pool kind).queue, req.key kind ≠ key) →
    run.upcall kind key = run

/-- Every state that one thread can bring the pools into is disciplined. -/
theorem disciplined_of_reachable {handlers : List Nat}
    (reached : Relation.ReflTransGen Step (start handlers) run) : run.Disciplined := by
  have inv := inv_of_reachable reached
  have releasedNodup := (List.nodup_append.mp inv.nodup).2.1
  refine ⟨?_, fun kind => (inv.sound kind).idle, ?_, inv.startedNodup, releasedNodup, ?_, ?_⟩
  · intro kind index slot found
    have running_iff (req : PendingReq) :
        req ∈ running kind run.frames ↔ .callback kind req ∈ run.frames := by
      refine List.mem_filterMap.trans ⟨?_, fun member => ⟨_, member, by simp⟩⟩
      rintro ⟨frame, member, same⟩
      cases frame with
      | send _ _ => exact absurd same (by simp)
      | callback other target =>
          obtain ⟨rfl, entry⟩ := Option.ite_none_right_eq_some.mp same
          exact Option.some.inj entry ▸ member
    rw [(inv.sound kind).busy index slot found]
    simp only [List.mem_append, or_and_right, exists_or, running_iff]
  · intro call rc member error
    exact ⟨(inv.failed call rc member error).2.1, (inv.failed call rc member error).1⟩
  · intro kind req frames rc innermost unstarted error
    have linked : req ∈ (run.client.pool kind).queue :=
      (inv.sending kind req (innermost ▸ List.mem_cons_self)).resolve_right unstarted
    obtain ⟨before, after, split⟩ := List.append_of_mem linked
    have distinct := (inv.sound kind).distinct
    rw [List.map_append, List.nodup_append] at distinct
    have rollback := ReqPool.rollback_split split distinct.1
    have next : run.sendReturns rc = { run with
        client := run.client.modifyPool kind (ReqPool.rollback req)
        frames
        returned := (req.call, rc) :: run.returned
        released := req.call :: run.released } := by
      simp only [PoolRun.sendReturns, innermost, if_pos error]
    rw [next]
    refine ⟨⟨before, after, split, ?_⟩, fun other ne => Client.pool_modifyPool_of_ne _ ne, ?_, rfl⟩
    · rw [Client.pool_modifyPool_self, rollback, ReqPool.queue_release]
    · intro index slot
      have range := (inv.sound kind).range req (List.mem_append_left _ linked) index slot
      rw [Client.pool_modifyPool_self, rollback, ReqPool.release, slot]
      exact List.getElem?_set_self range
  · intro kind key absent
    rw [PoolRun.upcall, Client.take, ReqPool.take_eq_none absent]

/-- A request that is answered inside `send`. -/
def answeredInside : PoolRun :=
  let connected := { start [] with client := (start []).client.setState .connected }
  let sent := connected.call .request (some (CStr.ofString "route", CStr.ofString "msg")) 5
  ((sent.upcall .request 1).callbackReturns).sendReturns pcRcOk

/-- A request that is answered inside the call that sends it. -/
theorem disciplined_of_reachable_answeredInside : answeredInside.Disciplined := by
  have connected := Relation.ReflTransGen.single (Step.state (start []) .connected)
  have sent := connected.tail
    (.call _ .request (some (CStr.ofString "route", CStr.ofString "msg")) 5)
  have answered := (sent.tail (.upcall _ .request 1)).tail (.callbackReturns _)
  exact disciplined_of_reachable (answered.tail (.sendReturns _ pcRcOk rfl fun _ => rfl))

end PoolRun

end Pomelo
