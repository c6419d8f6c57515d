import Pomelo.Client.State
import Pomelo.Linked.Ring
import Pomelo.Threads.Mutex
import Pomelo.Transition.Recorded

/-!
# The threads at the notify queue

Any number of threads in `pc_notify_with_timeout` and one in `pc__trans_sent`, with each
operation of a mutex and each access of a slot or a link a step of its own. The first take
`req_mutex` and the other `notify_mutex`, so nothing but the schedule keeps their sections
apart.
-/

namespace Pomelo

open Linked Threads Transition Recorded

/-- The address of a link: the head `notify_queue`, or the link of a notify. -/
abbrev NotifyLink : Type := Option ReqNode

/-- What the sections read and change: the busy bits of `notifies`, the links, and the
numbers of the notifies. `blocks` counts the blocks of the heap, and `entered` is a record of
the links at the last lock. -/
structure NotifyData where
  busy : List Bool
  links : Links NotifyLink
  seqNums : ReqNode → Nat
  seqNum : Nat
  blocks : Nat
  entered : Links NotifyLink

namespace NotifyData

def assign (assign : Assign NotifyLink) (data : NotifyData) : NotifyData :=
  { data with links := data.links.exec assign }

def setBusy (index : Nat) (busy : Bool) (data : NotifyData) : NotifyData :=
  { data with busy := data.busy.set index busy }

def enter (data : NotifyData) : NotifyData := { data with entered := data.links }

end NotifyData

/-- The assignments of `QUEUE_INIT` and `QUEUE_INSERT_TAIL`. -/
def linkAssigns (node : ReqNode) : List (Assign NotifyLink) :=
  init (some node) ++ insertTail none (some node)

/-- The assignments of `QUEUE_REMOVE` and `QUEUE_INIT`. -/
def unlinkAssigns (node : ReqNode) : List (Assign NotifyLink) :=
  remove (some node) ++ init (some node)

/-- Where a thread is in `pc_notify_with_timeout`: behind the checks, before the access that
it makes next. -/
inductive NotifyPc where
  | idle
  | locking
  | scanning (index : Nat)
  | taking (index : Nat)
  | linking (node : ReqNode) (rest : List (Assign NotifyLink))
  | numbering (node : ReqNode)
  | unlocking (node : ReqNode)
  | sending (node : ReqNode)
  | relocking (node : ReqNode)
  | unlinking (node : ReqNode) (rest : List (Assign NotifyLink))
  | releasing (node : ReqNode)
  | reunlocking
  deriving DecidableEq

namespace NotifyPc

def locks : NotifyPc → Bool
  | locking | relocking _ => true
  | _ => false

def unlocks : NotifyPc → Bool
  | unlocking _ | reunlocking => true
  | _ => false

/-- Between a lock and its unlock. -/
def inside : NotifyPc → Bool
  | idle | locking | sending _ | relocking _ => false
  | _ => true

/-- The next step of `pc_notify_with_timeout`, beside what it does to the mutex. `rc` is what
`trans->send` returns. -/
def next (rc : Int) (data : NotifyData) : NotifyPc → NotifyPc × NotifyData
  | idle => (locking, data)
  | locking => (scanning 0, data)
  | scanning index =>
      match data.busy[index]? with
      | none =>
          (linking (.heap data.blocks) (linkAssigns (.heap data.blocks)),
            { data with blocks := data.blocks + 1 })
      | some true => (scanning (index + 1), data)
      | some false => (taking index, data)
  | taking index => (linking (.slot index) (linkAssigns (.slot index)), data.setBusy index true)
  | linking node (assign :: rest) => (linking node rest, data.assign assign)
  | linking node [] => (numbering node, data)
  | numbering node =>
      (unlocking node, { data with
        seqNums := Function.update data.seqNums node data.seqNum
        seqNum := (data.seqNum + 1) % 2 ^ 32 })
  | unlocking node => (sending node, data)
  | sending node => if rc ≠ pcRcOk then (relocking node, data) else (idle, data)
  | relocking node => (unlinking node (unlinkAssigns node), data)
  | unlinking node (assign :: rest) => (unlinking node rest, data.assign assign)
  | unlinking node [] => (releasing node, data)
  | releasing (.slot index) => (reunlocking, data.setBusy index false)
  | releasing (.heap _) => (reunlocking, data)
  | reunlocking => (idle, data)

end NotifyPc

/-- Where the thread is in `pc__trans_sent`. -/
inductive SentPc where
  | idle
  | locking (seqNum : Nat)
  | entering (seqNum : Nat)
  | walking (seqNum : Nat) (q : NotifyLink)
  | unlinking (node : ReqNode) (rest : List (Assign NotifyLink))
  | unlocking (target : Option ReqNode)
  | calling (node : ReqNode)
  | relocking (index : Nat)
  | releasing (index : Nat)
  | reunlocking
  deriving DecidableEq

namespace SentPc

def locks : SentPc → Bool
  | locking _ | relocking _ => true
  | _ => false

def unlocks : SentPc → Bool
  | unlocking _ | reunlocking => true
  | _ => false

/-- Between a lock and its unlock. -/
def inside : SentPc → Bool
  | idle | locking _ | calling _ | relocking _ => false
  | _ => true

/-- The next step of `pc__trans_sent`, beside what it does to the mutex. The transport calls
it with any `seqNum`. -/
def next (seqNum : Nat) (data : NotifyData) : SentPc → SentPc × NotifyData
  | idle => (locking seqNum, data)
  | locking seqNum => (entering seqNum, data)
  | entering seqNum => (walking seqNum (data.links.next none), data)
  | walking _ none => (unlocking none, data)
  | walking seqNum (some node) =>
      if data.seqNums node = seqNum then (unlinking node (unlinkAssigns node), data)
      else (walking seqNum (data.links.next (some node)), data)
  | unlinking node (assign :: rest) => (unlinking node rest, data.assign assign)
  | unlinking node [] => (unlocking (some node), data)
  | unlocking none => (idle, data)
  | unlocking (some node) => (calling node, data)
  | calling (.slot index) => (relocking index, data)
  | calling (.heap _) => (idle, data)
  | relocking index => (releasing index, data)
  | releasing index => (reunlocking, data.setBusy index false)
  | reunlocking => (idle, data)

end SentPc

/-- A client with its threads: those of the user, and `none` for the one of the transport. -/
structure NotifyThreads (ι : Type) where
  reqMutex : Mutex (Option ι)
  notifyMutex : Mutex (Option ι)
  data : NotifyData
  notifying : ι → NotifyPc
  sent : SentPc

/-- The locks, which are noted. -/
inductive NotifyLock where
  | req
  | notify
  deriving DecidableEq

namespace NotifyThreads

variable {ι : Type}

abbrev Run (ι : Type) := Recorded (NotifyThreads ι) NotifyLock

/-- Between the lock and the unlock of a section. -/
def Inside (threads : NotifyThreads ι) : Option ι → Prop
  | some thread => (threads.notifying thread).inside
  | none => threads.sent.inside

/-- Nobody is in a call. -/
def start (data : NotifyData) : Run ι where
  state := { reqMutex := none, notifyMutex := none, data, notifying := fun _ => .idle, sent := .idle }
  notes := []

section Steps

variable [DecidableEq ι]

/-- A step of a thread in `pc_notify_with_timeout`, unless it has to wait. -/
def notifyStep (thread : ι) (rc : Int) (run : Run ι) : Option (Run ι) :=
  let pc := run.state.notifying thread
  let next := pc.next rc run.state.data
  let notifying := Function.update run.state.notifying thread next.1
  if pc.locks then
    (run.state.reqMutex.lock (some thread)).map fun mutex =>
      (run.note .req).change fun threads =>
        { threads with reqMutex := mutex, data := next.2.enter, notifying }
  else if pc.unlocks then
    some (run.change fun threads =>
      { threads with reqMutex := threads.reqMutex.unlock (some thread), data := next.2, notifying })
  else some (run.change fun threads => { threads with data := next.2, notifying })

/-- A step of the thread in `pc__trans_sent`, unless it has to wait. -/
def sentStep (seqNum : Nat) (run : Run ι) : Option (Run ι) :=
  let pc := run.state.sent
  let next := pc.next seqNum run.state.data
  if pc.locks then
    (run.state.notifyMutex.lock none).map fun mutex =>
      (run.note .notify).change fun threads =>
        { threads with notifyMutex := mutex, data := next.2.enter, sent := next.1 }
  else if pc.unlocks then
    some (run.change fun threads =>
      { threads with
        notifyMutex := threads.notifyMutex.unlock none
        data := next.2
        sent := next.1 })
  else some (run.change fun threads => { threads with data := next.2, sent := next.1 })

/-- One step of one thread. -/
inductive Step (first second : Run ι) : Prop where
  | notify (thread : ι) (rc : Int) (stepped : notifyStep thread rc first = some second)
  | sent (seqNum : Nat) (stepped : sentStep seqNum first = some second)

/-- What any interleaving can lead to, from any content of the client. -/
def Reachable (run : Run ι) : Prop := ∃ data, Relation.ReflTransGen Step (start data) run

end Steps

/-- The queue has one lock, in effect: one thread is inside a section at most; a slot is idle
when it is handed out; and what a section makes of the links, it makes of the links that it
has found, so that an insertion adds its notify to those that were there, and a removal takes
its notify out and no other. -/
structure OneLock (threads : NotifyThreads ι) : Prop where
  exclusive : ∀ first second, threads.Inside first → threads.Inside second → first = second
  slot : ∀ thread index, threads.notifying thread = .taking index →
    threads.data.busy[index]? = some false
  inserted : ∀ thread node, threads.notifying thread = .unlocking node →
    ∀ items, threads.data.entered.Ring none (items.map some) → node ∉ items →
      threads.data.links.Ring none ((items ++ [node]).map some)
  rolledBack : ∀ thread node, threads.notifying thread = .releasing node →
    ∀ before after, threads.data.entered.Ring none ((before ++ node :: after).map some) →
      threads.data.links.Ring none ((before ++ after).map some)
  taken : ∀ node, threads.sent = .unlocking (some node) →
    ∀ before after, threads.data.entered.Ring none ((before ++ node :: after).map some) →
      threads.data.links.Ring none ((before ++ after).map some)

/-- A mutex is locked only while the other one is free. -/
def Apart (lock : NotifyLock) (threads : NotifyThreads ι) : Prop :=
  match lock with
  | .req => threads.notifyMutex = none
  | .notify => threads.reqMutex = none

instance [DecidableEq ι] (lock : NotifyLock) (threads : NotifyThreads ι) :
    Decidable (Apart lock threads) :=
  match lock with
  | .req => inferInstanceAs (Decidable (threads.notifyMutex = none))
  | .notify => inferInstanceAs (Decidable (threads.reqMutex = none))

end NotifyThreads

/-- The links are those that were found, after some of the assignments of the section. -/
def NotifyData.Done (data : NotifyData) (assigns : List (Assign NotifyLink)) : Prop :=
  data.links = data.entered.run assigns

/-- Some of the assignments are left. -/
def NotifyData.Under (data : NotifyData) (assigns rest : List (Assign NotifyLink)) : Prop :=
  ∃ done, done ++ rest = assigns ∧ data.Done done

/-- Behind the lock nothing has been assigned yet. -/
theorem NotifyData.under_enter (data : NotifyData) (assigns : List (Assign NotifyLink)) :
    data.enter.Under assigns assigns :=
  ⟨[], rfl, rfl⟩

/-- One assignment more is one less to come. -/
theorem NotifyData.Under.assign {data : NotifyData} {assigns rest : List (Assign NotifyLink)}
    {next : Assign NotifyLink} (under : data.Under assigns (next :: rest)) :
    (data.assign next).Under assigns rest := by
  obtain ⟨done, split, links⟩ := under
  refine ⟨done ++ [next], by rw [← split, List.append_assoc, List.singleton_append], ?_⟩
  have linked : (data.assign next).links = data.links.exec next := rfl
  rw [Done, linked, links, Links.run, Links.run, List.foldl_append]
  rfl

/-- Where no assignment is left the operation is done. -/
theorem NotifyData.Under.done {data : NotifyData} {assigns : List (Assign NotifyLink)}
    (under : data.Under assigns []) : data.Done assigns := by
  obtain ⟨done, split, links⟩ := under
  rwa [← split, List.append_nil]

namespace NotifyPc

/-- What a thread knows where it is. -/
def Sound (data : NotifyData) : NotifyPc → Prop
  | scanning _ => data.Done []
  | taking index => data.Done [] ∧ data.busy[index]? = some false
  | linking node rest => data.Under (linkAssigns node) rest
  | numbering node | unlocking node => data.Done (linkAssigns node)
  | unlinking node rest => data.Under (unlinkAssigns node) rest
  | releasing node => data.Done (unlinkAssigns node)
  | idle | locking | sending _ | relocking _ | reunlocking => True

variable {pc : NotifyPc} {data : NotifyData} {rc : Int}

/-- Outside of the lock a thread promises nothing about the links. -/
theorem sound_of_outside (outside : pc.inside = false) : pc.Sound data := by
  cases pc <;> trivial

/-- Only a thread that holds the mutex unlocks it. -/
theorem inside_of_unlocks (unlocks : pc.unlocks) : pc.inside := by
  cases pc <;> first | rfl | exact absurd unlocks nofun

/-- Only a thread that does not hold the mutex locks it. -/
theorem outside_of_locks (locks : pc.locks) : pc.inside = false := by
  cases pc <;> first | rfl | exact absurd locks nofun

/-- A lock is left inside, and a step inside stays there. -/
theorem inside_next (data : NotifyData) (rc : Int) (unlocks : pc.unlocks = false) :
    (pc.next rc data).1.inside = (pc.inside || pc.locks) := by
  cases pc with
  | scanning index =>
      rw [next]
      split <;> rfl
  | sending node =>
      rw [next]
      split <;> rfl
  | linking node rest => cases rest <;> rfl
  | unlinking node rest => cases rest <;> rfl
  | releasing node => cases node <;> rfl
  | unlocking node => exact absurd unlocks nofun
  | reunlocking => exact absurd unlocks nofun
  | _ => rfl

/-- The unlocking step is the last one inside, and changes nothing. -/
theorem outside_next (data : NotifyData) (rc : Int) (unlocks : pc.unlocks) :
    (pc.next rc data).1.inside = false ∧ (pc.next rc data).2 = data := by
  cases pc <;> first | exact ⟨rfl, rfl⟩ | exact absurd unlocks nofun

/-- Outside of the sections nothing is changed. -/
theorem data_next (data : NotifyData) (rc : Int) (outside : pc.inside = false) :
    (pc.next rc data).2 = data := by
  cases pc with
  | sending node =>
      rw [next]
      split <;> rfl
  | idle | locking | relocking => rfl
  | _ => exact absurd outside nofun

/-- The step that locks begins the operation on the list. -/
theorem sound_lock (data : NotifyData) (rc : Int) (locks : pc.locks) :
    (pc.next rc data).1.Sound (pc.next rc data).2.enter := by
  cases pc with
  | locking => exact rfl
  | relocking node => exact data.under_enter _
  | _ => exact absurd locks nofun

/-- Under the lock every step keeps what the counter promises. -/
theorem Sound.next (sound : pc.Sound data) (rc : Int) (locks : pc.locks = false) :
    (pc.next rc data).1.Sound (pc.next rc data).2 := by
  cases pc with
  | idle => trivial
  | locking => exact absurd locks nofun
  | scanning index =>
      rw [NotifyPc.next]
      split
      · exact ⟨[], rfl, sound⟩
      · exact sound
      next idle => exact ⟨sound, idle⟩
  | taking index => exact ⟨[], rfl, sound.1⟩
  | linking node rest =>
      cases rest with
      | nil => exact NotifyData.Under.done sound
      | cons assign rest => exact NotifyData.Under.assign sound
  | numbering node => exact sound
  | unlocking node => trivial
  | sending node =>
      rw [NotifyPc.next]
      split <;> trivial
  | relocking node => exact absurd locks nofun
  | unlinking node rest =>
      cases rest with
      | nil => exact NotifyData.Under.done sound
      | cons assign rest => exact NotifyData.Under.assign sound
  | releasing node => cases node <;> trivial
  | reunlocking => trivial

end NotifyPc

namespace SentPc

/-- What the thread knows where it is. -/
def Sound (data : NotifyData) : SentPc → Prop
  | entering _ | walking _ _ => data.Done []
  | unlinking node rest => data.Under (unlinkAssigns node) rest
  | unlocking (some node) => data.Done (unlinkAssigns node)
  | idle | locking _ | unlocking none | calling _ | relocking _ | releasing _ | reunlocking => True

variable {pc : SentPc} {data : NotifyData} {seqNum : Nat}

/-- Outside of the lock the transport promises nothing about the links. -/
theorem sound_of_outside (outside : pc.inside = false) : pc.Sound data := by
  cases pc <;> trivial

theorem inside_of_unlocks (unlocks : pc.unlocks) : pc.inside := by
  cases pc <;> first | rfl | exact absurd unlocks nofun

theorem outside_of_locks (locks : pc.locks) : pc.inside = false := by
  cases pc <;> first | rfl | exact absurd locks nofun

/-- The transport is inside from the lock on and up to the unlock. -/
theorem inside_next (data : NotifyData) (seqNum : Nat) (unlocks : pc.unlocks = false) :
    (pc.next seqNum data).1.inside = (pc.inside || pc.locks) := by
  cases pc with
  | walking wanted q =>
      cases q with
      | none => rfl
      | some node =>
          rw [next]
          split <;> rfl
  | unlinking node rest => cases rest <;> rfl
  | calling node => cases node <;> rfl
  | unlocking target => exact absurd unlocks nofun
  | reunlocking => exact absurd unlocks nofun
  | _ => rfl

/-- Its unlocking step is the last one inside, and changes nothing. -/
theorem outside_next (data : NotifyData) (seqNum : Nat) (unlocks : pc.unlocks) :
    (pc.next seqNum data).1.inside = false ∧ (pc.next seqNum data).2 = data := by
  cases pc with
  | unlocking target => cases target <;> exact ⟨rfl, rfl⟩
  | reunlocking => exact ⟨rfl, rfl⟩
  | _ => exact absurd unlocks nofun

/-- Outside of its mutex the transport changes nothing. -/
theorem data_next (data : NotifyData) (seqNum : Nat) (outside : pc.inside = false) :
    (pc.next seqNum data).2 = data := by
  cases pc with
  | calling node => cases node <;> rfl
  | idle | locking | relocking => rfl
  | _ => exact absurd outside nofun

/-- The step that locks begins the unlinking. -/
theorem sound_lock (data : NotifyData) (seqNum : Nat) (locks : pc.locks) :
    (pc.next seqNum data).1.Sound (pc.next seqNum data).2.enter := by
  cases pc with
  | locking wanted => exact rfl
  | relocking index => trivial
  | _ => exact absurd locks nofun

/-- Under the lock every step of the transport keeps what its counter promises. -/
theorem Sound.next (sound : pc.Sound data) (seqNum : Nat) (locks : pc.locks = false) :
    (pc.next seqNum data).1.Sound (pc.next seqNum data).2 := by
  cases pc with
  | idle => trivial
  | locking wanted => exact absurd locks nofun
  | entering wanted => exact sound
  | walking wanted q =>
      cases q with
      | none => trivial
      | some node =>
          rw [SentPc.next]
          split
          · exact ⟨[], rfl, sound⟩
          · exact sound
  | unlinking node rest =>
      cases rest with
      | nil => exact NotifyData.Under.done sound
      | cons assign rest => exact NotifyData.Under.assign sound
  | unlocking target => cases target <;> trivial
  | calling node => cases node <;> trivial
  | relocking index => exact absurd locks nofun
  | releasing index => trivial
  | reunlocking => trivial

end SentPc

namespace NotifyThreads

variable {ι : Type}

/-- What every step keeps while the mutexes are not held at one time. -/
structure Inv (threads : NotifyThreads ι) : Prop where
  req : threads.reqMutex.Guarded fun thread =>
    ∃ user, thread = some user ∧ (threads.notifying user).inside
  notify : threads.notifyMutex.Guarded fun thread => thread = none ∧ threads.sent.inside
  apart : threads.reqMutex = none ∨ threads.notifyMutex = none
  notifying : ∀ user, (threads.notifying user).Sound threads.data
  sent : threads.sent.Sound threads.data

variable {threads : NotifyThreads ι}

/-- At most one thread is inside, whichever mutex it took. -/
theorem Inv.exclusive (inv : threads.Inv) {first second : Option ι} (left : threads.Inside first)
    (right : threads.Inside second) : first = second := by
  have clash {user : ι} (notifying : (threads.notifying user).inside) (sent : threads.sent.inside) :
      False :=
    inv.apart.elim (inv.req.held ⟨user, rfl, notifying⟩) (inv.notify.held ⟨rfl, sent⟩)
  match first, second, left, right with
  | none, none, _, _ => rfl
  | some first, some second, left, right =>
      exact inv.req.unique ⟨first, rfl, left⟩ ⟨second, rfl, right⟩
  | some first, none, left, right => exact (clash left right).elim
  | none, some second, left, right => exact (clash right left).elim

theorem Inv.outside (inv : threads.Inv) {first second : Option ι} (inside : threads.Inside first)
    (other : second ≠ first) : ¬ threads.Inside second :=
  fun entered => other (inv.exclusive entered inside)

theorem inv_start (data : NotifyData) : (start (ι := ι) data).state.Inv where
  req := fun _ ⟨_, _, inside⟩ => Bool.false_ne_true inside
  notify := fun _ both => Bool.false_ne_true both.2
  apart := .inl rfl
  notifying := fun _ => trivial
  sent := trivial

section Steps

variable [DecidableEq ι] {first second : Run ι}

/-- Who is inside when one thread has gone on. -/
theorem inside_update (notifying : ι → NotifyPc) (thread : ι) (pc : NotifyPc) (other : Option ι) :
    (∃ user, other = some user ∧ (Function.update notifying thread pc user).inside) ↔
      if other = some thread then pc.inside = true
      else ∃ user, other = some user ∧ (notifying user).inside := by
  split
  next same =>
    subst same
    refine ⟨fun ⟨user, own, inside⟩ => ?_, fun inside => ⟨thread, rfl, ?_⟩⟩
    · cases Option.some.inj own
      rwa [Function.update_self] at inside
    · rwa [Function.update_self]
  next different =>
    refine exists_congr fun user => and_congr_right fun own => ?_
    rw [Function.update_of_ne fun same => different (own.trans (congrArg some same))]

omit [DecidableEq ι] in
theorem absent_of_outside {thread : ι} (outside : (threads.notifying thread).inside = false) :
    ¬ ∃ user, some thread = some user ∧ (threads.notifying user).inside = true := by
  rintro ⟨user, same, inside⟩
  cases Option.some.inj same
  exact absurd (outside.symm.trans inside) Bool.false_ne_true

/-- A thread enters a section of `pc_notify_with_timeout`. -/
theorem Inv.lockReq (inv : threads.Inv) (apart : threads.notifyMutex = none) {thread : ι}
    {mutex : Mutex (Option ι)} (locks : (threads.notifying thread).locks)
    (locked : threads.reqMutex.lock (some thread) = some mutex) (rc : Int) :
    Inv { threads with
      reqMutex := mutex
      data := ((threads.notifying thread).next rc threads.data).2.enter
      notifying := Function.update threads.notifying thread
        ((threads.notifying thread).next rc threads.data).1 } := by
  have outside := NotifyPc.outside_of_locks locks
  have absent := absent_of_outside outside
  have free := (inv.req.free_of_lock absent locked).1
  have entered := NotifyPc.inside_next threads.data rc (Bool.eq_false_iff.mpr fun unlocks =>
    absurd (outside.symm.trans (NotifyPc.inside_of_unlocks unlocks)) Bool.false_ne_true)
  rw [outside, locks] at entered
  have req := inv.req
  have notify := inv.notify
  rw [free] at req
  rw [apart] at notify
  refine ⟨inv.req.lock absent locked fun other => (inside_update ..).trans ?_, inv.notify,
    .inr apart, (Function.forall_update_iff _ fun _ (pc : NotifyPc) => pc.Sound _).mpr ⟨?_, fun user _ => ?_⟩, ?_⟩
  · split
    next same => exact iff_of_true entered (.inr same)
    next different => exact (or_iff_left different).symm
  · exact NotifyPc.sound_lock threads.data rc locks
  · exact NotifyPc.sound_of_outside (Bool.eq_false_iff.mpr fun inside =>
      req (some user) ⟨user, rfl, inside⟩)
  · exact SentPc.sound_of_outside (Bool.eq_false_iff.mpr fun inside => notify none ⟨rfl, inside⟩)

/-- It leaves the section. -/
theorem Inv.unlockReq (inv : threads.Inv) {thread : ι}
    (unlocks : (threads.notifying thread).unlocks) (rc : Int) :
    Inv { threads with
      reqMutex := threads.reqMutex.unlock (some thread)
      data := ((threads.notifying thread).next rc threads.data).2
      notifying := Function.update threads.notifying thread
        ((threads.notifying thread).next rc threads.data).1 } := by
  have inside := NotifyPc.inside_of_unlocks unlocks
  obtain ⟨left, same⟩ := NotifyPc.outside_next threads.data rc unlocks
  have held : ∃ user, some thread = some user ∧ (threads.notifying user).inside = true :=
    ⟨thread, rfl, inside⟩
  have apart := inv.apart.resolve_left (inv.req.held held)
  rw [same]
  refine ⟨inv.req.unlock held fun other => (inside_update ..).trans ?_, inv.notify, .inr apart,
    (Function.forall_update_iff _ fun _ (pc : NotifyPc) => pc.Sound _).mpr
      ⟨NotifyPc.sound_of_outside left, fun user _ => inv.notifying user⟩, inv.sent⟩
  split
  next own => exact iff_of_false (by rw [left]; exact Bool.false_ne_true) fun both => both.2 own
  next different => exact (and_iff_left different).symm

/-- It makes a step inside or outside. -/
theorem Inv.stepReq (inv : threads.Inv) {thread : ι}
    (locks : (threads.notifying thread).locks = false)
    (unlocks : (threads.notifying thread).unlocks = false) (rc : Int) :
    Inv { threads with
      data := ((threads.notifying thread).next rc threads.data).2
      notifying := Function.update threads.notifying thread
        ((threads.notifying thread).next rc threads.data).1 } := by
  have stays := NotifyPc.inside_next threads.data rc unlocks
  rw [locks, Bool.or_false] at stays
  have sound := (inv.notifying thread).next rc locks
  have others : (∀ user, user ≠ thread →
      (threads.notifying user).Sound ((threads.notifying thread).next rc threads.data).2) ∧
        threads.sent.Sound ((threads.notifying thread).next rc threads.data).2 := by
    cases inside : (threads.notifying thread).inside with
    | false =>
        rw [NotifyPc.data_next threads.data rc inside]
        exact ⟨fun user _ => inv.notifying user, inv.sent⟩
    | true =>
        have alone {other : Option ι} (different : other ≠ some thread) : ¬ threads.Inside other :=
          @Inv.outside _ _ inv (some thread) _ inside different
        refine ⟨fun user other => NotifyPc.sound_of_outside ?_, SentPc.sound_of_outside ?_⟩
        · exact Bool.eq_false_iff.mpr (alone fun same => other (Option.some.inj same))
        · have quiet : ¬ threads.Inside none := alone nofun
          exact Bool.eq_false_iff.mpr quiet
  refine ⟨inv.req.same fun other => (inside_update ..).trans ?_, inv.notify, inv.apart,
    (Function.forall_update_iff _ fun _ (pc : NotifyPc) => pc.Sound _).mpr ⟨sound, others.1⟩, others.2⟩
  split
  next own =>
    subst own
    rw [stays]
    exact ⟨fun inside => ⟨thread, rfl, inside⟩, fun ⟨user, same, inside⟩ => by
      cases Option.some.inj same
      exact inside⟩
  · rfl

/-- A step of a thread in `pc_notify_with_timeout`. -/
theorem keeps_notifyStep {thread : ι} {rc : Int} (stepped : notifyStep thread rc first = some second) :
    Keeps Apart (fun run : Run ι => run.state.Inv) first second := by
  rw [notifyStep] at stepped
  split at stepped
  next locks =>
    cases locked : first.state.reqMutex.lock (some thread) with
    | none =>
        rw [locked] at stepped
        exact absurd stepped nofun
    | some mutex =>
        rw [locked] at stepped
        cases Option.some.inj stepped
        exact ⟨List.suffix_cons _ _, fun meets inv =>
          inv.lockReq (meets_note.mp meets).1 locks locked rc⟩
  next free =>
    have locks := Bool.eq_false_iff.mpr free
    split at stepped
    next unlocks =>
      cases Option.some.inj stepped
      exact Leads.change fun _ inv => inv.unlockReq unlocks rc
    next stays =>
      cases Option.some.inj stepped
      exact Leads.change fun _ inv => inv.stepReq locks (Bool.eq_false_iff.mpr stays) rc

/-- The thread enters a section of `pc__trans_sent`. -/
theorem Inv.lockNotify (inv : threads.Inv) (apart : threads.reqMutex = none)
    {mutex : Mutex (Option ι)} (locks : threads.sent.locks)
    (locked : threads.notifyMutex.lock none = some mutex) (seqNum : Nat) :
    Inv { threads with
      notifyMutex := mutex
      data := (threads.sent.next seqNum threads.data).2.enter
      sent := (threads.sent.next seqNum threads.data).1 } := by
  have outside := SentPc.outside_of_locks locks
  have absent : ¬ ((none : Option ι) = none ∧ threads.sent.inside = true) :=
    fun both => absurd (outside.symm.trans both.2) Bool.false_ne_true
  have entered := SentPc.inside_next threads.data seqNum (Bool.eq_false_iff.mpr fun unlocks =>
    absurd (outside.symm.trans (SentPc.inside_of_unlocks unlocks)) Bool.false_ne_true)
  rw [outside, locks] at entered
  have req := inv.req
  rw [apart] at req
  refine ⟨inv.req, inv.notify.lock absent locked fun other => ?_, .inl apart, fun user => ?_, ?_⟩
  · exact ⟨fun both => .inr both.1, fun either => either.elim
      (fun both => absurd (outside.symm.trans both.2) Bool.false_ne_true) fun own => ⟨own, entered⟩⟩
  · exact NotifyPc.sound_of_outside (Bool.eq_false_iff.mpr fun inside =>
      req (some user) ⟨user, rfl, inside⟩)
  · exact SentPc.sound_lock threads.data seqNum locks

/-- The transport unlocks, and nobody is inside. -/
theorem Inv.unlockNotify (inv : threads.Inv) (unlocks : threads.sent.unlocks) (seqNum : Nat) :
    Inv { threads with
      notifyMutex := threads.notifyMutex.unlock none
      data := (threads.sent.next seqNum threads.data).2
      sent := (threads.sent.next seqNum threads.data).1 } := by
  have inside := SentPc.inside_of_unlocks unlocks
  obtain ⟨left, same⟩ := SentPc.outside_next threads.data seqNum unlocks
  have apart := inv.apart.resolve_right (inv.notify.held ⟨rfl, inside⟩)
  rw [same]
  refine ⟨inv.req, @Mutex.Guarded.unlock _ _ _ _ _ none inv.notify ⟨rfl, inside⟩ fun other => ?_, .inl apart,
    inv.notifying, SentPc.sound_of_outside left⟩
  exact iff_of_false (fun both => absurd (left.symm.trans both.2) Bool.false_ne_true)
    fun both => both.2 both.1.1

omit [DecidableEq ι] in

/-- Inside or outside, a step of the transport that takes no lock keeps the invariant. -/
theorem Inv.stepNotify (inv : threads.Inv) (locks : threads.sent.locks = false)
    (unlocks : threads.sent.unlocks = false) (seqNum : Nat) :
    Inv { threads with
      data := (threads.sent.next seqNum threads.data).2
      sent := (threads.sent.next seqNum threads.data).1 } := by
  have stays := SentPc.inside_next threads.data seqNum unlocks
  rw [locks, Bool.or_false] at stays
  refine ⟨inv.req, inv.notify.same fun other => ?_, inv.apart, fun user => ?_,
    inv.sent.next seqNum locks⟩
  · rw [stays]
  · cases inside : threads.sent.inside with
    | false =>
        have same := SentPc.data_next threads.data seqNum inside
        rw [same]
        exact inv.notifying user
    | true =>
        exact NotifyPc.sound_of_outside (Bool.eq_false_iff.mpr
          (@Inv.outside _ _ inv none (some user) inside nofun))

/-- A step of the thread in `pc__trans_sent`. -/
theorem keeps_sentStep {seqNum : Nat} (stepped : sentStep seqNum first = some second) :
    Keeps Apart (fun run : Run ι => run.state.Inv) first second := by
  rw [sentStep] at stepped
  split at stepped
  next locks =>
    cases locked : first.state.notifyMutex.lock none with
    | none =>
        rw [locked] at stepped
        exact absurd stepped nofun
    | some mutex =>
        rw [locked] at stepped
        cases Option.some.inj stepped
        exact ⟨List.suffix_cons _ _, fun meets inv =>
          inv.lockNotify (meets_note.mp meets).1 locks locked seqNum⟩
  next free =>
    have locks := Bool.eq_false_iff.mpr free
    split at stepped
    next unlocks =>
      cases Option.some.inj stepped
      exact Leads.change fun _ inv => inv.unlockNotify unlocks seqNum
    next stays =>
      cases Option.some.inj stepped
      exact Leads.change fun _ inv => inv.stepNotify locks (Bool.eq_false_iff.mpr stays) seqNum

/-- The invariant holds in every state of a run that locks as one mutex would have it. -/
theorem inv_of_reachable {run : Run ι} (reached : Reachable run) (meets : run.Meets Apart) :
    run.state.Inv := by
  obtain ⟨data, reached⟩ := reached
  refine @holds_of_reachable _ _ Apart Step (fun run => run.state.Inv) (start data) (inv_start data)
    (fun step => ?_) run reached meets
  cases step with
  | notify thread rc stepped => exact keeps_notifyStep stepped
  | sent seqNum stepped => exact keeps_sentStep stepped

end Steps

/-- A whole insertion. -/
theorem ring_of_linked {data : NotifyData} {node : ReqNode} {items : List ReqNode}
    (linked : data.Done (linkAssigns node)) (ring : data.entered.Ring none (items.map some))
    (absent : node ∉ items) : data.links.Ring none ((items ++ [node]).map some) := by
  have fresh : some node ∉ none :: items.map some := by simpa using absent
  rw [linked, linkAssigns, Links.run_append, List.map_append]
  exact (ring.init fresh).insertTail fresh

/-- A whole removal. -/
theorem ring_of_unlinked {data : NotifyData} {node : ReqNode} {before after : List ReqNode}
    (unlinked : data.Done (unlinkAssigns node))
    (ring : data.entered.Ring none ((before ++ node :: after).map some)) :
    data.links.Ring none ((before ++ after).map some) := by
  rw [List.map_append, List.map_cons] at ring
  have fresh : some node ∉ none :: (before.map some ++ after.map some) := by
    have gone := (List.nodup_cons.mp (List.nodup_middle.mp (List.nodup_cons.mp ring.nodup).2)).1
    exact fun member => gone ((List.mem_cons.mp member).resolve_left nofun)
  rw [unlinked, unlinkAssigns, Links.run_append, List.map_append]
  exact ring.remove.init fresh

variable [DecidableEq ι]

/-- The notify queue has one lock, in effect, in every run in which `req_mutex` and
`notify_mutex` are locked only while the other one is free. -/
theorem oneLock_of_reachable {run : Run ι} (reached : Reachable run) (meets : run.Meets Apart) :
    run.state.OneLock := by
  have inv := inv_of_reachable reached meets
  refine ⟨fun _ _ => inv.exclusive, fun thread index taking => ?_, fun thread node linked => ?_,
    fun thread node unlinked => ?_, fun node unlinked => ?_⟩
  · have sound := inv.notifying thread
    rw [taking] at sound
    exact sound.2
  · have sound := inv.notifying thread
    rw [linked] at sound
    exact fun items => ring_of_linked sound
  · have sound := inv.notifying thread
    rw [unlinked] at sound
    exact fun before after => ring_of_unlinked sound
  · have sound := inv.sent
    rw [unlinked] at sound
    exact fun before after => ring_of_unlinked sound

/-- The client after `pc_client_init`. -/
def sampleData : NotifyData where
  busy := List.replicate pcPreAllocNotifySlotCount false
  links := (Links.mk id id).run (init none)
  seqNums := fun _ => 0
  seqNum := 0
  blocks := 0
  entered := (Links.mk id id).run (init none)

/-- A step of the one notifying thread, or of the thread of the transport. -/
def sampleStep (run : Run Unit) (user : Bool) : Option (Run Unit) :=
  if user then notifyStep () 0 run else sentStep 0 run

/-- The turns of a run of the sample can be taken, and end in a state. -/
def SampleEnds (turns : List Bool) (run : Run Unit) : Prop :=
  turns.foldlM sampleStep (start sampleData) = some run

theorem SampleEnds.reachable {turns : List Bool} {run : Run Unit} (ends : SampleEnds turns run) :
    Reachable run := by
  refine ⟨sampleData, reflTransGen_of_foldlM (fun {first user second} stepped => ?_) ends⟩
  rw [sampleStep] at stepped
  split at stepped
  · exact .notify () 0 stepped
  · exact .sent 0 stepped

/-- What is evaluated at the end of a run of the sample. -/
theorem exists_sampleEnds (turns : List Bool) (check : Run Unit → Prop) [DecidablePred check]
    (runs : (turns.foldlM sampleStep (start sampleData)).any fun run => decide (check run)) :
    ∃ run, SampleEnds turns run ∧ check run :=
  exists_of_any check runs

/-- One thread sends a notify, and then the transport reports it. -/
theorem oneLock_inTurn :
    ∃ run, SampleEnds (List.replicate 15 true ++ List.replicate 9 false) run ∧
      run.Meets Apart ∧ run.state.OneLock := by
  obtain ⟨run, ends, meets⟩ := exists_sampleEnds
    (List.replicate 15 true ++ List.replicate 9 false) (fun run => run.Meets Apart) (by decide)
  exact ⟨run, ends, meets, oneLock_of_reachable ends.reachable meets⟩

/-- A thread scans the slots while the other one walks along the queue. -/
theorem oneLock_fails :
    ¬ ∀ (ι : Type) [DecidableEq ι] (run : Run ι), Reachable run → run.state.OneLock := by
  intro claim
  obtain ⟨run, ends, user, transport⟩ := exists_sampleEnds [true, true, false, false]
    (fun run => (run.state.notifying ()).inside = true ∧ run.state.sent.inside = true) (by decide)
  exact absurd ((claim Unit run ends.reachable).exclusive (some ()) none user transport) nofun

end NotifyThreads

end Pomelo
