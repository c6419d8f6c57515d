import Pomelo.Linked.Ring
import Pomelo.Threads.Mutex
import Pomelo.Transition.Recorded
import Pomelo.Transport.State

/-!
# The threads at the write queue of the TLS transport

Any number of threads in `tr_uv_tcp_send`, and the thread of the loop in
`tls__write_to_bio`, with each operation of `wq_mutex` and each access of a queue a step of its
own. The loop takes the mutex for `conn_pending_queue` only, and gives it back before it drains
`write_wait_queue`.
-/

namespace Pomelo

open Linked Threads Transition Recorded

/-- The address of a link: the head of a queue, or the link of a write item in `pre_wis` or in
a block of the heap. -/
inductive WqLink where
  | connPending
  | writeWait
  | writing
  | whenTcpIsWriting
  | preWi (index : Nat)
  | block (number : Nat)
  deriving DecidableEq

/-- What the threads share, and what the loop keeps for itself. `blocks` counts the blocks of
the heap, and `tested` is a record of the links when the loop has last found something to
write. -/
structure WqData where
  state : TcpState
  isWriting : Bool
  retryWb : Bool
  shouldRetry : Option WqLink
  busy : List Bool
  links : Links WqLink
  blocks : Nat
  tested : Links WqLink

namespace WqData

def assign (assign : Assign WqLink) (data : WqData) : WqData :=
  { data with links := data.links.exec assign }

/-- `QUEUE_EMPTY` -/
def queueEmpty (head : WqLink) (data : WqData) : Bool := data.links.next head = head

end WqData

/-- Where a thread is in `tr_uv_tcp_send`: behind the encoding, before the access that it makes
next. -/
inductive SendPc where
  | idle
  | locking
  | scanning (index : Nat)
  | taking (index : Nat)
  | initing (item : WqLink) (rest : List (Assign WqLink))
  | choosing (item : WqLink)
  | linking (queue item : WqLink) (rest : List (Assign WqLink))
  | unlocking
  deriving DecidableEq

namespace SendPc

/-- Between the lock and the unlock. -/
def inside : SendPc → Bool
  | idle | locking => false
  | _ => true

/-- In the insertion into `write_wait_queue`. -/
def inserting : SendPc → Bool
  | linking .writeWait _ _ => true
  | _ => false

/-- The next step of `tr_uv_tcp_send`, beside what it does to the mutex. -/
def next (data : WqData) : SendPc → SendPc × WqData
  | idle => if data.state = .notConn then (idle, data) else (locking, data)
  | locking => (scanning 0, data)
  | scanning index =>
      match data.busy[index]? with
      | none => (initing (.block data.blocks) (init (.block data.blocks)),
          { data with blocks := data.blocks + 1 })
      | some true => (scanning (index + 1), data)
      | some false => (taking index, data)
  | taking index =>
      (initing (.preWi index) (init (.preWi index)),
        { data with busy := data.busy.set index true })
  | initing item (assign :: rest) => (initing item rest, data.assign assign)
  | initing item [] => (choosing item, data)
  | choosing item =>
      if data.state = .done then (linking .writeWait item (insertTail .writeWait item), data)
      else (linking .connPending item (insertTail .connPending item), data)
  | linking queue item (assign :: rest) => (linking queue item rest, data.assign assign)
  | linking _ _ [] => (unlocking, data)
  | unlocking => (idle, data)

/-- A step that does nothing to the mutex stays inside or outside. -/
theorem inside_next (data : WqData) {pc : SendPc} (locks : pc ≠ locking)
    (unlocks : pc ≠ unlocking) : (pc.next data).1.inside = pc.inside := by
  cases pc with
  | idle =>
      rw [next]
      split <;> rfl
  | locking => exact absurd rfl locks
  | scanning index =>
      rw [next]
      split <;> rfl
  | taking index => rfl
  | initing item rest => cases rest <;> rfl
  | choosing item =>
      rw [next]
      split <;> rfl
  | linking queue item rest => cases rest <;> rfl
  | unlocking => exact absurd rfl unlocks

/-- Outside of the lock a sending thread leaves the queues. -/
theorem data_next (data : WqData) {pc : SendPc} (outside : pc.inside = false) :
    (pc.next data).2 = data := by
  cases pc with
  | idle =>
      rw [next]
      split <;> rfl
  | locking => rfl
  | _ => exact absurd outside nofun

/-- A thread inserts under the lock. -/
theorem inside_of_inserting {pc : SendPc} (inserting : pc.inserting) : pc.inside := by
  cases pc <;> first | rfl | exact absurd inserting nofun

end SendPc

/-- What `SSL_write` returns: the length, or `-1` with a wish to be tried again or an error. -/
inductive SslWrite where
  | full
  | retry
  | error
  deriving DecidableEq

/-- What the loop finds when it calls `tls__write_to_bio`, from what its other callbacks have
done. -/
structure WqCall where
  state : TcpState
  isWriting : Bool
  retryWb : Bool
  shouldRetry : Option WqLink

/-- Where the loop is in `tls__write_to_bio`, with the queue that `head` points to. -/
inductive BioPc where
  | idle
  | locking (head : WqLink)
  | pending (head : WqLink)
  | moving (head : WqLink) (rest : List (Assign WqLink))
  | unlocking (head : WqLink)
  | retrying (head : WqLink)
  | requeueing (head : WqLink) (rest : List (Assign WqLink))
  | testing (head : WqLink)
  | heading (head : WqLink)
  | removing (head item : WqLink) (rest : List (Assign WqLink))
  | writing (head item : WqLink)
  | queueing (head : WqLink) (rest : List (Assign WqLink))
  deriving DecidableEq

namespace BioPc

/-- Between the lock and the unlock. -/
def inside : BioPc → Bool
  | pending _ | moving _ _ | unlocking _ => true
  | _ => false

/-- Between the test of `write_wait_queue` and the end of the removal of its head. -/
def draining : BioPc → Bool
  | heading _ | removing _ _ _ => true
  | _ => false

/-- The next step of `tls__write_to_bio`, beside what it does to the mutex. What follows an
error or the drain does not touch the queue without the mutex. -/
def next (call : WqCall) (ssl : SslWrite) (data : WqData) : BioPc → BioPc × WqData
  | idle =>
      let data := { data with
        state := call.state
        isWriting := call.isWriting
        retryWb := call.retryWb
        shouldRetry := call.shouldRetry }
      if data.state = .notConn then (idle, data)
      else (locking (if data.isWriting then .whenTcpIsWriting else .writing), data)
  | locking head => (pending head, data)
  | pending head =>
      if data.state = .done ∧ data.queueEmpty .connPending = false then
        let q := data.links.next .connPending
        (moving head (remove q ++ init q ++ insertTail .writeWait q), data)
      else (unlocking head, data)
  | moving head (assign :: rest) => (moving head rest, data.assign assign)
  | moving head [] => (pending head, data)
  | unlocking head => (retrying head, data)
  | retrying head =>
      if data.retryWb then
        match ssl with
        | .error => (idle, { data with retryWb := false })
        | .retry => (idle, data)
        | .full =>
            match data.shouldRetry with
            | none => (testing head, { data with retryWb := false })
            | some item =>
                (requeueing head (init item ++ insertTail head item),
                  { data with retryWb := false, shouldRetry := none })
      else (testing head, data)
  | requeueing head (assign :: rest) => (requeueing head rest, data.assign assign)
  | requeueing head [] => (testing head, data)
  | testing head =>
      if data.queueEmpty .writeWait then (idle, data)
      else (heading head, { data with tested := data.links })
  | heading head =>
      let q := data.links.next .writeWait
      (removing head q (remove q ++ init q), data)
  | removing head item (assign :: rest) => (removing head item rest, data.assign assign)
  | removing head item [] => (writing head item, data)
  | writing head item =>
      match ssl with
      | .error => (idle, { data with shouldRetry := some item })
      | .retry => (idle, { data with shouldRetry := some item, retryWb := true })
      | .full => (queueing head (init item ++ insertTail head item), data)
  | queueing head (assign :: rest) => (queueing head rest, data.assign assign)
  | queueing head [] => (testing head, data)

/-- Only locking and unlocking change whether the loop is inside. -/
theorem inside_next (call : WqCall) (ssl : SslWrite) (data : WqData) {pc : BioPc}
    (locks : ∀ head, pc ≠ locking head) (unlocks : ∀ head, pc ≠ unlocking head) :
    (pc.next call ssl data).1.inside = pc.inside := by
  cases pc with
  | idle =>
      rw [next]
      dsimp only
      split <;> rfl
  | locking head => exact absurd rfl (locks head)
  | pending head =>
      rw [next]
      split <;> rfl
  | moving head rest => cases rest <;> rfl
  | unlocking head => exact absurd rfl (unlocks head)
  | retrying head =>
      rw [next.eq_def]
      dsimp only
      split
      · split
        · rfl
        · rfl
        · split <;> rfl
      · rfl
  | requeueing head rest => cases rest <;> rfl
  | testing head =>
      rw [next]
      split <;> rfl
  | heading head => rfl
  | removing head item rest => cases rest <;> rfl
  | writing head item => cases ssl <;> rfl
  | queueing head rest => cases rest <;> rfl

/-- The drain is begun by a test only. -/
theorem draining_next (call : WqCall) (ssl : SslWrite) (data : WqData) {pc : BioPc}
    (tests : ∀ head, pc ≠ testing head) (draining : (pc.next call ssl data).1.draining) :
    pc.draining := by
  cases pc with
  | heading head => rfl
  | removing head item rest => rfl
  | testing head => exact absurd rfl (tests head)
  | idle =>
      rw [next] at draining
      dsimp only at draining
      split at draining <;> exact absurd draining nofun
  | locking head => exact absurd draining nofun
  | unlocking head => exact absurd draining nofun
  | pending head =>
      rw [next] at draining
      split at draining <;> exact absurd draining nofun
  | retrying head =>
      rw [next.eq_def] at draining
      dsimp only at draining
      split at draining
      · split at draining
        · exact absurd draining nofun
        · exact absurd draining nofun
        · split at draining <;> exact absurd draining nofun
      · exact absurd draining nofun
  | moving head rest => cases rest <;> exact absurd draining nofun
  | requeueing head rest => cases rest <;> exact absurd draining nofun
  | writing head item => cases ssl <;> exact absurd draining nofun
  | queueing head rest => cases rest <;> exact absurd draining nofun

end BioPc

/-- The transport with its threads: those of the user, and `none` for the one of the loop. -/
structure WqThreads (ι : Type) where
  wqMutex : Mutex (Option ι)
  data : WqData
  sending : ι → SendPc
  loop : BioPc

/-- What is noted: a lock in `tr_uv_tcp_send`, and a test that has found something to write. -/
inductive WqPoint where
  | lock
  | drain
  deriving DecidableEq

namespace WqThreads

variable {ι : Type}

abbrev Run (ι : Type) := Recorded (WqThreads ι) WqPoint

/-- Nobody is in a call. -/
def start (data : WqData) : Run ι where
  state := { wqMutex := none, data, sending := fun _ => .idle, loop := .idle }
  notes := []

section Steps

variable [DecidableEq ι]

/-- A step of a thread in `tr_uv_tcp_send`, unless it has to wait. -/
def sendStep (thread : ι) (run : Run ι) : Option (Run ι) :=
  let pc := run.state.sending thread
  let next := pc.next run.state.data
  let sending := Function.update run.state.sending thread next.1
  match pc with
  | .locking =>
      (run.state.wqMutex.lock (some thread)).map fun mutex =>
        (run.note .lock).change fun threads =>
          { threads with wqMutex := mutex, data := next.2, sending }
  | .unlocking =>
      some (run.change fun threads =>
        { threads with wqMutex := threads.wqMutex.unlock (some thread), data := next.2, sending })
  | _ => some (run.change fun threads => { threads with data := next.2, sending })

/-- A step of the loop in `tls__write_to_bio`, unless it has to wait. -/
def loopStep (call : WqCall) (ssl : SslWrite) (run : Run ι) : Option (Run ι) :=
  let pc := run.state.loop
  let next := pc.next call ssl run.state.data
  match pc with
  | .locking _ =>
      (run.state.wqMutex.lock none).map fun mutex =>
        run.change fun threads => { threads with wqMutex := mutex, data := next.2, loop := next.1 }
  | .unlocking _ =>
      some (run.change fun threads =>
        { threads with wqMutex := threads.wqMutex.unlock none, data := next.2, loop := next.1 })
  | .testing _ =>
      let run := if run.state.data.queueEmpty .writeWait then run else run.note .drain
      some (run.change fun threads => { threads with data := next.2, loop := next.1 })
  | _ => some (run.change fun threads => { threads with data := next.2, loop := next.1 })

/-- One step of one thread. -/
inductive Step (first second : Run ι) : Prop where
  | send (thread : ι) (stepped : sendStep thread first = some second)
  | loop (call : WqCall) (ssl : SslWrite) (stepped : loopStep call ssl first = some second)

/-- What any interleaving can lead to, from any content of the queues. -/
def Reachable (run : Run ι) : Prop := ∃ data, Relation.ReflTransGen Step (start data) run

end Steps

/-- The drain is alone at the queue: while the loop is between the test and the removal of the
head, nobody is in an insertion; and the removal takes the head out that the test has found,
and no other item. -/
structure DrainAlone (threads : WqThreads ι) : Prop where
  apart : threads.loop.draining → ∀ user, (threads.sending user).inserting = false
  taken : ∀ head item, threads.loop = .removing head item [] →
    ∀ items, threads.data.tested.Ring .writeWait items →
      items.head? = some item ∧ threads.data.links.Ring .writeWait items.tail

/-- The drain is begun only while nobody holds `wq_mutex`, and a user locks it only while the
loop is not in the drain. -/
def Apart (point : WqPoint) (threads : WqThreads ι) : Prop :=
  match point with
  | .lock => threads.loop.draining = false
  | .drain => threads.wqMutex = none

instance [DecidableEq ι] (point : WqPoint) (threads : WqThreads ι) :
    Decidable (Apart point threads) :=
  match point with
  | .lock => inferInstanceAs (Decidable (threads.loop.draining = false))
  | .drain => inferInstanceAs (Decidable (threads.wqMutex = none))

/-- Between the lock and the unlock of a section. -/
def Inside (sending : ι → SendPc) (loop : BioPc) : Option ι → Prop
  | some thread => (sending thread).inside
  | none => loop.inside

/-- What the loop knows in the drain. -/
def Sound (data : WqData) : BioPc → Prop
  | .heading _ => data.links = data.tested ∧ data.tested.next .writeWait ≠ .writeWait
  | .removing _ item rest => item = data.tested.next .writeWait ∧ item ≠ .writeWait ∧
      ∃ done, done ++ rest = remove item ++ init item ∧ data.links = data.tested.run done
  | _ => True

/-- What every step keeps while the drain is alone. -/
structure Inv (threads : WqThreads ι) : Prop where
  wq : threads.wqMutex.Guarded (Inside threads.sending threads.loop)
  apart : threads.loop.draining → threads.wqMutex = none
  sound : Sound threads.data threads.loop

variable {threads : WqThreads ι} {sending : ι → SendPc} {loop : BioPc} {data : WqData}

/-- A loop that is not draining promises nothing. -/
theorem sound_of_not_draining (quiet : loop.draining = false) : Sound data loop := by
  cases loop <;> trivial

/-- At the start nobody is inside. -/
theorem inv_start (data : WqData) : (start (ι := ι) data).state.Inv where
  wq := fun thread inside => by cases thread <;> exact Bool.false_ne_true inside
  apart := nofun
  sound := trivial

/-- Nobody is in the drain while a user is inside. -/
theorem Inv.quiet (inv : threads.Inv) {user : ι} (inside : (threads.sending user).inside) :
    threads.loop.draining = false :=
  Bool.eq_false_iff.mpr fun draining =>
    @Mutex.Guarded.held _ _ _ (some user) inv.wq inside (inv.apart draining)

/-- In the drain the links are what the assignments so far have made of those that were
tested. -/
theorem sound_next (call : WqCall) (ssl : SslWrite) {pc : BioPc} (sound : Sound data pc)
    (tests : ∀ head, pc ≠ .testing head) :
    Sound (pc.next call ssl data).2 (pc.next call ssl data).1 := by
  cases draining : pc.draining with
  | false =>
      refine sound_of_not_draining (Bool.eq_false_iff.mpr fun later => ?_)
      have stays := draining.symm.trans (BioPc.draining_next call ssl data tests later)
      exact absurd stays Bool.false_ne_true
  | true =>
      cases pc with
      | heading head =>
          obtain ⟨same, listed⟩ := sound
          refine ⟨congrArg (Links.next · .writeWait) same, ?_, [], rfl, same⟩
          rw [← same] at listed
          exact listed
      | removing head item rest =>
          cases rest with
          | nil => trivial
          | cons assign rest =>
              obtain ⟨first, listed, done, split, links⟩ := sound
              refine ⟨first, listed, done ++ [assign], ?_, ?_⟩
              · rw [List.append_assoc, List.singleton_append]
                exact split
              · change data.links.exec assign = data.tested.run (done ++ [assign])
                rw [Links.run_append, links]
                rfl
      | _ => cases draining

section Steps

variable [DecidableEq ι] {first second : Run ι}

/-- Who is inside when a user has gone on. -/
theorem inside_update (sending : ι → SendPc) (loop : BioPc) (thread : ι) (pc : SendPc)
    (other : Option ι) : Inside (Function.update sending thread pc) loop other ↔
      if other = some thread then pc.inside = true else Inside sending loop other := by
  cases other with
  | none => rfl
  | some user =>
      by_cases own : user = thread
      · subst own
        rw [if_pos rfl, Inside, Function.update_self]
      · rw [if_neg fun same => own (Option.some.inj same), Inside, Function.update_of_ne own]
        rfl

omit [DecidableEq ι] in
/-- Who is inside when the loop has gone on. -/
theorem inside_loop (sending : ι → SendPc) (loop later : BioPc) (other : Option ι) :
    Inside sending later other ↔
      if other = none then later.inside = true else Inside sending loop other := by
  cases other <;> rfl

/-- A step of a user inside, or outside, where it changes nothing. -/
theorem Inv.sendWork (inv : threads.Inv) {thread : ι} {pc : SendPc} {data : WqData}
    (stays : pc.inside = (threads.sending thread).inside)
    (outside : (threads.sending thread).inside = false → data = threads.data) :
    Inv { threads with data, sending := Function.update threads.sending thread pc } where
  wq := inv.wq.same fun other => (inside_update ..).trans (by
    split
    next own =>
      subst own
      rw [stays]
      rfl
    · rfl)
  apart := inv.apart
  sound := by
    cases inside : (threads.sending thread).inside with
    | false =>
        rw [outside inside]
        exact inv.sound
    | true => exact sound_of_not_draining (inv.quiet inside)

/-- A step of a sending thread keeps the invariant. -/
theorem keeps_sendStep {thread : ι} (stepped : sendStep thread first = some second) :
    Keeps Apart (fun run : Run ι => run.state.Inv) first second := by
  rw [sendStep] at stepped
  split at stepped
  next locks =>
    cases locked : first.state.wqMutex.lock (some thread) with
    | none =>
        rw [locked] at stepped
        cases stepped
    | some mutex =>
        rw [locked] at stepped
        cases Option.some.inj stepped
        refine ⟨List.suffix_cons _ _, fun meets inv => ?_⟩
        have quiet : first.state.loop.draining = false := (meets_note.mp meets).1
        have outside : ¬ Inside first.state.sending first.state.loop (some thread) := by
          rw [Inside, locks]
          exact Bool.false_ne_true
        refine ⟨inv.wq.lock outside locked fun other => (inside_update ..).trans ?_,
          fun draining => absurd (quiet.symm.trans draining) Bool.false_ne_true,
          sound_of_not_draining quiet⟩
        split
        next own => exact iff_of_true (by rw [locks]; rfl) (.inr own)
        next different => exact (or_iff_left different).symm
  next unlocks =>
    cases Option.some.inj stepped
    refine Leads.change fun _ inv => ?_
    have inside : Inside first.state.sending first.state.loop (some thread) := by
      rw [Inside, unlocks]
      rfl
    have quiet : first.state.loop.draining = false := inv.quiet inside
    refine ⟨inv.wq.unlock inside fun other => (inside_update ..).trans ?_,
      fun draining => absurd (quiet.symm.trans draining) Bool.false_ne_true,
      sound_of_not_draining quiet⟩
    split
    next own => exact iff_of_false (by rw [unlocks]; exact Bool.false_ne_true) fun both => both.2 own
    next different => exact (and_iff_left different).symm
  next stays leaves =>
    cases Option.some.inj stepped
    exact Leads.change fun _ inv => inv.sendWork (SendPc.inside_next _ stays leaves)
      (SendPc.data_next _)

omit [DecidableEq ι] in
/-- A step of the loop that does nothing to the mutex. -/
theorem Inv.loopWork (inv : threads.Inv) {loop : BioPc} {data : WqData}
    (stays : loop.inside = threads.loop.inside)
    (drains : loop.draining → threads.wqMutex = none) (sound : Sound data loop) :
    Inv { threads with data, loop } where
  wq := inv.wq.same fun other => (inside_loop ..).trans (by
    split
    next own =>
      subst own
      rw [stays]
      rfl
    · rfl)
  apart := drains
  sound := sound

theorem keeps_loopStep {call : WqCall} {ssl : SslWrite} (stepped : loopStep call ssl first = some second) :
    Keeps Apart (fun run : Run ι => run.state.Inv) first second := by
  rw [loopStep] at stepped
  split at stepped
  next head locks =>
    cases locked : first.state.wqMutex.lock none with
    | none =>
        rw [locked] at stepped
        exact absurd stepped nofun
    | some mutex =>
        rw [locked] at stepped
        cases Option.some.inj stepped
        refine Leads.change fun _ inv => ?_
        have outside : ¬ Inside first.state.sending first.state.loop none := by
          rw [Inside, locks]
          exact Bool.false_ne_true
        rw [locks]
        refine ⟨inv.wq.lock outside locked fun other =>
          (inside_loop _ first.state.loop _ other).trans ?_, nofun, trivial⟩
        split
        next own => exact iff_of_true rfl (.inr own)
        next different => exact (or_iff_left different).symm
  next head unlocks =>
    cases Option.some.inj stepped
    refine Leads.change fun _ inv => ?_
    have inside : Inside first.state.sending first.state.loop none := by
      rw [Inside, unlocks]
      rfl
    rw [unlocks]
    refine ⟨inv.wq.unlock inside fun other =>
          (inside_loop _ first.state.loop _ other).trans ?_, nofun, trivial⟩
    split
    next own => exact iff_of_false Bool.false_ne_true fun both => both.2 own
    next different => exact (and_iff_left different).symm
  next head tests =>
    have found : first.state.loop.next call ssl first.state.data =
        if first.state.data.queueEmpty .writeWait then (.idle, first.state.data)
        else (.heading head, { first.state.data with tested := first.state.data.links }) := by
      rw [tests]
      rfl
    rw [found] at stepped
    cases empty : first.state.data.queueEmpty .writeWait with
    | true =>
        rw [empty] at stepped
        cases Option.some.inj stepped
        refine Leads.change fun _ inv => inv.loopWork ?_ nofun trivial
        rw [tests]
        rfl
    | false =>
        rw [empty] at stepped
        cases Option.some.inj stepped
        refine ⟨List.suffix_cons _ _, fun meets inv => inv.loopWork ?_ ?_ ?_⟩
        · rw [tests]
          rfl
        · exact fun _ => (meets_note.mp meets).1
        · exact ⟨rfl, of_decide_eq_false empty⟩
  next locks unlocks tests =>
    cases Option.some.inj stepped
    exact Leads.change fun _ inv => inv.loopWork (BioPc.inside_next _ _ _ locks unlocks)
      (fun draining => inv.apart (BioPc.draining_next _ _ _ tests draining))
      (sound_next _ _ inv.sound tests)

/-- The invariant holds in every state of such a run. -/
theorem inv_of_reachable {run : Run ι} (reached : Reachable run) (meets : run.Meets Apart) :
    run.state.Inv := by
  obtain ⟨data, reached⟩ := reached
  refine @holds_of_reachable _ _ Apart Step (fun run => run.state.Inv) (start data) (inv_start data)
    (fun step => ?_) run reached meets
  cases step with
  | send thread stepped => exact keeps_sendStep stepped
  | loop call ssl stepped => exact keeps_loopStep stepped

/-- The drain is alone at the queue, in every run in which it is begun only while nobody holds
`wq_mutex`, and no user locks it before the drain has removed what it has found. -/
theorem drainAlone_of_reachable {run : Run ι} (reached : Reachable run) (meets : run.Meets Apart) :
    run.state.DrainAlone := by
  have inv := inv_of_reachable reached meets
  refine ⟨fun draining user => ?_, fun head item removed items ring => ?_⟩
  · refine Bool.eq_false_iff.mpr fun inserting => ?_
    have quiet := inv.quiet (SendPc.inside_of_inserting inserting)
    exact absurd (quiet.symm.trans draining) Bool.false_ne_true
  · have sound := inv.sound
    rw [removed] at sound
    obtain ⟨first, listed, done, split, links⟩ := sound
    rw [List.append_nil] at split
    rw [ring.next_head] at first
    cases items with
    | nil => exact absurd first listed
    | cons other rest =>
        cases first
        refine ⟨rfl, ?_⟩
        have fresh : other ∉ WqLink.writeWait :: rest := fun member => by
          rcases List.mem_cons.mp member with same | member
          · exact listed same
          · exact (List.nodup_cons.mp (List.nodup_cons.mp ring.nodup).2).1 member
        have found : run.state.data.tested.Ring .writeWait ([] ++ other :: rest) := ring
        rw [links, split, Links.run_append]
        exact found.remove.init fresh

end Steps

/-- The transport is connected, and one item waits. -/
def sampleData : WqData where
  state := .done
  isWriting := false
  retryWb := false
  shouldRetry := none
  busy := List.replicate trUvPreAllocWiSlotCount false
  links := (((Links.mk id id).run (init .connPending)).run (init .writeWait)).run
    (insertTail .writeWait (.preWi 0))
  blocks := 0
  tested := Links.mk id id

/-- A step of the one sending thread, or of the loop. -/
def sampleStep (run : Run Unit) (user : Bool) : Option (Run Unit) :=
  if user then sendStep () run
  else loopStep { state := .done, isWriting := false, retryWb := false, shouldRetry := none } .full
    run

/-- The turns of a run of the sample can be taken, and end in a state. -/
def SampleEnds (turns : List Bool) (run : Run Unit) : Prop :=
  turns.foldlM sampleStep (start sampleData) = some run

theorem SampleEnds.reachable {turns : List Bool} {run : Run Unit} (ends : SampleEnds turns run) :
    Reachable run := by
  refine ⟨sampleData, reflTransGen_of_foldlM (fun {first user second} stepped => ?_) ends⟩
  rw [sampleStep] at stepped
  split at stepped
  · exact .send () stepped
  · exact .loop _ _ stepped

/-- What is evaluated at the end of a run of the sample. -/
theorem exists_sampleEnds (turns : List Bool) (check : Run Unit → Prop) [DecidablePred check]
    (runs : (turns.foldlM sampleStep (start sampleData)).any fun run => decide (check run)) :
    ∃ run, SampleEnds turns run ∧ check run :=
  exists_of_any check runs

/-- An item is put into the queue, and the mutex given back; then the loop removes the first
item. -/
theorem drainAlone_inTurn :
    ∃ run, SampleEnds (List.replicate 14 true ++ List.replicate 11 false) run ∧
      run.Meets Apart ∧ run.state.loop = .removing .writing (.preWi 0) [] ∧
      run.state.DrainAlone := by
  obtain ⟨run, ends, meets, removed⟩ := exists_sampleEnds
    (List.replicate 14 true ++ List.replicate 11 false)
    (fun run => run.Meets Apart ∧ run.state.loop = .removing .writing (.preWi 0) [])
    (by decide)
  exact ⟨run, ends, meets, removed, drainAlone_of_reachable ends.reachable meets⟩

/-- The loop has tested the queue when a thread locks the mutex and links an item. -/
theorem drainAlone_fails :
    ¬ ∀ (ι : Type) [DecidableEq ι] (run : Run ι), Reachable run → run.state.DrainAlone := by
  intro claim
  obtain ⟨run, ends, draining, inserting⟩ := exists_sampleEnds
    (List.replicate 6 false ++ List.replicate 8 true)
    (fun run => run.state.loop.draining = true ∧ (run.state.sending ()).inserting = true)
    (by decide)
  exact absurd (inserting.symm.trans ((claim Unit run ends.reachable).apart draining ())) nofun

end WqThreads

end Pomelo
