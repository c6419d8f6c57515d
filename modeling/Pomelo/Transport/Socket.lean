import Pomelo.Transport.Phase

/-!
# Sockets

`tcp__reset` closes the socket unless the client is INITED by then. While a socket is
open, the transport is connecting or its connection is up, and what has been handed to
`uv_write` stays in `writing_queue`; an attempt is started only where the last socket has
been closed.
-/

namespace Pomelo

open Transition Recorded

variable {env : Env} {first second : Sys}

/-- The items of an uncompleted `uv_write` on the socket of the last attempt. -/
def inFlight : List (Point × Core) → List WriteItem
  | [] => []
  | (.attempt, _) :: _ => []
  | (.callback (.writeDone _), _) :: _ => []
  | (.write items ret, _) :: earlier => if ret = 0 then items else inFlight earlier
  | _ :: earlier => inFlight earlier

/-- The points at which no socket may be open: `tcp__reset` returns, or an attempt is
about to initialise the next one. -/
def Point.ofSocket (point : Point) : Bool := point matches .attempt | .resetDone

/-- Every socket is closed before the next one is initialised, and no buffer is freed that
is being written to one that is open. -/
structure SocketsClosed (sys : Sys) : Prop where
  closed : ∀ entry ∈ sys.notes, entry.1.ofSocket → entry.2.tcp.socket ≠ .open
  kept : sys.state.tcp.socket = .open →
    ∀ item ∈ inFlight sys.notes, item ∈ sys.state.tcp.wq.writing

/-- `tcp__reset` is called. -/
def Point.isReset (point : Point) : Bool := point matches .reset

/-- The condition on the notes of a run. -/
structure ClosesSockets (point : Point) (core : Core) : Prop where
  /-- Where a socket is open, the client is not INITED when it is reset. -/
  reset : point.isReset → core.client.state ≠ .inited ∨ core.tcp.socket ≠ .open
  /-- No attempt is started on a connection that is up. -/
  attempt : point.isAttempt → core.tcp.link.Down

instance (point : Point) (core : Core) : Decidable (ClosesSockets point core) :=
  decidable_of_iff ((point.isReset → core.client.state ≠ .inited ∨ core.tcp.socket ≠ .open) ∧
      (point.isAttempt → core.tcp.link.Down))
    ⟨fun ⟨reset, attempt⟩ => ⟨reset, attempt⟩, fun ⟨reset, attempt⟩ => ⟨reset, attempt⟩⟩

/-- The notes that change nothing. -/
def Point.beside (point : Point) : Bool :=
  !point matches .attempt | .resetDone | .callback (.writeDone _) | .write ..

/-- What a delivery notes is no write. -/
theorem Point.beside_of_ofDelivery (point : Point) (delivery : point.ofDelivery) :
    point.beside := by
  cases point <;> first | rfl | exact absurd delivery Bool.false_ne_true

theorem Point.beside_of_ofAgain (point : Point) (again : point.ofAgain) : point.beside := by
  cases point <;> first | rfl | exact absurd again Bool.false_ne_true

theorem Point.beside_of_plain (point : Point) (plain : point.plain) : point.beside := by
  cases point <;> first | rfl | exact absurd plain Bool.false_ne_true

/-- A note that is no write leaves the writes in flight. -/
theorem inFlight_cons {point : Point} (beside : point.beside) (core : Core)
    (notes : List (Point × Core)) : inFlight ((point, core) :: notes) = inFlight notes := by
  cases point with
  | callback event => cases event <;> first | rfl | exact absurd beside Bool.false_ne_true
  | attempt => exact absurd beside Bool.false_ne_true
  | write items ret => exact absurd beside Bool.false_ne_true
  | _ => rfl

theorem inFlight_adds (adds : Adds Point.beside first second) :
    inFlight second.notes = inFlight first.notes :=
  adds.induct (fun notes => inFlight notes = inFlight first.notes) rfl
    fun beside before => (inFlight_cons beside _ _).trans before

/-- What holds of the notes of a run at any point. -/
structure Noted (sys : Sys) : Prop where
  writing : inFlight sys.notes ≠ [] → sys.state.tcp.isWriting = true
  closed : ∀ entry ∈ sys.notes, entry.1.ofSocket → entry.2.tcp.socket ≠ .open

namespace Noted

/-- What leaves the flag and writes nothing. -/
theorem adds (noted : Noted first) (isWriting : second.state.tcp.isWriting = first.state.tcp.isWriting)
    (adds : Adds Point.beside first second) : Noted second where
  writing flight := by
    rw [isWriting]
    exact noted.writing (inFlight_adds adds ▸ flight)
  closed := by
    refine adds.induct (fun notes => ∀ entry ∈ notes, entry.1.ofSocket →
      entry.2.tcp.socket ≠ .open) noted.closed fun {event state notes} beside before => ?_
    intro entry member ofSocket
    rcases List.mem_cons.mp member with rfl | member
    · cases event <;>
        first | exact absurd ofSocket Bool.false_ne_true | exact absurd beside Bool.false_ne_true
    · exact before entry member ofSocket

/-- A quiet step is noted so. -/
theorem quiet (noted : Noted first) (quiet : Quiet first second) : Noted second :=
  noted.adds quiet.isWriting (quiet.notes.mono Point.beside_of_ofDelivery)

theorem plain (noted : Noted first) (plain : Plain first second) : Noted second :=
  noted.adds plain.tcp.isWriting (Adds.mono Point.beside_of_plain plain.notes)

/-- Fields are set, and a plain step follows. -/
theorem plain_tcp (noted : Noted first) {act : Transport → Transport}
    (isWriting : (act first.state.tcp).isWriting = first.state.tcp.isWriting)
    (after : Plain (first.tcp act) second) : Noted second :=
  have set : Noted (first.tcp act) := noted.adds isWriting (.of_notes rfl)
  set.plain after

/-- A note that is no write. -/
theorem note (noted : Noted first) (point : Point) (beside : point.beside) :
    Noted (first.note point) :=
  noted.adds rfl (Adds.note beside first)

theorem fireEvent (noted : Noted first) (type : EvType) (arg1 arg2 : Option CStr) :
    Noted (Pomelo.fireEvent env type arg1 arg2 first) :=
  (noted.note (.fire type) rfl).quiet (quiet_fireEvent env type arg1 arg2 first)

/-- A note at a point where no socket is open. -/
theorem noteSocket (noted : Noted first) {point : Point} (socket : first.state.tcp.socket ≠ .open)
    (flight : inFlight ((point, first.state) :: first.notes) ≠ [] → inFlight first.notes ≠ []) :
    Noted (first.note point) where
  writing set := noted.writing (flight set)
  closed := by
    intro entry member ofSocket
    rcases List.mem_cons.mp member with rfl | member
    · exact socket
    · exact noted.closed entry member ofSocket

end Noted

/-- The states in which no socket is open. -/
structure Shut (sys : Sys) : Prop extends Noted sys where
  socket : sys.state.tcp.socket ≠ .open

namespace Shut

/-- What leaves the socket leaves it shut. -/
theorem map (shut : Shut first) (noted : Noted first → Noted second)
    (link : second.state.tcp.link.socket = first.state.tcp.link.socket) : Shut second :=
  ⟨noted shut.toNoted, fun opened => shut.socket (link.symm.trans opened)⟩

/-- `tcp__reset` leaves no socket open. -/
theorem tcpReset (noted : Noted first)
    (closes : first.state.client.state ≠ .inited ∨ first.state.tcp.socket ≠ .open) :
    Shut (Pomelo.tcpReset env first) := by
  have socket : (Pomelo.tcpReset env first).state.tcp.link.socket ≠ .open := by
    rw [link_tcpReset]
    change (if first.state.closes then _ else _) ≠ _
    split
    · exact nofun
    next kept =>
      refine closes.resolve_left fun inited => kept ?_
      exact decide_eq_true inited
  have items : Noted (resetItems env
      (((first.note .reset).tcp Transport.stopAll).change Core.closeSocket)) := by
    refine (noted.note .reset rfl).adds ?_ ?_
    · exact isWriting_tcpReset first
    · exact (adds_resetItems env first).mono Point.beside_of_ofDelivery
  exact ⟨items.noteSocket socket id, socket⟩

theorem plain (shut : Shut first) (plain : Plain first second) : Shut second :=
  shut.map (·.plain plain) (congrArg Link.socket plain.tcp.link)

theorem fireEvent (shut : Shut first) (type : EvType) (arg1 arg2 : Option CStr) :
    Shut (Pomelo.fireEvent env type arg1 arg2 first) :=
  shut.map (·.fireEvent type arg1 arg2) (congrArg Link.socket (link_fireEvent type arg1 arg2 first))

theorem cleanUp (shut : Shut first) : Shut first.cleanUp :=
  shut.map (·.adds rfl (.of_notes (notes_cleanUp first))) rfl

/-- Another attempt leaves it shut until it starts. -/
theorem reconnAgain (shut : Shut first) : Shut (Pomelo.reconnAgain env first) := by
  have again := reconnected_reconnAgain env first
  obtain ⟨state, armed, -, link⟩ := again.link
  exact shut.map (·.adds again.isWriting (again.notes.mono Point.beside_of_ofAgain))
    (by rw [link])

/-- `tcp__reconn` leaves no socket open, if its reset closes the socket. -/
theorem tcpReconn (noted : Noted first) (meets : (Pomelo.tcpReconn env first).Meets ClosesSockets) :
    Shut (Pomelo.tcpReconn env first) := by
  have start : (first.note .reconn).notes <:+ (Pomelo.tcpReconn env first).notes :=
    (adds_tcpReconn first).suffix
  have again := reconnected_reconnAgain env (Pomelo.tcpReset env (first.note .reconn))
  have member := again.notes.suffix.subset (mem_tcpReset env (first.note .reconn))
  have closes := (meets _ member).reset rfl
  exact (tcpReset (noted.note .reconn rfl) closes).reconnAgain

/-- An event is fired, and then `tcp__reconn` is called. -/
theorem fire_tcpReconn (noted : Noted first) (type : EvType) (arg1 arg2 : Option CStr)
    (meets : (Pomelo.tcpReconn env (Pomelo.fireEvent env type arg1 arg2 first)).Meets
      ClosesSockets) :
    Shut (Pomelo.tcpReconn env (Pomelo.fireEvent env type arg1 arg2 first)) :=
  tcpReconn (noted.fireEvent type arg1 arg2) meets

end Shut

/-- A socket that is open belongs to an attempt or to a connection that is up, and keeps
what it is writing. -/
structure Safe (sys : Sys) : Prop extends Noted sys where
  up : sys.state.tcp.link.socket = .open →
    sys.state.tcp.link.isConnecting = true ∨ ¬ sys.state.tcp.link.Down
  kept : sys.state.tcp.link.socket = .open →
    ∀ item ∈ inFlight sys.notes, item ∈ sys.state.tcp.wq.writing

/-- Behind a shut socket nothing is unsafe. -/
theorem Shut.safe {sys : Sys} (shut : Shut sys) : Safe sys where
  toNoted := shut.toNoted
  up opened := absurd opened shut.socket
  kept opened := absurd opened shut.socket

namespace Safe

/-- A socket that stays open keeps its connection and what it is writing. -/
theorem map (safe : Safe first) (noted : Noted first → Noted second)
    (socket : second.state.tcp.link.socket = .open → first.state.tcp.link.socket = .open)
    (up : first.state.tcp.link.isConnecting = true ∨ ¬ first.state.tcp.link.Down →
      second.state.tcp.link.isConnecting = true ∨ ¬ second.state.tcp.link.Down)
    (flight : inFlight second.notes = inFlight first.notes)
    (writing : second.state.tcp.wq.writing = first.state.tcp.wq.writing) : Safe second where
  toNoted := noted safe.toNoted
  up opened := up (safe.up (socket opened))
  kept opened item member := writing ▸ safe.kept (socket opened) item (flight ▸ member)

/-- What leaves the socket and the writes. -/
theorem same (safe : Safe first) (link : second.state.tcp.link = first.state.tcp.link)
    (isWriting : second.state.tcp.isWriting = first.state.tcp.isWriting)
    (writing : second.state.tcp.wq.writing = first.state.tcp.wq.writing)
    (adds : Adds Point.beside first second) : Safe second :=
  safe.map (·.adds isWriting adds) (link ▸ id) (link ▸ id) (inFlight_adds adds) writing

theorem plain (safe : Safe first) (plain : Plain first second) : Safe second :=
  safe.same plain.tcp.link plain.tcp.isWriting (congrArg WriteQueues.writing plain.tcp.wq)
    (Adds.mono Point.beside_of_plain plain.notes)

/-- A change of the other queues. -/
theorem wq (safe : Safe first) {act : WriteQueues → WriteQueues}
    (writing : (act first.state.tcp.wq).writing = first.state.tcp.wq.writing) :
    Safe (first.wq act) :=
  safe.same rfl rfl writing (.of_notes rfl)

theorem still (safe : Safe first) (still : Still first second) : Safe second := by
  have quiet := Quiet.of_still still
  exact safe.same quiet.aside.link quiet.isWriting (congrArg WriteQueues.writing still.wq)
    (quiet.notes.mono Point.beside_of_ofDelivery)

/-- An accepted item is not written yet. -/
theorem accept (safe : Safe first) (item : WriteItem) : Safe (first.accept item) := by
  have quiet := Quiet.accept item first
  refine safe.same quiet.aside.link quiet.isWriting ?_ (quiet.notes.mono Point.beside_of_ofDelivery)
  have allocated := WriteQueues.items_allocate item.slot first.state.tcp.wq .writing
  change (first.state.insert item).tcp.wq.writing = _
  rw [Core.insert]
  dsimp only
  split <;> exact allocated

theorem keeps_deliver {cond : Point → Core → Prop} (deliver : Deliver env first second) :
    Keeps cond Safe first second :=
  Pomelo.keeps_deliver (fun still safe => safe.still still) (fun _ _ safe => safe.accept _) deliver

/-- What the loops over the queues keep, they keep in any run. -/
theorem of_keeps (safe : Safe first) (keeps : Keeps (fun _ _ => True) Safe first second) :
    Safe second :=
  keeps.holds (fun _ _ => trivial) safe

theorem delivered (safe : Safe first) (delivered : Delivered env first second) : Safe second :=
  safe.of_keeps (keeps_delivered keeps_deliver delivered)

theorem note (safe : Safe first) (point : Point) (beside : point.beside) :
    Safe (first.note point) :=
  safe.same rfl rfl rfl (Adds.note beside first)

theorem fireEvent (safe : Safe first) (type : EvType) (arg1 arg2 : Option CStr) :
    Safe (Pomelo.fireEvent env type arg1 arg2 first) :=
  (safe.note (.fire type) rfl).delivered (delivered_fireEvent type arg1 arg2 first)

/-- Fields are set that a socket does not depend on. -/
theorem tcp (safe : Safe first) {act : Transport → Transport}
    (socket : (act first.state.tcp).socket = first.state.tcp.socket)
    (state : (act first.state.tcp).state = first.state.tcp.state)
    (isConnecting : (act first.state.tcp).isConnecting = first.state.tcp.isConnecting)
    (isWriting : (act first.state.tcp).isWriting = first.state.tcp.isWriting)
    (writing : (act first.state.tcp).wq.writing = first.state.tcp.wq.writing) :
    Safe (first.tcp act) := by
  refine safe.map (·.adds isWriting (.of_notes rfl)) (fun opened => socket.symm.trans opened) ?_ rfl
    writing
  exact Or.imp isConnecting.trans fun up down => up (down.imp state.symm.trans state.symm.trans)

/-- A check of another queue is safe. -/
theorem tcpCheckQueueTimeout (safe : Safe first) (queue : WiQueue) (other : queue ≠ .writing)
    (cont : Bool) : Safe (Pomelo.tcpCheckQueueTimeout env queue cont first).1 := by
  have set (items : List WriteItem) (queues : WriteQueues) :
      (queues.setItems queue items).writing = queues.writing := by
    cases queue <;> first | rfl | exact absurd rfl other
  have recycled (item : WriteItem) (queues : WriteQueues) :
      (queues.recycle item).writing = queues.writing :=
    WriteQueues.items_recycle item queues .writing
  have begun : Safe (first.wq (WriteQueues.beginCheck queue)) := safe.wq rfl
  have looped : Safe (checkQueueLoop env queue first.state.clock env.passes cont
      (first.wq (WriteQueues.beginCheck queue))).1 :=
    begun.of_keeps (keeps_checkQueueLoop keeps_deliver (fun safe => safe.wq (recycled _ _))
      (fun safe => safe.plain (.crash _ _)) (fun _ _ safe => safe.wq (set _ _))
      (fun _ safe => (safe.wq (set _ _)).wq rfl) env.passes cont _)
  exact looped.wq (set _ _)

theorem hold (safe : Safe first) (held : Bool) : Safe (first.hold held) :=
  safe.same rfl rfl rfl (.of_notes rfl)

theorem tcpWriteCheckTimeoutCb (safe : Safe first) :
    Safe (Pomelo.tcpWriteCheckTimeoutCb env first) := by
  refine Safe.plain (Safe.hold ?_ false) (.startCheck ..)
  refine tcpCheckQueueTimeout ?_ .respPending (by decide) _
  refine tcpCheckQueueTimeout ?_ .writeWait (by decide) _
  exact (safe.hold true).tcpCheckQueueTimeout .connPending (by decide) _

/-- Where nothing is in flight, the queues do not matter. -/
theorem of_idle (noted : Noted first) (idle : inFlight first.notes = [])
    (up : first.state.tcp.link.socket = .open →
      first.state.tcp.link.isConnecting = true ∨ ¬ first.state.tcp.link.Down) : Safe first where
  toNoted := noted
  up := up
  kept _ _ member := absurd (idle ▸ member) List.not_mem_nil

/-- Where nothing is in flight, items can be dropped. -/
theorem quiet_idle (safe : Safe first) (idle : inFlight first.notes = [])
    (quiet : Quiet first second) : Safe second := by
  refine .of_idle (safe.toNoted.quiet quiet) ?_ (quiet.aside.link ▸ safe.up)
  rw [inFlight_adds (quiet.notes.mono Point.beside_of_ofDelivery)]
  exact idle

/-- While nothing is being written, nothing is in flight. -/
theorem idle_of_not_writing (safe : Safe first) (idle : first.state.tcp.isWriting = false) :
    inFlight first.notes = [] := by
  by_contra flight
  exact absurd (idle.symm.trans (safe.writing flight)) Bool.false_ne_true

/-- Writing is safe where nothing is being written. -/
theorem writeItems (safe : Safe first) (needCheck : Bool) (ret : Int)
    (notWriting : first.state.tcp.isWriting = false) :
    Safe (Pomelo.writeItems env needCheck ret first) := by
  have idle := safe.idle_of_not_writing notWriting
  have closed : ∀ entry ∈ (first.note (.write first.state.tcp.wq.writeWait ret)).notes,
      entry.1.ofSocket → entry.2.tcp.socket ≠ .open := by
    intro entry member ofSocket
    rcases List.mem_cons.mp member with rfl | member
    · exact absurd ofSocket Bool.false_ne_true
    · exact safe.closed entry member ofSocket
  rw [Pomelo.writeItems]
  split
  next failed =>
    have flight : inFlight (first.note (.write first.state.tcp.wq.writeWait ret)).notes = [] :=
      (if_neg failed).trans idle
    have noted : Safe (first.note (.write first.state.tcp.wq.writeWait ret)) :=
      .of_idle ⟨fun set => absurd flight set, closed⟩ flight safe.up
    exact noted.quiet_idle flight ((((Quiet.wq _ _).trans (.hold true _)).trans
      (.dropItems ..)).trans (.hold false _))
  next written =>
    have flight : inFlight (first.note (.write first.state.tcp.wq.writeWait ret)).notes =
        first.state.tcp.wq.writeWait := if_pos (not_not.mp written)
    have begun : Safe (((first.note (.write first.state.tcp.wq.writeWait ret)).wq
        WriteQueues.beginWrite).tcp fun tcp => { tcp with isWriting := true }) := by
      refine ⟨⟨fun _ => rfl, closed⟩, safe.up, fun _ item member => ?_⟩
      exact List.mem_append_right _ (flight ▸ member)
    exact begun.plain (.startCheck ..)

theorem tcpWriteAsyncCb (safe : Safe first) (ret : Int) :
    Safe (Pomelo.tcpWriteAsyncCb env ret first) := by
  have cleared : Safe (first.tcp fun tcp => { tcp with writeAsync := false }) :=
    safe.tcp rfl rfl rfl rfl rfl
  have drained {sys : Sys} (safe : Safe sys) : Safe (drainPending sys) := by
    rw [drainPending]
    split
    · exact safe.wq rfl
    · exact safe
  rw [Pomelo.tcpWriteAsyncCb]
  dsimp only
  split
  · exact cleared
  next other =>
    split
    · exact (drained cleared).plain (.startCheck ..)
    · refine (drained cleared).writeItems _ ret ?_
      have idle := Bool.eq_false_of_not_eq_true (not_or.mp other).2
      rw [drainPending]
      split <;> exact idle

/-- What follows a write is safe where nothing is in flight. -/
theorem tcpWriteDoneCb (safe : Safe first) (status : Int) (idle : inFlight first.notes = []) :
    Safe (Pomelo.tcpWriteDoneCb env status first) := by
  have plain : Plain first (first.assert (fun core => core.tcp.isWriting) .writeDoneWriting) :=
    .assert _ _ first
  have asserted := safe.plain plain
  have flight : inFlight (first.assert (fun core => core.tcp.isWriting) .writeDoneWriting).notes =
      [] := (inFlight_adds (Adds.mono Point.beside_of_plain plain.notes)).trans idle
  have done : Safe ((first.assert (fun core => core.tcp.isWriting) .writeDoneWriting).tcp
      fun tcp => { tcp with isWriting := false }) :=
    .of_idle ⟨fun set => absurd flight set, asserted.closed⟩ flight asserted.up
  rw [Pomelo.tcpWriteDoneCb]
  refine Safe.tcp (done.quiet_idle flight ?_) rfl rfl rfl rfl rfl
  exact ((Quiet.hold true _).trans (.finishWrites ..)).trans (.hold false _)

end Safe

/-- A callback is noted. -/
theorem Safe.callback (safe : Safe first) (event : LoopEvent) :
    Safe (first.note (.callback event)) := by
  cases event with
  | writeDone status =>
      refine .of_idle ⟨fun flight => absurd rfl flight, ?_⟩ rfl safe.up
      intro entry member ofSocket
      rcases List.mem_cons.mp member with rfl | member
      · exact absurd ofSocket Bool.false_ne_true
      · exact safe.closed entry member ofSocket
  | _ => exact safe.note _ rfl

/-- An attempt is started where no socket is open. -/
theorem Noted.attempt (noted : Noted first) (socket : first.state.tcp.socket ≠ .open)
    (after : Plain first.attempt second) : Noted second :=
  have begun : Noted (first.note .attempt) := noted.noteSocket socket fun flight => absurd rfl flight
  begun.plain_tcp rfl after

/-- The connection is up. -/
theorem Safe.connect (safe : Safe first) : Safe first.connect := by
  refine safe.map (·.adds rfl (.of_notes rfl)) id (fun _ => .inr ?_) rfl rfl
  rintro (down | down) <;> cases down

/-- A package of the transport's own waits to be written. -/
theorem Safe.sendFirst (safe : Safe first) (buf : UvBuf) : Safe (Pomelo.sendFirst buf first) := by
  have queued : Safe (first.wq fun queues =>
      { queues.allocate (first.state.internalItem buf).slot with
        writeWait := first.state.internalItem buf :: queues.writeWait }) :=
    safe.wq (WriteQueues.items_allocate _ _ .writing)
  rw [Pomelo.sendFirst]
  exact queued.tcp rfl rfl rfl rfl rfl

/-- An internal package is not written yet. -/
theorem Safe.sendLast (safe : Safe first) (buf : UvBuf) : Safe (Pomelo.sendLast buf first) := by
  have queued : Safe (first.wq fun queues =>
      { queues.allocate (first.state.internalItem buf).slot with
        writeWait := queues.writeWait ++ [first.state.internalItem buf] }) :=
    safe.wq (WriteQueues.items_allocate _ _ .writing)
  rw [Pomelo.sendLast]
  exact queued.tcp rfl rfl rfl rfl rfl

/-- A turn of the loop closes no socket under a write, and leaves none open. -/
theorem Safe.turn {event : LoopEvent} (turn : Turn env event (first.note (.callback event)) second)
    (meets : second.Meets ClosesSockets) (start : Safe first) : Safe second := by
  have safe := start.callback event
  -- an attempt that is noted in a transport that is down finds the socket closed
  have closed {mid : Sys} (idle : first.state.tcp.isConnecting = false)
      (before : Plain (first.note (.callback event)) mid)
      (noted : mid.attempt.notes <:+ second.notes) : mid.state.tcp.socket ≠ .open := by
    have down := (meets (.attempt, mid.state) (noted.subset (List.mem_cons_self ..))).attempt rfl
    intro opened
    rw [before.tcp.link] at down
    have up := safe.up ((congrArg Link.socket before.tcp.link).symm.trans opened)
    exact up.elim (fun set => absurd (idle.symm.trans set) Bool.false_ne_true) (· down)
  cases turn with
  | plain plain => exact safe.plain plain
  | @attempt mid next last idle before between after =>
      have socket := closed idle before (between.suffix.trans after.suffix_tcp)
      have noted := (safe.toNoted.plain before).attempt socket between
      have idle : inFlight next.notes = [] :=
        inFlight_adds (Adds.mono Point.beside_of_plain between.notes)
      have begun : Safe (next.tcp fun tcp => { tcp with isConnecting := true }) :=
        .of_idle (noted.adds rfl (.of_notes rfl)) idle fun _ => .inl rfl
      exact begun.plain after
  | @attemptFails mid last reason idle before after =>
      have socket := closed idle before (after.suffix.trans (suffix_fire_tcpReconn _ _ _ _))
      exact (Shut.fire_tcpReconn ((safe.toNoted.plain before).attempt socket after) _ _ _ meets).safe
  | @connects last buf timer handshake set isUp after =>
      exact ((safe.connect.plain after).sendFirst buf).tcp rfl rfl rfl rfl rfl
  | @connectsUnsent last timer set isUp after =>
      exact ((safe.connect.plain after).plain (.crash _ _)).tcp rfl rfl rfl rfl rfl
  | readFails set after =>
      exact (Shut.tcpReconn (safe.toNoted.plain_tcp rfl after) meets).safe
  | connectFails reason set after =>
      exact (Shut.fire_tcpReconn (safe.toNoted.plain_tcp rfl after) _ _ _ meets).safe
  | connTimeout after =>
      have shut : Shut ((first.note (.callback event)).tcp fun tcp =>
          { tcp with socket := .closing }) := ⟨safe.toNoted.adds rfl (.of_notes rfl), nofun⟩
      exact (shut.plain after).safe
  | handshakeLate late active =>
      have stopped : Noted ((first.note (.callback event)).tcp fun tcp =>
          { tcp with handshakeTimer := tcp.handshakeTimer.stop }) :=
        safe.toNoted.adds rfl (.of_notes rfl)
      exact (Shut.fire_tcpReconn stopped _ _ _ meets).safe
  | heartbeatLate active after =>
      exact (Shut.fire_tcpReconn (safe.toNoted.plain_tcp rfl after) _ _ _ meets).safe
  | readError reading isUp => exact (Shut.fire_tcpReconn safe.toNoted _ _ _ meets).safe
  | @heartbeat mid last timer active before after =>
      have stopped : Safe ((first.note (.callback event)).tcp fun tcp =>
        { tcp with hbTimer := tcp.hbTimer.stop }) := safe.tcp rfl rfl rfl rfl rfl
      exact Safe.plain (Safe.tcp ((stopped.plain before).sendLast _) rfl rfl rfl rfl rfl) after
  | reconnDelay active => exact safe.tcp rfl rfl rfl rfl rfl
  | @disconnected mid last before after =>
      have meets : last.Meets ClosesSockets := meets.of_suffix (suffix_fireEvent ..)
      have closes := (meets _ (after.suffix.subset (mem_tcpReset env mid))).reset rfl
      have reset : Shut (tcpReset env mid) := .tcpReset (safe.toNoted.plain before) closes
      exact ((reset.plain after).fireEvent _ _ _).safe
  | @cleanedUp mid before =>
      have closes := ((meets_cleanUp _).mp meets _ (mem_tcpReset env mid)).reset rfl
      exact (Shut.tcpReset (safe.toNoted.plain before) closes).cleanUp.safe
  | writes ret => exact safe.tcpWriteAsyncCb ret
  | written status done writing => subst done; exact safe.tcpWriteDoneCb status rfl
  | checks active =>
      have stopped : Safe ((first.note (.callback event)).tcp fun tcp =>
        { tcp with checkTimeout := tcp.checkTimeout.stop }) := safe.tcp rfl rfl rfl rfl rfl
      exact stopped.tcpWriteCheckTimeoutCb

theorem Safe.package {type : UInt8} {data : Option Bytes}
    (handles : Handles env type (first.note (.package type data)) second)
    (meets : second.Meets ClosesSockets) (start : Safe first) : Safe second := by
  have safe := start.note (.package type data) rfl
  cases handles with
  | plain plain => exact safe.plain plain
  | @kicked mid kick before =>
      have closes := (meets _ (mem_tcpReset env _)).reset rfl
      exact (Shut.tcpReset ((safe.toNoted.plain before).fireEvent _ _ _) closes).safe
  | @failed mid last timer handshake before after =>
      have set : Safe (mid.tcp fun tcp => { tcp with handshakeTimer := timer }) :=
        (safe.plain before).tcp rfl rfl rfl rfl rfl
      exact set.plain after
  | @refused mid next last timer handshake before between after =>
      have meets : (handshakeFailed env next).Meets ClosesSockets := meets.of_suffix after.suffix
      have closes := (meets _ (mem_tcpReset env _)).reset rfl
      have answered : Noted next := (safe.toNoted.plain before).plain_tcp rfl between
      have reset : Shut (handshakeFailed env next) :=
        .tcpReset (answered.fireEvent _ _ _) closes
      exact (reset.plain after).safe
  | @accepted mid next last timer hbTimer handshake before between after =>
      have set : Safe (mid.tcp fun tcp => { tcp with handshakeTimer := timer }) :=
        (safe.plain before).tcp rfl rfl rfl rfl rfl
      have acked : Safe ((tcpSendHandshakeAck env next).tcp fun tcp =>
          { tcp with state := .done, hbTimer := hbTimer }) := by
        refine ((set.plain between).sendFirst _).map (·.adds rfl (.of_notes rfl)) id
          (fun _ => .inr ?_) rfl rfl
        rintro (down | down) <;> cases down
      exact (acked.fireEvent _ _ _).plain after
  | undecodable reason data before =>
      exact (Shut.fire_tcpReconn (safe.toNoted.plain before) _ _ _ meets).safe
  | pushed route text data before => exact (safe.plain before).fireEvent _ _ _
  | @answered mid last reqId text data before after =>
      have answered := ((safe.plain before).delivered
        (delivered_pcTransResp reqId pcRcOk (some text) mid)).plain after
      refine answered.wq ?_
      rw [WriteQueues.answer]
      split
      · rfl
      · exact WriteQueues.items_recycle _ _ .writing
  | @heartbeat mid timer beat waiting before last after =>
      have set : Safe (mid.tcp fun tcp => { tcp with
          hbTimeoutTimer := tcp.hbTimeoutTimer.stop
          isWaitingHb := false
          hbTimer := timer }) := (safe.plain before).tcp rfl rfl rfl rfl rfl
      exact set.plain after

/-- In every run whose steps meet the condition, every socket is closed. -/
theorem socketsClosed_of_reachable {sys : Sys} (reached : Reachable env sys)
    (meets : sys.Meets ClosesSockets) : SocketsClosed sys := by
  obtain ⟨evHandlers, tcp, stored, init, ran⟩ := reached
  have link : (Sys.init evHandlers tcp stored).state.tcp.link = Transport.init.link :=
    (alike_loadLocalStorage init).link
  have start : Shut (Sys.init evHandlers tcp stored) := by
    refine ⟨⟨fun flight => absurd rfl flight, fun _ member => absurd member List.not_mem_nil⟩, ?_⟩
    exact (congrArg Link.socket link).trans_ne nofun
  have safe : Safe sys := holds_of_reachable start.safe (fun step =>
    keeps_turn_step Safe.keeps_deliver (fun plain safe => safe.plain plain)
      (fun _ turn meets safe => safe.turn turn meets) (fun safe => safe.callback _)
      (fun handles meets safe => safe.package handles meets) step) ran meets
  exact ⟨safe.closed, safe.kept⟩

/-- The server closes the connection while a message is being written. -/
def notifyLost : List Label := notifyInFlight ++ [.loop .readError]

/-- A run in which the server hangs up under a write. -/
theorem socketsClosed_notifyLost :
    ∃ sys, SampleEnds (fun _ => []) notifyLost sys ∧ sys.Meets ClosesSockets ∧
      SocketsClosed sys := by
  obtain ⟨sys, ends, meets⟩ := exists_sampleEnds (fun _ => []) notifyLost
    (fun sys => sys.Meets ClosesSockets) (by decide +kernel)
  exact ⟨sys, ends, meets, socketsClosed_of_reachable ends.reachable meets⟩

/-- The server kicks the client while a message is being written. -/
def notifyKicked : List Label := notifyInFlight ++ [.loop (.read kickBytes)]

/-- The client is INITED when the transport is reset: the socket stays open, and the
message is freed. -/
theorem socketsClosed_fails_notifyKicked :
    ¬ ∀ (env : Env) (sys : Sys), env.config.enablePolling = false → Reachable env sys →
      SocketsClosed sys := by
  intro claim
  obtain ⟨sys, ends, opened⟩ := exists_sampleEnds (fun _ => []) notifyKicked
    (fun sys => ¬ ∀ entry ∈ sys.notes, entry.1.ofSocket → entry.2.tcp.socket ≠ .open)
    (by decide +kernel)
  exact opened (claim _ _ rfl ends.reachable).closed

end Pomelo
