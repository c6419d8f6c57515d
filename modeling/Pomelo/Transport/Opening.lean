import Pomelo.Transport.Order

/-!
# How a connection is opened

The packages that are written on a connection: a HANDSHAKE, its HANDSHAKE_ACK, and only
then messages and heartbeats. Messages that are queued before the handshake is done wait
in another queue, and what was queued for an earlier connection has been dropped.
-/

namespace Pomelo

open Transition Recorded

variable {env : Env} {first second : Sys}

/-- A package of the transport's own, as it is sent. -/
def WriteItem.Own (type : PkgType) (item : WriteItem) : Prop :=
  item.type = .internal ∧ item.pkgType = some type.code

instance (type : PkgType) (item : WriteItem) : Decidable (item.Own type) :=
  inferInstanceAs (Decidable (_ ∧ _))

/-- A package of the transport's own, unless it could not be encoded. -/
def WriteItem.Meant (type : PkgType) (item : WriteItem) : Prop :=
  item.type = .internal ∧ (item.buf.base = none ∨ item.pkgType = some type.code)

/-- One HANDSHAKE, one HANDSHAKE_ACK, and then messages and heartbeats, or the beginning
of that. -/
def Opening (own : PkgType → WriteItem → Prop) : List WriteItem → Prop
  | [] => True
  | [greeting] => own .handshake greeting
  | greeting :: ack :: rest => own .handshake greeting ∧ own .handshakeAck ack ∧
      ∀ item ∈ rest, item.isMessage = true ∨ own .heartbeat item

instance (own : PkgType → WriteItem → Prop) [∀ type, DecidablePred (own type)] :
    DecidablePred (Opening own)
  | [] => inferInstanceAs (Decidable True)
  | [greeting] => inferInstanceAs (Decidable (own .handshake greeting))
  | _ :: _ :: _ => inferInstanceAs (Decidable (_ ∧ _ ∧ _))

/-- A package comes in that answers a handshake. -/
def Point.isAnswer : Point → Bool
  | .package type _ => type = PkgType.handshake.code
  | _ => false

/-- What is handed to `uv_write`. -/
def Point.written : Point → List WriteItem
  | .write items _ => items
  | _ => []

/-- What is expected of the server: a handshake is answered after it has been received,
when it does not wait to be written any more. -/
structure AnswersReceived (point : Point) (core : Core) : Prop where
  received : point.isAnswer → core.tcp.state = .handshakeing →
    ∀ item ∈ core.tcp.wq.writeWait, item.type ≠ .internal

instance (point : Point) (core : Core) : Decidable (AnswersReceived point core) :=
  decidable_of_iff (point.isAnswer → core.tcp.state = .handshakeing →
      ∀ item ∈ core.tcp.wq.writeWait, item.type ≠ .internal)
    ⟨fun received => ⟨received⟩, fun ⟨received⟩ => received⟩

/-- The condition on the notes of a run. -/
structure OpensInTurn (point : Point) (core : Core) : Prop where
  /-- An attempt is only started when there is no connection. -/
  attempt : point.isAttempt → core.tcp.link.Down
  /-- A handshake is answered while it is under way. -/
  answer : point.isAnswer → core.tcp.state = .handshakeing
  /-- The packages of the transport's own that are written could be encoded. -/
  write : ∀ item ∈ point.written, item.type = .internal → item.buf.base.isSome

instance (point : Point) (core : Core) : Decidable (OpensInTurn point core) :=
  decidable_of_iff ((point.isAttempt → core.tcp.link.Down) ∧
      (point.isAnswer → core.tcp.state = .handshakeing) ∧
      ∀ item ∈ point.written, item.type = .internal → item.buf.base.isSome)
    ⟨fun ⟨attempt, answer, write⟩ => ⟨attempt, answer, write⟩,
      fun ⟨attempt, answer, write⟩ => ⟨attempt, answer, write⟩⟩

namespace Opening

variable {own : PkgType → WriteItem → Prop} {items others : List WriteItem} {item : WriteItem}

/-- Once the handshake is done, messages and heartbeats can follow. -/
theorem append (opening : Opening own items) (done : 2 ≤ items.length)
    (follow : ∀ item ∈ others, item.isMessage = true ∨ own .heartbeat item) :
    Opening own (items ++ others) := by
  match items with
  | greeting :: ack :: rest =>
      refine ⟨opening.1, opening.2.1, fun item member => ?_⟩
      exact (List.mem_append.mp member).elim (opening.2.2 item) (follow item)

/-- What is meant as an internal package is no message. -/
theorem not_message {type : PkgType} (meant : item.Meant type) : item.isMessage = false := by
  rw [WriteItem.isMessage, meant.1]
  rfl

/-- A message stands behind the handshake, and can be taken away. -/
theorem erase (opening : Opening WriteItem.Meant (items ++ item :: others))
    (message : item.isMessage = true) :
    Opening WriteItem.Meant (items ++ others) ∧ 2 ≤ (items ++ others).length := by
  match items with
  | [] =>
      have meant : item.Meant .handshake := by
        cases others with
        | nil => exact opening
        | cons ack rest => exact opening.1
      exact absurd (message.symm.trans (not_message meant)) nofun
  | [greeting] => exact absurd (message.symm.trans (not_message opening.2.1)) nofun
  | greeting :: ack :: rest =>
      refine ⟨⟨opening.1, opening.2.1, fun other member => opening.2.2 other ?_⟩, ?_⟩
      · exact List.mem_append.mpr ((List.mem_append.mp member).imp_right (List.mem_cons_of_mem _))
      · simp only [List.cons_append, List.length_cons]
        omega

/-- An internal package that was encoded is its own. -/
theorem own_of_meant {type : PkgType} (meant : item.Meant type)
    (encoded : item.type = .internal → item.buf.base.isSome) : item.Own type := by
  refine ⟨meant.1, meant.2.resolve_left fun none => ?_⟩
  exact absurd (none ▸ encoded meant.1) nofun

/-- If all packages could be encoded, they are what they are meant to be. -/
theorem of_encoded (opening : Opening WriteItem.Meant items)
    (encoded : ∀ item ∈ items, item.type = .internal → item.buf.base.isSome) :
    Opening WriteItem.Own items := by
  match items with
  | [] => trivial
  | [greeting] => exact own_of_meant opening (encoded greeting (List.mem_singleton_self _))
  | greeting :: ack :: rest =>
      refine ⟨own_of_meant opening.1 (encoded greeting (by simp)),
        own_of_meant opening.2.1 (encoded ack (by simp)), fun item member => ?_⟩
      exact (opening.2.2 item member).imp_right fun meant =>
        own_of_meant meant (encoded item (by simp [member]))

end Opening

/-- What has been written on the connection, and what waits for it. -/
def Sys.line (sys : Sys) : List WriteItem := wire sys.notes ++ sys.state.tcp.wq.whole .writeWait

/-- The invariant, while one of the queues or none is being checked for timeouts. -/
structure Opens (checked : Option WiQueue) (sys : Sys) : Prop where
  written : Opening WriteItem.Meant (wire sys.notes)
  down : sys.state.tcp.link.Down → sys.state.tcp.wq.whole .writeWait = []
  unwritten : sys.state.tcp.link.Down → sys.state.tcp.link.isConnecting = true →
    wire sys.notes = []
  greets : sys.state.tcp.link.state = .handshakeing → Opening WriteItem.Meant sys.line ∧ sys.line.length = 1
  acked : sys.state.tcp.link.state = .done → Opening WriteItem.Meant sys.line ∧ 2 ≤ sys.line.length
  timed : ∀ item ∈ sys.state.tcp.wq.whole .writeWait, item.timed = true → item.isMessage = true
  pending : ∀ item ∈ sys.state.tcp.wq.whole .connPending, item.isMessage = true
  checked : sys.state.tcp.wq.tmp.map Prod.fst = checked

/-- All that is expected of a run. -/
abbrev OpensWell (point : Point) (core : Core) : Prop :=
  AnswersReceived point core ∧ OpensInTurn point core

namespace Opens

variable {checked next : Option WiQueue}

/-- The state, what has been written and what waits are the same. -/
theorem same (opens : Opens checked first)
    (state : second.state.tcp.link.state = first.state.tcp.link.state)
    (connecting : second.state.tcp.link.isConnecting = true →
      first.state.tcp.link.isConnecting = true)
    (written : wire second.notes = wire first.notes)
    (waits : second.state.tcp.wq.whole .writeWait = first.state.tcp.wq.whole .writeWait)
    (pends : ∀ item ∈ second.state.tcp.wq.whole .connPending, item.isMessage = true)
    (tmp : second.state.tcp.wq.tmp.map Prod.fst = next) : Opens next second := by
  have line : second.line = first.line := by rw [Sys.line, written, waits]; rfl
  have down : second.state.tcp.link.Down → first.state.tcp.link.Down := by
    rw [Link.Down, state]
    exact id
  refine ⟨written ▸ opens.written, ?_, ?_, ?_, ?_, waits ▸ opens.timed, pends, tmp⟩
  · rw [waits]
    exact fun isDown => opens.down (down isDown)
  · rw [written]
    exact fun isDown set => opens.unwritten (down isDown) (connecting set)
  · rw [state, line]
    exact opens.greets
  · rw [state, line]
    exact opens.acked

/-- What happens beside the queues keeps the opening, if it does not begin an attempt. -/
theorem alike (opens : Opens checked first) (beside : Beside first second)
    (state : second.state.tcp.link.state = first.state.tcp.link.state)
    (connecting : second.state.tcp.link.isConnecting = true →
      first.state.tcp.link.isConnecting = true) : Opens checked second :=
  opens.same state connecting (Numbered.notes_congr beside.notes .inl).1 (beside.wq ▸ rfl)
    (beside.wq ▸ opens.pending) (beside.wq ▸ opens.checked)

theorem beside (opens : Opens checked first) (beside : Beside first second)
    (link : second.state.tcp.link = first.state.tcp.link) : Opens checked second :=
  opens.alike beside (congrArg _ link) (link ▸ id)

theorem plain (opens : Opens checked first) (plain : Plain first second) : Opens checked second :=
  opens.beside (.of_plain plain) plain.tcp.link

theorem still (opens : Opens checked first) (still : Still first second) :
    Opens checked second := by
  have link := (Quiet.of_still still).aside.link
  exact opens.same (congrArg _ link) (link ▸ id) (Numbered.notes_congr still.adds .inr).1
    (still.wq ▸ rfl) (still.wq ▸ opens.pending) (still.wq ▸ opens.checked)

/-- Something is queued behind the other items once the handshake is done. -/
theorem push_back (opens : Opens checked first) (done : first.state.tcp.link.state = .done)
    (link : second.state.tcp.link = first.state.tcp.link)
    (written : wire second.notes = wire first.notes) {item : WriteItem}
    (follows : item.isMessage = true ∨ item.Meant .heartbeat)
    (untimed : item.timed = true → item.isMessage = true)
    (waits : second.state.tcp.wq.whole .writeWait =
      first.state.tcp.wq.whole .writeWait ++ [item])
    (pends : second.state.tcp.wq.whole .connPending = first.state.tcp.wq.whole .connPending)
    (tmp : second.state.tcp.wq.tmp.map Prod.fst = checked) : Opens checked second := by
  have line : second.line = first.line ++ [item] := by
    rw [Sys.line, written, waits, ← List.append_assoc]
    rfl
  obtain ⟨opening, length⟩ := opens.acked done
  refine ⟨written ▸ opens.written, ?_, ?_, ?_, ?_, ?_, pends ▸ opens.pending, tmp⟩
  · exact fun down => absurd (link ▸ done) down.not_done
  · exact fun down => absurd (link ▸ done) down.not_done
  · intro greets
    rw [link, done] at greets
    exact absurd greets nofun
  · intro _
    rw [line, List.length_append]
    refine ⟨opening.append length fun other member => ?_, Nat.le_add_right_of_le length⟩
    exact List.mem_singleton.mp member ▸ follows
  · rw [waits]
    intro other member
    rcases List.mem_append.mp member with earlier | last
    · exact opens.timed other earlier
    · exact List.mem_singleton.mp last ▸ untimed

/-- A message is queued. -/
theorem accept (opens : Opens checked first) {item : WriteItem} (accepts : first.state.Accepts item) :
    Opens checked (first.accept item) := by
  obtain ⟨message, -⟩ := Numbered.message_of_accepts accepts
  have link := (Quiet.accept item first).aside.link
  have waits := first.state.whole_insert item .writeWait
  have pends := first.state.whole_insert item .connPending
  have tmp : (first.accept item).state.tcp.wq.tmp.map Prod.fst = checked :=
    (congrArg _ (first.state.tmp_insert item)).trans opens.checked
  by_cases done : first.state.tcp.state = .done
  · have inbox : first.state.tcp.state.inbox = .writeWait := if_pos done
    rw [inbox, if_pos rfl] at waits
    rw [inbox, if_neg nofun] at pends
    exact opens.push_back done link rfl (.inl message) (fun _ => message) waits pends tmp
  · have inbox := TcpState.inbox_of_ne_done done
    rw [inbox, if_neg nofun] at waits
    rw [inbox, if_pos rfl] at pends
    refine opens.same (congrArg _ link) (link ▸ id) rfl waits (fun other member => ?_) tmp
    rcases List.mem_append.mp (pends ▸ member) with earlier | last
    · exact opens.pending other earlier
    · exact List.mem_singleton.mp last ▸ message

theorem keeps_deliver (deliver : Deliver env first second) :
    Keeps OpensWell (Opens checked) first second :=
  Pomelo.keeps_deliver (fun still opens => opens.still still)
    (fun accepts _ opens => opens.accept accepts) deliver

theorem delivered (opens : Opens checked first) (delivered : Delivered env first second)
    (meets : second.Meets OpensWell) : Opens checked second :=
  (keeps_delivered keeps_deliver delivered).holds meets opens

theorem fireEvent (opens : Opens checked first) (type : EvType) (arg1 arg2 : Option CStr)
    (meets : (Pomelo.fireEvent env type arg1 arg2 first).Meets OpensWell) :
    Opens checked (Pomelo.fireEvent env type arg1 arg2 first) :=
  (opens.beside (.note rfl first) rfl).delivered (delivered_fireEvent type arg1 arg2 first) meets

/-- Another part of the queues changes. -/
theorem elsewhere (opens : Opens checked first) {act : WriteQueues → WriteQueues}
    (waits : (act first.state.tcp.wq).whole .writeWait = first.state.tcp.wq.whole .writeWait)
    (pends : (act first.state.tcp.wq).whole .connPending = first.state.tcp.wq.whole .connPending)
    (tmp : (act first.state.tcp.wq).tmp.map Prod.fst = next) : Opens next (first.wq act) :=
  opens.same rfl id rfl waits (fun item member => opens.pending item (pends ▸ member)) tmp

theorem recycle (opens : Opens checked first) (item : WriteItem) :
    Opens checked (first.wq (WriteQueues.recycle item)) := by
  have tmp := WriteQueues.tmp_recycle item first.state.tcp.wq
  exact opens.elsewhere (WriteQueues.whole_congr tmp (WriteQueues.items_recycle ..))
    (WriteQueues.whole_congr tmp (WriteQueues.items_recycle ..))
    ((congrArg _ tmp).trans opens.checked)

/-- An item is taken off a queue that nothing depends on, or a timed item off another one. -/
theorem take (opens : Opens checked first) {queue : WiQueue} {item : WriteItem}
    {rest : List WriteItem} (items : first.state.tcp.wq.items queue = item :: rest)
    (timed : queue = .writeWait → item.timed = true) :
    Opens checked (first.wq (WriteQueues.setItems queue rest)) := by
  have tmp := WriteQueues.tmp_setItems queue rest first.state.tcp.wq
  have pends (other : WriteItem) (member : other ∈
      (first.state.tcp.wq.setItems queue rest).whole .connPending) : other.isMessage = true :=
    opens.pending other ((WriteQueues.whole_setItems items _).subset member)
  have marked : (first.wq (WriteQueues.setItems queue rest)).state.tcp.wq.tmp.map Prod.fst =
      checked := (congrArg _ tmp).trans opens.checked
  by_cases waits : queue = .writeWait
  · subst waits
    have before : first.state.tcp.wq.whole .writeWait =
        first.state.tcp.wq.tmpOf .writeWait ++ item :: rest := by rw [WriteQueues.whole, items]
    have after : (first.wq (WriteQueues.setItems .writeWait rest)).state.tcp.wq.whole .writeWait =
        first.state.tcp.wq.tmpOf .writeWait ++ rest := rfl
    have left (other : WriteItem) (member : other ∈ first.state.tcp.wq.tmpOf .writeWait ++ rest) :
        other ∈ first.state.tcp.wq.whole .writeWait := by
      rw [before]
      exact List.mem_append.mpr
        ((List.mem_append.mp member).imp_right (List.mem_cons_of_mem _))
    have message := opens.timed item (by rw [before]; simp) (timed rfl)
    have line : first.line = (wire first.notes ++ first.state.tcp.wq.tmpOf .writeWait) ++
        item :: rest := by rw [Sys.line, before, List.append_assoc]
    have shorter : (first.wq (WriteQueues.setItems .writeWait rest)).line =
        (wire first.notes ++ first.state.tcp.wq.tmpOf .writeWait) ++ rest := by
      rw [Sys.line, after, ← List.append_assoc]
      rfl
    have erase (opening : Opening WriteItem.Meant first.line) :
        Opening WriteItem.Meant (first.wq (WriteQueues.setItems .writeWait rest)).line ∧
          2 ≤ (first.wq (WriteQueues.setItems .writeWait rest)).line.length := by
      rw [line] at opening
      rw [shorter]
      exact opening.erase message
    refine ⟨opens.written, ?_, opens.unwritten, ?_, ?_, ?_, pends, marked⟩
    · intro down
      have none := opens.down down
      rw [before] at none
      exact absurd none (by simp)
    · intro greets
      obtain ⟨opening, length⟩ := opens.greets greets
      have long := (erase opening).2
      rw [line, List.length_append, List.length_cons] at length
      rw [shorter, List.length_append] at long
      omega
    · exact fun acked => erase (opens.acked acked).1
    · rw [after]
      exact fun other member => opens.timed other (left other member)
  · exact opens.same rfl id rfl (WriteQueues.whole_congr tmp
      (WriteQueues.items_setItems_of_ne (Ne.symm waits) rest _)) pends marked

/-- An item stays in the queue that is being checked. -/
theorem keep {queue : WiQueue} (opens : Opens (some queue) first) {item : WriteItem}
    {rest : List WriteItem} (items : first.state.tcp.wq.items queue = item :: rest) :
    Opens (some queue)
      ((first.wq (WriteQueues.setItems queue rest)).wq (WriteQueues.keep item)) := by
  have whole := WriteQueues.whole_keep opens.checked items
  refine opens.same rfl id rfl (whole _) (fun other member => ?_) ?_
  · exact opens.pending other (whole .connPending ▸ member)
  · change ((first.state.tcp.wq.setItems queue rest).tmp.map _).map _ = _
    rw [WriteQueues.tmp_setItems, Option.map_map]
    exact opens.checked

/-- While no queue is being checked, all items are in their queues. -/
theorem tmp_eq_none (opens : Opens none first) : first.state.tcp.wq.tmp = none :=
  Option.map_eq_none_iff.mp opens.checked

/-- What waits for the connection are messages. -/
theorem connPending (opens : Opens none first) :
    ∀ item ∈ first.state.tcp.wq.connPending, item.isMessage = true := by
  have pending := opens.pending
  rw [WriteQueues.whole_of_tmp opens.tmp_eq_none] at pending
  exact pending

/-- The check of a queue begins. -/
theorem beginCheck (opens : Opens none first) (queue : WiQueue) :
    Opens (some queue) (first.wq (WriteQueues.beginCheck queue)) := by
  have whole := WriteQueues.whole_of_tmp opens.tmp_eq_none
  have begun := WriteQueues.whole_beginCheck queue first.state.tcp.wq
  refine opens.elsewhere ?_ ?_ rfl
  · rw [begun, whole]
  · rw [begun, whole]

/-- It ends with the items that are kept. -/
theorem endCheck {queue : WiQueue} (opens : Opens (some queue) first) :
    Opens none (first.wq (WriteQueues.endCheck queue)) := by
  have ended := WriteQueues.whole_endCheck opens.checked
  exact opens.elsewhere (ended _) (ended _) rfl

/-- Dropping an item keeps the opening. -/
theorem keeps_dropItem (item : WriteItem) (rc : Int) (sys : Sys) :
    Keeps OpensWell (Opens checked) sys (dropItem env item rc sys) :=
  Pomelo.keeps_dropItem keeps_deliver (fun opens => opens.recycle _) item rc sys

/-- Only messages of the user have a timeout. -/
theorem expired_timed {item : WriteItem} {ct : Nat} (expired : item.expired ct = true) :
    item.timed = true :=
  (Bool.and_eq_true_iff.mp expired).1

/-- A whole check. -/
theorem keeps_check (queue : WiQueue) (cont : Bool) (sys : Sys) :
    Keeps OpensWell (Opens none) sys (tcpCheckQueueTimeout env queue cont sys).1 := by
  have begun : Leads OpensWell (Opens none) (Opens (some queue)) sys
      (sys.wq (WriteQueues.beginCheck queue)) :=
    ⟨List.suffix_refl _, fun _ opens => opens.beginCheck queue⟩
  have looked : Keeps OpensWell (Opens (some queue)) (sys.wq (WriteQueues.beginCheck queue))
      (checkQueueLoop env queue sys.state.clock env.passes cont
        (sys.wq (WriteQueues.beginCheck queue))).1 :=
    keeps_checkQueueLoop keeps_deliver (fun opens => opens.recycle _)
      (fun opens => opens.beside (.crash _ _) rfl)
      (fun items expired opens => opens.take items fun _ => expired_timed expired)
      (fun items opens => opens.keep items) env.passes cont _
  have ended (sys : Sys) : Leads OpensWell (Opens (some queue)) (Opens none) sys
      (sys.wq (WriteQueues.endCheck queue)) :=
    ⟨List.suffix_refl _, fun _ opens => opens.endCheck⟩
  exact (begun.trans looked).trans (ended _)

/-- What has been queued before the handshake was done goes behind the other items. -/
theorem drain (opens : Opens none first) (done : first.state.tcp.state = .done) :
    Opens none (first.wq WriteQueues.drain) := by
  have waits := WriteQueues.whole_of_tmp opens.tmp_eq_none
  have tmp : first.state.tcp.wq.drain.tmp = none := opens.tmp_eq_none
  have drained := WriteQueues.whole_of_tmp tmp
  have after : (first.wq WriteQueues.drain).state.tcp.wq.whole .writeWait =
      first.state.tcp.wq.whole .writeWait ++ first.state.tcp.wq.whole .connPending := by
    rw [waits, waits]
    exact drained .writeWait
  have none : (first.wq WriteQueues.drain).state.tcp.wq.whole .connPending = [] :=
    drained .connPending
  have line : (first.wq WriteQueues.drain).line =
      first.line ++ first.state.tcp.wq.whole .connPending := by
    rw [Sys.line, after, ← List.append_assoc]
    rfl
  obtain ⟨opening, length⟩ := opens.acked done
  refine ⟨opens.written, fun down => absurd done down.not_done,
    fun down => absurd done down.not_done, fun greets => ?_, fun _ => ?_, ?_, ?_, opens.checked⟩
  · exact absurd (greets.symm.trans done) nofun
  · rw [line, List.length_append]
    exact ⟨opening.append length fun item member => .inl (opens.pending item member),
      Nat.le_add_right_of_le length⟩
  · rw [after]
    intro item member
    rcases List.mem_append.mp member with earlier | pending
    · exact opens.timed item earlier
    · exact fun _ => opens.pending item pending
  · rw [none]
    exact fun _ member => absurd member List.not_mem_nil

/-- All that waits is written. -/
theorem write (opens : Opens none first) (ret : Int) :
    Opens none ((first.note (.write first.state.tcp.wq.writeWait ret)).wq
      WriteQueues.beginWrite) := by
  have waits := WriteQueues.whole_of_tmp opens.tmp_eq_none
  have tmp : first.state.tcp.wq.beginWrite.tmp = none := opens.tmp_eq_none
  have begun := WriteQueues.whole_of_tmp tmp
  have written : wire ((first.note (.write first.state.tcp.wq.writeWait ret)).wq
      WriteQueues.beginWrite).notes = first.line := by
    rw [Sys.line, waits]
    rfl
  have none : ((first.note (.write first.state.tcp.wq.writeWait ret)).wq
      WriteQueues.beginWrite).state.tcp.wq.whole .writeWait = [] := begun .writeWait
  have pends : ((first.note (.write first.state.tcp.wq.writeWait ret)).wq
      WriteQueues.beginWrite).state.tcp.wq.whole .connPending =
        first.state.tcp.wq.whole .connPending := by
    rw [waits]
    exact begun .connPending
  have line : ((first.note (.write first.state.tcp.wq.writeWait ret)).wq
      WriteQueues.beginWrite).line = first.line := by
    rw [Sys.line, written, none, List.append_nil]
  have idle (down : first.state.tcp.link.Down) : first.line = wire first.notes := by
    rw [Sys.line, opens.down down, List.append_nil]
  refine ⟨?_, fun _ => none, ?_, line ▸ opens.greets, line ▸ opens.acked, ?_,
    pends ▸ opens.pending, opens.checked⟩
  · rw [written]
    cases state : first.state.tcp.link.state with
    | notConn => exact idle (.inl state) ▸ opens.written
    | connecting => exact idle (.inr state) ▸ opens.written
    | handshakeing => exact (opens.greets state).1
    | done => exact (opens.acked state).1
  · intro down connecting
    rw [written, idle down]
    exact opens.unwritten down connecting
  · rw [none]
    exact fun _ member => absurd member List.not_mem_nil

theorem rules : QueueRules env OpensWell (Opens none) where
  aside beside link opens := opens.beside beside link
  deliver := keeps_deliver
  drop {sys queue item rest} rc which items := by
    have taken : Keeps OpensWell (Opens none) sys (sys.wq (WriteQueues.setItems queue rest)) := by
      refine ⟨List.suffix_refl _, fun _ opens => opens.take items fun waits => ?_⟩
      rcases which with writing | answered
      · exact absurd (writing.symm.trans waits) nofun
      · exact absurd (answered.symm.trans waits) nofun
    exact taken.trans (keeps_dropItem ..)
  drain done opens := opens.drain done
  write ret _ opens := opens.write ret
  await items resp opens := opens.elsewhere rfl rfl opens.checked
  check queue cont _ := keeps_check queue cont _

end Opens

/-- What is left of a connection when it is given up. -/
structure Left (sys : Sys) : Prop where
  written : Opening WriteItem.Meant (wire sys.notes)
  unwritten : sys.state.tcp.link.isConnecting = true → wire sys.notes = []
  pending : ∀ item ∈ sys.state.tcp.wq.connPending, item.isMessage = true
  tmp : sys.state.tcp.wq.tmp = none

/-- A connection that is down, with nothing to be written. -/
theorem Left.opens {sys : Sys} (left : Left sys) (down : sys.state.tcp.link.Down)
    (waits : sys.state.tcp.wq.writeWait = []) : Opens none sys := by
  have whole := WriteQueues.whole_of_tmp left.tmp
  have none : sys.state.tcp.wq.whole .writeWait = [] := (whole .writeWait).trans waits
  refine ⟨left.written, fun _ => none, fun _ => left.unwritten, ?_, ?_, ?_, ?_, congrArg _ left.tmp⟩
  · intro greets
    exact absurd (down.imp (greets.symm.trans ·) (greets.symm.trans ·)) (by simp)
  · exact fun acked => absurd acked down.not_done
  · rw [none]
    exact fun _ member => absurd member List.not_mem_nil
  · rw [whole]
    exact left.pending

theorem Left.tcpReset {sys : Sys} (left : Left sys) (meets : (tcpReset env sys).Meets OpensWell) :
    Opens none (tcpReset env sys) := by
  let closed := ((sys.note .reset).tcp Transport.stopAll).change Core.closeSocket
  have stopped : Beside sys closed :=
    ((Beside.note rfl sys).trans (.tcp _ rfl)).trans (.closeSocket _)
  have link := link_closeSocket ((sys.note .reset).tcp Transport.stopAll).state
  have written := (Numbered.notes_congr stopped.notes .inl).1
  have tmp : closed.state.tcp.wq.tmp = none := stopped.wq ▸ left.tmp
  have connecting := congrArg Link.isConnecting link
  have gathered : Opens none ((closed.hold true).wq WriteQueues.gather) := by
    refine Left.opens ⟨written ▸ left.written, fun set => ?_, ?_, tmp⟩
      (.inl (congrArg Link.state link)) rfl
    · exact written.trans (left.unwritten (connecting.symm.trans set))
    · exact fun _ member => absurd member List.not_mem_nil
  have dropped (sys : Sys) : Keeps OpensWell (Opens none) sys
      (dropItems env .writing pcRcReset sys.state.tcp.wq.writing.length sys) :=
    Opens.rules.dropItems (.inl rfl) _ _ sys
  have answered (sys : Sys) : Keeps OpensWell (Opens none) sys
      (dropItems env .respPending pcRcReset sys.state.tcp.wq.respPending.length sys) :=
    Opens.rules.dropItems (.inr rfl) _ _ sys
  have ended (sys : Sys) : Keeps OpensWell (Opens none) sys ((sys.hold false).note .resetDone) :=
    ⟨List.suffix_cons _ _, fun _ opens =>
      opens.beside ((Beside.hold false sys).trans (.note rfl _)) rfl⟩
  exact (((dropped _).trans (answered _)).trans (ended _)).holds meets gathered

namespace Opens

/-- The fields of a connection that is down, and stays so, change. -/
theorem relink (opens : Opens none first) (beside : Beside first second)
    (before : first.state.tcp.link.Down) (after : second.state.tcp.link.Down)
    (connecting : second.state.tcp.link.isConnecting = true →
      first.state.tcp.link.isConnecting = true) : Opens none second := by
  have written := (Numbered.notes_congr beside.notes .inl).1
  have whole := WriteQueues.whole_of_tmp opens.tmp_eq_none
  have waits := (whole .writeWait).symm.trans (opens.down before)
  refine Left.opens ⟨written ▸ opens.written, fun set => ?_, beside.wq ▸ ?_,
    beside.wq ▸ opens.tmp_eq_none⟩ after (beside.wq ▸ waits)
  · exact written ▸ opens.unwritten before (connecting set)
  · exact opens.connPending

/-- What is left of a connection, wherever it is given up. -/
theorem left (opens : Opens none first) (sound : first.state.tcp.link.Sound) : Left first where
  written := opens.written
  unwritten set := opens.unwritten (sound.connecting set) set
  pending := opens.connPending
  tmp := opens.tmp_eq_none

theorem giveUp (opens : Opens none first) (down : first.state.tcp.link.Down) (reason : String)
    (meets : (Pomelo.giveUp env reason first).Meets OpensWell) :
    Opens none (Pomelo.giveUp env reason first) := by
  let fired := fireReason env .connectFailed reason first
  have reported : Opens none fired := opens.fireEvent _ _ _ (meets_note.mp meets).2
  have link : fired.state.tcp.link = first.state.tcp.link := link_fireEvent _ _ _ first
  exact reported.relink ((Beside.note rfl fired).trans (.tcp _ rfl)) (link ▸ down) (.inl rfl) id

theorem armReconn (opens : Opens none first) (down : first.state.tcp.link.Down) :
    Opens none (Pomelo.armReconn env first) := by
  rw [Pomelo.armReconn]
  split
  · exact opens.relink ((Beside.tcp first rfl).trans (.crash _ _)) down down id
  next delay _ =>
    have noted (sys : Sys) : Beside sys (sys.note (.reconnArmed delay)) := .note rfl sys
    exact opens.relink (((Beside.tcp first rfl).trans (noted _)).trans (.tcp _ rfl)) down down id

theorem reconnAgain (opens : Opens none first) (down : first.state.tcp.link.Down)
    (meets : (Pomelo.reconnAgain env first).Meets OpensWell) :
    Opens none (Pomelo.reconnAgain env first) := by
  have again : Opens none (first.tcp fun tcp => { tcp with state := .connecting }) :=
    opens.relink (.tcp first rfl) down (.inr rfl) id
  rw [Pomelo.reconnAgain] at meets ⊢
  split at meets
  next disabled =>
    rw [if_pos disabled]
    exact again.giveUp (.inr rfl) _ meets
  next enabled =>
    rw [if_neg enabled]
    dsimp only at meets ⊢
    have counted : Opens none ((first.tcp fun tcp => { tcp with state := .connecting }).tcp
        fun tcp => { tcp with reconnTimes := toInt32 (tcp.reconnTimes + 1) }) :=
      again.beside (.tcp _ rfl) rfl
    split at meets
    next exceeded =>
      rw [if_pos exceeded]
      exact counted.giveUp (.inr rfl) _ meets
    next more =>
      rw [if_neg more]
      exact counted.armReconn (.inr rfl)

end Opens

theorem Left.tcpReconn {sys : Sys} (left : Left sys)
    (meets : (tcpReconn env sys).Meets OpensWell) : Opens none (tcpReconn env sys) := by
  have noted : Left (sys.note .reconn) := ⟨left.written, left.unwritten, left.pending, left.tmp⟩
  have reset := noted.tcpReset (meets.of_suffix (reconnected_reconnAgain env _).notes.suffix)
  refine reset.reconnAgain ?_ meets
  rw [link_tcpReset]
  exact .inl rfl

theorem Opens.fire_tcpReconn (opens : Opens none first) (sound : first.state.tcp.link.Sound)
    (type : EvType) (arg1 arg2 : Option CStr)
    (meets : (tcpReconn env (Pomelo.fireEvent env type arg1 arg2 first)).Meets OpensWell) :
    Opens none (tcpReconn env (Pomelo.fireEvent env type arg1 arg2 first)) := by
  have reported := opens.fireEvent type arg1 arg2 (meets.of_suffix (suffix_tcpReconn _))
  have link : (Pomelo.fireEvent env type arg1 arg2 first).state.tcp.link = first.state.tcp.link :=
    link_fireEvent type arg1 arg2 first
  exact (reported.left (link ▸ sound)).tcpReconn meets

/-- An encoded package means its type. -/
theorem meant_pcPkgEncode {item : WriteItem} (platform : Platform) (type : PkgType)
    (data : Option Bytes) (len : Nat) (internal : item.type = .internal)
    (buf : item.buf = pcPkgEncode platform type.code data len) : item.Meant type := by
  refine ⟨internal, ?_⟩
  rw [WriteItem.pkgType, buf, pcPkgEncode]
  split
  · exact .inl rfl
  · exact .inr rfl

theorem timed_internalItem (core : Core) (buf : UvBuf) : (core.internalItem buf).timed = false := rfl

/-- A package of the transport's own is queued where nothing waits. -/
theorem whole_sendFirst {sys : Sys} (buf : UvBuf) (tmp : sys.state.tcp.wq.tmp = none)
    (waits : sys.state.tcp.wq.writeWait = []) :
    (sendFirst buf sys).state.tcp.wq.tmp = none ∧
      (sendFirst buf sys).state.tcp.wq.whole .writeWait = [sys.state.internalItem buf] ∧
      (sendFirst buf sys).state.tcp.wq.whole .connPending = sys.state.tcp.wq.connPending := by
  have pushed : (sendFirst buf sys).state.tcp.wq.tmp = none :=
    (WriteQueues.tmp_allocate _ sys.state.tcp.wq).trans tmp
  have whole := WriteQueues.whole_of_tmp pushed
  refine ⟨pushed, ?_, ?_⟩
  · rw [whole]
    exact congrArg (sys.state.internalItem buf :: ·) waits
  · rw [whole]
    exact WriteQueues.items_allocate _ sys.state.tcp.wq .connPending

/-- A package of the transport's own is queued behind what waits. -/
theorem whole_sendLast {sys : Sys} (buf : UvBuf) (tmp : sys.state.tcp.wq.tmp = none) :
    (sendLast buf sys).state.tcp.wq.tmp = none ∧
      (sendLast buf sys).state.tcp.wq.whole .writeWait =
        sys.state.tcp.wq.whole .writeWait ++ [sys.state.internalItem buf] ∧
      (sendLast buf sys).state.tcp.wq.whole .connPending =
        sys.state.tcp.wq.whole .connPending := by
  have pushed : (sendLast buf sys).state.tcp.wq.tmp = none :=
    (WriteQueues.tmp_allocate _ sys.state.tcp.wq).trans tmp
  have after := WriteQueues.whole_of_tmp pushed
  have before := WriteQueues.whole_of_tmp tmp
  refine ⟨pushed, ?_, ?_⟩
  · rw [after, before]
    rfl
  · rw [after, before]
    exact WriteQueues.items_allocate _ sys.state.tcp.wq .connPending

/-- The process has crashed before its handshake could be sent. -/
structure Ended (sys : Sys) : Prop where
  crashed : sys.state.crashed = true
  written : wire sys.notes = []

namespace Opens

/-- The first package of a connection. -/
theorem sendHandshake {buf : UvBuf} (opens : Opens none first)
    (sound : first.state.tcp.link.Sound) (connecting : first.state.tcp.link.isConnecting = true)
    (handshake : HandshakeBuf env buf) (beside : Beside first second)
    (state : second.state.tcp.link.state = .handshakeing) :
    Opens none (sendFirst buf second) := by
  have down := sound.connecting connecting
  have written : wire second.notes = [] :=
    (Numbered.notes_congr beside.notes .inl).1.trans (opens.unwritten down connecting)
  have tmp : second.state.tcp.wq.tmp = none := beside.wq ▸ opens.tmp_eq_none
  have waits : second.state.tcp.wq.writeWait = [] := by
    rw [beside.wq]
    exact (WriteQueues.whole_of_tmp opens.tmp_eq_none .writeWait).symm.trans (opens.down down)
  have pending : ∀ item ∈ second.state.tcp.wq.connPending, item.isMessage = true :=
    beside.wq ▸ opens.connPending
  obtain ⟨data, len, encoded⟩ := handshake
  obtain ⟨pushed, alone, pends⟩ := whole_sendFirst buf tmp waits
  have line : (sendFirst buf second).line = [second.state.internalItem buf] := by
    rw [Sys.line, alone]
    exact congrArg (· ++ [second.state.internalItem buf]) written
  have up : ¬ (sendFirst buf second).state.tcp.link.Down := fun down =>
    absurd (down.imp (state.symm.trans ·) (state.symm.trans ·)) (by simp)
  refine ⟨?_, fun down => absurd down up, fun down => absurd down up, ?_, ?_, ?_, ?_,
    congrArg _ pushed⟩
  · change Opening WriteItem.Meant (wire second.notes)
    rw [written]
    trivial
  · rw [line]
    exact fun _ => ⟨meant_pcPkgEncode env.platform _ data len rfl encoded, rfl⟩
  · exact fun acked => absurd (state.symm.trans acked) nofun
  · rw [alone]
    intro other member timed
    rw [List.mem_singleton.mp member, timed_internalItem] at timed
    exact absurd timed Bool.false_ne_true
  · rw [pends]
    exact pending

/-- An attempt is started on a connection that is down. -/
theorem attempt (opens : Opens none first) (down : first.state.tcp.link.Down)
    (after : Beside first.attempt second) (still : second.state.tcp.link.Down) :
    Opens none second := by
  have written : wire second.notes = [] := (Numbered.notes_congr after.notes .inl).1
  have wq : second.state.tcp.wq = first.state.tcp.wq := after.wq
  have waits := (WriteQueues.whole_of_tmp opens.tmp_eq_none .writeWait).symm.trans (opens.down down)
  refine Left.opens ⟨?_, fun _ => written, wq ▸ opens.connPending, wq ▸ opens.tmp_eq_none⟩ still
    (wq ▸ waits)
  rw [written]
  trivial

/-- A heartbeat is queued behind everything else. -/
theorem sendHeartbeat (opens : Opens none first) (done : first.state.tcp.link.state = .done) :
    Opens none (sendLast (pcPkgEncode env.platform PkgType.heartbeat.code none 0) first) := by
  let item := first.state.internalItem (pcPkgEncode env.platform PkgType.heartbeat.code none 0)
  have meant : item.Meant .heartbeat := meant_pcPkgEncode env.platform .heartbeat none 0 rfl rfl
  obtain ⟨tmp, waits, pends⟩ := whole_sendLast
    (pcPkgEncode env.platform PkgType.heartbeat.code none 0) opens.tmp_eq_none
  refine opens.push_back done rfl rfl (.inr meant) (fun timed => ?_) waits pends (congrArg _ tmp)
  rw [timed_internalItem] at timed
  exact absurd timed Bool.false_ne_true

/-- A turn of the loop keeps the opening, or ends the transport. -/
theorem turn {event : LoopEvent} (turn : Turn env event (first.note (.callback event)) second)
    (meets : second.Meets OpensWell) (sound : first.state.tcp.link.Sound)
    (start : Opens none first) : Opens none second ∨ Ended second := by
  have opens : Opens none (first.note (.callback event)) := start.beside (.note rfl first) rfl
  cases turn with
  | plain plain => exact .inl (opens.plain plain)
  | @attempt mid next last idle before between after =>
      have down : mid.state.tcp.link.Down := (meets (.attempt, mid.state)
        ((between.suffix.trans after.suffix).subset (List.mem_cons_self ..))).2.attempt rfl
      have begun : Beside mid.attempt second :=
        (Beside.of_plain between).trans ((Beside.tcp next rfl).trans (.of_plain after))
      refine .inl ((opens.plain before).attempt down begun (.inr ?_))
      exact (congrArg Link.state after.tcp.link).trans (congrArg Link.state between.tcp.link)
  | @attemptFails mid last reason idle before after =>
      have suffix : mid.attempt.notes <:+ (tcpReconn env
          (fireReason env .connectError reason last)).notes :=
        after.suffix.trans (suffix_fire_tcpReconn _ _ _ last)
      have down : mid.state.tcp.link.Down :=
        (meets (.attempt, mid.state) (suffix.subset (List.mem_cons_self ..))).2.attempt rfl
      have begun := (opens.plain before).attempt down (.of_plain after)
        (.inr (congrArg Link.state after.tcp.link))
      have noted : (first.note (.callback event)).state.tcp.link.Sound := sound
      have attempted : last.state.tcp.link.Sound := noted.attempt (before.tcp.link ▸ down) before
        after last.state.tcp.link.isConnecting
      exact .inl (begun.fire_tcpReconn attempted _ _ _ meets)
  | @connects last buf timer handshake connecting up after =>
      have connected : Beside (first.note (.callback event)) last :=
        (Beside.tcp _ rfl).trans (.of_plain after)
      have sent := opens.sendHandshake sound connecting handshake connected
        (congrArg Link.state after.tcp.link)
      exact .inl (sent.alike (.tcp _ rfl) rfl id)
  | @connectsUnsent last timer connecting up after =>
      have connected : Beside (first.note (.callback event)) last :=
        (Beside.tcp _ rfl).trans (.of_plain after)
      refine .inr ⟨rfl, ?_⟩
      exact (Numbered.notes_congr connected.notes .inl).1.trans
        (opens.unwritten (sound.connecting connecting) connecting)
  | @readFails last connecting after =>
      have ended : Beside (first.note (.callback event)) last :=
        (Beside.tcp _ rfl).trans (.of_plain after)
      have written := (Numbered.notes_congr ended.notes .inl).1
      have idle : last.state.tcp.link.isConnecting = false :=
        congrArg Link.isConnecting after.tcp.link
      have left : Left last := ⟨written ▸ opens.written,
        fun set => absurd (idle.symm.trans set) Bool.false_ne_true, ended.wq ▸ opens.connPending, ended.wq ▸ opens.tmp_eq_none⟩
      exact .inl (left.tcpReconn meets)
  | @connectFails last reason connecting after =>
      have ended : Beside (first.note (.callback event)) last :=
        (Beside.tcp _ rfl).trans (.of_plain after)
      have idle : last.state.tcp.link = { first.state.tcp.link with isConnecting := false } :=
        after.tcp.link
      have state := congrArg Link.state after.tcp.link
      have failed := opens.alike ended state fun _ => connecting
      have unconnected : last.state.tcp.link.Sound := by
        rw [idle]
        exact ⟨fun set => absurd set Bool.false_ne_true, sound.reading, sound.beats⟩
      exact .inl (failed.fire_tcpReconn unconnected _ _ _ meets)
  | connTimeout after =>
      have closed : Opens none ((first.note (.callback event)).tcp fun tcp =>
        { tcp with socket := .closing }) := opens.alike (.tcp _ rfl) rfl id
      exact .inl (closed.plain after)
  | handshakeLate late active =>
      have stopped : Opens none ((first.note (.callback event)).tcp fun tcp =>
        { tcp with handshakeTimer := tcp.handshakeTimer.stop }) := opens.alike (.tcp _ rfl) rfl id
      exact .inl (stopped.fire_tcpReconn ⟨sound.connecting, sound.reading, sound.beats⟩ _ _ _ meets)
  | @heartbeatLate mid active after =>
      have stopped : Opens none ((first.note (.callback event)).tcp fun tcp =>
        { tcp with hbTimeoutTimer := tcp.hbTimeoutTimer.stop }) := opens.alike (.tcp _ rfl) rfl id
      have late : mid.state.tcp.link = { first.state.tcp.link with hbTimeoutTimer := false } :=
        after.tcp.link
      have unbeaten : mid.state.tcp.link.Sound := by
        rw [late]
        refine ⟨sound.connecting, sound.reading, fun beats => sound.beats ?_⟩
        exact beats.imp_right fun rest => .inr (rest.resolve_left Bool.false_ne_true)
      exact .inl ((stopped.plain after).fire_tcpReconn unbeaten _ _ _ meets)
  | readError reading up => exact .inl (opens.fire_tcpReconn sound _ _ _ meets)
  | @heartbeat mid last timer active before after =>
      have stopped : Opens none ((first.note (.callback event)).tcp fun tcp =>
        { tcp with hbTimer := tcp.hbTimer.stop }) := opens.alike (.tcp _ rfl) rfl id
      have done : mid.state.tcp.link.state = .done :=
        (congrArg Link.state before.tcp.link).trans (sound.beats (.inl active))
      have sent : Opens none (sendLast (pcPkgEncode env.platform PkgType.heartbeat.code none 0) mid) :=
        (stopped.plain before).sendHeartbeat done
      have waiting : Opens none ((sendLast (pcPkgEncode env.platform PkgType.heartbeat.code none 0)
          mid).tcp fun tcp => { tcp with isWaitingHb := true, hbTimeoutTimer := timer }) :=
        sent.alike (.tcp _ rfl) rfl id
      exact .inl (waiting.plain after)
  | reconnDelay active => exact .inl (opens.alike (.tcp _ rfl) rfl id)
  | @disconnected mid last before after =>
      have reset := ((opens.plain before).left (before.tcp.link ▸ sound)).tcpReset
        ((meets.of_suffix (suffix_fireEvent ..)).of_suffix after.suffix)
      exact .inl ((reset.plain after).fireEvent _ _ _ meets)
  | @cleanedUp mid before =>
      have meets : (tcpReset env mid).Meets OpensWell := (meets_cleanUp _).mp meets
      have reset := ((opens.plain before).left (before.tcp.link ▸ sound)).tcpReset meets
      generalize tcpReset env mid = last at reset
      exact .inl (reset.alike (.cleanUp last) rfl id)
  | writes ret => exact .inl ((rules.tcpWriteAsyncCb ret _).holds meets opens)
  | written status done writing => exact .inl ((rules.tcpWriteDoneCb status _).holds meets opens)
  | checks active =>
      have stopped : Opens none ((first.note (.callback event)).tcp fun tcp =>
        { tcp with checkTimeout := tcp.checkTimeout.stop }) := opens.beside (.tcp _ rfl) rfl
      exact .inl ((rules.tcpWriteCheckTimeoutCb _).holds meets stopped)

/-- The handshake is acknowledged before anything else is written. -/
theorem sendHandshakeAck (opens : Opens none first)
    (greets : first.state.tcp.link.state = .handshakeing)
    (received : ∀ item ∈ first.state.tcp.wq.writeWait, item.type ≠ .internal)
    (hbTimer : UvTimer) : Opens none ((tcpSendHandshakeAck env first).tcp fun tcp =>
      { tcp with state := .done, hbTimer := hbTimer }) := by
  obtain ⟨opening, length⟩ := opens.greets greets
  obtain ⟨greeting, line⟩ := List.length_eq_one_iff.mp length
  rw [line] at opening
  have split : wire first.notes ++ first.state.tcp.wq.writeWait = [greeting] := by
    rw [Sys.line, WriteQueues.whole_of_tmp opens.tmp_eq_none] at line
    exact line
  have waits : first.state.tcp.wq.writeWait = [] := by
    refine List.eq_nil_iff_forall_not_mem.mpr fun item member => received item member ?_
    have only : item ∈ [greeting] := split ▸ List.mem_append_right _ member
    rw [List.mem_singleton.mp only]
    exact opening.1
  have written : wire first.notes = [greeting] := by
    rw [waits, List.append_nil] at split
    exact split
  let ack := first.state.internalItem (pcPkgEncode env.platform PkgType.handshakeAck.code none 0)
  have meant : ack.Meant .handshakeAck :=
    meant_pcPkgEncode env.platform .handshakeAck none 0 rfl rfl
  obtain ⟨tmp, alone, pends⟩ := whole_sendFirst
    (pcPkgEncode env.platform PkgType.handshakeAck.code none 0) opens.tmp_eq_none waits
  have after : ((tcpSendHandshakeAck env first).tcp fun tcp =>
      { tcp with state := .done, hbTimer := hbTimer }).line = [greeting, ack] := by
    refine (congrArg (wire first.notes ++ ·) alone).trans ?_
    rw [written]
    rfl
  refine ⟨opens.written, fun down => absurd rfl down.not_done, fun down => absurd rfl down.not_done,
    nofun, ?_, ?_, ?_, congrArg _ tmp⟩
  · rw [after]
    exact fun _ => ⟨⟨opening, meant, fun _ member => absurd member List.not_mem_nil⟩, Nat.le_refl 2⟩
  · intro item member timed
    have only : item ∈ [ack] := alone ▸ member
    rw [List.mem_singleton.mp only, timed_internalItem] at timed
    exact absurd timed Bool.false_ne_true
  · exact fun item member => opens.connPending item (pends ▸ member)

theorem package {type : UInt8} {data : Option Bytes}
    (handles : Handles env type (first.note (.package type data)) second)
    (meets : second.Meets OpensWell) (sound : first.state.tcp.link.Sound)
    (start : Opens none first) : Opens none second := by
  have opens : Opens none (first.note (.package type data)) := start.beside (.note rfl first) rfl
  have cond : OpensWell (.package type data) first.state :=
    meets _ (handles.suffix.subset (List.mem_cons_self ..))
  cases handles with
  | plain plain => exact opens.plain plain
  | @kicked mid kick before =>
      have reported := (opens.plain before).fireEvent .kickedByServer none none
        (meets.of_suffix (adds_tcpReset _).suffix)
      have link : (Pomelo.fireEvent env .kickedByServer none none mid).state.tcp.link =
          first.state.tcp.link := (link_fireEvent ..).trans before.tcp.link
      exact (reported.left (link ▸ sound)).tcpReset meets
  | @failed mid last timer handshake before after =>
      have set : Opens none (mid.tcp fun tcp => { tcp with handshakeTimer := timer }) :=
        (opens.plain before).alike (.tcp _ rfl) rfl id
      exact set.plain after
  | @refused mid next last timer handshake before between after =>
      have meets : (handshakeFailed env next).Meets OpensWell := meets.of_suffix after.suffix
      have set : Opens none next := ((opens.plain before).alike (.tcp _ rfl) rfl id).plain between
      have reported := set.fireEvent .connectFailed (some (CStr.ofString "Handshake Error")) none
        (meets.of_suffix (adds_tcpReset _).suffix)
      have link : (Pomelo.fireEvent env .connectFailed (some (CStr.ofString "Handshake Error")) none
          next).state.tcp.link = { first.state.tcp.link with handshakeTimer := timer.active } :=
        (link_fireEvent ..).trans (between.tcp.link.trans
          (congrArg (fun link => { link with handshakeTimer := timer.active }) before.tcp.link))
      have still : (Pomelo.fireEvent env .connectFailed (some (CStr.ofString "Handshake Error")) none
          next).state.tcp.link.Sound := by
        rw [link]
        exact ⟨sound.connecting, sound.reading, sound.beats⟩
      exact ((reported.left still).tcpReset meets).plain after
  | @accepted mid next last timer hbTimer handshake before between after =>
      have set : Opens none next := ((opens.plain before).alike (.tcp _ rfl) rfl id).plain between
      have answers : (Point.package type data).isAnswer = true := decide_eq_true handshake
      have greets := cond.2.answer answers
      have wq : next.state.tcp.wq = first.state.tcp.wq := between.tcp.wq.trans before.tcp.wq
      have state : next.state.tcp.link.state = .handshakeing :=
        (congrArg Link.state between.tcp.link).trans
          ((congrArg Link.state before.tcp.link).trans greets)
      have acked : Opens none ((tcpSendHandshakeAck env next).tcp fun tcp =>
          { tcp with state := .done, hbTimer := hbTimer }) :=
        set.sendHandshakeAck state (wq ▸ cond.1.received answers greets) hbTimer
      exact (acked.fireEvent .connected none none (meets.of_suffix after.suffix)).plain after
  | @undecodable mid reason isData before =>
      exact (opens.plain before).fire_tcpReconn (before.tcp.link ▸ sound) _ _ _ meets
  | pushed route text isData before => exact (opens.plain before).fireEvent _ _ _ meets
  | @answered mid last reqId text isData before after =>
      have meets : last.Meets OpensWell := meets
      have answered := (opens.plain before).delivered
        (delivered_pcTransResp reqId pcRcOk (some text) mid) (meets.of_suffix after.suffix)
      have tmp := WriteQueues.tmp_answer reqId last.state.tcp.wq
      exact (answered.plain after).elsewhere
        (WriteQueues.whole_congr tmp (WriteQueues.items_answer_of_ne reqId _ nofun))
        (WriteQueues.whole_congr tmp (WriteQueues.items_answer_of_ne reqId _ nofun))
        ((congrArg _ tmp).trans (answered.plain after).checked)
  | @heartbeat mid timer beat waiting before last after =>
      have set : Opens none (mid.tcp fun tcp => { tcp with
          hbTimeoutTimer := tcp.hbTimeoutTimer.stop
          isWaitingHb := false
          hbTimer := timer }) := (opens.plain before).alike (.tcp _ rfl) rfl id
      exact set.plain after

end Opens

/-- What is on the wire has been written. -/
theorem mem_wire {notes : List (Point × Core)} {item : WriteItem} (member : item ∈ wire notes) :
    ∃ entry ∈ notes, item ∈ entry.1.written := by
  induction notes with
  | nil => exact absurd member List.not_mem_nil
  | cons entry notes ih =>
      obtain ⟨point, core⟩ := entry
      have later (member : item ∈ wire notes) :
          ∃ entry ∈ (point, core) :: notes, item ∈ entry.1.written := by
        obtain ⟨entry, noted, written⟩ := ih member
        exact ⟨entry, List.mem_cons_of_mem _ noted, written⟩
      cases point with
      | attempt => exact absurd member List.not_mem_nil
      | write items ret =>
          rcases List.mem_append.mp member with earlier | now
          · exact later earlier
          · exact ⟨_, List.mem_cons_self .., now⟩
      | _ => exact later member

/-- The invariant of a run. -/
def OpensOrEnded (sys : Sys) : Prop := (sys.state.tcp.link.Sound ∧ Opens none sys) ∨ Ended sys

/-- The opening holds until the transport has ended. -/
theorem opensOrEnded_step (step : Step env first second) :
    Keeps OpensWell OpensOrEnded first second := by
  have down (core : Core) (cond : OpensWell .attempt core) : core.tcp.link.Down :=
    cond.2.attempt rfl
  have up {type : UInt8} {data : Option Bytes} {core : Core} (cond : OpensWell (.package type data) core)
      (answers : type = PkgType.handshake.code) : ¬ core.tcp.link.Down := by
    have greets : core.tcp.link.state = .handshakeing := cond.2.answer (decide_eq_true answers)
    exact fun down => absurd (down.imp (greets.symm.trans ·) (greets.symm.trans ·)) (by simp)
  have running := step.running
  have lead : Leads OpensWell (fun sys => sys.state.tcp.link.Sound ∧ Opens none sys) OpensOrEnded
      first second := by
    refine leads_step .inl ?_ ?_ ?_ ?_ ?_ step
    · intro first second delivers
      have kept : Keeps OpensWell (Opens none) first second := Opens.keeps_deliver delivers
      exact ⟨kept.keeps, fun meets ⟨sound, opens⟩ =>
        ⟨(Quiet.of_deliver delivers).aside.link ▸ sound, kept.holds meets opens⟩⟩
    · exact fun plain ⟨sound, opens⟩ => ⟨plain.tcp.link ▸ sound, opens.plain plain⟩
    · intro event first second _ turn
      refine ⟨(List.suffix_cons _ _).trans turn.suffix, fun meets ⟨sound, opens⟩ => ?_⟩
      exact (opens.turn turn meets sound).imp_left fun after => ⟨turn.sound down meets sound, after⟩
    · exact fun ⟨sound, opens⟩ => ⟨sound, opens.beside (.note rfl _) rfl⟩
    · intro type data first second handles
      refine ⟨(List.suffix_cons _ _).trans handles.suffix, fun meets ⟨sound, opens⟩ => ?_⟩
      have cond := meets _ (handles.suffix.subset (List.mem_cons_self ..))
      have above : type = PkgType.handshake.code →
          ¬ (first.note (.package type data)).state.tcp.link.Down := up cond
      exact ⟨handles.sound above sound, opens.package handles meets sound⟩
  refine ⟨lead.keeps, fun meets start => ?_⟩
  rcases start with live | ended
  · exact lead.holds meets live
  · exact absurd (running.symm.trans ended.crashed) Bool.false_ne_true

/-- The handshake comes first on every connection, in every run whose steps meet the
condition. -/
theorem opening_of_reachable {sys : Sys} (reached : Reachable env sys)
    (answers : sys.Meets AnswersReceived) (meets : sys.Meets OpensInTurn) :
    Opening WriteItem.Own (wire sys.notes) := by
  obtain ⟨evHandlers, tcp, stored, init, ran⟩ := reached
  have start : Opens none (Sys.init evHandlers tcp stored) := by
    have alike : Transport.init.Alike tcp := alike_loadLocalStorage init
    have wq : (Sys.init evHandlers tcp stored).state.tcp.wq = WriteQueues.init := alike.wq
    refine Left.opens ⟨trivial, fun _ => rfl, ?_, ?_⟩ ?_ ?_
    · rw [wq]
      exact fun _ member => absurd member List.not_mem_nil
    · rw [wq]
      rfl
    · exact .inl (congrArg Link.state alike.link)
    · rw [wq]
      rfl
  have both : sys.Meets OpensWell := fun entry member => ⟨answers entry member, meets entry member⟩
  have written : Opening WriteItem.Meant (wire sys.notes) := by
    have kept : OpensOrEnded sys :=
      holds_of_reachable (.inl ⟨sound_init init, start⟩) opensOrEnded_step ran both
    rcases kept with ⟨-, opens⟩ | ended
    · exact opens.written
    · rw [ended.written]
      trivial
  refine written.of_encoded fun item member => ?_
  obtain ⟨entry, noted, item⟩ := mem_wire member
  exact (meets entry noted).write _ item

/-- A run in which a message has waited for the connection. -/
theorem opening_messageWaited :
    ∃ sys, SampleEnds (fun _ => []) messageWaited sys ∧ sys.Meets AnswersReceived ∧
      sys.Meets OpensInTurn ∧ Opening WriteItem.Own (wire sys.notes) := by
  obtain ⟨sys, ends, answers, meets⟩ := exists_sampleEnds (fun _ => []) messageWaited
    (fun sys => sys.Meets AnswersReceived ∧ sys.Meets OpensInTurn) (by decide +kernel)
  exact ⟨sys, ends, answers, meets, opening_of_reachable ends.reachable answers meets⟩

/-- The user disconnects while the connect request is outstanding, and connects again
before it has been cancelled. The cancelled request arms `reconn_delay_timer`, which
fires when the second connection is up, and starts an attempt beside it. -/
def attemptBeside : List Label :=
  handshakeSent.take 5 ++ [.begin (.api .disconnect), .advance 1, .advance 1, .advance 1,
    .loop .disconnectAsync,
    .begin (.api (.connect (some (CStr.ofString "host")) 3010 none)), .advance 2, .advance 2,
    .advance 2, .loop (.connDone uvECanceled 0), .loop (.connAsync true 0), .loop (.connDone 0 0),
    .loop (.writeAsync 0), .loop (.writeDone 0), .loop (.read answerBytes), .loop (.writeAsync 0),
    .loop (.writeDone 0), .loopTime 100000, .loop .reconnDelayTimer] ++
  messageSent 3 .notify 5 ++ [.loop (.connAsync true 0), .loop (.writeAsync 0)]

/-- A message of the second connection is written as the first package of the third. -/
theorem opening_fails_attemptBeside :
    ¬ ∀ (env : Env) (sys : Sys), Reachable env sys → sys.Meets AnswersReceived →
      Opening WriteItem.Own (wire sys.notes) := by
  intro claim
  obtain ⟨sys, ends, answers, late⟩ := exists_sampleEnds (fun _ => []) attemptBeside
    (fun sys => sys.Meets AnswersReceived ∧ ¬ Opening WriteItem.Own (wire sys.notes))
    (by decide +kernel)
  exact late (claim _ _ ends.reachable answers)

end Pomelo
