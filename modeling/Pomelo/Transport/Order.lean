import Pomelo.Transport.QueueInvariant

/-!
# The order of the messages

Messages are numbered as they are queued. The numbers increase along what has been handed
to `uv_write`, `write_wait_queue` and `conn_pending_queue`, in this order, as long as
nothing is queued in the second of these while something waits in the third.
-/

namespace Pomelo

open Transition Recorded

variable {env : Env} {first second : Sys}

/-- The items of all packages that have been handed to `uv_write` since the last attempt,
in their order. -/
def wire : List (Point × Core) → List WriteItem
  | [] => []
  | (.attempt, _) :: _ => []
  | (.write items _, _) :: earlier => wire earlier ++ items
  | _ :: earlier => wire earlier

/-- The messages that `tr_uv_tcp_send` has queued, in the order of its critical sections. -/
def accepted : List (Point × Core) → List WriteItem
  | [] => []
  | (.accepted item, _) :: earlier => accepted earlier ++ [item]
  | _ :: earlier => accepted earlier

/-- One item stands before another one in a list. -/
def Precedes (first second : WriteItem) (items : List WriteItem) : Prop :=
  [first, second].Sublist items

instance (first second : WriteItem) (items : List WriteItem) :
    Decidable (Precedes first second items) :=
  inferInstanceAs (Decidable ([first, second].Sublist items))

/-- Of two messages that have both been written on a connection, the one that was queued
first was written first. -/
def InOrder (notes : List (Point × Core)) : Prop :=
  ∀ first second, Precedes first second (accepted notes) → first ∈ wire notes →
    second ∈ wire notes → Precedes first second (wire notes) ∧ ¬ Precedes second first (wire notes)

/-- The condition on the notes of a run. -/
structure AcceptsInOrder (point : Point) (core : Core) : Prop where
  /-- No message is queued behind `write_wait_queue` while others still wait for the end of
  the handshake. -/
  accepted : point.isAccepted → core.tcp.state = .done → core.tcp.wq.whole .connPending = []

instance (point : Point) (core : Core) : Decidable (AcceptsInOrder point core) :=
  decidable_of_iff (point.isAccepted → core.tcp.state = .done → core.tcp.wq.whole .connPending = [])
    ⟨fun accepted => ⟨accepted⟩, fun ⟨accepted⟩ => accepted⟩

/-- An item with a message, not with a package of the transport's own. -/
def WriteItem.isMessage (item : WriteItem) : Bool := item.type ≠ .internal

/-- The numbers of the messages among some items. -/
def borns (items : List WriteItem) : List Nat := (items.filter WriteItem.isMessage).map (·.born)

theorem borns_append (first second : List WriteItem) :
    borns (first ++ second) = borns first ++ borns second := by
  rw [borns, List.filter_append, List.map_append]
  rfl

theorem borns_sublist {first second : List WriteItem} (sublist : first.Sublist second) :
    (borns first).Sublist (borns second) :=
  (sublist.filter _).map _

theorem borns_internal {item : WriteItem} (internal : item.type = .internal) : borns [item] = [] := by
  simp [borns, WriteItem.isMessage, internal]

/-- The numbers of the messages that have been written or wait for it. -/
def Sys.order (sys : Sys) : List Nat :=
  borns (wire sys.notes) ++ borns (sys.state.tcp.wq.whole .writeWait) ++
    borns (sys.state.tcp.wq.whole .connPending)

/-- The invariant, while one of the queues or none is being checked for timeouts. -/
structure Numbered (checked : Option WiQueue) (sys : Sys) : Prop where
  order : sys.order.Pairwise (· < ·)
  bound : ∀ number ∈ sys.order, number < sys.state.nextBorn
  accepted : (accepted sys.notes).Pairwise fun first second => first.born < second.born
  messages : ∀ item ∈ Pomelo.accepted sys.notes, item.isMessage ∧ item.born < sys.state.nextBorn
  checked : sys.state.tcp.wq.tmp.map Prod.fst = checked

namespace Numbered

variable {checked next : Option WiQueue}

/-- Messages are taken away. -/
theorem shrink (numbered : Numbered checked first) (order : second.order.Sublist first.order)
    (nextBorn : second.state.nextBorn = first.state.nextBorn)
    (queued : Pomelo.accepted second.notes = Pomelo.accepted first.notes)
    (tmp : second.state.tcp.wq.tmp.map Prod.fst = next) : Numbered next second where
  order := numbered.order.sublist order
  bound number member := nextBorn ▸ numbered.bound number (order.subset member)
  accepted := queued ▸ numbered.accepted
  messages item member := nextBorn ▸ numbered.messages item (queued ▸ member)
  checked := tmp

/-- The queues change, and lose messages at most. -/
theorem wq (numbered : Numbered checked first) {act : WriteQueues → WriteQueues}
    (waits : (borns ((act first.state.tcp.wq).whole .writeWait)).Sublist
      (borns (first.state.tcp.wq.whole .writeWait)))
    (pends : (borns ((act first.state.tcp.wq).whole .connPending)).Sublist
      (borns (first.state.tcp.wq.whole .connPending)))
    (tmp : (act first.state.tcp.wq).tmp.map Prod.fst = next) : Numbered next (first.wq act) :=
  numbered.shrink (((List.Sublist.refl _).append waits).append pends) rfl rfl tmp

/-- A message is queued behind all others. -/
theorem order_accept {item : WriteItem} (message : item.isMessage)
    (cond : AcceptsInOrder (.accepted item) first.state) :
    (first.accept item).order = first.order ++ [item.born] := by
  have alone : borns [item] = [item.born] := by simp [borns, message]
  have pends := first.state.whole_insert item .connPending
  have waits := first.state.whole_insert item .writeWait
  change borns (wire first.notes) ++ borns ((first.state.insert item).tcp.wq.whole .writeWait) ++
    borns ((first.state.insert item).tcp.wq.whole .connPending) = _
  rw [pends, waits, Sys.order]
  by_cases done : first.state.tcp.state = .done
  · have empty := cond.accepted rfl done
    have inbox : first.state.tcp.state.inbox = .writeWait := if_pos done
    rw [inbox, if_pos rfl, if_neg nofun, empty, borns_append, alone]
    simp [borns]
  · have inbox := TcpState.inbox_of_ne_done done
    rw [inbox, if_pos rfl, if_neg nofun, borns_append, alone, List.append_assoc]
    simp

/-- The item of a message. -/
theorem message_of_accepts {core : Core} {item : WriteItem} (accepts : core.Accepts item) :
    item.isMessage ∧ item.born = core.nextBorn := by
  obtain ⟨id, kind, req, buf, -, rfl⟩ := accepts
  refine ⟨?_, rfl⟩
  rw [WriteItem.isMessage, Core.newItem]
  dsimp only
  split <;> rfl

/-- An item that is accepted is the youngest. -/
theorem accept (numbered : Numbered checked first) {item : WriteItem}
    (accepts : first.state.Accepts item) (cond : AcceptsInOrder (.accepted item) first.state) :
    Numbered checked (first.accept item) := by
  obtain ⟨message, born⟩ := message_of_accepts accepts
  have order := order_accept message cond
  have nextBorn : (first.accept item).state.nextBorn = first.state.nextBorn + 1 := rfl
  have queued : Pomelo.accepted (first.accept item).notes = Pomelo.accepted first.notes ++ [item] :=
    rfl
  refine ⟨?_, ?_, ?_, ?_, ?_⟩
  · rw [order]
    refine List.pairwise_append.mpr ⟨numbered.order, List.pairwise_singleton .., ?_⟩
    intro number member last same
    rw [List.mem_singleton.mp same, born]
    exact numbered.bound number member
  · rw [order, nextBorn]
    intro number member
    rcases List.mem_append.mp member with earlier | last
    · exact Nat.lt_succ_of_lt (numbered.bound number earlier)
    · rw [List.mem_singleton.mp last, born]
      exact Nat.lt_succ_self _
  · rw [queued]
    refine List.pairwise_append.mpr ⟨numbered.accepted, List.pairwise_singleton .., ?_⟩
    intro other member last same
    rw [List.mem_singleton.mp same, born]
    exact (numbered.messages other member).2
  · rw [queued, nextBorn]
    intro other member
    rcases List.mem_append.mp member with earlier | last
    · exact (numbered.messages other earlier).imp_right Nat.lt_succ_of_lt
    · rw [List.mem_singleton.mp last, born]
      exact ⟨message, Nat.lt_succ_self _⟩
  · exact (congrArg _ (first.state.tmp_insert item)).trans numbered.checked

/-- Another part of the queues changes. -/
theorem elsewhere (numbered : Numbered checked first) {act : WriteQueues → WriteQueues}
    (waits : (act first.state.tcp.wq).items .writeWait = first.state.tcp.wq.items .writeWait)
    (pends : (act first.state.tcp.wq).items .connPending = first.state.tcp.wq.items .connPending)
    (tmp : (act first.state.tcp.wq).tmp = first.state.tcp.wq.tmp) :
    Numbered checked (first.wq act) := by
  refine numbered.wq ?_ ?_ ((congrArg _ tmp).trans numbered.checked)
  · rw [WriteQueues.whole_congr tmp waits]
  · rw [WriteQueues.whole_congr tmp pends]

/-- The notes that the numbers depend on. -/
theorem notes_congr {kind : Point → Bool} (adds : Adds kind first second)
    (other : ∀ {point : Point}, kind point → point.besideQueues = true ∨ point.ofUser = true) :
    wire second.notes = wire first.notes ∧
      Pomelo.accepted second.notes = Pomelo.accepted first.notes := by
  refine adds.induct (fun notes => wire notes = wire first.notes ∧
    Pomelo.accepted notes = Pomelo.accepted first.notes) ⟨rfl, rfl⟩ fun {event _ _} allowed same => ?_
  have beside := other allowed
  cases event <;> first | exact same | exact absurd beside (not_or.mpr ⟨nofun, nofun⟩)

/-- The queues are the same, and nothing is written. -/
theorem same (numbered : Numbered checked first)
    (notes : wire second.notes = wire first.notes ∧
      Pomelo.accepted second.notes = Pomelo.accepted first.notes)
    (wq : second.state.tcp.wq = first.state.tcp.wq)
    (nextBorn : second.state.nextBorn = first.state.nextBorn) : Numbered checked second := by
  refine numbered.shrink ?_ nextBorn notes.2 (wq ▸ numbered.checked)
  rw [Sys.order, notes.1, wq]
  exact List.Sublist.refl _

/-- What happens beside the queues keeps the order. -/
theorem beside (numbered : Numbered checked first) (beside : Beside first second) :
    Numbered checked second :=
  numbered.same (notes_congr beside.notes .inl) beside.wq beside.nextBorn

theorem still (numbered : Numbered checked first) (still : Still first second) :
    Numbered checked second :=
  numbered.same (notes_congr still.adds .inr) still.wq still.nextBorn

theorem keeps_deliver (deliver : Deliver env first second) :
    Keeps AcceptsInOrder (Numbered checked) first second :=
  Pomelo.keeps_deliver (fun still numbered => numbered.still still)
    (fun accepts cond numbered => numbered.accept accepts cond) deliver

theorem recycle (numbered : Numbered checked first) (item : WriteItem) :
    Numbered checked (first.wq (WriteQueues.recycle item)) :=
  numbered.elsewhere (WriteQueues.items_recycle ..) (WriteQueues.items_recycle ..)
    (WriteQueues.tmp_recycle ..)

theorem keeps_dropItem (item : WriteItem) (rc : Int) (sys : Sys) :
    Keeps AcceptsInOrder (Numbered checked) sys (dropItem env item rc sys) :=
  Pomelo.keeps_dropItem keeps_deliver (fun numbered => numbered.recycle _) item rc sys

theorem attempt (numbered : Numbered checked first) : Numbered checked (first.note .attempt) := by
  refine numbered.shrink ?_ rfl rfl numbered.checked
  exact ((List.nil_sublist _).append (.refl _)).append (.refl _)

theorem push (numbered : Numbered checked first) (ahead : Bool) (buf : UvBuf) :
    Numbered checked (first.wq (WriteQueues.push ahead (first.state.internalItem buf))) := by
  have silent : borns [first.state.internalItem buf] = [] := borns_internal rfl
  have tmp : (WriteQueues.push ahead (first.state.internalItem buf) first.state.tcp.wq).tmp =
      first.state.tcp.wq.tmp := WriteQueues.tmp_allocate ..
  refine numbered.wq ?_ ?_ ((congrArg _ tmp).trans numbered.checked)
  · rw [WriteQueues.whole, WriteQueues.whole, WriteQueues.tmpOf_congr tmp, borns_append,
      borns_append]
    refine (List.Sublist.refl _).append ?_
    cases ahead with
    | true =>
        change (borns ([first.state.internalItem buf] ++ _)).Sublist _
        rw [borns_append, silent]
        exact List.Sublist.refl _
    | false =>
        change (borns (_ ++ [first.state.internalItem buf])).Sublist _
        rw [borns_append, silent, List.append_nil]
        exact List.Sublist.refl _
  · refine borns_sublist ?_
    rw [WriteQueues.whole_congr tmp]
    exact WriteQueues.items_allocate _ _ .connPending

/-- While no queue is being checked, all items are in their queues. -/
theorem tmp_eq_none (numbered : Numbered none first) : first.state.tcp.wq.tmp = none :=
  Option.map_eq_none_iff.mp numbered.checked

/-- What has been queued before the handshake was done goes behind the other items. -/
theorem drain (numbered : Numbered none first) : Numbered none (first.wq WriteQueues.drain) := by
  refine numbered.shrink ?_ rfl rfl numbered.checked
  have waits := WriteQueues.whole_of_tmp numbered.tmp_eq_none
  have tmp : first.state.tcp.wq.drain.tmp = none := numbered.tmp_eq_none
  have drained := WriteQueues.whole_of_tmp tmp
  rw [Sys.order, Sys.order, waits, waits]
  change (borns (wire first.notes) ++ borns (first.state.tcp.wq.drain.whole .writeWait) ++
    borns (first.state.tcp.wq.drain.whole .connPending)).Sublist _
  rw [drained, drained]
  change (borns _ ++ borns (first.state.tcp.wq.writeWait ++ first.state.tcp.wq.connPending) ++
    borns []).Sublist (borns _ ++ borns first.state.tcp.wq.writeWait ++
      borns first.state.tcp.wq.connPending)
  rw [borns_append, show borns [] = [] from rfl, List.append_nil, List.append_assoc]

/-- All items of `write_wait_queue` are written. -/
theorem write (numbered : Numbered none first) (ret : Int) :
    Numbered none ((first.note (.write first.state.tcp.wq.writeWait ret)).wq
      WriteQueues.beginWrite) := by
  refine numbered.shrink ?_ rfl rfl numbered.checked
  have waits := WriteQueues.whole_of_tmp numbered.tmp_eq_none
  have tmp : first.state.tcp.wq.beginWrite.tmp = none := numbered.tmp_eq_none
  have begun := WriteQueues.whole_of_tmp tmp
  rw [Sys.order, Sys.order, waits, waits]
  change (borns (wire first.notes ++ first.state.tcp.wq.writeWait) ++
    borns (first.state.tcp.wq.beginWrite.whole .writeWait) ++
    borns (first.state.tcp.wq.beginWrite.whole .connPending)).Sublist _
  rw [begun, begun, borns_append]
  change (_ ++ borns [] ++ borns first.state.tcp.wq.connPending).Sublist (borns _ ++
    borns first.state.tcp.wq.writeWait ++ borns first.state.tcp.wq.connPending)
  rw [show borns [] = [] from rfl, List.append_nil]

/-- An item is taken off a queue. -/
theorem take (numbered : Numbered checked first) {queue : WiQueue} {item : WriteItem}
    {rest : List WriteItem} (items : first.state.tcp.wq.items queue = item :: rest) :
    Numbered checked (first.wq (WriteQueues.setItems queue rest)) :=
  numbered.wq (borns_sublist (WriteQueues.whole_setItems items _))
    (borns_sublist (WriteQueues.whole_setItems items _))
    ((congrArg _ (WriteQueues.tmp_setItems ..)).trans numbered.checked)

/-- An item stays in the queue that is being checked. -/
theorem keep {queue : WiQueue} (numbered : Numbered (some queue) first) {item : WriteItem}
    {rest : List WriteItem} (items : first.state.tcp.wq.items queue = item :: rest) :
    Numbered (some queue)
      ((first.wq (WriteQueues.setItems queue rest)).wq (WriteQueues.keep item)) := by
  have whole := WriteQueues.whole_keep numbered.checked items
  refine numbered.shrink ?_ rfl rfl ?_
  · rw [Sys.order, Sys.order]
    change (_ ++ borns (((first.state.tcp.wq.setItems queue rest).keep item).whole .writeWait) ++
      borns (((first.state.tcp.wq.setItems queue rest).keep item).whole .connPending)).Sublist _
    rw [whole, whole]
    exact List.Sublist.refl _
  · change ((first.state.tcp.wq.setItems queue rest).tmp.map _).map _ = _
    rw [WriteQueues.tmp_setItems, Option.map_map]
    exact numbered.checked

/-- The check of a queue begins. -/
theorem beginCheck (numbered : Numbered none first) (queue : WiQueue) :
    Numbered (some queue) (first.wq (WriteQueues.beginCheck queue)) := by
  have whole := WriteQueues.whole_of_tmp numbered.tmp_eq_none
  have begun := WriteQueues.whole_beginCheck queue first.state.tcp.wq
  refine numbered.wq ?_ ?_ rfl
  · rw [begun, whole]
  · rw [begun, whole]

/-- It ends with the items that are kept, in their order. -/
theorem endCheck {queue : WiQueue} (numbered : Numbered (some queue) first) :
    Numbered none (first.wq (WriteQueues.endCheck queue)) := by
  have ended := WriteQueues.whole_endCheck numbered.checked
  refine numbered.wq ?_ ?_ rfl
  · rw [ended]
  · rw [ended]

/-- A whole check. -/
theorem keeps_check (queue : WiQueue) (cont : Bool) (sys : Sys) :
    Keeps AcceptsInOrder (Numbered none) sys (tcpCheckQueueTimeout env queue cont sys).1 := by
  have begun : Leads AcceptsInOrder (Numbered none) (Numbered (some queue)) sys
      (sys.wq (WriteQueues.beginCheck queue)) :=
    ⟨List.suffix_refl _, fun _ numbered => numbered.beginCheck queue⟩
  have looked : Keeps AcceptsInOrder (Numbered (some queue)) (sys.wq (WriteQueues.beginCheck queue))
      (checkQueueLoop env queue sys.state.clock env.passes cont
        (sys.wq (WriteQueues.beginCheck queue))).1 :=
    keeps_checkQueueLoop keeps_deliver (fun numbered => numbered.recycle _)
      (fun numbered => numbered.beside (.crash _ _)) (fun items _ numbered => numbered.take items)
      (fun items numbered => numbered.keep items) env.passes cont _
  have ended (sys : Sys) : Leads AcceptsInOrder (Numbered (some queue)) (Numbered none) sys
      (sys.wq (WriteQueues.endCheck queue)) :=
    ⟨List.suffix_refl _, fun _ numbered => numbered.endCheck⟩
  exact (begun.trans looked).trans (ended _)

/-- An answered request leaves its queue. -/
theorem answer (numbered : Numbered checked first) (reqId : Nat) :
    Numbered checked (first.wq (WriteQueues.answer reqId)) :=
  numbered.elsewhere (WriteQueues.items_answer_of_ne reqId _ nofun)
    (WriteQueues.items_answer_of_ne reqId _ nofun) (WriteQueues.tmp_answer ..)

end Numbered

/-- The order is an invariant of the queues. -/
theorem numbered_queueInvariant : QueueInvariant env AcceptsInOrder (Numbered none) where
  aside beside _ numbered := numbered.beside beside
  beside beside numbered := numbered.beside beside
  deliver := Numbered.keeps_deliver
  attempt numbered := numbered.attempt
  gather numbered := by
    refine numbered.wq (borns_sublist ?_) (borns_sublist ?_) numbered.checked
    · exact (List.Sublist.refl _).append (List.nil_sublist _)
    · exact (List.Sublist.refl _).append (List.nil_sublist _)
  drop {sys queue item rest} rc _ items := by
    have taken : Keeps AcceptsInOrder (Numbered none) sys
        (sys.wq (WriteQueues.setItems queue rest)) :=
      ⟨List.suffix_refl _, fun _ numbered => numbered.take items⟩
    exact taken.trans (Numbered.keeps_dropItem ..)
  push ahead numbered := numbered.push ahead _
  drain _ numbered := numbered.drain
  write ret _ numbered := numbered.write ret
  await items resp numbered := numbered.elsewhere rfl rfl rfl
  check queue cont _ := Numbered.keeps_check queue cont _
  answer {first second reqId text} after := by
    have delivered : Keeps AcceptsInOrder (Numbered none) first
        (pcTransResp (loopReceiver env) env.config.enablePolling reqId pcRcOk (some text) first) :=
      keeps_delivered Numbered.keeps_deliver (delivered_pcTransResp ..)
    have checked : Keeps AcceptsInOrder (Numbered none) _ second :=
      ⟨(Beside.of_plain after).notes.suffix, fun _ numbered => numbered.beside (.of_plain after)⟩
    have taken : Keeps AcceptsInOrder (Numbered none) second
        (second.wq (WriteQueues.answer reqId)) :=
      ⟨List.suffix_refl _, fun _ numbered => numbered.answer reqId⟩
    exact (delivered.trans checked).trans taken

/-- Of two items of an increasing list, the one with the smaller number comes first. -/
theorem precedes_of_pairwise {items : List WriteItem} {first second : WriteItem}
    (increasing : items.Pairwise fun first second => first.born < second.born)
    (left : first ∈ items) (right : second ∈ items) (less : first.born < second.born) :
    Precedes first second items := by
  obtain ⟨before, after, rfl⟩ := List.append_of_mem right
  have split := List.pairwise_append.mp increasing
  rcases List.mem_append.mp left with early | late
  · have single : [first].Sublist before := List.singleton_sublist.mpr early
    exact single.append (List.singleton_sublist.mpr (List.mem_cons_self ..))
  · rcases List.mem_cons.mp late with rfl | late
    · exact absurd less (Nat.lt_irrefl _)
    · exact absurd less (Nat.lt_asymm (List.rel_of_pairwise_cons split.2.1 late))

/-- The first of two is the older one. -/
theorem born_lt_of_precedes {items : List WriteItem} {first second : WriteItem}
    (increasing : items.Pairwise fun first second => first.born < second.born)
    (precedes : Precedes first second items) : first.born < second.born :=
  List.pairwise_iff_forall_sublist.mp increasing precedes

/-- What is numbered is in order. -/
theorem Numbered.inOrder {sys : Sys} {checked : Option WiQueue} (numbered : Numbered checked sys) :
    InOrder sys.notes := by
  have written : ((wire sys.notes).filter WriteItem.isMessage).Pairwise
      fun first second => first.born < second.born := by
    have order := numbered.order.sublist
      ((List.sublist_append_left (borns (wire sys.notes)) _).trans (List.sublist_append_left _ _))
    exact List.pairwise_map.mp order
  intro first second precedes left right
  have less := born_lt_of_precedes numbered.accepted precedes
  have message {item : WriteItem} (member : item ∈ Pomelo.accepted sys.notes) (here : item ∈ wire sys.notes) :
      item ∈ (wire sys.notes).filter WriteItem.isMessage :=
    List.mem_filter.mpr ⟨here, (numbered.messages item member).1⟩
  have left := message (precedes.subset (List.mem_cons_self ..)) left
  have right := message (precedes.subset (List.mem_cons_of_mem _ (List.mem_cons_self ..))) right
  refine ⟨(precedes_of_pairwise written left right less).trans List.filter_sublist, ?_⟩
  intro reversed
  have reversed : Precedes second first ((wire sys.notes).filter WriteItem.isMessage) := by
    have filtered := reversed.filter WriteItem.isMessage
    rwa [List.filter_cons_of_pos (List.mem_filter.mp right).2,
      List.filter_cons_of_pos (List.mem_filter.mp left).2] at filtered
  exact Nat.lt_asymm less (born_lt_of_precedes written reversed)

/-- Messages go out in the order they were accepted, in every run in which none overtakes
those that wait for the end of the handshake. -/
theorem inOrder_of_reachable {sys : Sys} (reached : Reachable env sys)
    (meets : sys.Meets AcceptsInOrder) : InOrder sys.notes := by
  obtain ⟨evHandlers, tcp, stored, init, ran⟩ := reached
  have start : Numbered none (Sys.init evHandlers tcp stored) := by
    have alike : Transport.init.Alike tcp := alike_loadLocalStorage init
    have wq : (Sys.init evHandlers tcp stored).state.tcp.wq = WriteQueues.init := alike.wq
    have empty : (Sys.init evHandlers tcp stored).order = [] := by
      rw [Sys.order, wq]
      rfl
    refine ⟨empty ▸ .nil, empty ▸ fun _ member => absurd member List.not_mem_nil, .nil,
      fun _ member => absurd member List.not_mem_nil, ?_⟩
    rw [wq]
    rfl
  have numbered : Numbered none sys :=
    holds_of_reachable start numbered_queueInvariant.step ran meets
  exact numbered.inOrder

/-- A message is sent before the handshake is answered, and written afterwards. -/
def messageWaited : List Label :=
  handshakeSent ++ messageSent 1 .notify 5 ++
    [.loop (.read answerBytes), .loop (.writeAsync 0), .loop (.writeDone 0)] ++
      messageSent 2 .notify 5 ++ [.loop (.writeAsync 0)]

/-- A run in which a message has waited for the connection. -/
theorem inOrder_messageWaited :
    ∃ sys, SampleEnds (fun _ => []) messageWaited sys ∧ sys.Meets AcceptsInOrder ∧
      InOrder sys.notes := by
  obtain ⟨sys, ends, meets⟩ := exists_sampleEnds (fun _ => []) messageWaited
    (fun sys => sys.Meets AcceptsInOrder) (by decide +kernel)
  exact ⟨sys, ends, meets, inOrder_of_reachable ends.reachable meets⟩

/-- A second message is sent after the handshake has been answered, and before the first
one joins `write_wait_queue`. -/
def messageOvertakes : List Label :=
  handshakeSent ++ messageSent 1 .notify 5 ++ [.loop (.read answerBytes)] ++
    messageSent 2 .notify 5 ++ [.loop (.writeAsync 0)]

/-- It is written first. -/
theorem inOrder_fails_messageOvertakes :
    ¬ ∀ (env : Env) (sys : Sys), Reachable env sys → InOrder sys.notes := by
  intro claim
  obtain ⟨sys, ends, reversed⟩ := exists_sampleEnds (fun _ => []) messageOvertakes
    (fun sys => ∃ first ∈ accepted sys.notes, ∃ second ∈ accepted sys.notes,
      Precedes first second (accepted sys.notes) ∧ first ∈ wire sys.notes ∧
        second ∈ wire sys.notes ∧ Precedes second first (wire sys.notes)) (by decide +kernel)
  obtain ⟨first, -, second, -, precedes, left, right, reversed⟩ := reversed
  exact (claim _ _ ends.reachable first second precedes left right).2 reversed

end Pomelo
