import Pomelo.Transport.TlsWrites

/-!
# The write items of the TLS transport are kept

An account of every item that has been made: it is in one place until it is given back, and
reported when it is. The calls of `SSL_write` are a second account: what leaves
`write_wait_queue` is taken in this order, and a copy that could not be taken is tried again
before anything else. Both are kept by every primitive of the callbacks, and with them that
`when_tcp_is_writing_queue` is empty when there is nothing in the output BIO.
-/

namespace Pomelo

open Transition Recorded

/-- A call of the TLS library: it writes bytes of an item, or forgets what it has been given. -/
inductive SslCall where
  | write (item : WriteItem) (buf : UvBuf) (result : SslWrite)
  | clear

/-- What may follow on a call: a write that is to be tried again is tried again. -/
def SslCall.Retries (later : SslCall) : SslCall → Prop
  | .write item buf .retry => later = .clear ∨ ∃ result, later = .write item buf result
  | _ => True

namespace TlsNote

def queuedItem : TlsNote → Option WriteItem
  | .queued item => some item
  | _ => none

def recycledItem : TlsNote → Option WriteItem
  | .recycled item => some item
  | _ => none

def leftItem : TlsNote → Option WriteItem
  | .left item => some item
  | _ => none

def acceptedItem : TlsNote → Option WriteItem
  | .sslWrite item _ .full => some item
  | _ => none

def sslCall : TlsNote → Option SslCall
  | .sslWrite item buf result => some (.write item buf result)
  | .sslClear => some .clear
  | _ => none

/-- An item is reported: by its own data, or by the answer that it is waiting for. -/
def reports (item : WriteItem) (writes : TlsWrites) : TlsNote → Bool
  | .reported other _ => other = item
  | .answered reqId => writes.respPending.find? (fun other => other.reqId = reqId) = some item
  | _ => false

end TlsNote

/-- A request or a notify. -/
def WriteItem.FromUser (item : WriteItem) : Prop := item.type = .notify ∨ item.type = .resp

namespace TlsWrites

/-- What has been noted, the newest first. -/
def noted {α : Type} (pick : TlsNote → Option α) (run : TlsRun) : List α :=
  run.notes.filterMap fun entry => pick entry.1

abbrev queued (run : TlsRun) : List WriteItem := noted TlsNote.queuedItem run
abbrev recycled (run : TlsRun) : List WriteItem := noted TlsNote.recycledItem run
abbrev left (run : TlsRun) : List WriteItem := noted TlsNote.leftItem run
abbrev accepted (run : TlsRun) : List WriteItem := noted TlsNote.acceptedItem run
abbrev calls (run : TlsRun) : List SslCall := noted TlsNote.sslCall run

/-- How often an item has been reported. -/
def reports (item : WriteItem) (run : TlsRun) : Nat :=
  run.notes.countP fun entry => entry.1.reports item entry.2

/-- The places that an item can be in. -/
def places (writes : TlsWrites) : List WriteItem :=
  writes.connPending ++ writes.writeWait ++ writes.shouldRetry.toList ++
    writes.whenTcpIsWriting ++ writes.writing ++ writes.respPending

/-- The write items are conserved and ordered. -/
structure Conserved (run : TlsRun) : Prop where
  held : ∀ item ∈ queued run, (recycled run).count item + run.state.places.count item = 1
  only : ∀ item ∈ run.state.places, item ∈ queued run
  reported : ∀ item ∈ queued run, item.FromUser → reports item run = (recycled run).count item
  left : (left run).Nodup
  accepted : (accepted run).Sublist (TlsWrites.left run)
  bytes : ∀ item buf result, SslCall.write item buf result ∈ calls run → buf = item.buf
  retried : (calls run).IsChain SslCall.Retries
  asserted : ∀ entry ∈ run.notes, entry.1 ≠ .assertion

variable {env : TlsEnv} {run : TlsRun} {hand due : List WriteItem}

/-- The places of an item, one by one. -/
theorem count_places (item : WriteItem) (writes : TlsWrites) :
    writes.places.count item = writes.connPending.count item + writes.writeWait.count item +
      writes.shouldRetry.toList.count item + writes.whenTcpIsWriting.count item +
      writes.writing.count item + writes.respPending.count item := by
  simp only [places, List.count_append]

/-- A queue that is set has its items counted anew. -/
theorem count_setItems (queue : TlsQueue) (items : List WriteItem) (item : WriteItem)
    (writes : TlsWrites) :
    (writes.setItems queue items).places.count item + (writes.items queue).count item =
      writes.places.count item + items.count item := by
  cases queue <;> simp only [count_places, setItems, TlsWrites.items] <;> omega

/-- An item that is pushed is in one place more. -/
theorem count_push (queue : TlsQueue) (item other : WriteItem) (writes : TlsWrites) :
    (writes.push queue item).places.count other =
      writes.places.count other + [item].count other := by
  have exchanged := count_setItems queue (writes.items queue ++ [item]) other writes
  rw [List.count_append] at exchanged
  rw [push]
  omega

/-- What is in the two queues that items wait in before `SSL_write`. -/
def waiting (writes : TlsWrites) : List WriteItem := writes.connPending ++ writes.writeWait

/-- Every item that has been made is in one place, or in the hand of the loop, until it is
given back. The items that are due have been reported, and not given back. -/
structure Account (hand due : List WriteItem) (run : TlsRun) : Prop where
  fresh : ∀ item ∈ queued run, item.born < run.state.nextBorn
  once : (queued run).Nodup
  balance : ∀ item, (queued run).count item =
    (recycled run).count item + (run.state.places.count item + hand.count item)
  reported : ∀ item : WriteItem, item.FromUser →
    reports item run = (recycled run).count item + due.count item

/-- The last item that has left `write_wait_queue` has not been taken. -/
def LastLeft (item : WriteItem) (run : TlsRun) : Prop :=
  ∃ earlier, left run = item :: earlier ∧ (accepted run).Sublist earlier

/-- What has left `write_wait_queue` is written in this order. -/
structure Script (run : TlsRun) : Prop where
  known : ∀ item ∈ left run, item.born < run.state.nextBorn
  waits : ∀ item ∈ run.state.waiting, item ∉ left run
  once : (left run).Nodup
  order : (accepted run).Sublist (left run)
  retry : ∀ retry, run.state.retryWb = some retry →
    LastLeft retry.item run ∧ retry.buf = retry.item.buf
  last : ∀ item buf, (calls run).head? = some (.write item buf .retry) →
    run.state.retryWb = some { buf, item }
  chain : (calls run).IsChain SslCall.Retries
  bytes : ∀ item buf result, SslCall.write item buf result ∈ calls run → buf = item.buf

/-- `when_tcp_is_writing_queue` is empty when the output BIO is. -/
structure Output (run : TlsRun) : Prop where
  empty : run.state.pending = 0 → run.state.whenTcpIsWriting = []
  asserted : ∀ entry ∈ run.notes, entry.1 ≠ .assertion

/-- What is kept, with the items in the hand of the loop. -/
structure Ledger (hand due : List WriteItem) (run : TlsRun) : Prop where
  account : Account hand due run
  script : Script run
  output : Output run

namespace Ledger

/-- The state is changed. -/
theorem change {after : List WriteItem} {act : TlsWrites → TlsWrites}
    (ledger : Ledger hand due run)
    (count : ∀ item, (act run.state).places.count item + after.count item =
      run.state.places.count item + hand.count item)
    (nextBorn : (act run.state).nextBorn = run.state.nextBorn)
    (waits : ∀ item ∈ (act run.state).waiting, item ∉ left run)
    (retryWb : (act run.state).retryWb = run.state.retryWb)
    (empty : (act run.state).pending = 0 → (act run.state).whenTcpIsWriting = []) :
    Ledger after due (run.change act) where
  account :=
    { fresh := fun item made => nextBorn ▸ ledger.account.fresh item made
      once := ledger.account.once
      balance := fun item =>
        (ledger.account.balance item).trans (congrArg _ (count item).symm)
      reported := ledger.account.reported }
  script :=
    { known := fun item gone => nextBorn ▸ ledger.script.known item gone
      waits
      once := ledger.script.once
      order := ledger.script.order
      retry := fun retry some => ledger.script.retry retry (retryWb ▸ some)
      last := fun item buf head => retryWb.trans (ledger.script.last item buf head)
      chain := ledger.script.chain
      bytes := ledger.script.bytes }
  output := ⟨empty, ledger.output.asserted⟩

/-- The items in the hand of the loop are put into another order. -/
theorem hold {after : List WriteItem} (ledger : Ledger hand due run)
    (count : ∀ item, after.count item = hand.count item) : Ledger after due run where
  account := { ledger.account with
    balance := fun item => count item ▸ ledger.account.balance item }
  script := ledger.script
  output := ledger.output

/-- A loop that hangs leaves everything where it is. -/
theorem hang (ledger : Ledger hand due run) : Ledger hand due (TlsWrites.hang run) :=
  ledger.change (fun _ => rfl) rfl ledger.script.waits rfl ledger.output.empty

/-- A report, an answer or an event is noted. -/
theorem note {reported : List WriteItem} {point : TlsNote} (ledger : Ledger hand due run)
    (other : point.queuedItem = none ∧ point.recycledItem = none ∧ point.leftItem = none ∧
      point.acceptedItem = none ∧ point.sslCall = none) (asserted : point ≠ .assertion)
    (count : ∀ item : WriteItem, item.FromUser → reported.count item =
      due.count item + if point.reports item run.state then 1 else 0) :
    Ledger hand reported (run.note point) := by
  obtain ⟨queuedItem, recycledItem, leftItem, acceptedItem, sslCall⟩ := other
  have same {α : Type} {pick : TlsNote → Option α} (none : pick point = none) :
      noted pick (run.note point) = noted pick run := by
    rw [noted, notes_note, List.filterMap_cons, none]
    rfl
  have queues : queued (run.note point) = queued run := same queuedItem
  have recycles : recycled (run.note point) = recycled run := same recycledItem
  have leaves : left (run.note point) = left run := same leftItem
  have accepts : accepted (run.note point) = accepted run := same acceptedItem
  have written : calls (run.note point) = calls run := same sslCall
  refine ⟨⟨?_, ?_, ?_, ?_⟩, ⟨?_, ?_, ?_, ?_, ?_, ?_, ?_, ?_⟩, ledger.output.empty, ?_⟩
  · rw [queues]
    exact ledger.account.fresh
  · rw [queues]
    exact ledger.account.once
  · rw [queues, recycles]
    exact ledger.account.balance
  · intro item user
    have before := ledger.account.reported item user
    have now := count item user
    rw [reports, notes_note, List.countP_cons, recycles]
    rw [reports] at before
    dsimp only
    omega
  · rw [leaves]
    exact ledger.script.known
  · rw [leaves]
    exact ledger.script.waits
  · rw [leaves]
    exact ledger.script.once
  · rw [accepts, leaves]
    exact ledger.script.order
  · intro retry some
    rw [LastLeft, accepts, leaves]
    exact ledger.script.retry retry some
  · rw [written]
    exact ledger.script.last
  · rw [written]
    exact ledger.script.chain
  · rw [written]
    exact ledger.script.bytes
  · exact List.forall_mem_cons.mpr ⟨asserted, ledger.output.asserted⟩

/-- A new item is queued. -/
theorem queue {item : WriteItem} {act : TlsWrites → TlsWrites} (ledger : Ledger hand due run)
    (born : item.born = run.state.nextBorn)
    (count : ∀ other, (act run.state).places.count other =
      run.state.places.count other + [item].count other)
    (nextBorn : (act run.state).nextBorn = run.state.nextBorn + 1)
    (waits : ∀ other ∈ (act run.state).waiting, other = item ∨ other ∈ run.state.waiting)
    (retryWb : (act run.state).retryWb = run.state.retryWb)
    (pending : (act run.state).pending = run.state.pending)
    (whenTcpIsWriting : (act run.state).whenTcpIsWriting = run.state.whenTcpIsWriting) :
    Ledger hand due ((run.note (.queued item)).change act) := by
  have queues : queued ((run.note (.queued item)).change act) = item :: queued run := rfl
  have new : item ∉ queued run := fun made =>
    absurd (ledger.account.fresh item made) (by omega)
  refine ⟨⟨?_, ?_, ?_, ?_⟩, ⟨?_, ?_, ?_, ?_, ?_, ?_, ?_, ?_⟩, ?_, ?_⟩
  · rw [queues]
    refine List.forall_mem_cons.mpr ⟨?_, fun other made => ?_⟩
    · exact born ▸ nextBorn ▸ Nat.lt_succ_self _
    · exact nextBorn ▸ Nat.lt_succ_of_lt (ledger.account.fresh other made)
  · rw [queues]
    exact List.nodup_cons.mpr ⟨new, ledger.account.once⟩
  · intro other
    have before := ledger.account.balance other
    have now := count other
    rw [queues, List.count_cons]
    rw [List.count_singleton] at now
    change _ = (recycled run).count other + ((act run.state).places.count other + _)
    omega
  · exact ledger.account.reported
  · exact fun other gone => nextBorn ▸ Nat.lt_succ_of_lt (ledger.script.known other gone)
  · intro other waiting
    rcases waits other waiting with rfl | before
    · exact fun gone => absurd (ledger.script.known other gone) (by omega)
    · exact ledger.script.waits other before
  · exact ledger.script.once
  · exact ledger.script.order
  · exact fun retry some => ledger.script.retry retry (retryWb ▸ some)
  · exact fun item buf head => retryWb.trans (ledger.script.last item buf head)
  · exact ledger.script.chain
  · exact ledger.script.bytes
  · exact fun empty => whenTcpIsWriting.trans (ledger.output.empty (pending ▸ empty))
  · exact List.forall_mem_cons.mpr ⟨nofun, ledger.output.asserted⟩

/-- An item in the hand of the loop is given back. -/
theorem recycle {item : WriteItem} {reported : List WriteItem}
    (ledger : Ledger (item :: hand) reported run)
    (count : ∀ other : WriteItem, other.FromUser →
      reported.count other = due.count other + [item].count other) :
    Ledger hand due (recycleItem item run) := by
  have idles (writes : TlsWrites) : (writes.idle item).places = writes.places ∧
      (writes.idle item).nextBorn = writes.nextBorn ∧
      (writes.idle item).waiting = writes.waiting ∧
      (writes.idle item).retryWb = writes.retryWb ∧
      (writes.idle item).pending = writes.pending ∧
      (writes.idle item).whenTcpIsWriting = writes.whenTcpIsWriting := by
    rw [idle]
    split <;> exact ⟨rfl, rfl, rfl, rfl, rfl, rfl⟩
  obtain ⟨places, nextBorn, waiting, retryWb, pending, whenTcpIsWriting⟩ := idles run.state
  have recycles : recycled (recycleItem item run) = item :: recycled run := rfl
  refine ⟨⟨?_, ledger.account.once, ?_, ?_⟩, ⟨?_, ?_, ledger.script.once, ledger.script.order,
    ?_, ?_, ledger.script.chain, ledger.script.bytes⟩, ?_, ?_⟩
  · exact fun other made => nextBorn ▸ ledger.account.fresh other made
  · intro other
    have before := ledger.account.balance other
    rw [recycles, List.count_cons]
    rw [List.count_cons] at before
    change (queued run).count other = _ + ((run.state.idle item).places.count other + _)
    rw [places]
    omega
  · intro other user
    have before := ledger.account.reported other user
    have now := count other user
    rw [recycles, List.count_cons]
    rw [List.count_singleton] at now
    change reports other run = _
    omega
  · exact fun other gone => nextBorn ▸ ledger.script.known other gone
  · intro other waits
    exact ledger.script.waits other (waiting ▸ waits)
  · exact fun retry some => ledger.script.retry retry (retryWb ▸ some)
  · exact fun item buf head => retryWb.trans (ledger.script.last item buf head)
  · exact fun empty => whenTcpIsWriting.trans (ledger.output.empty (pending ▸ empty))
  · exact List.forall_mem_cons.mpr ⟨nofun, ledger.output.asserted⟩

/-- An item leaves `write_wait_queue` for `SSL_write`. -/
theorem leave {item : WriteItem} {rest : List WriteItem} (ledger : Ledger [] [] run)
    (writeWait : run.state.writeWait = item :: rest) (free : run.state.retryWb = none) :
    Ledger [item] [] ((run.note (.left item)).change (setItems .writeWait rest)) ∧
      LastLeft item ((run.note (.left item)).change (setItems .writeWait rest)) := by
  have member : item ∈ run.state.waiting := by
    rw [waiting, writeWait]
    exact List.mem_append_right _ (List.mem_cons_self ..)
  have stays : item ∉ left run := ledger.script.waits item member
  -- The item is in no other place.
  have single : run.state.places.count item ≤ 1 := by
    have once := List.nodup_iff_count_le_one.mp ledger.account.once item
    have balance := ledger.account.balance item
    omega
  rw [count_places, writeWait, List.count_cons_self] at single
  have known : item.born < run.state.nextBorn := by
    refine ledger.account.fresh item (List.count_pos_iff.mp ?_)
    have balance := ledger.account.balance item
    rw [count_places, writeWait, List.count_cons_self] at balance
    omega
  have leaves : left ((run.note (.left item)).change (setItems .writeWait rest)) =
      item :: left run := rfl
  have last : LastLeft item ((run.note (.left item)).change (setItems .writeWait rest)) :=
    ⟨left run, leaves, ledger.script.order⟩
  refine ⟨⟨⟨ledger.account.fresh, ledger.account.once, ?_, ledger.account.reported⟩,
    ⟨?_, ?_, ?_, ?_, ?_, ledger.script.last, ledger.script.chain, ledger.script.bytes⟩,
    ⟨ledger.output.empty, ?_⟩⟩, last⟩
  · intro other
    have before := ledger.account.balance other
    have exchanged := count_setItems .writeWait rest other run.state
    have items : run.state.items .writeWait = item :: rest := writeWait
    rw [items, List.count_cons] at exchanged
    rw [List.count_singleton]
    change (queued run).count other =
      (recycled run).count other + ((run.state.setItems .writeWait rest).places.count other + _)
    rw [List.count_nil] at before
    omega
  · rw [leaves]
    exact List.forall_mem_cons.mpr ⟨known, ledger.script.known⟩
  · intro other waits
    rw [leaves, List.mem_cons, not_or]
    have before : other ∈ run.state.waiting := by
      rw [waiting, writeWait]
      exact (List.mem_append.mp waits).elim (List.mem_append_left _)
        fun member => List.mem_append_right _ (List.mem_cons_of_mem _ member)
    refine ⟨?_, ledger.script.waits other before⟩
    rintro rfl
    rcases List.mem_append.mp waits with pending | behind
    · have positive : 0 < run.state.connPending.count other := List.count_pos_iff.mpr pending
      omega
    · have positive : 0 < rest.count other := List.count_pos_iff.mpr behind
      omega
  · rw [leaves]
    exact List.nodup_cons.mpr ⟨stays, ledger.script.once⟩
  · rw [leaves]
    exact ledger.script.order.cons _
  · intro retry some
    exact absurd (free.symm.trans some) nofun
  · exact List.forall_mem_cons.mpr ⟨nofun, ledger.output.asserted⟩

/-- What is written next may follow on what was written last. -/
theorem retries {item : WriteItem} (ledger : Ledger hand due run) (result : SslWrite)
    (free : ∀ retry, run.state.retryWb = some retry → retry = { buf := item.buf, item }) :
    ∀ call ∈ (calls run).head?, SslCall.Retries (.write item item.buf result) call := by
  intro call last
  match call, last with
  | .clear, _ => trivial
  | .write _ _ .full, _ => trivial
  | .write _ _ .error, _ => trivial
  | .write other buf .retry, last =>
      have same := free _ (ledger.script.last other buf last)
      cases same
      exact .inr ⟨result, rfl⟩

/-- `SSL_write` is called with the bytes of the item that has left `write_wait_queue` last. -/
theorem sslWrite {item : WriteItem} {result : SslWrite} {after : List WriteItem}
    {act : TlsWrites → TlsWrites} (ledger : Ledger hand due run) (last : LastLeft item run)
    (free : ∀ retry, run.state.retryWb = some retry → retry = { buf := item.buf, item })
    (count : ∀ other, (act run.state).places.count other + after.count other =
      run.state.places.count other + hand.count other)
    (nextBorn : (act run.state).nextBorn = run.state.nextBorn)
    (waits : ∀ other ∈ (act run.state).waiting, other ∉ left run)
    (retryWb : (act run.state).retryWb =
      if result = .retry then some { buf := item.buf, item } else none)
    (empty : (act run.state).pending = 0 → (act run.state).whenTcpIsWriting = []) :
    Ledger after due ((run.note (.sslWrite item item.buf result)).change act) := by
  obtain ⟨earlier, gone, order⟩ := last
  have written : calls ((run.note (.sslWrite item item.buf result)).change act) =
      .write item item.buf result :: calls run := rfl
  have stays : result ≠ .full →
      accepted ((run.note (.sslWrite item item.buf result)).change act) = accepted run := by
    intro refused
    cases result with
    | full => exact absurd rfl refused
    | retry => rfl
    | error => rfl
  refine ⟨⟨fun other made => nextBorn ▸ ledger.account.fresh other made, ledger.account.once,
    fun other => (ledger.account.balance other).trans (congrArg _ (count other).symm),
    ledger.account.reported⟩, ⟨fun other gone => nextBorn ▸ ledger.script.known other gone, waits,
    ledger.script.once, ?_, ?_, ?_, ?_, ?_⟩, ⟨empty, ?_⟩⟩
  · cases result with
    | full =>
        change (item :: accepted run).Sublist (left run)
        rw [gone]
        exact order.cons_cons item
    | retry => exact ledger.script.order
    | error => exact ledger.script.order
  · intro retry some
    rw [show (Recorded.change act (run.note (.sslWrite item item.buf result))).state.retryWb = _
      from retryWb] at some
    split at some
    next again =>
      cases some
      refine ⟨⟨earlier, gone, ?_⟩, rfl⟩
      rw [stays (by rw [again]; decide)]
      exact order
    · exact absurd some nofun
  · intro other buf head
    rw [written, List.head?_cons] at head
    cases head
    exact retryWb
  · rw [written]
    exact List.isChain_cons.mpr ⟨ledger.retries result free, ledger.script.chain⟩
  · intro other buf outcome member
    rw [written] at member
    rcases List.mem_cons.mp member with same | before
    · cases same
      rfl
    · exact ledger.script.bytes other buf outcome before
  · exact List.forall_mem_cons.mpr ⟨nofun, ledger.output.asserted⟩

/-- The TLS library forgets what it has been given. -/
theorem sslClear (ledger : Ledger hand due run) :
    Ledger hand due ((run.note .sslClear).change clear) := by
  have written : calls ((run.note .sslClear).change clear) = .clear :: calls run := rfl
  refine ⟨⟨ledger.account.fresh, ledger.account.once, ?_, ledger.account.reported⟩,
    ⟨ledger.script.known, ledger.script.waits, ledger.script.once, ledger.script.order, nofun,
      ?_, ?_, ?_⟩, ⟨fun _ => rfl, ?_⟩⟩
  · intro item
    have before := ledger.account.balance item
    have moved : (clear run.state).places.count item = run.state.places.count item := by
      simp only [count_places, clear, List.count_append, Option.toList_none, List.count_nil]
      omega
    change (queued run).count item =
      (recycled run).count item + ((clear run.state).places.count item + _)
    omega
  · intro item buf head
    rw [written, List.head?_cons] at head
    exact absurd head nofun
  · rw [written]
    refine List.isChain_cons.mpr ⟨fun call _ => ?_, ledger.script.chain⟩
    match call with
    | .clear | .write _ _ .full | .write _ _ .error => trivial
    | .write _ _ .retry => exact .inl rfl
  · intro item buf result member
    rw [written] at member
    exact ledger.script.bytes item buf result ((List.mem_cons.mp member).resolve_left nofun)
  · exact List.forall_mem_cons.mpr ⟨nofun, ledger.output.asserted⟩

end Ledger

/-- A slot is marked, and the queues stay as they are. -/
theorem allocate_eq (item : WriteItem) (writes : TlsWrites) : ∃ preWis,
    writes.allocate item = { writes with preWis, nextBorn := writes.nextBorn + 1 } := by
  rw [allocate]
  split
  · exact ⟨_, rfl⟩
  · exact ⟨_, rfl⟩

/-- A message is linked behind `conn_pending_queue` or `write_wait_queue`. -/
structure Linked (item : WriteItem) (first second : TlsWrites) : Prop where
  nextBorn : second.nextBorn = first.nextBorn + 1
  retryWb : second.retryWb = first.retryWb
  shouldRetry : second.shouldRetry = first.shouldRetry
  pending : second.pending = first.pending
  whenTcpIsWriting : second.whenTcpIsWriting = first.whenTcpIsWriting
  respPending : second.respPending = first.respPending
  waits : ∀ other ∈ second.waiting, other = item ∨ other ∈ first.waiting
  count : ∀ other, second.places.count other = first.places.count other + [item].count other

/-- A new item has its slot, and waits in the inbox. -/
theorem linked_push (item : WriteItem) (writes : TlsWrites) {queue : TlsQueue}
    (inbox : queue = .writeWait ∨ queue = .connPending) :
    Linked item writes ((writes.allocate item).push queue item) := by
  obtain ⟨preWis, allocated⟩ := allocate_eq item writes
  rw [allocated]
  refine ⟨?_, ?_, ?_, ?_, ?_, ?_, fun other member => ?_, fun other => count_push ..⟩
  case refine_7 =>
    rw [waiting, List.mem_append] at member ⊢
    rcases inbox with rfl | rfl <;> rw [push] at member <;>
      simp only [setItems, TlsWrites.items, List.mem_append, List.mem_singleton] at member <;> tauto
  all_goals rcases inbox with rfl | rfl <;> rfl

/-- What `tr_uv_tcp_send` makes of the state. -/
theorem linked_trUvTcpSend (message : TlsMessage) (run : TlsRun) : ∃ item,
    item.born = run.state.nextBorn ∧ Linked item run.state (trUvTcpSend message run).state ∧
      (trUvTcpSend message run).notes = (run.note (.queued item)).notes := by
  let item := run.state.newItem (if message.reqId = pcNotifyPushReqId then .notify else .resp) message
  have inbox : run.state.inbox = .writeWait ∨ run.state.inbox = .connPending := by
    rw [TlsWrites.inbox]
    split
    · exact .inl rfl
    · exact .inr rfl
  have linked := linked_push item run.state inbox
  exact ⟨item, rfl, ⟨linked.nextBorn, linked.retryWb, linked.shouldRetry, linked.pending,
    linked.whenTcpIsWriting, linked.respPending, linked.waits, linked.count⟩, rfl⟩

/-- The copy that is to be tried again and its item, and what has left `write_wait_queue`, are
as they were. -/
structure Beside (first second : TlsRun) : Prop where
  retryWb : second.state.retryWb = first.state.retryWb
  shouldRetry : second.state.shouldRetry = first.state.shouldRetry
  left : left second = TlsWrites.left first

namespace Beside

variable {first second third : TlsRun}

theorem refl (run : TlsRun) : Beside run run := ⟨rfl, rfl, rfl⟩

/-- One step beside the loop after another. -/
theorem trans (before : Beside first second) (after : Beside second third) : Beside first third :=
  ⟨after.retryWb.trans before.retryWb, after.shouldRetry.trans before.shouldRetry,
    after.left.trans before.left⟩

theorem trUvTcpSend (message : TlsMessage) (run : TlsRun) :
    Beside run (TlsWrites.trUvTcpSend message run) := by
  obtain ⟨item, -, linked, -⟩ := linked_trUvTcpSend message run
  exact ⟨linked.retryWb, linked.shouldRetry, rfl⟩

end Beside

/-- What every message keeps is kept by all that are sent. -/
theorem others_induct {holds : TlsRun → Prop}
    (send : ∀ message run, holds run → holds (trUvTcpSend message run)) (start : holds run) :
    holds (others env run) := by
  rw [others]
  generalize env.sends run = messages
  induction messages generalizing run with
  | nil => exact start
  | cons message messages ih => exact ih (send message run start)

/-- What other threads do stays beside. -/
theorem Beside.others (run : TlsRun) : Beside run (TlsWrites.others env run) :=
  others_induct (fun message _ before => before.trans (.trUvTcpSend message _)) (.refl run)

/-- Messages are linked neither in `resp_pending_queue` nor in the output BIO. -/
theorem state_others (run : TlsRun) :
    (others env run).state.respPending = run.state.respPending ∧
      (others env run).state.pending = run.state.pending := by
  rw [others]
  generalize env.sends run = messages
  induction messages generalizing run with
  | nil => exact ⟨rfl, rfl⟩
  | cons message messages ih =>
      obtain ⟨item, -, linked, -⟩ := linked_trUvTcpSend message run
      obtain ⟨respPending, pending⟩ := ih (trUvTcpSend message run)
      exact ⟨respPending.trans linked.respPending, pending.trans linked.pending⟩

namespace Ledger

/-- Sending puts a new item into the ledger. -/
theorem trUvTcpSend (ledger : Ledger hand due run) (message : TlsMessage) :
    Ledger hand due (TlsWrites.trUvTcpSend message run) := by
  obtain ⟨item, born, linked, notes⟩ := linked_trUvTcpSend message run
  have queued : Ledger hand due ((run.note (.queued item)).change
      fun _ => (TlsWrites.trUvTcpSend message run).state) :=
    ledger.queue born linked.count linked.nextBorn linked.waits linked.retryWb linked.pending
      linked.whenTcpIsWriting
  have same : TlsWrites.trUvTcpSend message run = (run.note (.queued item)).change
      fun _ => (TlsWrites.trUvTcpSend message run).state := by
    rw [Recorded.change, ← notes]
  rw [same]
  exact queued

theorem others (ledger : Ledger hand due run) : Ledger hand due (TlsWrites.others env run) :=
  others_induct (fun message _ kept => kept.trUvTcpSend message) ledger

/-- An internal package goes in front. -/
theorem sendFirst (ledger : Ledger hand due run) (buf : UvBuf) :
    Ledger hand due (TlsWrites.sendFirst buf run) := by
  rw [TlsWrites.sendFirst]
  dsimp only
  have born : (run.state.newItem .internal (internalMessage buf)).born = run.state.nextBorn := rfl
  generalize run.state.newItem .internal (internalMessage buf) = item at born ⊢
  obtain ⟨preWis, allocated⟩ := allocate_eq item run.state
  have first : ∀ other, List.count other (item :: run.state.writeWait) =
      run.state.writeWait.count other + [item].count other := fun other => by
    rw [List.count_cons, List.count_singleton]
  have joined : Linked item run.state
      { run.state.allocate item with writeWait := item :: run.state.writeWait, writeAsync := true } := by
    rw [allocated]
    refine ⟨rfl, rfl, rfl, rfl, rfl, rfl, fun other waits => ?_, fun other => ?_⟩
    · rw [waiting, List.mem_append, List.mem_cons] at waits
      rw [waiting, List.mem_append]
      tauto
    · simp only [count_places, first]
      omega
  exact ledger.queue born joined.count joined.nextBorn joined.waits joined.retryWb joined.pending
    joined.whenTcpIsWriting

theorem sendLast (ledger : Ledger hand due run) (buf : UvBuf) :
    Ledger hand due (TlsWrites.sendLast buf run) := by
  rw [TlsWrites.sendLast]
  dsimp only
  have linked := linked_push (run.state.newItem .internal (internalMessage buf)) run.state (.inl rfl)
  exact ledger.queue rfl linked.count linked.nextBorn linked.waits linked.retryWb linked.pending
    linked.whenTcpIsWriting

theorem fireEvent (ledger : Ledger hand due run) : Ledger hand due (TlsWrites.fireEvent env run) :=
  have noted : Ledger hand due (run.note .fired) :=
    ledger.note ⟨rfl, rfl, rfl, rfl, rfl⟩ nofun fun _ _ => rfl
  noted.others

variable (env) in
/-- An item is reported if it is a message of the user. -/
theorem reportItem (ledger : Ledger hand due run) (item : WriteItem) (rc : Int) :
    ∃ reported, Ledger hand reported (TlsWrites.reportItem env item rc run) ∧
      ∀ other : WriteItem, other.FromUser →
        reported.count other = due.count other + [item].count other := by
  have noted : Ledger hand (item :: due) (run.note (.reported item rc)) :=
    ledger.note ⟨rfl, rfl, rfl, rfl, rfl⟩ nofun fun other _ => by
      simp only [List.count_cons, TlsNote.reports, decide_eq_true_iff, beq_iff_eq]
  rw [TlsWrites.reportItem]
  split
  · exact ⟨_, noted.others, fun other _ => by rw [List.count_cons, List.count_singleton]⟩
  · exact ⟨_, noted.others, fun other _ => by rw [List.count_cons, List.count_singleton]⟩
  next notify resp =>
    refine ⟨due, ledger, fun other user => ?_⟩
    have different : other ≠ item := by
      rintro rfl
      exact user.elim resp notify
    rw [List.count_eq_zero_of_not_mem (List.mem_singleton.not.mpr different)]
    rfl

/-- An item in the hand of the loop is reported and given back. -/
theorem dropItem {item : WriteItem} (ledger : Ledger (item :: hand) due run) (rc : Int) :
    Ledger hand due (TlsWrites.dropItem env item rc run) := by
  obtain ⟨reported, kept, count⟩ := ledger.reportItem env item rc
  exact kept.recycle count

end Ledger

/-- A note about anything but an item that leaves. -/
theorem Beside.note {point : TlsNote} (stays : point.leftItem = none) (run : TlsRun) :
    Beside run (run.note point) := by
  refine ⟨rfl, rfl, ?_⟩
  rw [TlsWrites.left, noted, notes_note, List.filterMap_cons, stays]
  rfl

theorem Beside.fireEvent (run : TlsRun) : Beside run (TlsWrites.fireEvent env run) :=
  (note rfl run).trans (others _)

theorem Beside.reportItem (item : WriteItem) (rc : Int) (run : TlsRun) :
    Beside run (TlsWrites.reportItem env item rc run) := by
  rw [TlsWrites.reportItem]
  split
  · exact (note rfl run).trans (others _)
  · exact (note rfl run).trans (others _)
  · exact refl run

theorem Beside.recycleItem (item : WriteItem) (run : TlsRun) :
    Beside run (TlsWrites.recycleItem item run) := by
  rw [TlsWrites.recycleItem]
  refine ⟨?_, ?_, rfl⟩
  · change (run.state.idle item).retryWb = _
    rw [idle]
    split <;> rfl
  · change (run.state.idle item).shouldRetry = _
    rw [idle]
    split <;> rfl

theorem Beside.dropItem (item : WriteItem) (rc : Int) (run : TlsRun) :
    Beside run (TlsWrites.dropItem env item rc run) :=
  (reportItem item rc run).trans (recycleItem item _)

theorem Beside.sendFirst (buf : UvBuf) (run : TlsRun) :
    Beside run (TlsWrites.sendFirst buf run) := by
  obtain ⟨preWis, allocated⟩ :=
    allocate_eq (run.state.newItem .internal (internalMessage buf)) run.state
  have retryWb := congrArg TlsWrites.retryWb allocated
  have shouldRetry := congrArg TlsWrites.shouldRetry allocated
  exact ⟨retryWb, shouldRetry, rfl⟩

theorem Beside.sendLast (buf : UvBuf) (run : TlsRun) :
    Beside run (TlsWrites.sendLast buf run) :=
  have linked := linked_push (run.state.newItem .internal (internalMessage buf)) run.state (.inl rfl)
  ⟨linked.retryWb, linked.shouldRetry, rfl⟩

theorem Beside.setItems (queue : TlsQueue) (items : List WriteItem) (run : TlsRun) :
    Beside run (run.change (TlsWrites.setItems queue items)) := by
  cases queue <;> exact ⟨rfl, rfl, rfl⟩

/-- The loop holds nothing, and an item that is to be tried again has its copy. -/
structure Kept (run : TlsRun) : Prop where
  ledger : Ledger [] [] run
  alone : run.state.retryWb = none → run.state.shouldRetry = none

/-- What stays beside keeps the rest. -/
theorem Beside.kept {first second : TlsRun} (beside : Beside first second)
    (ledger : Ledger [] [] second) (kept : Kept first) : Kept second where
  ledger := ledger
  alone := fun none => beside.shouldRetry.trans (kept.alone (beside.retryWb.symm.trans none))

namespace Ledger

/-- The head of a queue is taken into the hand of the loop. -/
theorem take {queue : TlsQueue} {item : WriteItem} {rest : List WriteItem}
    (ledger : Ledger hand due run) (items : run.state.items queue = item :: rest) :
    Ledger (item :: hand) due (run.change (setItems queue rest)) := by
  refine ledger.change (fun other => ?_) ?_ (fun other waits => ?_) ?_ ?_
  · have exchanged := count_setItems queue rest other run.state
    rw [items, List.count_cons] at exchanged
    rw [List.count_cons]
    omega
  · cases queue <;> rfl
  · refine ledger.script.waits other ?_
    cases queue with
    | connPending =>
        exact (List.mem_append.mp waits).elim (fun member => List.mem_append_left _
          (by rw [show run.state.connPending = item :: rest from items]
              exact List.mem_cons_of_mem _ member)) (List.mem_append_right _)
    | writeWait =>
        exact (List.mem_append.mp waits).elim (List.mem_append_left _) fun member =>
          List.mem_append_right _ (by
            rw [show run.state.writeWait = item :: rest from items]
            exact List.mem_cons_of_mem _ member)
    | whenTcpIsWriting | writing | respPending => exact waits
  · cases queue <;> rfl
  · cases queue with
    | whenTcpIsWriting =>
        intro empty
        have none := ledger.output.empty empty
        exact absurd (items.symm.trans none) nofun
    | connPending | writeWait | writing | respPending => exact ledger.output.empty

variable (env) in
/-- The loops of `tcp__reset`. -/
theorem dropItems (queue : TlsQueue) (rc : Int) (passes : Nat) (ledger : Ledger [] [] run) :
    Ledger [] [] (TlsWrites.dropItems env queue rc passes run) ∧
      Beside run (TlsWrites.dropItems env queue rc passes run) := by
  induction passes generalizing run with
  | zero => exact ⟨ledger, .refl run⟩
  | succ passes ih =>
      rw [TlsWrites.dropItems]
      split
      · exact ⟨ledger, .refl run⟩
      next item rest items =>
        have dropped : Ledger [] [] (TlsWrites.dropItem env item rc
            (run.change (setItems queue rest))) := (ledger.take items).dropItem rc
        obtain ⟨kept, beside⟩ := ih dropped
        exact ⟨kept, ((Beside.setItems queue rest run).trans (.dropItem item rc _)).trans beside⟩

variable (env) in

theorem tcpReset (ledger : Ledger [] [] run) :
    Ledger [] [] (TlsWrites.tcpReset env run) ∧ Beside run (TlsWrites.tcpReset env run) := by
  have stopped : Ledger [] [] (run.change fun writes =>
      { writes with state := .notConn, checkTimeout := false }) :=
    ledger.change (fun _ => rfl) rfl ledger.script.waits rfl ledger.output.empty
  have gathered : Ledger [] [] ((run.change fun writes =>
      { writes with state := .notConn, checkTimeout := false }).change gather) := by
    refine stopped.change (fun other => ?_) rfl nofun rfl stopped.output.empty
    simp only [count_places, gather, List.count_append, List.count_nil]
    omega
  have unbound : Beside run ((run.change fun writes =>
      { writes with state := .notConn, checkTimeout := false }).change gather) := ⟨rfl, rfl, rfl⟩
  rw [TlsWrites.tcpReset]
  generalize (run.change fun writes =>
    { writes with state := .notConn, checkTimeout := false }).change gather = next at *
  obtain ⟨written, first⟩ := gathered.dropItems env .writing pcRcReset
    next.state.writing.length
  obtain ⟨kept, second⟩ := written.dropItems env .respPending pcRcReset _
  exact ⟨kept, (unbound.trans first).trans second⟩

variable (env) in
/-- `tls__write_to_tcp` -/
theorem tlsWriteToTcp (ledger : Ledger [] [] run) :
    Ledger [] [] (TlsWrites.tlsWriteToTcp env run) ∧ Beside run (TlsWrites.tlsWriteToTcp env run) := by
  rw [TlsWrites.tlsWriteToTcp]
  split
  · exact ⟨ledger, .refl run⟩
  split
  next empty =>
    rw [if_pos (ledger.output.empty empty)]
    exact ⟨ledger.change (fun _ => rfl) rfl ledger.script.waits rfl ledger.output.empty,
      rfl, rfl, rfl⟩
  · have moved : Ledger [] [] (run.change fun writes => { writes with
        writing := writes.writing ++ writes.whenTcpIsWriting
        whenTcpIsWriting := [] }) := by
      refine ledger.change (fun other => ?_) rfl ledger.script.waits rfl fun _ => rfl
      simp only [count_places, List.count_append, List.count_nil]
      omega
    exact ⟨moved.change (fun _ => rfl) rfl moved.script.waits rfl fun _ => rfl, rfl, rfl, rfl⟩

/-- `tls__reset` -/
theorem tlsReset (ledger : Ledger [] [] run) : Kept (TlsWrites.tlsReset env run) := by
  have alerted : Ledger [] [] (run.change fun writes =>
      { writes with pending := writes.pending + env.flight run }) := by
    refine ledger.change (fun _ => rfl) rfl ledger.script.waits rfl fun empty => ?_
    exact ledger.output.empty (Nat.eq_zero_of_add_eq_zero_right empty)
  have cleared := (alerted.tlsWriteToTcp env).1.sslClear
  obtain ⟨kept, beside⟩ := cleared.tcpReset env
  rw [TlsWrites.tlsReset]
  exact ⟨kept, fun _ => beside.shouldRetry⟩

theorem tcpReconn (ledger : Ledger [] [] run) : Kept (TlsWrites.tcpReconn env run) := by
  have reset : Kept (TlsWrites.tlsReset env run) := ledger.tlsReset
  have entered {next : TlsRun} (kept : Kept next) (state : TcpState) :
      Kept (next.change fun writes => { writes with state }) :=
    ⟨kept.ledger.change (fun _ => rfl) rfl kept.ledger.script.waits rfl kept.ledger.output.empty,
      kept.alone⟩
  rw [TlsWrites.tcpReconn]
  split
  · have connecting := entered reset .connecting
    exact entered ((Beside.fireEvent _).kept connecting.ledger.fireEvent connecting) .notConn
  · exact entered reset .connecting

theorem tlsEmitErrorEvent (ledger : Ledger [] [] run) :
    Kept (TlsWrites.tlsEmitErrorEvent env run) := by
  rw [TlsWrites.tlsEmitErrorEvent]
  split
  · exact ledger.fireEvent.tcpReconn
  · exact ledger.fireEvent.tlsReset

end Ledger

namespace Kept

/-- What keeps the count of the places. -/
theorem change {act : TlsWrites → TlsWrites} (kept : Kept run)
    (count : ∀ item, (act run.state).places.count item = run.state.places.count item)
    (nextBorn : (act run.state).nextBorn = run.state.nextBorn)
    (waits : ∀ item ∈ (act run.state).waiting, item ∈ run.state.waiting)
    (retryWb : (act run.state).retryWb = run.state.retryWb)
    (shouldRetry : (act run.state).shouldRetry = run.state.shouldRetry)
    (empty : (act run.state).pending = 0 → (act run.state).whenTcpIsWriting = []) :
    Kept (run.change act) where
  ledger := kept.ledger.change (fun item => congrArg (· + 0) (count item)) nextBorn
    (fun item member => kept.ledger.script.waits item (waits item member)) retryWb empty
  alone none := shouldRetry.trans (kept.alone (retryWb.symm.trans none))

/-- What other threads do keeps everything. -/
theorem others (kept : Kept run) : Kept (TlsWrites.others env run) :=
  (Beside.others run).kept kept.ledger.others kept

theorem tlsWriteToTcp (kept : Kept run) : Kept (TlsWrites.tlsWriteToTcp env run) :=
  have written := kept.ledger.tlsWriteToTcp env
  written.2.kept written.1 kept

theorem writeBioEnd (kept : Kept run) (flag : Bool) : Kept (TlsWrites.writeBioEnd env flag run) := by
  have started : Kept (run.change fun writes => { writes with checkTimeout := true }) :=
    kept.change (fun _ => rfl) rfl (fun _ => id) rfl rfl kept.ledger.output.empty
  rw [TlsWrites.writeBioEnd]
  split
  · exact started.tlsWriteToTcp
  · exact started

theorem hang (kept : Kept run) : Kept (TlsWrites.hang run) :=
  kept.change (fun _ => rfl) rfl (fun _ => id) rfl rfl kept.ledger.output.empty

/-- The loop of `tls__write_to_bio` starts, and goes on, with nothing to try again. -/
theorem writeBioLoop {head : TlsQueue} (behind : head = .writing ∨ head = .whenTcpIsWriting)
    (passes : Nat) (flag : Bool) (kept : Kept run) (free : run.state.retryWb = none) :
    Kept (TlsWrites.writeBioLoop env head passes flag run) := by
  induction passes generalizing run flag with
  | zero => exact kept.hang
  | succ passes ih =>
      have later : Kept (TlsWrites.others env run) := kept.others
      have same : Beside run (TlsWrites.others env run) := .others run
      have none := same.retryWb.trans free
      rw [TlsWrites.writeBioLoop]
      generalize TlsWrites.others env run = run at later none ⊢
      dsimp only
      split
      · exact later.writeBioEnd flag
      next item rest items =>
        obtain ⟨gone, last⟩ := later.ledger.leave items none
        have alone : run.state.shouldRetry = .none := later.alone none
        have held : ∀ retry, ((run.note (.left item)).change (setItems .writeWait rest)).state.retryWb
            = some retry → retry = { buf := item.buf, item } :=
          fun retry some => absurd (none.symm.trans some) nofun
        have same : ((run.note (.left item)).change (setItems .writeWait rest)).state.shouldRetry =
            .none := alone
        have unset : ((run.note (.left item)).change (setItems .writeWait rest)).state.retryWb =
            .none := none
        generalize (run.note (.left item)).change (setItems .writeWait rest) = run at *
        generalize env.record run = record
        generalize env.flight run = flight
        cases env.sslWrite run with
        | full =>
            have taken : Ledger [] [] ((run.note (.sslWrite item item.buf .full)).change
                fun writes => (writes.accept record).push head item) := by
              refine gone.sslWrite last held (fun other => ?_) ?_ ?_ ?_ fun empty => ?_
              · exact count_push head item other (run.state.accept record)
              · rcases behind with rfl | rfl <;> rfl
              · rcases behind with rfl | rfl <;> exact gone.script.waits
              · rcases behind with rfl | rfl <;> exact unset
              · have pending : ((run.state.accept record).push head item).pending =
                    run.state.pending + record := by
                  rcases behind with rfl | rfl <;> rfl
                have positive := record.pos
                rw [pending] at empty
                omega
            refine ih true ⟨taken, fun _ => ?_⟩ ?_
            · rcases behind with rfl | rfl <;> exact same
            · rcases behind with rfl | rfl <;> exact unset
        | retry =>
            refine writeBioEnd (Kept.mk ?_ fun none =>
              absurd (show some (RetryWb.mk item.buf item) = .none from none) nofun) flag
            refine gone.sslWrite last held (fun other => ?_) rfl gone.script.waits rfl fun empty => ?_
            · rw [count_places, count_places, same]
              simp only [Option.toList_some, Option.toList_none, List.count_nil]
              omega
            · exact gone.output.empty (Nat.eq_zero_of_add_eq_zero_right empty)
        | error =>
            refine Ledger.tlsEmitErrorEvent ?_
            refine gone.sslWrite last held (fun other => ?_) rfl gone.script.waits unset fun empty => ?_
            · rw [count_places, count_places, same]
              simp only [Option.toList_some, Option.toList_none, List.count_nil]
              omega
            · exact gone.output.empty (Nat.eq_zero_of_add_eq_zero_right empty)

/-- The write that is tried again keeps everything. -/
theorem writeBioRetry {head : TlsQueue} (behind : head = .writing ∨ head = .whenTcpIsWriting)
    {retry : RetryWb} (kept : Kept run) (copied : run.state.retryWb = some retry) :
    Kept (TlsWrites.writeBioRetry env head retry run) := by
  obtain ⟨last, bytes⟩ := kept.ledger.script.retry retry copied
  obtain ⟨buf, item⟩ := retry
  change buf = item.buf at bytes
  subst bytes
  have held : ∀ retry, run.state.retryWb = some retry → retry = { buf := item.buf, item } :=
    fun retry some => (Option.some.inj (copied.symm.trans some)).symm
  rw [TlsWrites.writeBioRetry]
  dsimp only
  generalize env.record run = record
  generalize env.flight run = flight
  cases env.sslWrite run with
  | full =>
      have taken : Ledger [] [] ((run.note (.sslWrite item item.buf .full)).change
          (retried head record)) := by
        refine kept.ledger.sslWrite last held (fun other => ?_) ?_ ?_ ?_ fun empty => ?_
        · rcases behind with rfl | rfl <;>
            simp only [count_places, retried, accept, setItems, TlsWrites.items, List.count_append,
              Option.toList_none, List.count_nil] <;> omega
        · rcases behind with rfl | rfl <;> rfl
        · rcases behind with rfl | rfl <;> exact kept.ledger.script.waits
        · rcases behind with rfl | rfl <;> rfl
        · have pending : (retried head record run.state).pending = run.state.pending + record := by
            rcases behind with rfl | rfl <;> rfl
          have positive := record.pos
          rw [pending] at empty
          omega
      exact writeBioLoop behind env.passes true ⟨taken, fun _ => rfl⟩ rfl
  | retry =>
      have waits : Ledger [] [] ((run.note (.sslWrite item item.buf .retry)).change fun writes =>
          { writes with pending := writes.pending + flight }) :=
        kept.ledger.sslWrite last held (fun _ => rfl) rfl kept.ledger.script.waits copied
          fun empty => kept.ledger.output.empty (Nat.eq_zero_of_add_eq_zero_right empty)
      have next : Kept ((run.note (.sslWrite item item.buf .retry)).change fun writes =>
          { writes with pending := writes.pending + flight }) := ⟨waits, kept.alone⟩
      exact next.writeBioEnd false
  | error =>
      refine Ledger.tlsEmitErrorEvent ?_
      exact kept.ledger.sslWrite last held (fun _ => rfl) rfl kept.ledger.script.waits rfl
        fun empty => kept.ledger.output.empty (Nat.eq_zero_of_add_eq_zero_right empty)

theorem tlsWriteToBio (kept : Kept run) : Kept (TlsWrites.tlsWriteToBio env run) := by
  have behind : run.state.head = .writing ∨ run.state.head = .whenTcpIsWriting := by
    rw [head]
    split
    · exact .inr rfl
    · exact .inl rfl
  have moved : Kept (run.change movePending) := by
    by_cases done : run.state.state = .done
    · have moves : movePending run.state = { run.state with
          connPending := [], writeWait := run.state.writeWait ++ run.state.connPending } :=
        if_pos done
      refine kept.change (fun item => ?_) ?_ (fun item waits => ?_) ?_ ?_ ?_ <;>
        rw [moves] at *
      · simp only [count_places, List.count_append, List.count_nil]
        omega
      · exact (List.mem_append.mp waits).elim nofun fun member =>
          List.mem_append.mpr (List.mem_append.mp member).symm
      · exact kept.ledger.output.empty
    · have stays : movePending run.state = run.state := if_neg done
      refine kept.change (fun item => ?_) ?_ (fun item waits => ?_) ?_ ?_ ?_ <;> rw [stays] at *
      · exact waits
      · exact kept.ledger.output.empty
  rw [TlsWrites.tlsWriteToBio]
  split
  · exact kept
  dsimp only
  split
  next retry copied => exact moved.writeBioRetry behind copied
  next none => exact moved.writeBioLoop behind env.passes false none

theorem setState {act : TlsWrites → TlsWrites} (kept : Kept run)
    (same : act run.state = { run.state with
      state := (act run.state).state
      isWriting := (act run.state).isWriting
      isHandshakeCompleted := (act run.state).isHandshakeCompleted
      writeAsync := (act run.state).writeAsync
      checkTimeout := (act run.state).checkTimeout
      clock := (act run.state).clock }) : Kept (run.change act) := by
  refine kept.change (fun item => ?_) ?_ (fun item waits => ?_) ?_ ?_ ?_ <;> rw [same] at *
  · rfl
  · exact waits
  · exact kept.ledger.output.empty

/-- The loop of `tls__write_done_cb`. -/
theorem finishWrites (rc : Int) (passes : Nat) (kept : Kept run) :
    Kept (TlsWrites.finishWrites env rc passes run) := by
  induction passes generalizing run with
  | zero => exact kept
  | succ passes ih =>
      rw [TlsWrites.finishWrites]
      split
      · exact kept
      next item rest items =>
        have taken : Ledger [item] [] (run.change (setItems .writing rest)) :=
          kept.ledger.take items
        have removed := Beside.setItems .writing rest run
        dsimp only
        split
        · refine ih (Beside.kept (removed.trans (.setItems .respPending _ _)) ?_ kept)
          refine taken.change (fun other => ?_) rfl taken.script.waits rfl taken.output.empty
          exact count_push .respPending item other _
        · exact ih ((removed.trans (.dropItem item rc _)).kept (taken.dropItem rc) kept)

/-- What follows a write keeps everything. -/
theorem tlsWriteDoneCb (kept : Kept run) (status : Int) :
    Kept (TlsWrites.tlsWriteDoneCb env status run) := by
  have written : Kept (run.change fun writes => { writes with isWriting := false }) :=
    kept.setState rfl
  exact (written.finishWrites _ _).tlsWriteToTcp

end Kept

/-- Dropping an item leaves what OpenSSL has taken. -/
theorem pending_dropItem (item : WriteItem) (rc : Int) (run : TlsRun) :
    (dropItem env item rc run).state.pending = run.state.pending := by
  have idles (writes : TlsWrites) : (writes.idle item).pending = writes.pending := by
    rw [idle]
    split <;> rfl
  refine (idles _).trans ?_
  rw [reportItem]
  split
  · exact (state_others (run.note (.reported item rc))).2
  · exact (state_others (run.note (.reported item rc))).2
  · rfl

/-- The items that a check has put aside can be put back. -/
structure Aside (queue : TlsQueue) (tmp : List WriteItem) (run : TlsRun) : Prop where
  ledger : Ledger tmp [] run
  waits : queue = .connPending ∨ queue = .writeWait → ∀ item ∈ tmp, item ∉ left run
  written : queue = .whenTcpIsWriting → run.state.pending = 0 → tmp = []

namespace Aside

variable {queue : TlsQueue} {tmp : List WriteItem}

/-- The items set aside go back behind the others. -/
theorem putBack (aside : Aside queue tmp run) :
    Ledger [] [] (run.change fun writes => writes.setItems queue (writes.items queue ++ tmp)) := by
  refine aside.ledger.change (fun other => ?_) ?_ (fun other waits => ?_) ?_ fun empty => ?_
  · have exchanged := count_setItems queue (run.state.items queue ++ tmp) other run.state
    rw [List.count_append] at exchanged
    rw [List.count_nil]
    omega
  · cases queue <;> rfl
  · have before := aside.ledger.script.waits other
    have stays := fun waiting member => aside.waits waiting other member
    cases queue <;> simp only [waiting, setItems, TlsWrites.items, List.mem_append] at * <;> tauto
  · cases queue <;> rfl
  · cases queue with
    | whenTcpIsWriting =>
        have pending : run.state.pending = 0 := empty
        change run.state.whenTcpIsWriting ++ tmp = []
        rw [aside.ledger.output.empty pending, aside.written rfl pending]
        rfl
    | connPending | writeWait | writing | respPending => exact aside.ledger.output.empty empty

variable (env) in
/-- The next item is reported, or put aside. -/
theorem checkQueueLoop (ct passes : Nat) (cont : Bool) (aside : Aside queue tmp run) :
    Ledger [] [] (TlsWrites.checkQueueLoop env queue ct passes cont tmp run).1 ∧
      Beside run (TlsWrites.checkQueueLoop env queue ct passes cont tmp run).1 := by
  have beside (run : TlsRun) (tmp : List WriteItem) : Beside run
      (run.change fun writes => writes.setItems queue (writes.items queue ++ tmp)) :=
    Beside.setItems queue (run.state.items queue ++ tmp) run
  induction passes generalizing run tmp cont with
  | zero => exact ⟨aside.putBack.hang, (beside run tmp).trans ⟨rfl, rfl, rfl⟩⟩
  | succ passes ih =>
      rw [TlsWrites.checkQueueLoop]
      split
      · exact ⟨aside.putBack, beside run tmp⟩
      next item rest items =>
        have taken := aside.ledger.take items
        have removed := Beside.setItems queue rest run
        have pending : (run.change (setItems queue rest)).state.pending = run.state.pending := by
          cases queue <;> rfl
        generalize run.change (setItems queue rest) = next at taken removed pending ⊢
        dsimp only
        split
        · have dropped : Beside run (dropItem env item pcRcTimeout next) :=
            removed.trans (.dropItem item pcRcTimeout next)
          have same : (dropItem env item pcRcTimeout next).state.pending = run.state.pending :=
            (pending_dropItem item pcRcTimeout next).trans pending
          have later : Aside queue tmp (dropItem env item pcRcTimeout next) :=
            ⟨taken.dropItem pcRcTimeout, fun waits => dropped.left ▸ aside.waits waits,
              fun written empty => aside.written written (same ▸ empty)⟩
          obtain ⟨kept, rest⟩ := ih cont later
          exact ⟨kept, dropped.trans rest⟩
        · have later : Aside queue (tmp ++ [item]) next := by
            refine ⟨?_, fun waits other member => ?_, fun written empty => ?_⟩
            · refine taken.hold fun other => ?_
              simp only [List.count_append, List.count_cons, List.count_nil]
              omega
            · rw [removed.left]
              rcases List.mem_append.mp member with before | now
              · exact aside.waits waits other before
              · rw [List.mem_singleton.mp now]
                have first : item ∈ run.state.items queue := by
                  rw [items]
                  exact List.mem_cons_self ..
                refine aside.ledger.script.waits item ?_
                rcases waits with rfl | rfl
                · exact List.mem_append_left _ first
                · exact List.mem_append_right _ first
            · subst written
              have none := aside.ledger.output.empty (pending ▸ empty)
              exact absurd (items.symm.trans none) nofun
          obtain ⟨kept, rest⟩ := ih (cont || item.timed) later
          exact ⟨kept, removed.trans rest⟩

end Aside

namespace Kept

variable (env) in

/-- The check of a queue keeps everything. -/
theorem tcpCheckQueueTimeout (queue : TlsQueue) (cont : Bool) (kept : Kept run) :
    Kept (TlsWrites.tcpCheckQueueTimeout env queue cont run).1 := by
  have aside : Aside queue [] run :=
    ⟨kept.ledger, fun _ _ member => absurd member List.not_mem_nil, fun _ _ => rfl⟩
  obtain ⟨ledger, beside⟩ := aside.checkQueueLoop env run.state.clock env.passes cont
  exact beside.kept ledger kept

theorem startCheck (cont : Bool) (kept : Kept run) : Kept (TlsWrites.startCheck cont run) :=
  kept.setState rfl

theorem tcpWriteCheckTimeoutCb (kept : Kept run) :
    Kept (TlsWrites.tcpWriteCheckTimeoutCb env run) := by
  have pending := kept.tcpCheckQueueTimeout env .connPending false
  have waiting := pending.tcpCheckQueueTimeout env .writeWait
    (TlsWrites.tcpCheckQueueTimeout env .connPending false run).2
  exact (waiting.tcpCheckQueueTimeout env .respPending _).startCheck _

/-- The item that is to be tried again times out. -/
theorem dropRetry {item : WriteItem} (kept : Kept run) (held : run.state.shouldRetry = some item) :
    Kept (TlsWrites.dropRetry env item run) := by
  obtain ⟨reported, noted, count⟩ := kept.ledger.reportItem env item pcRcTimeout
  have beside : Beside run (reportItem env item pcRcTimeout run) := .reportItem item pcRcTimeout run
  have same := beside.shouldRetry.trans held
  clear beside
  rw [TlsWrites.dropRetry]
  generalize TlsWrites.reportItem env item pcRcTimeout run = next at noted same ⊢
  have taken : Ledger [item] reported
      (next.change fun writes => { writes with shouldRetry := none }) := by
    refine noted.change (fun other => ?_) rfl noted.script.waits rfl noted.output.empty
    rw [count_places, count_places, same]
    simp only [Option.toList_some, Option.toList_none, List.count_nil]
    omega
  exact ⟨taken.recycle count, fun _ => (Beside.recycleItem item _).shouldRetry⟩

theorem tlsWriteTimeoutCheckCb (kept : Kept run) :
    Kept (TlsWrites.tlsWriteTimeoutCheckCb env run) := by
  rw [TlsWrites.tlsWriteTimeoutCheckCb]
  refine ((Kept.tcpCheckQueueTimeout env .whenTcpIsWriting false ?_).startCheck _).tcpWriteCheckTimeoutCb
  split
  next item held =>
    split
    · exact kept.dropRetry held
    · exact kept
  · exact kept

/-- An answer takes its item out. -/
theorem tcpOnResponse (reqId : Nat) (kept : Kept run) :
    Kept (TlsWrites.tcpOnResponse env reqId run) := by
  have found (due : List WriteItem) (count : ∀ item : WriteItem, item.FromUser → due.count item =
      if run.state.respPending.find? (fun other => other.reqId = reqId) = some item then 1 else 0) :
      Ledger [] due (TlsWrites.others env (run.note (.answered reqId))) := by
    have noted : Ledger [] due (run.note (.answered reqId)) :=
      kept.ledger.note ⟨rfl, rfl, rfl, rfl, rfl⟩ nofun fun item user => by
        rw [count item user, List.count_nil, TlsNote.reports, Nat.zero_add]
        simp only [decide_eq_true_iff]
    exact noted.others
  have beside : Beside run (TlsWrites.others env (run.note (.answered reqId))) :=
    (Beside.note rfl run).trans (.others _)
  have waiting : (TlsWrites.others env (run.note (.answered reqId))).state.respPending =
      run.state.respPending := (state_others _).1
  rw [TlsWrites.tcpOnResponse]
  generalize TlsWrites.others env (run.note (.answered reqId)) = next at found beside waiting ⊢
  rw [show next.state.respPending = run.state.respPending from waiting]
  cases answered : run.state.respPending.find? fun other => other.reqId = reqId with
  | none =>
      exact beside.kept (found [] fun item _ => by rw [answered]; rfl) kept
  | some item =>
      have ledger := found [item] fun other _ => by
        rw [answered, List.count_singleton]
        simp only [beq_iff_eq, Option.some.injEq]
      obtain ⟨matching, before, behind, split, others⟩ :=
        List.find?_eq_some_iff_append.mp answered
      have erased : next.state.respPending.eraseP (fun other => other.reqId = reqId) =
          before ++ behind := by
        rw [waiting, split, List.eraseP_append_right _ fun other member => by
          simpa using others other member,
          List.eraseP_cons_of_pos (p := fun other : WriteItem => other.reqId = reqId) matching]
      have taken : Ledger [item] [item] (next.change fun writes => { writes with
          respPending := writes.respPending.eraseP fun other => other.reqId = reqId }) := by
        refine ledger.change (fun other => ?_) rfl ledger.script.waits rfl ledger.output.empty
        have whole : next.state.respPending = before ++ item :: behind := waiting.trans split
        rw [count_places, count_places]
        dsimp only
        rw [erased, whole]
        simp only [List.count_append, List.count_cons, List.count_nil]
        omega
      have removed : Beside run (next.change fun writes => { writes with
          respPending := writes.respPending.eraseP fun other => other.reqId = reqId }) :=
        beside.trans ⟨rfl, rfl, rfl⟩
      exact (removed.trans (.recycleItem item _)).kept
        (taken.recycle fun other _ => (Nat.zero_add _).symm) kept

/-- Whatever the user calls, everything is kept. -/
theorem act (kept : Kept run) (act : TlsAct) : Kept (TlsWrites.act env run act) := by
  cases act with
  | enter state =>
      have entered : Kept (run.change fun writes => { writes with state }) := kept.setState rfl
      exact entered
  | fire => exact (Beside.fireEvent run).kept kept.ledger.fireEvent kept
  | sendFirst buf => exact (Beside.sendFirst buf run).kept (kept.ledger.sendFirst buf) kept
  | sendLast buf => exact (Beside.sendLast buf run).kept (kept.ledger.sendLast buf) kept
  | send message => exact (Beside.trUvTcpSend message run).kept (kept.ledger.trUvTcpSend message) kept
  | response reqId => exact kept.tcpOnResponse reqId
  | reset => exact kept.ledger.tlsReset
  | reconn => exact kept.ledger.tcpReconn
  | sslRead bytes completed =>
      have read : Kept (run.change fun writes => { writes with
          pending := writes.pending + bytes
          isHandshakeCompleted := writes.isHandshakeCompleted || completed }) :=
        kept.change (fun _ => rfl) rfl (fun _ => id) rfl rfl fun empty =>
          kept.ledger.output.empty (Nat.eq_zero_of_add_eq_zero_right empty)
      exact read
  | sslFails => exact kept.ledger.tlsEmitErrorEvent

theorem acts (kept : Kept run) (acts : List TlsAct) : Kept (acts.foldl (TlsWrites.act env) run) := by
  induction acts generalizing run with
  | nil => exact kept
  | cons act acts ih => exact ih (kept.act act)

/-- Every step keeps everything. -/
theorem step {label : TlsLabel} {second : TlsRun} (kept : Kept run)
    (step : TlsWrites.step env label run = some second) : Kept second := by
  rw [TlsWrites.step.eq_def] at step
  split at step
  · exact absurd step nofun
  cases label with
  | send message =>
      cases step
      exact (Beside.trUvTcpSend message run).kept (kept.ledger.trUvTcpSend message) kept
  | tick seconds =>
      cases step
      exact kept.setState rfl
  | writeAsync =>
      obtain ⟨-, same⟩ := Option.ite_none_right_eq_some.mp step
      cases same
      have taken : Kept (run.change fun writes => { writes with writeAsync := false }) :=
        kept.setState rfl
      exact taken.tlsWriteToBio
  | writeDone status =>
      obtain ⟨-, same⟩ := Option.ite_none_right_eq_some.mp step
      cases same
      exact kept.tlsWriteDoneCb status
  | checkTimeout =>
      obtain ⟨-, same⟩ := Option.ite_none_right_eq_some.mp step
      cases same
      have taken : Kept (run.change fun writes => { writes with checkTimeout := false }) :=
        kept.setState rfl
      exact taken.tlsWriteTimeoutCheckCb
  | read acts =>
      cases step
      exact (kept.tlsWriteToBio.acts acts).tlsWriteToTcp
  | connDone acts =>
      cases step
      exact (kept.acts acts).tlsWriteToTcp
  | tcp acts =>
      cases step
      exact kept.acts acts

/-- Between the callbacks, every item is in one place. -/
theorem conserved (kept : Kept run) : Conserved run where
  held item made := by
    have balance := kept.ledger.account.balance item
    have once := List.count_eq_one_of_mem kept.ledger.account.once made
    rw [List.count_nil] at balance
    omega
  only item member := by
    have balance := kept.ledger.account.balance item
    have positive : 0 < run.state.places.count item := List.count_pos_iff.mpr member
    exact List.count_pos_iff.mp (by omega)
  reported item _ user := by
    rw [kept.ledger.account.reported item user, List.count_nil, Nat.add_zero]
  left := kept.ledger.script.once
  accepted := kept.ledger.script.order
  bytes := kept.ledger.script.bytes
  retried := kept.ledger.script.chain
  asserted := kept.ledger.output.asserted

end Kept

/-- At the start everything is in its place. -/
theorem kept_init : Kept ⟨init, []⟩ where
  ledger :=
    { account := ⟨fun _ member => absurd member List.not_mem_nil, List.nodup_nil, fun _ => rfl,
        fun _ _ => rfl⟩
      script := ⟨fun _ member => absurd member List.not_mem_nil, fun _ _ => List.not_mem_nil,
        List.nodup_nil, List.Sublist.slnil, fun _ some => absurd some (Option.some_ne_none _).symm,
        fun _ _ some => absurd some (Option.some_ne_none _).symm, List.IsChain.nil,
        fun _ _ _ member => absurd member List.not_mem_nil⟩
      output := ⟨fun _ => rfl, fun _ member => absurd member List.not_mem_nil⟩ }
  alone _ := rfl

/-- In every run, the write items are conserved and ordered. -/
theorem conserved_of_reachable {run : TlsRun} (reached : Reachable env run) : Conserved run := by
  have kept : Kept run := by
    induction reached with
    | refl => exact kept_init
    | tail _ last ih =>
        obtain ⟨label, taken⟩ := last
        exact ih.step taken
  exact kept.conserved

/-- Every write is taken when it is tried again. -/
def sampleEnv : TlsEnv where
  sends := fun _ => []
  sslWrite := fun run => if run.state.retryWb.isSome then .full else .retry
  record := fun _ => 29
  flight := fun _ => 0
  uvWrite := fun _ => 0
  givesUp := fun _ => false
  passes := 8

/-- A request is sent while the handshake is done, written, and answered by the server. -/
def requestAnswered : List TlsLabel :=
  [.tcp [.enter .done],
    .send { buf := { base := some [4, 0, 0, 0], len := 4 }, seqNum := 0, reqId := 1, timeout := 5 },
    .writeAsync, .read [], .writeDone 0, .tcp [.response 1]]

/-- The steps of a run of the sample can be taken, and end in a state. -/
def SampleEnds (labels : List TlsLabel) (run : TlsRun) : Prop :=
  labels.foldlM (fun run label => step sampleEnv label run) ⟨init, []⟩ = some run

/-- The sample run is a run. -/
theorem SampleEnds.reachable {labels : List TlsLabel} {run : TlsRun}
    (ends : SampleEnds labels run) : Reachable sampleEnv run :=
  Transition.reflTransGen_of_foldlM (fun taken => ⟨_, taken⟩) ends

/-- What is evaluated at the end of a run of the sample. -/
theorem exists_sampleEnds (labels : List TlsLabel) (check : TlsRun → Prop) [DecidablePred check]
    (runs : (labels.foldlM (fun run label => step sampleEnv label run) ⟨init, []⟩).any
      fun run => decide (check run)) : ∃ run, SampleEnds labels run ∧ check run :=
  Transition.exists_of_any check runs

/-- A run in which a request is answered. -/
theorem conserved_requestAnswered :
    ∃ run, SampleEnds requestAnswered run ∧ (calls run).length = 2 ∧ (recycled run).length = 1 ∧
      Conserved run := by
  obtain ⟨run, ends, called, gone⟩ := exists_sampleEnds requestAnswered
    (fun run => (calls run).length = 2 ∧ (recycled run).length = 1) (by decide +kernel)
  exact ⟨run, ends, called, gone, conserved_of_reachable ends.reachable⟩

end TlsWrites

end Pomelo
