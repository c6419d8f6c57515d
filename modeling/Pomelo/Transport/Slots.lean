import Pomelo.Slots.Owned
import Pomelo.Transport.Order

/-!
# The items and their memory

Every write item is in one place: in one of the four queues, among the items that a check for
timeouts has put aside, or in the hands of the code that is about to give it back. The slots of
`pre_wis` that are busy are those of these items. User code runs while an item is in hand, and
can only queue more.
-/

namespace Pomelo

open Transition Recorded

variable {env : Env} {first second : Sys}

/-- The element that a search finds is the one that is erased. -/
theorem perm_cons_eraseP {α : Type} {p : α → Bool} {items : List α} {item : α}
    (found : items.find? p = some item) : items.Perm (item :: items.eraseP p) := by
  induction items with
  | nil => cases found
  | cons first items ih =>
      rw [List.find?_cons] at found
      rw [List.eraseP_cons]
      split at found
      next holds =>
        obtain rfl := Option.some.inj found
        rw [holds]
        exact .refl _
      next fails =>
        rw [fails]
        exact ((ih found).cons first).trans (.swap ..)

namespace WriteQueues

/-- The items of all queues, with those that have been put aside. -/
def all (queues : WriteQueues) : List WriteItem :=
  queues.tmp.elim [] Prod.snd ++ queues.connPending ++ queues.writeWait ++ queues.writing ++
    queues.respPending

variable {queues : WriteQueues} {queue : WiQueue} {item : WriteItem} {rest : List WriteItem}

/-- Giving an item back moves none. -/
theorem all_recycle (queues : WriteQueues) (item : WriteItem) : (queues.recycle item).all = queues.all := by
  unfold recycle
  cases item.slot <;> rfl

/-- The first item of a queue is one of them all. -/
theorem perm_setItems (items : queues.items queue = item :: rest) :
    queues.all.Perm (item :: (queues.setItems queue rest).all) := by
  apply List.perm_iff_count.mpr
  intro other
  cases queue <;> simp only [WriteQueues.items] at items <;>
    simp only [all, setItems, items, List.count_append, List.count_cons] <;> omega

/-- Gathering the queues moves their items. -/
theorem perm_gather : queues.all.Perm queues.gather.all := by
  apply List.perm_iff_count.mpr
  intro other
  simp only [all, gather, List.count_append, List.count_nil]
  omega

theorem perm_drain : queues.all.Perm queues.drain.all := by
  apply List.perm_iff_count.mpr
  intro other
  simp only [all, drain, List.count_append, List.count_nil]
  omega

theorem perm_beginWrite : queues.all.Perm queues.beginWrite.all := by
  apply List.perm_iff_count.mpr
  intro other
  simp only [all, beginWrite, List.count_append, List.count_nil]
  omega

/-- A written request waits for its answer. -/
theorem perm_await (items : queues.writing = item :: rest) :
    queues.all.Perm (queues.await item rest).all := by
  apply List.perm_iff_count.mpr
  intro other
  simp only [all, await, items, List.count_append, List.count_cons, List.count_nil]
  omega

theorem all_allocate (slot : Option Nat) (queues : WriteQueues) :
    (queues.allocate slot).all = queues.all := by
  cases slot <;> rfl

theorem preWis_allocate (slot : Option Nat) (queues : WriteQueues) :
    (queues.allocate slot).preWis = Slots.mark slot true queues.preWis := by
  cases slot <;> rfl

/-- Giving an item back frees its slot. -/
theorem preWis_recycle (item : WriteItem) (queues : WriteQueues) :
    (queues.recycle item).preWis = Slots.mark item.slot false queues.preWis := by
  unfold recycle
  cases item.slot <;> rfl

/-- An internal package is one item more. -/
theorem perm_push (ahead : Bool) : (item :: queues.all).Perm (queues.push ahead item).all := by
  have waits : (queues.allocate item.slot).writeWait = queues.writeWait :=
    items_allocate _ _ .writeWait
  rw [← all_allocate item.slot queues]
  unfold push
  rw [← waits]
  generalize queues.allocate item.slot = allocated
  apply List.perm_iff_count.mpr
  intro other
  cases ahead <;>
    simp only [all, if_true, Bool.false_eq_true, if_false, List.count_append, List.count_cons,
      List.count_nil] <;> omega

/-- An item that is kept is moved to the queue beside. -/
theorem perm_keep (checked : queues.tmp.map Prod.fst = some queue)
    (items : queues.items queue = item :: rest) :
    queues.all.Perm ((queues.setItems queue rest).keep item).all := by
  obtain ⟨⟨which, kept⟩, tmp, -⟩ := Option.map_eq_some_iff.mp checked
  apply List.perm_iff_count.mpr
  intro other
  cases queue <;> simp only [WriteQueues.items] at items <;>
    simp only [all, setItems, keep, items, tmp, Option.map_some, Option.elim_some,
      List.count_append, List.count_cons, List.count_nil] <;> omega

/-- When a check begins, nothing is aside. -/
theorem all_beginCheck (tmp : queues.tmp = none) (queue : WiQueue) :
    (queues.beginCheck queue).all = queues.all := by
  simp only [all, beginCheck, tmp, Option.elim]

/-- The end of the check moves the kept items back. -/
theorem perm_endCheck (checked : queues.tmp.map Prod.fst = some queue) :
    queues.all.Perm (queues.endCheck queue).all := by
  obtain ⟨⟨which, kept⟩, tmp, rfl⟩ := Option.map_eq_some_iff.mp checked
  apply List.perm_iff_count.mpr
  intro other
  cases which <;>
    simp only [all, endCheck, setItems, whole, tmpOf, WriteQueues.items, tmp, if_true,
      Option.elim_some, Option.elim_none, List.count_append, List.count_nil] <;> omega

/-- An inserted item is one more. -/
theorem perm_insert (core : Core) (item : WriteItem) :
    (item :: core.tcp.wq.all).Perm (core.insert item).tcp.wq.all := by
  rw [← all_allocate item.slot core.tcp.wq]
  unfold Core.insert
  apply List.perm_iff_count.mpr
  intro other
  dsimp only
  split <;> simp only [all, List.count_append, List.count_cons, List.count_nil] <;> omega

theorem preWis_insert (core : Core) (item : WriteItem) :
    (core.insert item).tcp.wq.preWis = Slots.mark item.slot true core.tcp.wq.preWis := by
  rw [← preWis_allocate]
  unfold Core.insert
  dsimp only
  split <;> rfl

/-- An answer takes out the first request under its id. -/
theorem perm_answer {reqId : Nat} (found : queues.respPending.find? (·.reqId = reqId) = some item) :
    queues.all.Perm (item :: (queues.answer reqId).all) := by
  rw [answer, found]
  dsimp only
  rw [all_recycle]
  have parts := perm_cons_eraseP found
  apply List.perm_iff_count.mpr
  intro other
  have count := parts.count_eq other
  simp only [all, List.count_append, List.count_cons] at count ⊢
  omega

theorem preWis_setItems (queue : WiQueue) (items : List WriteItem) (queues : WriteQueues) :
    (queues.setItems queue items).preWis = queues.preWis := by
  cases queue <;> rfl

end WriteQueues

/-- Items with some more in hand, while one of the queues or none is being checked: they have
different slots, which are the busy ones, and different numbers. -/
structure Placed (held : List WriteItem) (checked : Option WiQueue) (sys : Sys) : Prop where
  owned : Slots.Owned sys.state.tcp.wq.preWis ((held ++ sys.state.tcp.wq.all).map (·.slot))
  distinct : (borns (held ++ sys.state.tcp.wq.all)).Nodup
  bound : ∀ number ∈ borns (held ++ sys.state.tcp.wq.all), number < sys.state.nextBorn
  checked : sys.state.tcp.wq.tmp.map Prod.fst = checked

/-- The births do not depend on the order. -/
theorem perm_borns {first second : List WriteItem} (same : first.Perm second) :
    (borns first).Perm (borns second) :=
  (same.filter _).map _

namespace Placed

variable {held left : List WriteItem} {checked next : Option WiQueue}

/-- The items change their places. -/
theorem wq (placed : Placed held checked first) {act : WriteQueues → WriteQueues}
    (preWis : (act first.state.tcp.wq).preWis = first.state.tcp.wq.preWis)
    (all : (held ++ first.state.tcp.wq.all).Perm (left ++ (act first.state.tcp.wq).all))
    (tmp : (act first.state.tcp.wq).tmp.map Prod.fst = next) : Placed left next (first.wq act) where
  owned := by
    have owned := placed.owned.perm (all.map _)
    rwa [← preWis] at owned
  distinct := (perm_borns all).nodup_iff.mp placed.distinct
  bound number member := placed.bound number ((perm_borns all).mem_iff.mpr member)
  checked := tmp

/-- The same queues hold the same items. -/
theorem same (placed : Placed held checked first)
    (wq : second.state.tcp.wq = first.state.tcp.wq)
    (nextBorn : second.state.nextBorn = first.state.nextBorn) : Placed held checked second := by
  refine ⟨?_, ?_, ?_, ?_⟩
  · rw [wq]
    exact placed.owned
  · rw [wq]
    exact placed.distinct
  · rw [wq, nextBorn]
    exact placed.bound
  · rw [wq]
    exact placed.checked

/-- Outside of a check no queue is divided. -/
theorem tmp_eq_none (placed : Placed held none first) : first.state.tcp.wq.tmp = none :=
  Option.map_eq_none_iff.mp placed.checked

/-- An item is given back. -/
theorem recycle {item : WriteItem} (placed : Placed (item :: held) checked first) :
    Placed held checked (first.wq (WriteQueues.recycle item)) := by
  have all := WriteQueues.all_recycle first.state.tcp.wq item
  have fewer : (borns (held ++ first.state.tcp.wq.all)).Sublist
      (borns (item :: held ++ first.state.tcp.wq.all)) := borns_sublist (List.sublist_cons_self ..)
  refine ⟨?_, ?_, ?_, ?_⟩
  · change Slots.Owned (first.state.tcp.wq.recycle item).preWis
      ((held ++ (first.state.tcp.wq.recycle item).all).map (·.slot))
    rw [all, WriteQueues.preWis_recycle]
    apply Slots.Owned.give
    exact placed.owned
  · change (borns (held ++ (first.state.tcp.wq.recycle item).all)).Nodup
    rw [all]
    exact placed.distinct.sublist fewer
  · change ∀ number ∈ borns (held ++ (first.state.tcp.wq.recycle item).all), _
    rw [all]
    exact fun number member => placed.bound number (fewer.subset member)
  · exact (congrArg _ (WriteQueues.tmp_recycle ..)).trans placed.checked

/-- An item is taken in hand. -/
theorem take (placed : Placed held checked first) {queue : WiQueue} {item : WriteItem}
    {rest : List WriteItem} (items : first.state.tcp.wq.items queue = item :: rest) :
    Placed (item :: held) checked (first.wq (WriteQueues.setItems queue rest)) := by
  apply placed.wq (WriteQueues.preWis_setItems ..)
  · exact ((WriteQueues.perm_setItems items).append_left held).trans List.perm_middle
  · exact (congrArg _ (WriteQueues.tmp_setItems ..)).trans placed.checked

/-- A new item is queued in the first slot that is free. -/
theorem insert (placed : Placed held checked first) {item : WriteItem}
    (slot : item.slot = first.state.tcp.wq.nextSlot) (message : item.isMessage)
    (born : item.born = first.state.nextBorn) : Placed held checked (first.accept item) := by
  have all : (item :: (held ++ first.state.tcp.wq.all)).Perm
      (held ++ (first.state.insert item).tcp.wq.all) :=
    List.perm_middle.symm.trans ((WriteQueues.perm_insert first.state item).append_left held)
  have borns : (item.born :: borns (held ++ first.state.tcp.wq.all)).Perm
      (borns (held ++ (first.state.insert item).tcp.wq.all)) := by
    have perm := perm_borns all
    rwa [Pomelo.borns, List.filter_cons_of_pos message, List.map_cons] at perm
  have later : first.state.nextBorn ∉ Pomelo.borns (held ++ first.state.tcp.wq.all) :=
    fun member => Nat.lt_irrefl _ (placed.bound _ member)
  refine ⟨?_, ?_, ?_, ?_⟩
  · change Slots.Owned (first.state.insert item).tcp.wq.preWis
      ((held ++ (first.state.insert item).tcp.wq.all).map (·.slot))
    rw [WriteQueues.preWis_insert]
    apply Slots.Owned.perm _ (all.map _)
    rw [List.map_cons, slot]
    exact placed.owned.take
  · apply borns.nodup_iff.mp
    rw [List.nodup_cons, born]
    exact ⟨later, placed.distinct⟩
  · intro number member
    change number < first.state.nextBorn + 1
    rcases List.mem_cons.mp (borns.mem_iff.mpr member) with rfl | earlier
    · omega
    · exact Nat.lt_succ_of_lt (placed.bound number earlier)
  · exact (congrArg _ (first.state.tmp_insert item)).trans placed.checked

/-- A delivery keeps every item in its place. -/
theorem keeps_deliver (deliver : Deliver env first second) :
    Keeps (fun _ _ => True) (Placed held checked) first second := by
  apply Pomelo.keeps_deliver _ _ deliver
  · intro first second still placed
    exact placed.same still.wq still.nextBorn
  · intro sys item accepts _ placed
    obtain ⟨message, born⟩ := Numbered.message_of_accepts accepts
    obtain ⟨id, kind, req, buf, -, rfl⟩ := accepts
    exact placed.insert rfl message born

/-- An item is in hand while it is completed, and given back then. -/
theorem leads_dropItem (item : WriteItem) (rc : Int) (sys : Sys) :
    Leads (fun _ _ => True) (Placed (item :: held) checked) (Placed held checked) sys
      (dropItem env item rc sys) := by
  have completed : Keeps (fun _ _ => True) (Placed (item :: held) checked) sys
      (completeItem env item rc sys) :=
    keeps_delivered keeps_deliver (delivered_completeItem item rc sys)
  exact completed.trans ⟨List.suffix_refl _, fun _ => recycle⟩

/-- A package of the transport's own is queued in the first slot that is free. -/
theorem push (placed : Placed held checked first) (ahead : Bool) (buf : UvBuf) :
    Placed held checked (first.wq (WriteQueues.push ahead (first.state.internalItem buf))) := by
  have all : (first.state.internalItem buf :: (held ++ first.state.tcp.wq.all)).Perm
      (held ++ (first.state.tcp.wq.push ahead (first.state.internalItem buf)).all) :=
    List.perm_middle.symm.trans ((WriteQueues.perm_push ahead).append_left held)
  have borns : (Pomelo.borns (held ++ first.state.tcp.wq.all)).Perm
      (Pomelo.borns (held ++ (first.state.tcp.wq.push ahead (first.state.internalItem buf)).all)) := by
    have internal : ¬ (first.state.internalItem buf).isMessage = true := by
      simp [WriteItem.isMessage, Core.internalItem]
    have perm := perm_borns all
    rwa [Pomelo.borns, List.filter_cons_of_neg internal] at perm
  refine ⟨?_, ?_, ?_, ?_⟩
  · apply Slots.Owned.perm _ (all.map _)
    change Slots.Owned (first.state.tcp.wq.allocate _).preWis _
    rw [WriteQueues.preWis_allocate]
    exact placed.owned.take
  · exact borns.nodup_iff.mp placed.distinct
  · exact fun number member => placed.bound number (borns.mem_iff.mpr member)
  · exact (congrArg _ (WriteQueues.tmp_allocate ..)).trans placed.checked

/-- Only the order of the items changes, or the queue they are in. -/
theorem move (placed : Placed held checked first) {act : WriteQueues → WriteQueues}
    (preWis : (act first.state.tcp.wq).preWis = first.state.tcp.wq.preWis)
    (all : first.state.tcp.wq.all.Perm (act first.state.tcp.wq).all)
    (tmp : (act first.state.tcp.wq).tmp = first.state.tcp.wq.tmp) :
    Placed held checked (first.wq act) :=
  placed.wq preWis (all.append_left held) ((congrArg _ tmp).trans placed.checked)

/-- An item that is kept stays placed. -/
theorem keep {queue : WiQueue} (placed : Placed held (some queue) first) {item : WriteItem}
    {rest : List WriteItem} (items : first.state.tcp.wq.items queue = item :: rest) :
    Placed held (some queue)
      ((first.wq (WriteQueues.setItems queue rest)).wq (WriteQueues.keep item)) := by
  have all := WriteQueues.perm_keep placed.checked items
  apply @Placed.wq first held held (some queue) (some queue) placed
    (fun queues => (queues.setItems queue rest).keep item)
  · exact WriteQueues.preWis_setItems ..
  · exact all.append_left held
  · change ((first.state.tcp.wq.setItems queue rest).tmp.map _).map _ = _
    rw [WriteQueues.tmp_setItems, Option.map_map]
    exact placed.checked

theorem keeps_checkQueueLoop {queue : WiQueue} {ct : Nat} (passes : Nat) (cont : Bool) (sys : Sys) :
    Keeps (fun _ _ => True) (Placed held (some queue)) sys
      (checkQueueLoop env queue ct passes cont sys).1 := by
  induction passes generalizing cont sys with
  | zero => exact ⟨List.suffix_cons _ _, fun _ placed => placed.same rfl rfl⟩
  | succ passes ih =>
      unfold checkQueueLoop
      split
      · exact Leads.refl sys
      next item rest items =>
        dsimp only
        split
        · have taken : Leads (fun _ _ => True) (Placed held (some queue))
              (Placed (item :: held) (some queue)) sys (sys.wq (WriteQueues.setItems queue rest)) :=
            ⟨List.suffix_refl _, fun _ placed => placed.take items⟩
          exact (taken.trans (leads_dropItem item pcRcTimeout _)).trans (ih _ _)
        · have kept : Keeps (fun _ _ => True) (Placed held (some queue)) sys
              ((sys.wq (WriteQueues.setItems queue rest)).wq (WriteQueues.keep item)) :=
            ⟨List.suffix_refl _, fun _ placed => placed.keep items⟩
          exact kept.trans (ih _ _)

theorem keeps_check (queue : WiQueue) (cont : Bool) (sys : Sys) :
    Keeps (fun _ _ => True) (Placed held none) sys (tcpCheckQueueTimeout env queue cont sys).1 := by
  have begun : Leads (fun _ _ => True) (Placed held none) (Placed held (some queue)) sys
      (sys.wq (WriteQueues.beginCheck queue)) := by
    refine ⟨List.suffix_refl _, fun _ placed => ?_⟩
    have all := WriteQueues.all_beginCheck placed.tmp_eq_none queue
    exact placed.wq rfl (.of_eq (congrArg (held ++ ·) all.symm)) rfl
  have ended (sys : Sys) : Leads (fun _ _ => True) (Placed held (some queue)) (Placed held none) sys
      (sys.wq (WriteQueues.endCheck queue)) := by
    refine ⟨List.suffix_refl _, fun _ placed => ?_⟩
    apply placed.wq _ ((WriteQueues.perm_endCheck placed.checked).append_left held) rfl
    exact WriteQueues.preWis_setItems ..
  exact (begun.trans (keeps_checkQueueLoop env.passes cont _)).trans (ended _)

/-- The request that is answered is given back. -/
theorem answer (placed : Placed held checked first) (reqId : Nat) :
    Placed held checked (first.wq (WriteQueues.answer reqId)) := by
  cases found : first.state.tcp.wq.respPending.find? (·.reqId = reqId) with
  | none =>
      have same : first.state.tcp.wq.answer reqId = first.state.tcp.wq := by
        rw [WriteQueues.answer, found]
      exact placed.same same rfl
  | some item =>
      have all : first.state.tcp.wq.all.Perm (item :: WriteQueues.all { first.state.tcp.wq with
          respPending := first.state.tcp.wq.respPending.eraseP (·.reqId = reqId) }) := by
        have perm := WriteQueues.perm_answer found
        rwa [WriteQueues.answer, found, WriteQueues.all_recycle] at perm
      have taken : Placed (item :: held) checked (first.wq fun queues =>
          { queues with respPending := queues.respPending.eraseP (·.reqId = reqId) }) :=
        placed.wq rfl ((all.append_left held).trans List.perm_middle) placed.checked
      refine taken.recycle.same ?_ rfl
      change first.state.tcp.wq.answer reqId = _
      rw [WriteQueues.answer, found]
      rfl

end Placed

/-- The places of the items are an invariant of the queues. -/
theorem placed_queueInvariant : QueueInvariant env (fun _ _ => True) (Placed [] none) where
  aside beside _ placed := placed.same beside.wq beside.nextBorn
  beside beside placed := placed.same beside.wq beside.nextBorn
  deliver := Placed.keeps_deliver
  attempt placed := placed.same rfl rfl
  gather placed := placed.move rfl WriteQueues.perm_gather rfl
  drop {sys queue item rest} rc _ items := by
    have taken : Leads (fun _ _ => True) (Placed [] none) (Placed [item] none) sys
        (sys.wq (WriteQueues.setItems queue rest)) :=
      ⟨List.suffix_refl _, fun _ placed => placed.take items⟩
    exact taken.trans (Placed.leads_dropItem item rc _)
  push ahead placed := placed.push ahead _
  drain _ placed := placed.move rfl WriteQueues.perm_drain rfl
  write {sys} ret _ placed := by
    have noted : Placed [] none (sys.note (.write sys.state.tcp.wq.writeWait ret)) :=
      placed.same rfl rfl
    exact noted.move rfl WriteQueues.perm_beginWrite rfl
  await {sys item rest} items _ placed :=
    placed.move rfl (WriteQueues.perm_await items) rfl
  check queue cont _ := Placed.keeps_check queue cont _
  answer {first second reqId text} after := by
    have delivered : Keeps (fun _ _ => True) (Placed [] none) first
        (pcTransResp (loopReceiver env) env.config.enablePolling reqId pcRcOk (some text) first) :=
      keeps_delivered Placed.keeps_deliver (delivered_pcTransResp ..)
    have checked : Keeps (fun _ _ => True) (Placed [] none) _ second :=
      ⟨(Beside.of_plain after).notes.suffix,
        fun _ placed => placed.same (Beside.of_plain after).wq (Beside.of_plain after).nextBorn⟩
    have taken : Keeps (fun _ _ => True) (Placed [] none) second
        (second.wq (WriteQueues.answer reqId)) :=
      ⟨List.suffix_refl _, fun _ placed => placed.answer reqId⟩
    exact (delivered.trans checked).trans taken

/-- They are kept in every reachable state. -/
theorem placed_of_reachable {sys : Sys} (reached : Reachable env sys) : Placed [] none sys := by
  obtain ⟨evHandlers, tcp, stored, init, ran⟩ := reached
  have wq : (Sys.init evHandlers tcp stored).state.tcp.wq = WriteQueues.init :=
    (alike_loadLocalStorage init).wq
  have start : Placed [] none (Sys.init evHandlers tcp stored) := by
    refine ⟨?_, ?_, ?_, ?_⟩ <;> rw [wq]
    · exact Slots.Owned.init _
    · exact List.nodup_nil
    · exact fun _ member => absurd member List.not_mem_nil
    · rfl
  exact holds_of_reachable start placed_queueInvariant.step ran fun _ _ => trivial

/-- In every reachable state, each message is in one place of one queue, no two items share a slot
of `pre_wis`, and the busy slots are those of the queued items: none is handed out twice, and none
is lost. -/
theorem slots_of_reachable {sys : Sys} (reached : Reachable env sys) :
    let queues := sys.state.tcp.wq
    let items := queues.connPending ++ queues.writeWait ++ queues.writing ++ queues.respPending
    (borns items).Nodup ∧ (items.filterMap (·.slot)).Nodup ∧
      ∀ slot, queues.preWis[slot]? = some true ↔ ∃ item ∈ items, item.slot = some slot := by
  intro queues items
  have placed := placed_of_reachable reached
  have all : [] ++ sys.state.tcp.wq.all = items := by
    simp only [WriteQueues.all, placed.tmp_eq_none, Option.elim_none, List.nil_append]
    rfl
  have owned := placed.owned
  have distinct := placed.distinct
  rw [all] at owned distinct
  refine ⟨distinct, ?_, fun slot => ?_⟩
  · have slots := owned.distinct
    rwa [List.reduceOption, List.filterMap_map] at slots
  · rw [owned.exact slot, List.mem_map]

/-- A notify has been written and a request waits: one slot has been given back and the other one
is busy. -/
theorem slots_of_reachable_requestWaits :
    ∃ sys, SampleEnds (fun _ => []) (notifyInFlight ++ messageSent 2 .request 5 ++
      [.loop (.writeDone 0)]) sys ∧ sys.state.tcp.wq.writing = [] ∧
      sys.state.tcp.wq.writeWait.map (·.slot) = [some 1] ∧
      (∀ slot, sys.state.tcp.wq.preWis[slot]? = some true ↔
        ∃ item ∈ sys.state.tcp.wq.connPending ++ sys.state.tcp.wq.writeWait ++
          sys.state.tcp.wq.writing ++ sys.state.tcp.wq.respPending, item.slot = some slot) := by
  obtain ⟨sys, ends, written, waits⟩ := exists_sampleEnds (fun _ => [])
    (notifyInFlight ++ messageSent 2 .request 5 ++ [.loop (.writeDone 0)])
    (fun sys => sys.state.tcp.wq.writing = [] ∧
      sys.state.tcp.wq.writeWait.map (·.slot) = [some 1]) (by decide +kernel)
  exact ⟨sys, ends, written, waits, (slots_of_reachable ends.reachable).2.2⟩

end Pomelo
