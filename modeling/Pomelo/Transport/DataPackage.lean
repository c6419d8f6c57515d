import Pomelo.Message.Parts
import Pomelo.Transport.QueueInvariant

/-!
# Data packages

What becomes of the body of a data package, whatever its bytes, the dictionary and the
definitions are: an answer that is delivered, a pushed message, or a refusal with a new
attempt to connect. The decoder asserts or stops where it should refuse, so one of these
is reached exactly when the bytes are what it needs.
-/

namespace Pomelo

open Transition Recorded

variable {env : Env} {first second : Sys}

/-- All items that wait for an answer are requests, while one of the queues or none is being
checked for timeouts. -/
structure Awaiting (checked : Option WiQueue) (sys : Sys) : Prop where
  resp : ∀ item ∈ sys.state.tcp.wq.whole .respPending, item.type = .resp
  checked : sys.state.tcp.wq.tmp.map Prod.fst = checked

namespace Awaiting

variable {checked next : Option WiQueue}

/-- The queues change, and nothing else comes to wait. -/
theorem wq (awaiting : Awaiting checked first) {act : WriteQueues → WriteQueues}
    (resp : ∀ item ∈ (act first.state.tcp.wq).whole .respPending,
      item ∈ first.state.tcp.wq.whole .respPending)
    (tmp : (act first.state.tcp.wq).tmp.map Prod.fst = next) : Awaiting next (first.wq act) :=
  ⟨fun item member => awaiting.resp item (resp item member), tmp⟩

/-- Another part of the queues changes. -/
theorem elsewhere (awaiting : Awaiting checked first) {act : WriteQueues → WriteQueues}
    (resp : (act first.state.tcp.wq).items .respPending = first.state.tcp.wq.items .respPending)
    (tmp : (act first.state.tcp.wq).tmp = first.state.tcp.wq.tmp) :
    Awaiting checked (first.wq act) := by
  refine awaiting.wq (fun item member => ?_) ((congrArg _ tmp).trans awaiting.checked)
  rwa [WriteQueues.whole_congr tmp resp] at member

/-- The same queues await the same. -/
theorem same (awaiting : Awaiting checked first)
    (wq : second.state.tcp.wq = first.state.tcp.wq) : Awaiting checked second :=
  ⟨wq ▸ awaiting.resp, wq ▸ awaiting.checked⟩

/-- A queue that gets an item more awaits it. -/
theorem fills (awaiting : Awaiting checked first) (fills : Fills first second) :
    Awaiting checked second := by
  have other : WiQueue.respPending ≠ first.state.tcp.state.inbox := by
    rw [TcpState.inbox]
    split <;> decide
  refine ⟨fun item member => awaiting.resp item ?_, (congrArg _ fills.tmp).trans awaiting.checked⟩
  rwa [WriteQueues.whole_congr fills.tmp (fills.items _ other)] at member

/-- A delivery keeps what is awaited. -/
theorem keeps_deliver (deliver : Deliver env first second) :
    Keeps (fun _ _ => True) (Awaiting checked) first second :=
  ⟨(Quiet.of_deliver deliver).notes.suffix,
    fun _ awaiting => awaiting.fills (.of_deliver deliver)⟩

theorem recycle (awaiting : Awaiting checked first) (item : WriteItem) :
    Awaiting checked (first.wq (WriteQueues.recycle item)) :=
  awaiting.elsewhere (WriteQueues.items_recycle ..) (WriteQueues.tmp_recycle ..)

/-- An item is taken off a queue. -/
theorem take (awaiting : Awaiting checked first) {queue : WiQueue} {item : WriteItem}
    {rest : List WriteItem} (items : first.state.tcp.wq.items queue = item :: rest) :
    Awaiting checked (first.wq (WriteQueues.setItems queue rest)) :=
  awaiting.wq (fun _ member => (WriteQueues.whole_setItems items _).subset member)
    ((congrArg _ (WriteQueues.tmp_setItems ..)).trans awaiting.checked)

/-- An item that is kept is awaited behind the check. -/
theorem keep {queue : WiQueue} (awaiting : Awaiting (some queue) first) {item : WriteItem}
    {rest : List WriteItem} (items : first.state.tcp.wq.items queue = item :: rest) :
    Awaiting (some queue)
      ((first.wq (WriteQueues.setItems queue rest)).wq (WriteQueues.keep item)) := by
  have whole := WriteQueues.whole_keep awaiting.checked items
  refine ⟨fun other member => awaiting.resp other ?_, ?_⟩
  · change other ∈ ((first.state.tcp.wq.setItems queue rest).keep item).whole .respPending at member
    rwa [whole] at member
  · change ((first.state.tcp.wq.setItems queue rest).tmp.map _).map _ = _
    rw [WriteQueues.tmp_setItems, Option.map_map]
    exact awaiting.checked

/-- An answer takes its request away. -/
theorem answer (awaiting : Awaiting checked first) (reqId : Nat) :
    Awaiting checked (first.wq (WriteQueues.answer reqId)) := by
  have tmp := WriteQueues.tmp_answer reqId first.state.tcp.wq
  refine awaiting.wq (fun item member => ?_) ((congrArg _ tmp).trans awaiting.checked)
  rw [WriteQueues.whole, WriteQueues.tmpOf_congr tmp] at member
  refine List.mem_append.mpr ((List.mem_append.mp member).imp_right fun member => ?_)
  rw [WriteQueues.answer] at member
  split at member
  · exact member
  · rw [WriteQueues.items_recycle] at member
    exact List.mem_of_mem_eraseP member

/-- The check of a queue keeps what is awaited. -/
theorem keeps_check (queue : WiQueue) (cont : Bool) (sys : Sys) :
    Keeps (fun _ _ => True) (Awaiting none) sys (tcpCheckQueueTimeout env queue cont sys).1 := by
  have begun : Leads (fun _ _ => True) (Awaiting none) (Awaiting (some queue)) sys
      (sys.wq (WriteQueues.beginCheck queue)) := by
    refine ⟨List.suffix_refl _, fun _ awaiting => awaiting.wq (fun item member => ?_) rfl⟩
    have free : sys.state.tcp.wq.tmp = none := Option.map_eq_none_iff.mp awaiting.checked
    rw [WriteQueues.whole_of_tmp free]
    rwa [WriteQueues.whole_beginCheck] at member
  have looked : Keeps (fun _ _ => True) (Awaiting (some queue))
      (sys.wq (WriteQueues.beginCheck queue))
      (checkQueueLoop env queue sys.state.clock env.passes cont
        (sys.wq (WriteQueues.beginCheck queue))).1 :=
    keeps_checkQueueLoop keeps_deliver (fun awaiting => awaiting.recycle _)
      (fun awaiting => awaiting.same rfl) (fun items _ awaiting => awaiting.take items)
      (fun items awaiting => awaiting.keep items) env.passes cont _
  have ended (sys : Sys) : Leads (fun _ _ => True) (Awaiting (some queue)) (Awaiting none) sys
      (sys.wq (WriteQueues.endCheck queue)) := by
    refine ⟨List.suffix_refl _, fun _ awaiting => awaiting.wq (fun item member => ?_) rfl⟩
    rwa [WriteQueues.whole_endCheck awaiting.checked] at member
  exact (begun.trans looked).trans (ended _)

end Awaiting

/-- The items of the queues are requests, notifies and internal packages. -/
theorem awaiting_queueInvariant :
    QueueInvariant env (fun _ _ => True) (Awaiting none) where
  aside beside _ awaiting := awaiting.same beside.wq
  beside beside awaiting := awaiting.same beside.wq
  deliver := Awaiting.keeps_deliver
  attempt awaiting := awaiting.same rfl
  gather awaiting := awaiting.elsewhere rfl rfl
  drop {sys queue item rest} rc _ items := by
    have taken : Keeps (fun _ _ => True) (Awaiting none) sys
        (sys.wq (WriteQueues.setItems queue rest)) :=
      ⟨List.suffix_refl _, fun _ awaiting => awaiting.take items⟩
    exact taken.trans (keeps_dropItem Awaiting.keeps_deliver (fun awaiting => awaiting.recycle _) ..)
  push ahead awaiting := awaiting.elsewhere (WriteQueues.items_allocate _ _ .respPending)
    (WriteQueues.tmp_allocate ..)
  drain _ awaiting := awaiting.elsewhere rfl rfl
  write {sys} ret _ awaiting := by
    have noted : Awaiting none (sys.note (.write sys.state.tcp.wq.writeWait ret)) :=
      awaiting.same rfl
    exact noted.elsewhere rfl rfl
  await {sys item rest} _ resp awaiting := by
    refine ⟨fun other member => ?_, awaiting.checked⟩
    have whole : (sys.state.tcp.wq.await item rest).whole .respPending =
        sys.state.tcp.wq.whole .respPending ++ [item] := (List.append_assoc ..).symm
    have member : other ∈ (sys.state.tcp.wq.await item rest).whole .respPending := member
    rw [whole] at member
    rcases List.mem_append.mp member with earlier | last
    · exact awaiting.resp other earlier
    · exact List.mem_singleton.mp last ▸ resp
  check queue cont _ := Awaiting.keeps_check queue cont _
  answer {first second reqId text} after := by
    have delivered : Keeps (fun _ _ => True) (Awaiting none) first
        (pcTransResp (loopReceiver env) env.config.enablePolling reqId pcRcOk (some text) first) :=
      keeps_delivered Awaiting.keeps_deliver (delivered_pcTransResp ..)
    have checked : Keeps (fun _ _ => True) (Awaiting none) _ second :=
      ⟨(Beside.of_plain after).notes.suffix,
        fun _ awaiting => awaiting.same (Beside.of_plain after).wq⟩
    have taken : Keeps (fun _ _ => True) (Awaiting none) second
        (second.wq (WriteQueues.answer reqId)) :=
      ⟨List.suffix_refl _, fun _ awaiting => awaiting.answer reqId⟩
    exact (delivered.trans checked).trans taken

/-- They are in every reachable state. -/
theorem awaiting_of_reachable {sys : Sys} (reached : Reachable env sys) : Awaiting none sys := by
  obtain ⟨evHandlers, tcp, stored, init, ran⟩ := reached
  have wq : (Sys.init evHandlers tcp stored).state.tcp.wq = WriteQueues.init :=
    (alike_loadLocalStorage init).wq
  have start : Awaiting none (Sys.init evHandlers tcp stored) :=
    ⟨by rw [wq]; exact fun _ member => absurd member List.not_mem_nil, by rw [wq]; rfl⟩
  exact holds_of_reachable start awaiting_queueInvariant.step ran fun _ _ => trivial

/-- Wherever a package is handled, only requests wait for an answer. -/
theorem awaiting_of_handling {sys : Sys} (handling : Handling env sys) : Awaiting none sys := by
  induction handling with
  | chunk reached _ => exact (awaiting_of_reachable reached).same rfl
  | parser _ _ ih => exact ih.same rfl
  | package type data len _ _ ih =>
      exact (awaiting_queueInvariant.package (handles_trTcpOnPkgHandler type data len _)).holds
        (fun _ _ => trivial) ih

/-- What a decoded message leads to: its answer is delivered, it is pushed, or it is refused
and another attempt follows. -/
inductive DataOutcome (env : Env) (msg : PcMsg) (sys : Sys) : Sys → Prop where
  | answered {text : CStr} (content : msg.msg = some text) (valid : msg.id ≠ pcInvalidReqId)
      (request : msg.id ≠ pcNotifyPushReqId) (without : msg.route = none) :
      DataOutcome env msg sys ((pcTransResp (loopReceiver env) env.config.enablePolling msg.id pcRcOk
        (some text) sys).wq (WriteQueues.answer msg.id))
  | pushed {text route : CStr} (content : msg.msg = some text)
      (push : msg.id = pcNotifyPushReqId) (routed : msg.route = some route) :
      DataOutcome env msg sys (fireEvent env .userDefinedPush (some route) (some text) sys)
  | refused (reason : String) (unusable : msg.msg = none ∨ msg.id = pcInvalidReqId ∨
      msg.id = pcNotifyPushReqId ∧ msg.route = none) :
      DataOutcome env msg sys (protoError env reason sys)

/-- The body of a data package is decoded, without a byte of an id being shifted out of its
word, and what is decoded leads to one of the outcomes. -/
structure DataTotal (env : Env) (bytes : Bytes) (sys : Sys) : Prop where
  shifts : ∀ flag ∈ bytes.head?, ∀ type ∈ flagType flag, type.hasId →
    ∀ shift ∈ pcMsgIdShifts bytes.length bytes.tail 1 0, shift < 32
  outcome : ∃ msg, prDefaultMsgDecoder env.platform env.text sys.state.tcp.codeToRoute
      sys.state.tcp.serverProtos { base := some bytes, len := bytes.length } = .ok msg ∧
    DataOutcome env msg (sys.note (.package PkgType.data.code (some bytes)))
      (trTcpOnPkgHandler env PkgType.data.code (some bytes) bytes.length sys)

/-- While an answer is delivered, nothing comes to wait for one. -/
theorem assert_respTypes {sys : Sys} (awaiting : Awaiting none sys) (reqId : Nat) (text : CStr) :
    (pcTransResp (loopReceiver env) env.config.enablePolling reqId pcRcOk (some text) sys).assert
        (fun core => core.tcp.wq.respTypes reqId) .respPendingType =
      pcTransResp (loopReceiver env) env.config.enablePolling reqId pcRcOk (some text) sys := by
  have delivered := awaiting.fills (.of_delivered (@delivered_pcTransResp env reqId pcRcOk
    (some text) sys))
  generalize pcTransResp (loopReceiver env) env.config.enablePolling reqId pcRcOk (some text) sys =
    last at delivered
  have free : last.state.tcp.wq.tmp = none := Option.map_eq_none_iff.mp delivered.checked
  have resp : ∀ item ∈ last.state.tcp.wq.respPending, item.type = .resp := by
    have resp := delivered.resp
    rwa [WriteQueues.whole_of_tmp free] at resp
  have types : last.state.tcp.wq.respTypes reqId = true := by
    refine List.all_eq_true.mpr fun item member => decide_eq_true (resp item ?_)
    rcases List.mem_append.mp member with seen | next
    · exact List.takeWhile_subset _ seen
    · exact List.drop_subset _ _ (List.take_subset _ _ next)
  rw [Sys.assert, if_pos types]

/-- A decoded message leads to an outcome if and only if it can be used. -/
theorem dataOutcome_onMessage_iff {msg : PcMsg} {sys : Sys} (awaiting : Awaiting none sys) :
    DataOutcome env msg sys (onMessage env msg sys) ↔ msg.Usable := by
  constructor
  · intro outcome
    generalize onMessage env msg sys = last at outcome
    cases outcome with
    | answered _ _ _ without => exact .inr (.inr (.inr without))
    | pushed _ push _ => exact .inr (.inr (.inl push))
    | refused _ unusable =>
        rcases unusable with none | invalid | ⟨push, -⟩
        · exact .inl none
        · exact .inr (.inl invalid)
        · exact .inr (.inr (.inl push))
  · intro usable
    rw [onMessage]
    cases content : msg.msg with
    | none => exact .refused _ (.inl content)
    | some text =>
        dsimp only
        by_cases invalid : msg.id = pcInvalidReqId
        · rw [if_pos invalid]
          exact .refused _ (.inr (.inl invalid))
        rw [if_neg invalid]
        by_cases lost : msg.id = pcNotifyPushReqId ∧ msg.route.isNone = true
        · rw [if_pos lost]
          exact .refused _ (.inr (.inr (lost.imp_right Option.isNone_iff_eq_none.mp)))
        rw [if_neg lost]
        have matched : (decide (msg.id = pcNotifyPushReqId) == msg.route.isSome) = true := by
          rcases usable with none | known | push | without
          · cases content.symm.trans none
          · exact absurd known invalid
          · have routed := Option.isSome_iff_ne_none.mpr fun none =>
              lost ⟨push, Option.isNone_iff_eq_none.mpr none⟩
            rw [decide_eq_true push, routed]
            rfl
          · have request : msg.id ≠ pcNotifyPushReqId := fun push =>
              lost ⟨push, Option.isNone_iff_eq_none.mpr without⟩
            rw [decide_eq_false request, without]
            rfl
        rw [Sys.assert, if_pos matched]
        by_cases request : msg.id ≠ pcNotifyPushReqId
        · have without : msg.route = none := by
            rw [decide_eq_false request] at matched
            cases routed : msg.route with
            | none => rfl
            | some route =>
                rw [routed] at matched
                exact absurd matched Bool.false_ne_true
          rw [if_pos request, onResponse, assert_respTypes awaiting]
          exact .answered content invalid request without
        · have push := not_not.mp request
          cases routed : msg.route with
          | none => exact absurd ⟨push, by rw [routed]; rfl⟩ lost
          | some route =>
              rw [if_neg request]
              exact .pushed content push routed

/-- No byte of the id is shifted out of its word if and only if there are at most five. -/
theorem shifts_iff (bytes : Bytes) :
    (∀ flag ∈ bytes.head?, ∀ type ∈ flagType flag, type.hasId →
      ∀ shift ∈ pcMsgIdShifts bytes.length bytes.tail 1 0, shift < 32) ↔ IdShort bytes := by
  cases bytes with
  | nil => exact ⟨fun _ => trivial, fun _ _ member => absurd member nofun⟩
  | cons flag rest =>
      have inside : (flag :: rest).length = 1 + rest.length := by
        rw [List.length_cons, Nat.add_comm]
      have shifts := pcMsgIdShifts_lt_iff rest inside
      rw [IdShort]
      constructor
      · intro small type known
        rw [MsgType.digits]
        split
        next hasId => exact shifts.mp (small flag rfl type known hasId)
        · exact Nat.zero_le _
      · intro short head same type known hasId
        cases Option.some.inj same
        have short := short type known
        rw [MsgType.digits, if_pos hasId] at short
        exact shifts.mpr short

/-- What is decoded is handed to the callbacks. -/
theorem tcpOnDataRecieved_of_decoded {sys : Sys} {data : Option Bytes} {len : Nat} {msg : PcMsg}
    (decoded : prDefaultMsgDecoder env.platform env.text sys.state.tcp.codeToRoute
      sys.state.tcp.serverProtos { base := data, len } = .ok msg) :
    tcpOnDataRecieved env data len sys = onMessage env msg sys := by
  rw [tcpOnDataRecieved, decoded]

/-- A data package whose body can be decoded. -/
theorem handled_of_decoded {sys : Sys} {bytes : Bytes} {msg : PcMsg}
    (decoded : prDefaultMsgDecoder env.platform env.text sys.state.tcp.codeToRoute
      sys.state.tcp.serverProtos { base := some bytes, len := bytes.length } = .ok msg) :
    trTcpOnPkgHandler env PkgType.data.code (some bytes) bytes.length sys =
      onMessage env msg (sys.note (.package PkgType.data.code (some bytes))) := by
  have handled : trTcpOnPkgHandler env PkgType.data.code (some bytes) bytes.length sys =
      tcpOnDataRecieved env (some bytes) bytes.length
        (sys.note (.package PkgType.data.code (some bytes))) := rfl
  exact handled.trans (tcpOnDataRecieved_of_decoded decoded)

/-- The body of a data package is handled, and leads to one of the outcomes, if and only if
the decoder finds all it needs: an id of at most five bytes and of another value than
`PC_INVALID_REQ_ID`, a length byte that is not taken for a negative number, a dictionary
with a text for the code of a compressed route, a body that its reader gets through and the
printer prints, and no id beside a route. -/
theorem dataTotal_iff {sys : Sys} (handling : Handling env sys) {bytes : Bytes}
    (bound : bytes.length < 2 ^ 24) :
    DataTotal env bytes sys ↔
      MsgSound env.platform env.text sys.state.tcp.codeToRoute sys.state.tcp.serverProtos bytes := by
  have awaiting : Awaiting none (sys.note (.package PkgType.data.code (some bytes))) :=
    (awaiting_of_handling handling).same rfl
  have small : bytes.length < 2 ^ 31 := Nat.lt_trans bound (by decide)
  have decodes (short : IdShort bytes) :
      (∃ msg, prDefaultMsgDecoder env.platform env.text sys.state.tcp.codeToRoute
        sys.state.tcp.serverProtos { base := some bytes, len := bytes.length } = .ok msg ∧
          msg.Usable) ↔
        MsgSound env.platform env.text sys.state.tcp.codeToRoute sys.state.tcp.serverProtos bytes :=
    pcDefaultMsgDecode_usable_iff small short
  constructor
  · intro total
    obtain ⟨msg, decoded, outcome⟩ := total.outcome
    rw [handled_of_decoded decoded] at outcome
    exact (decodes ((shifts_iff bytes).mp total.shifts)).mp
      ⟨msg, decoded, (dataOutcome_onMessage_iff awaiting).mp outcome⟩
  · intro sound
    obtain ⟨msg, decoded, usable⟩ := (decodes sound.id).mpr sound
    refine ⟨(shifts_iff bytes).mpr sound.id, msg, decoded, ?_⟩
    rw [handled_of_decoded decoded]
    exact (dataOutcome_onMessage_iff awaiting).mpr usable

/-- The state in which the first package behind the handshake is handled. -/
def behindHandshake (data : Bytes) : Sys :=
  (sampleRun (fun _ => []) handshakeAnswered (by decide +kernel)).note (.callback (.read data))

/-- A package behind the handshake is handled. -/
theorem handling_behindHandshake (data : Bytes) :
    Handling (.sample fun _ => []) (behindHandshake data) := by
  have ready : (sampleRun (fun _ => []) handshakeAnswered (by decide +kernel)).state.ready
      (.read []) = true := by
    decide +kernel
  exact .chunk (sampleEnds_sampleRun _).reachable ready

/-- An answer to the request with the id 1. -/
def answerData : Bytes := [4, 1, 123, 125]

/-- The data package with an answer is handled totally. -/
theorem dataTotal_answerData :
    DataTotal (.sample fun _ => []) answerData (behindHandshake []) := by
  have sound : MsgSound (Env.sample fun _ => []).platform (Env.sample fun _ => []).text
      (behindHandshake []).state.tcp.codeToRoute (behindHandshake []).state.tcp.serverProtos
      answerData := by
    refine ⟨fun type known => ?_, fun type known hasRoute => ?_, fun parts found => ?_⟩
    · cases Option.some.inj known
      decide
    · cases Option.some.inj known
      exact absurd hasRoute Bool.false_ne_true
    · cases Option.some.inj found
      exact ⟨by decide, none, .response rfl, fun _ => ⟨rfl, .inr rfl⟩⟩
  exact (dataTotal_iff (handling_behindHandshake []) (by decide)).mpr sound

/-- A pushed message with the route code 1. -/
def codeData : Bytes := [7, 0, 1, 123, 125]

/-- The decoder looks the code up in a dictionary that is not there. -/
theorem dataTotal_fails_codeData :
    ¬ ∀ (env : Env) (sys : Sys) (bytes : Bytes), Handling env sys → bytes ≠ [] →
      bytes.length < 2 ^ 24 → DataTotal env bytes sys := by
  intro claim
  have total := claim _ _ codeData (handling_behindHandshake []) nofun (by decide)
  have missing : (behindHandshake []).state.tcp.codeToRoute.isNone = true := by decide +kernel
  obtain ⟨msg, decoded, -⟩ := total.outcome
  rw [Option.isNone_iff_eq_none.mp missing] at decoded
  exact absurd decoded nofun

end Pomelo
