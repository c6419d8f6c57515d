import Pomelo.Client.Delivery
import Pomelo.Client.Pool

/-!
# The ids of requests

`req_id_seq` is moved off the two reserved ids before each use, so that the ids go round
through all the others, in a period of `2 ^ 32 - 2`. A pending request therefore keeps its id
to itself until a period of later requests has been issued.
-/

namespace Pomelo

/-- How many ids a request can have. -/
def reqIdPeriod : Nat := 2 ^ 32 - 2

/-- A client with the requests that have been linked and handed to the transport, in their
order. Each is numbered by its place. -/
structure RequestRun where
  client : Client
  handed : List PendingReq

namespace RequestRun

/-- After `pc_client_init`. -/
def start (evHandlers : List Nat) : RequestRun where
  client := pcClientInit evHandlers
  handed := []

/-- The section of `pc_request_with_timeout` that links the request. -/
def request (route msg : CStr) (timeout : Int) (run : RequestRun) : RequestRun where
  client := run.client.enqueue .request run.handed.length route msg timeout
  handed := run.handed ++ [run.client.newReq .request run.handed.length route msg timeout]

/-- The sections under `req_mutex`, one after another on any threads, and whatever leaves the
requests and their counter alone. -/
inductive Step : RequestRun → RequestRun → Prop where
  | request (run : RequestRun) (route msg : CStr) (timeout : Int) :
      Step run (run.request route msg timeout)
  | notify (run : RequestRun) (call : Nat) (route msg : CStr) (timeout : Int) :
      Step run { run with client := run.client.enqueue .notify call route msg timeout }
  /-- `trans->send` has failed for a message. -/
  | failed (run : RequestRun) (kind : ReqKind) (req : PendingReq) :
      Step run { run with client := run.client.modifyPool kind (ReqPool.rollback req) }
  /-- `pc__trans_resp` or `pc__trans_sent` has found a message. -/
  | completed (run : RequestRun) {kind : ReqKind} {key : Nat} {target : PendingReq}
      {client : Client} (found : run.client.take kind key = some (target, client)) :
      Step run { run with client }
  /-- The callback of a message has returned. -/
  | released (run : RequestRun) (kind : ReqKind) (req : PendingReq) :
      Step run { run with client := run.client.modifyPool kind (ReqPool.release req) }
  | other (run : RequestRun) (client : Client) (requests : client.requests = run.client.requests)
      (reqIdSeq : client.reqIdSeq = run.client.reqIdSeq) : Step run { run with client }

/-- How many requests have been issued after one. -/
def later (req : PendingReq) (run : RequestRun) : Nat := (run.handed.drop (req.call + 1)).length

/-- No request has stayed pending while a period of later ones was issued. -/
def Prompt (run : RequestRun) : Prop :=
  ∀ req ∈ run.client.requests.queue, run.later req < reqIdPeriod

/-- The states of the runs in which all requests are completed promptly. -/
def Reachable (evHandlers : List Nat) : RequestRun → Prop :=
  Relation.ReflTransGen (fun first second => Step first second ∧ second.Prompt) (start evHandlers)

variable {run : RequestRun}

/-- The id of the request with a number. -/
def idOf (number : Nat) : Nat := 1 + number % reqIdPeriod

/-- Every id that is given out is valid. -/
theorem idOf_valid (number : Nat) :
    idOf number ≠ pcNotifyPushReqId ∧ idOf number ≠ pcInvalidReqId := by
  rw [idOf, reqIdPeriod, pcNotifyPushReqId, pcInvalidReqId]
  omega

/-- Less than a period apart, ids differ. -/
theorem idOf_ne {first second : Nat} (before : first < second)
    (within : second < first + reqIdPeriod) : idOf first ≠ idOf second := by
  rw [reqIdPeriod] at within
  rw [idOf, idOf, reqIdPeriod]
  omega

/-- The id behind one. -/
theorem nextReqId_enqueue {client : Client} {number : Nat} (id : client.nextReqId = idOf number)
    (call : Nat) (route msg : CStr) (timeout : Int) :
    (client.enqueue .request call route msg timeout).nextReqId = idOf (number + 1) := by
  have counted : (client.enqueue .request call route msg timeout).reqIdSeq =
      (client.nextReqId + 1) % 2 ^ 32 := rfl
  rw [Client.nextReqId, counted, id, idOf, idOf, reqIdPeriod, pcNotifyPushReqId, pcInvalidReqId]
  split <;> omega

/-- What every step keeps. -/
structure Inv (run : RequestRun) : Prop where
  next : run.client.nextReqId = idOf run.handed.length
  numbered : ∀ number req, run.handed[number]? = some req →
    req.call = number ∧ req.reqId = idOf number
  pending : run.client.requests.queue.Sublist run.handed

/-- A fresh client has given out no id. -/
theorem inv_start (evHandlers : List Nat) : (start evHandlers).Inv where
  next := rfl
  numbered := fun number req found => absurd found (by simp [start])
  pending := List.Sublist.refl _

/-- Requests are taken away at most. -/
theorem Inv.shrink (inv : run.Inv) {client : Client}
    (reqIdSeq : client.reqIdSeq = run.client.reqIdSeq)
    (queue : client.requests.queue.Sublist run.client.requests.queue) :
    Inv { run with client } where
  next := by
    have same : client.nextReqId = run.client.nextReqId := by
      rw [Client.nextReqId, reqIdSeq, Client.nextReqId]
    exact same.trans inv.next
  numbered := inv.numbered
  pending := queue.trans inv.pending

/-- What only takes requests out of a queue keeps the invariant. -/
theorem Inv.modifyPool (inv : run.Inv) {kind : ReqKind} {act : ReqPool → ReqPool}
    (queue : ∀ pool : ReqPool, (act pool).queue.Sublist pool.queue) :
    Inv { run with client := run.client.modifyPool kind act } := by
  cases kind with
  | request => exact inv.shrink rfl (queue run.client.requests)
  | notify => exact inv.shrink rfl (List.Sublist.refl _)

/-- A new request has the next id. -/
theorem Inv.request (inv : run.Inv) (route msg : CStr) (timeout : Int) :
    (run.request route msg timeout).Inv where
  next := by
    have next := nextReqId_enqueue inv.next run.handed.length route msg timeout
    rw [RequestRun.request, List.length_append]
    exact next
  numbered := by
    intro number req found
    rw [RequestRun.request] at found
    by_cases old : number < run.handed.length
    · rw [List.getElem?_append_left old] at found
      exact inv.numbered number req found
    · rw [List.getElem?_append_right (Nat.not_lt.mp old), List.getElem?_singleton] at found
      split at found
      next last =>
        obtain rfl := Option.some.inj found
        have same : run.handed.length = number := by omega
        exact ⟨same, same ▸ inv.next⟩
      next => exact absurd found nofun
  pending := by
    have linked := run.client.pool_enqueue_self .request run.handed.length route msg timeout
    have queue := (congrArg ReqPool.queue linked).trans ReqPool.queue_link
    exact queue ▸ inv.pending.append (List.Sublist.refl _)

/-- Every step keeps the invariant. -/
theorem inv_of_step {next : RequestRun} (step : Step run next) (inv : run.Inv) : next.Inv := by
  cases step with
  | request route msg timeout => exact inv.request route msg timeout
  | notify call route msg timeout => exact inv.shrink rfl (List.Sublist.refl _)
  | failed kind req =>
      refine inv.modifyPool fun pool => ?_
      rw [ReqPool.rollback, ReqPool.queue_setSlot]
      exact List.eraseP_sublist
  | @completed kind key target client found =>
      rw [Client.take] at found
      split at found
      · cases found
      next target pool taken =>
        obtain ⟨-, rfl⟩ := Prod.mk.inj (Option.some.inj found)
        obtain ⟨before, after, split, rfl, -, -⟩ := ReqPool.take_split taken
        cases kind with
        | request =>
            refine inv.shrink rfl ?_
            have split : run.client.requests.queue = before ++ target :: after := split
            rw [split]
            exact (List.Sublist.refl before).append (List.sublist_cons_self target after)
        | notify => exact inv.shrink rfl (List.Sublist.refl _)
  | released kind req =>
      refine inv.modifyPool fun pool => ?_
      rw [ReqPool.queue_release]
  | other client requests reqIdSeq => exact inv.shrink reqIdSeq (requests ▸ List.Sublist.refl _)

/-- The invariant holds in every reachable state. -/
theorem inv_of_reachable {evHandlers : List Nat} (reached : Reachable evHandlers run) :
    run.Inv := by
  induction reached with
  | refl => exact inv_start evHandlers
  | tail _ step ih => exact inv_of_step step.1 ih

/-- Requests are numbered in their order. -/
theorem Inv.ordered (inv : run.Inv) :
    run.handed.Pairwise fun first second => first.call < second.call := by
  refine List.pairwise_iff_getElem.mpr fun first second firstRange secondRange before => ?_
  have left := (inv.numbered first _ (List.getElem?_eq_getElem firstRange)).1
  have right := (inv.numbered second _ (List.getElem?_eq_getElem secondRange)).1
  rwa [left, right]

/-- A request that has been handed over has the id of its call. -/
theorem Inv.reqId_eq (inv : run.Inv) {req : PendingReq} (member : req ∈ run.handed) :
    req.call < run.handed.length ∧ req.reqId = idOf req.call := by
  obtain ⟨number, found⟩ := List.getElem?_of_mem member
  obtain ⟨rfl, reqId⟩ := inv.numbered number req found
  exact ⟨(List.getElem?_eq_some_iff.mp found).1, reqId⟩

/-- A request that is pending is the last one with its id. -/
theorem Inv.latest (inv : run.Inv) (prompt : run.Prompt) {req other : PendingReq}
    (pending : req ∈ run.client.requests.queue) (member : other ∈ run.handed)
    (same : other.reqId = req.reqId) : other.call ≤ req.call := by
  by_contra after
  obtain ⟨-, reqId⟩ := inv.reqId_eq (inv.pending.subset pending)
  obtain ⟨range, otherId⟩ := inv.reqId_eq member
  have within := prompt req pending
  rw [later, List.length_drop] at within
  refine idOf_ne (Nat.not_le.mp after) (by omega) ?_
  rw [← reqId, ← otherId, same]

/-- The ids reach the requests. -/
structure Matched (run : RequestRun) : Prop where
  valid : ∀ req ∈ run.handed, req.reqId ≠ pcNotifyPushReqId ∧ req.reqId ≠ pcInvalidReqId
  distinct : (run.client.requests.queue.map PendingReq.reqId).Nodup
  /-- An answer runs the callback of the pending request that was handed over with its id. -/
  answered : ∀ {σ : Type} (receiver : Receiver σ) (state : σ) (rc : Int) (resp : Option CStr),
    receiver.client state = run.client → ∀ req ∈ run.client.requests.queue, ∃ client,
      run.client.take .request req.reqId = some (req, client) ∧
        pcTransRespNow receiver req.reqId rc resp state =
          receiver.change (fun client => client.modifyPool .request (ReqPool.release req))
            (receiver.see (.completed .request req rc resp)
              (receiver.change (fun _ => client) (pcClientRcStr receiver rc state)))
  /-- No answer runs any other callback: it is that of the last request with its id. -/
  latest : ∀ id target client, run.client.take .request id = some (target, client) →
    target ∈ run.handed ∧ target.reqId = id ∧
      ∀ other ∈ run.handed, other.reqId = id → other.call ≤ target.call

/-- **Answers reach the request they belong to**, in every run in which no request stays
pending while a period of later ones is issued. -/
theorem matched_of_reachable {evHandlers : List Nat} (reached : Reachable evHandlers run) :
    run.Matched := by
  have inv := inv_of_reachable reached
  have prompt : run.Prompt := by
    cases reached with
    | refl => exact fun req member => absurd member List.not_mem_nil
    | tail _ step => exact step.2
  have distinct : (run.client.requests.queue.map PendingReq.reqId).Nodup := by
    rw [List.Nodup, List.pairwise_map]
    refine (inv.ordered.sublist inv.pending).imp_of_mem ?_
    intro first second left right before same
    have latest := inv.latest prompt left (inv.pending.subset right) same.symm
    exact absurd latest (Nat.not_le.mpr before)
  refine ⟨fun req member => ?_, distinct, ?_, ?_⟩
  · rw [(inv.reqId_eq member).2]
    exact idOf_valid req.call
  · intro σ receiver state rc resp client req pending
    have taken : ∃ client, run.client.take .request req.reqId = some (req, client) := by
      cases taken : run.client.requests.take .request req.reqId with
      | none =>
          rw [ReqPool.take] at taken
          split at taken
          next missing =>
            exact absurd (List.find?_eq_none.mp missing req pending) (by simp [PendingReq.key])
          next => cases taken
      | some found =>
          obtain ⟨target, pool⟩ := found
          obtain ⟨before, after, split, -, key, -⟩ := ReqPool.take_split taken
          have member : target ∈ run.client.requests.queue := by simp [split]
          obtain rfl := List.inj_on_of_nodup_map distinct member pending key
          refine ⟨run.client.modifyPool .request fun _ => pool, ?_⟩
          have taken : (run.client.pool .request).take .request target.reqId =
              some (target, pool) := taken
          rw [Client.take, taken]
    obtain ⟨rest, taken⟩ := taken
    refine ⟨rest, taken, ?_⟩
    rw [pcTransRespNow, pcTransCompleteNow, client, taken]
  · intro id target client taken
    rw [Client.take] at taken
    split at taken
    · cases taken
    next found pool split =>
      obtain ⟨rfl, -⟩ := Prod.mk.inj (Option.some.inj taken)
      obtain ⟨before, after, split, -, key, -⟩ := ReqPool.take_split split
      have split : run.client.requests.queue = before ++ found :: after := split
      have pending : found ∈ run.client.requests.queue := by simp [split]
      have key : found.reqId = id := key
      refine ⟨inv.pending.subset pending, key, fun other member same => ?_⟩
      exact inv.latest prompt pending member (same.trans key.symm)

/-- Runs that are shorter than a period are prompt. -/
theorem prompt_of_few (few : run.handed.length ≤ reqIdPeriod) : run.Prompt := by
  intro req member
  by_cases none_handed : run.handed = []
  · rw [later, none_handed, List.drop_nil]
    decide
  · have some_handed := List.length_pos_iff.mpr none_handed
    rw [later, List.length_drop]
    omega

/-- A request is made. -/
def ask (run : RequestRun) : RequestRun :=
  run.request (CStr.ofString "route") (CStr.ofString "msg") 5

/-- Three requests are pending, and a notify. -/
def threeAsked : RequestRun :=
  let run := (start []).ask
  let run := { run with
    client := run.client.enqueue .notify 0 (CStr.ofString "route") (CStr.ofString "msg") 5 }
  run.ask.ask

/-- The second request could not be sent. -/
def secondFailed : RequestRun :=
  let req := threeAsked.handed.get ⟨1, by decide⟩
  { threeAsked with client := threeAsked.client.modifyPool .request (ReqPool.rollback req) }

/-- The first request is answered. -/
def firstAnswer : PendingReq × Client := (secondFailed.client.take .request 1).get (by decide)

/-- Its callback has returned, and another request is made. -/
def askedAgain : RequestRun :=
  let client := firstAnswer.2.modifyPool .request (ReqPool.release firstAnswer.1)
  ({ secondFailed with client } : RequestRun).ask

/-- The run exists. -/
theorem reachable_askedAgain : Reachable [] askedAgain := by
  let Prompted (first second : RequestRun) : Prop := Step first second ∧ second.Prompt
  have step {first second : RequestRun} (taken : Step first second)
      (few : second.handed.length ≤ reqIdPeriod) : Prompted first second :=
    ⟨taken, prompt_of_few few⟩
  have asked : Reachable [] threeAsked :=
    (((Relation.ReflTransGen.single (step (.request ..) (by decide))).tail
      (step (.notify ..) (by decide))).tail (step (.request ..) (by decide))).tail
        (step (.request ..) (by decide))
  have failed : Reachable [] secondFailed := asked.tail (step (.failed ..) (by decide))
  have pending : (secondFailed.client.take .request 1).isSome := by decide
  have found : secondFailed.client.take .request 1 = some (firstAnswer.1, firstAnswer.2) :=
    (Option.some_get pending).symm
  have answered := failed.tail (step (.completed secondFailed found) (by decide))
  have released := answered.tail (step (.released _ .request firstAnswer.1) (by decide))
  exact released.tail (step (.request ..) (by decide))

/-- The third and the fourth request are left. -/
theorem matched_of_reachable_askedAgain :
    askedAgain.client.requests.queue.map PendingReq.reqId = [3, 4] ∧ askedAgain.Matched :=
  ⟨by decide, matched_of_reachable reachable_askedAgain⟩

end RequestRun

end Pomelo
