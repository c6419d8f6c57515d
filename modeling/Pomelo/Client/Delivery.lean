import Pomelo.Client.Api

/-!
# Delivery

`pc_trans.c` and `pc_client_poll`: what the transport reports is delivered to the
callbacks of the user at once, or queued until a polling client asks for it. What
the callbacks do, and what becomes of a failed assertion, is left to the system that
the client is part of.
-/

namespace Pomelo

/-- What the transport reports to the client. -/
inductive Upcall where
  | fireEvent (evType : Int) (arg1 arg2 : Option CStr)
  | sent (seqNum : Nat) (rc : Int)
  | resp (reqId : Nat) (rc : Int) (resp : Option CStr)
  deriving DecidableEq

/-- What can be seen of a delivery: the callbacks with their arguments, and the
assertions that fail. -/
inductive Sight where
  | event (handler : Nat) (type : EvType) (arg1 arg2 : Option CStr)
  | completed (kind : ReqKind) (req : PendingReq) (rc : Int) (resp : Option CStr)
  | stateAssertion (type : EvType) (state : ClientState)
  | rcStrAssertion (rc : Int)
  | eventAssertion (event : PendingEvent)
  deriving DecidableEq

/-- A system with a client in it. Whenever something can be seen the system reacts:
it runs the callback, or takes note of the assertion. -/
structure Receiver (σ : Type) where
  client : σ → Client
  change : (Client → Client) → σ → σ
  see : Sight → σ → σ

variable {σ : Type} (receiver : Receiver σ)

/-- An assertion. -/
def Receiver.assert (holds : Bool) (sight : Sight) (state : σ) : σ :=
  if holds then state else receiver.see sight state

/-- The codes that `pc_client_rc_str` has a name for. -/
def rcKnown (rc : Int) : Bool := rc ≤ 0 && rc > pcRcMin

/-- The assertion of `pc_client_rc_str`, which the log messages call. -/
def pcClientRcStr (rc : Int) (state : σ) : σ :=
  receiver.assert (rcKnown rc) (.rcStrAssertion rc) state

/-- The part of `pc__trans_fire_event` behind the checks of its arguments: the update
of the client state and the event handlers. -/
def pcTransFire (type : EvType) (arg1 arg2 : Option CStr) (state : σ) : σ :=
  let client := receiver.client state
  let state := receiver.assert (client.allows type) (.stateAssertion type client.state) state
  let state := receiver.change (Client.fire type) state
  (receiver.client state).evHandlers.foldl
    (fun state handler => receiver.see (.event handler type arg1 arg2) state) state

/-- `pc__trans_fire_event` -/
def pcTransFireEventNow (evType : Int) (arg1 arg2 : Option CStr) (state : σ) : σ :=
  match EvType.ofCode? evType with
  | none => state
  | some type => if type.hasArgs arg1 arg2 then pcTransFire receiver type arg1 arg2 state else state

/-- `pc__trans_resp` and `pc__trans_sent`: the entry is taken out of its queue, its
callback is called, and its node is released. -/
def pcTransCompleteNow (kind : ReqKind) (key : Nat) (rc : Int) (resp : Option CStr) (state : σ) :
    σ :=
  match (receiver.client state).take kind key with
  | none => state
  | some (target, client) =>
      let state := pcClientRcStr receiver rc state
      let state := receiver.change (fun _ => client) state
      let state := receiver.see (.completed kind target rc resp) state
      receiver.change (fun client => client.modifyPool kind (ReqPool.release target)) state

/-- `pc__trans_sent` -/
def pcTransSentNow (seqNum : Nat) (rc : Int) (state : σ) : σ :=
  pcTransCompleteNow receiver .notify seqNum rc none state

/-- `pc__trans_resp` -/
def pcTransRespNow (reqId : Nat) (rc : Int) (resp : Option CStr) (state : σ) : σ :=
  pcTransCompleteNow receiver .request reqId rc resp state

/-- `pc__trans_queue_event` -/
def pcTransQueueEvent (evType : Int) (arg1 arg2 : Option CStr) (state : σ) : σ :=
  match EvType.ofCode? evType with
  | none => state
  | some type =>
      if type.hasArgs arg1 arg2 then
        receiver.change (Client.queueEvent (.ev evType arg1 arg2)) state
      else state

/-- `pc__trans_queue_sent` -/
def pcTransQueueSent (seqNum : Nat) (rc : Int) (state : σ) : σ :=
  receiver.change (Client.queueEvent (.notify seqNum rc)) (pcClientRcStr receiver rc state)

/-- `pc__trans_queue_resp` -/
def pcTransQueueResp (reqId : Nat) (rc : Int) (resp : Option CStr) (state : σ) : σ :=
  receiver.change (Client.queueEvent (.req reqId rc resp)) (pcClientRcStr receiver rc state)

/-- `pc_trans_fire_event` -/
def pcTransFireEvent (enablePolling : Bool) (evType : Int) (arg1 arg2 : Option CStr) (state : σ) :
    σ :=
  if enablePolling then pcTransQueueEvent receiver evType arg1 arg2 state
  else pcTransFireEventNow receiver evType arg1 arg2 state

/-- `pc_trans_sent` -/
def pcTransSent (enablePolling : Bool) (seqNum : Nat) (rc : Int) (state : σ) : σ :=
  if enablePolling then pcTransQueueSent receiver seqNum rc state
  else pcTransSentNow receiver seqNum rc state

/-- `pc_trans_resp` -/
def pcTransResp (enablePolling : Bool) (reqId : Nat) (rc : Int) (resp : Option CStr) (state : σ) :
    σ :=
  if enablePolling then pcTransQueueResp receiver reqId rc resp state
  else pcTransRespNow receiver reqId rc resp state

/-- One report of the transport. -/
def Upcall.report (enablePolling : Bool) : Upcall → σ → σ
  | .fireEvent evType arg1 arg2 => pcTransFireEvent receiver enablePolling evType arg1 arg2
  | .sent seqNum rc => pcTransSent receiver enablePolling seqNum rc
  | .resp reqId rc answer => pcTransResp receiver enablePolling reqId rc answer

/-- The dispatch of `pc__handle_event` -/
def EventData.handle : EventData → σ → σ
  | .ev evType arg1 arg2, state => pcTransFireEventNow receiver evType arg1 arg2 state
  | .notify seqNum rc, state => pcClientRcStr receiver rc (pcTransSentNow receiver seqNum rc state)
  | .req reqId rc resp, state =>
      pcClientRcStr receiver rc (pcTransRespNow receiver reqId rc resp state)

/-- `pc__handle_event` -/
def pcHandleEvent (event : PendingEvent) (state : σ) : σ :=
  receiver.change (Client.releaseEvent event) (event.data.handle receiver state)

/-- The assertion of `pc_client_poll` on the event it is about to handle. -/
def Client.eventBusy (event : PendingEvent) (client : Client) : Bool :=
  match event.slot with
  | some slot => client.pendingEvents[slot]? = some true
  | none => true

/-- The loop of `pc_client_poll`, for at most the given number of passes. -/
def pcClientPollLoop : (passes : Nat) → σ → σ
  | 0, state => state
  | passes + 1, state =>
      match (receiver.client state).pendingEvQueue with
      | [] => state
      | event :: rest =>
          let state := receiver.change (fun client => { client with pendingEvQueue := rest }) state
          let state := receiver.assert ((receiver.client state).eventBusy event)
            (.eventAssertion event) state
          pcClientPollLoop passes (pcHandleEvent receiver event state)

/-- `pc_client_poll` of a polling client. -/
def pcClientPoll (passes : Nat) (state : σ) : σ :=
  if (receiver.client state).isInPoll then state
  else
    let state := receiver.change (fun client => { client with isInPoll := true }) state
    let state := pcClientPollLoop receiver passes state
    receiver.change (fun client => { client with isInPoll := false }) state

end Pomelo
