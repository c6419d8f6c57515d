import Pomelo.Client.State

/-!
# The checks of the API

How far the calls of `pc_pomelo.c` get before they use the transport: each looks at
its arguments and at the client state first, and either returns a code or goes on.
-/

namespace Pomelo

/-- A call of the API that may use the transport. The route and the message of a request are missing where
one of its pointer arguments is null. -/
inductive ApiCall where
  | send (kind : ReqKind) (args : Option (CStr × CStr)) (timeout : Int)
  | connect (host : Option CStr) (port : Int) (handshakeOpts : Option CStr)
  | disconnect
  | connQuality
  | transData
  deriving DecidableEq

namespace Client

/-- The test of a timeout argument. -/
def invalidTimeout (timeout : Int) : Bool := timeout ≠ pcWithoutTimeout && timeout ≤ 0

/-- The client is in a state in which messages can be sent. -/
def maySend (client : Client) : Bool :=
  client.pcClientState = .connected || client.pcClientState = .connecting

/-- `pc_request_with_timeout` up to its use of the transport: the code it returns,
if it does not get there. -/
def pcRequestCheck (args : Option (CStr × CStr)) (timeout : Int) (client : Client) : Option Int :=
  if args.isNone then some pcRcInvalidArg
  else if !client.maySend then some pcRcInvalidState
  else if invalidTimeout timeout then some pcRcInvalidArg
  else none

/-- `pc_notify_with_timeout` up to its use of the transport. It looks at the timeout
before the state. -/
def pcNotifyCheck (args : Option (CStr × CStr)) (timeout : Int) (client : Client) : Option Int :=
  if args.isNone then some pcRcInvalidArg
  else if invalidTimeout timeout then some pcRcInvalidArg
  else if !client.maySend then some pcRcInvalidState
  else none

/-- The check of a request or a notify. -/
def sendCheck (kind : ReqKind) (args : Option (CStr × CStr)) (timeout : Int) (client : Client) :
    Option Int :=
  match kind with
  | .request => client.pcRequestCheck args timeout
  | .notify => client.pcNotifyCheck args timeout

/-- `pc_client_connect` up to its use of the transport. -/
def pcConnectCheck (host : Option CStr) (port : Int) (client : Client) : Option Int :=
  if host.isNone || port < 0 || port > 2 ^ 16 - 1 then some pcRcInvalidArg
  else
    match client.pcClientState with
    | .notInited | .disconnecting => some pcRcInvalidState
    | .connected | .connecting => some pcRcOk
    | .inited => none

/-- `pc_client_disconnect` up to its use of the transport. -/
def pcDisconnectCheck (client : Client) : Option Int :=
  match client.pcClientState with
  | .notInited | .inited => some pcRcInvalidState
  | .connecting | .connected => none
  | .disconnecting => some pcRcOk

/-- The code that a call returns before it uses `client->trans`, if it does. -/
def returnsBefore (client : Client) : ApiCall → Option Int
  | .send kind args timeout => client.sendCheck kind args timeout
  | .connect host port _ => client.pcConnectCheck host port
  | .disconnect => client.pcDisconnectCheck
  | .connQuality | .transData => none

/-- A request and a notify are let through alike. -/
theorem sendCheck_eq_none {kind : ReqKind} {args : Option (CStr × CStr)} {timeout : Int}
    {client : Client} : client.sendCheck kind args timeout = none ↔
      args.isSome ∧ client.maySend ∧ ¬ invalidTimeout timeout := by
  cases kind <;> cases args <;> cases sendable : client.maySend <;>
    cases wrong : invalidTimeout timeout <;>
    simp [sendCheck, pcRequestCheck, pcNotifyCheck, sendable, wrong]

/-- The code of a refused request or notify is an error. -/
theorem sendCheck_ne_ok {kind : ReqKind} {args : Option (CStr × CStr)} {timeout rc : Int}
    {client : Client} (refused : client.sendCheck kind args timeout = some rc) : rc ≠ pcRcOk := by
  cases kind <;> cases args <;> cases sendable : client.maySend <;>
    cases wrong : invalidTimeout timeout <;>
    simp [sendCheck, pcRequestCheck, pcNotifyCheck, sendable, wrong] at refused <;>
    subst refused <;> decide

end Client

end Pomelo
