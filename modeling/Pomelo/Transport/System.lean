import Pomelo.Json.RoundTrip
import Pomelo.Message.Estimate
import Pomelo.Transport.Callbacks

/-!
# Runs of the system

One step is a stage of a call on a user thread, a callback of the event loop, or the
passing of time. A callback can run when its handle is ready: a signalled async
handle, a timer that is active and due, an outstanding request, a socket that is
being read.
-/

namespace Pomelo

/-- The transport that `tr_uv_tcp_create` and `tr_uv_tcp_init` make, before the local
storage is loaded. -/
def Transport.init : Transport where
  state := .notConn
  socket := .none
  reading := false
  loopTime := 0
  connTimeout := .init
  reconnDelayTimer := .init
  handshakeTimer := .init
  checkTimeout := .init
  hbTimer := .init
  hbTimeoutTimer := .init
  connAsync := false
  writeAsync := false
  disconnectAsync := false
  cleanupAsync := false
  reconnTimes := 0
  isConnecting := false
  maxReconnIncr := 0
  host := none
  port := 0
  handshakeOpts := none
  wq := .init
  isWriting := false
  hbInterval := 0
  hbTimeout := 0
  isWaitingHb := false
  hbRtt := -1
  pkgParser := pcPkgParserInit .zeroed
  routeToCode := none
  codeToRoute := none
  dictVer := none
  serverProtos := none
  clientProtos := none
  protoVer := none

/-- `tr_uv_tcp_init`, with the content of the local storage. -/
def trUvTcpInit (env : Env) (stored : Option CStr) : Except Stop Transport :=
  loadLocalStorage env.text (if env.config.localStorageCb then stored else none) .init

/-- The system after `pc_client_init` with a transport. -/
def Sys.init (evHandlers : List Nat) (tcp : Transport) (stored : Option CStr) : Sys where
  state :=
    { client := pcClientInit evHandlers
      tcp
      calls := []
      nextCall := 0
      nextBorn := 0
      clock := 0
      stored
      wqHeld := false
      closed := false
      crashed := false }
  notes := []

/-- A timer that is due. -/
def Transport.due (tcp : Transport) (timer : UvTimer) : Bool :=
  timer.active && timer.timeout ≤ tcp.loopTime

/-- The callbacks that the loop can run. When the socket has been closed with a connect
request outstanding, the request is cancelled. -/
def Core.ready (core : Core) : LoopEvent → Bool
  | .connAsync .. => core.tcp.connAsync && !core.closed
  | .writeAsync _ => core.tcp.writeAsync && !core.closed
  | .disconnectAsync => core.tcp.disconnectAsync && !core.closed
  | .cleanupAsync => core.tcp.cleanupAsync && !core.closed
  | .reconnDelayTimer => core.tcp.due core.tcp.reconnDelayTimer && !core.closed
  | .connTimeout => core.tcp.due core.tcp.connTimeout && !core.closed
  | .handshakeTimer => core.tcp.due core.tcp.handshakeTimer && !core.closed
  | .checkTimeout => core.tcp.due core.tcp.checkTimeout && !core.closed
  | .hbTimer => core.tcp.due core.tcp.hbTimer && !core.closed
  | .hbTimeoutTimer => core.tcp.due core.tcp.hbTimeoutTimer && !core.closed
  | .connDone status _ =>
      core.tcp.isConnecting && (core.tcp.socket ≠ .closing || status = uvECanceled)
  | .writeDone _ => core.tcp.isWriting
  | .readError | .read _ => core.tcp.reading && core.tcp.socket = .open

variable (env : Env)

/-- A callback of the loop. A timer without repeat is inactive when its callback runs. -/
def runLoop (event : LoopEvent) (sys : Sys) : Sys :=
  match event with
  | .connAsync resolved ret => tcpConnAsyncCb env resolved ret sys
  | .writeAsync ret => tcpWriteAsyncCb env ret sys
  | .disconnectAsync => tcpDisconnectAsyncCb env sys
  | .cleanupAsync => tcpCleanupAsyncCb env sys
  | .reconnDelayTimer => tcpReconnDelayTimerCb sys
  | .connTimeout => tcpConnTimeoutCb sys
  | .handshakeTimer =>
      tcpHandshakeTimerCb env (sys.tcp fun tcp =>
        { tcp with handshakeTimer := tcp.handshakeTimer.stop })
  | .checkTimeout =>
      tcpWriteCheckTimeoutCb env (sys.tcp fun tcp =>
        { tcp with checkTimeout := tcp.checkTimeout.stop })
  | .hbTimer =>
      tcpHeartbeatTimerCb env (sys.tcp fun tcp => { tcp with hbTimer := tcp.hbTimer.stop })
  | .hbTimeoutTimer =>
      tcpHeartbeatTimeoutCb env (sys.tcp fun tcp =>
        { tcp with hbTimeoutTimer := tcp.hbTimeoutTimer.stop })
  | .connDone status ret => tcpConnDoneCb env status ret sys
  | .writeDone status => tcpWriteDoneCb env status sys
  | .readError => tcpOnTcpReadError env sys
  | .read data => tcpOnTcpReadCb env data sys

/-- What happens in one step. -/
inductive Label where
  /-- A call begins on a user thread. -/
  | begin (call : UserCall)
  /-- A call goes on. -/
  | advance (id : Nat)
  | tick (seconds : Nat)
  /-- The time of the loop goes on. -/
  | loopTime (milliseconds : Nat)
  | loop (event : LoopEvent)
  deriving DecidableEq

/-- One step of the system, if it can be taken. -/
def step (label : Label) (sys : Sys) : Option Sys :=
  if sys.state.crashed then none
  else
    match label with
    | .begin call => some (beginCall .user call sys)
    | .advance id => some (advance env id sys)
    | .tick seconds => some (act env sys (.tick seconds))
    | .loopTime milliseconds =>
        some (sys.tcp fun tcp => { tcp with loopTime := tcp.loopTime + milliseconds })
    | .loop event =>
        if sys.state.ready event then some (runLoop env event (sys.note (.callback event)))
        else none

/-- A run of given steps. -/
def run (labels : List Label) (sys : Sys) : Option Sys :=
  labels.foldlM (fun sys label => step env label sys) sys

/-- One step leads from one state to another. -/
def Step (first second : Sys) : Prop := ∃ label, step env label first = some second

/-- The states that the system can get into, from any content of the local storage. -/
def Reachable (sys : Sys) : Prop :=
  ∃ evHandlers tcp stored, trUvTcpInit env stored = .ok tcp ∧
    Relation.ReflTransGen (Step env) (Sys.init evHandlers tcp stored) sys

/-- The states that packages are handled in: at the beginning of a chunk, and behind other
packages. -/
inductive Handling : Sys → Prop where
  | chunk {sys : Sys} {data : Bytes} (reached : Reachable env sys)
      (ready : sys.state.ready (.read data)) : Handling (sys.note (.callback (.read data)))
  | parser {sys : Sys} (parser : PkgParser) (handling : Handling sys) :
      Handling (sys.tcp fun tcp => { tcp with pkgParser := parser })
  | package {sys : Sys} (type : UInt8) (data : Option Bytes) (len : Nat)
      (running : sys.state.crashed = false) (handling : Handling sys) :
      Handling (trTcpOnPkgHandler env type data len sys)

/-- `pc_JSON.c` for the message codec. A text that the parser runs off is not looked at. -/
def pcJSONSource (pow : Codec.Double → Codec.Double → Codec.Double) : JsonText :=
  pcJSONText fun value =>
    match pcJSONParseText pow value with
    | .ok (item, rest) => some (item, value.length - rest.length)
    | .error _ => none

/-- The parser gives back what has been printed, and tells how far the text reaches. -/
theorem pcJSONSource_parse_printValue {pow : Codec.Double → Codec.Double → Codec.Double}
    (unit : pow (.ofInt 10) (.ofInt 0) = .ofInt 1) {json : Json} (whole : json.whole = true)
    (short : (printValue json).length < 2 ^ 31) {rest : Bytes} (ends : json.endsAt rest = true)
    {bytes : Bytes} (printed : bytes = (printValue json).bytes ++ rest) :
    (pcJSONSource pow).parse bytes = some (json, (printValue json).length) := by
  subst printed
  have size : ((printValue json).bytes ++ rest).length - rest.length = (printValue json).length := by
    rw [List.length_append, Nat.add_sub_cancel]
    rfl
  have parsed : pcJSONParseText pow ((printValue json).bytes ++ rest) = .ok (json, rest) :=
    readBack_text unit whole short ends
  simp only [pcJSONSource, pcJSONText, parsed, size]

/-- The powers that the numbers of the sample need, which have no places and no exponent. -/
def samplePow (base exponent : Codec.Double) : Codec.Double :=
  if exponent = .ofInt 0 then .ofInt 1 else base

/-- A platform and a user for the runs that are looked at one by one. -/
def Env.sample (user : Sys → List Act) : Env where
  platform := { uvLenBits := 64, charSigned := true }
  text := pcJSONSource samplePow
  config := pcClientConfigDefault
  platformType := CStr.ofString "linux"
  version := CStr.ofString "0.0.1"
  user
  rand := fun _ => 0
  passes := 16

/-- A user connects, and the handshake is sent. -/
def handshakeSent : List Label :=
  [.begin (.api (.connect (some (CStr.ofString "host")) 3010 none)), .advance 0, .advance 0,
    .advance 0, .loop (.connAsync true 0), .loop (.connDone 0 0), .loop (.writeAsync 0),
    .loop (.writeDone 0)]

/-- The steps of a run of the sample can be taken, and end in a state. -/
def SampleEnds (user : Sys → List Act) (labels : List Label) (sys : Sys) : Prop :=
  run (.sample user) labels (Sys.init [] .init none) = some sys

/-- The end of a run of the sample whose steps can be taken. -/
def sampleRun (user : Sys → List Act) (labels : List Label)
    (runs : (run (.sample user) labels (Sys.init [] .init none)).isSome) : Sys :=
  (run (.sample user) labels (Sys.init [] .init none)).get runs

/-- The handshake can be sent. -/
theorem runs_handshakeSent :
    (run (.sample fun _ => []) handshakeSent (Sys.init [] .init none)).isSome := by
  decide +kernel

/-- A package with the answer to the handshake: all is well, with a heartbeat. -/
def answerBytes : Bytes :=
  [1, 0, 0, 34] ++ (CStr.ofString "\x7b\"code\":200,\"sys\":\x7b\"heartbeat\":3\x7d\x7d").bytes

/-- The handshake is answered. -/
def handshakeAnswered : List Label :=
  handshakeSent ++ [.loop (.read answerBytes), .loop (.writeAsync 0), .loop (.writeDone 0)]

/-- A message is sent. -/
def messageSent (id : Nat) (kind : ReqKind) (timeout : Int) : List Label :=
  .begin (.api (.send kind (some (CStr.ofString "route", CStr.ofString "\x7b\x7d")) timeout)) ::
    List.replicate 5 (.advance id)

/-- A message is being written when the handshake is done. -/
def notifyInFlight : List Label :=
  handshakeAnswered ++ messageSent 1 .notify 5 ++ [.loop (.writeAsync 0)]

/-- A package that kicks the client. -/
def kickBytes : Bytes := [5, 0, 0, 0]

variable {env}

/-- A state at the end of a run of given steps is reachable. -/
theorem reachable_of_run {evHandlers : List Nat} {tcp : Transport} {stored : Option CStr}
    {labels : List Label} {sys : Sys} (init : trUvTcpInit env stored = .ok tcp)
    (ran : run env labels (Sys.init evHandlers tcp stored) = some sys) : Reachable env sys := by
  exact ⟨evHandlers, tcp, stored, init,
    Transition.reflTransGen_of_foldlM (fun stepped => ⟨_, stepped⟩) ran⟩

/-- The sample run is a run. -/
theorem SampleEnds.reachable {user : Sys → List Act} {labels : List Label} {sys : Sys}
    (ends : SampleEnds user labels sys) : Reachable (.sample user) sys :=
  reachable_of_run rfl ends

/-- What is evaluated at the end of a run of the sample. -/
theorem exists_sampleEnds (user : Sys → List Act) (labels : List Label) (check : Sys → Prop)
    [DecidablePred check] (runs : (run (.sample user) labels (Sys.init [] .init none)).any
      fun sys => decide (check sys)) : ∃ sys, SampleEnds user labels sys ∧ check sys :=
  Transition.exists_of_any check runs

/-- A run that exists ends where it ends. -/
theorem sampleEnds_sampleRun {user : Sys → List Act} {labels : List Label}
    (runs : (run (.sample user) labels (Sys.init [] .init none)).isSome) :
    SampleEnds user labels (sampleRun user labels runs) :=
  (Option.some_get runs).symm

end Pomelo
