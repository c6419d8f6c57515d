import Pomelo.Transport.System

/-!
# Messages that cannot be encoded

The encoders report a failure as the length `-1`. `tr_uv_tcp_send` compares the length
with `(unsigned int)-1`, which is what it has become where `uv_buf_t.len` has 32 bits.
Where the length has 64 bits the two are different numbers, and both tests of the
function pass.
-/

namespace Pomelo

variable {env : Env}

/-- Where a length has 64 bits, `-1` is not `(unsigned int)-1`. -/
theorem uvLen_minusOne (platform : Platform) (bits : platform.uvLenBits = 64) :
    platform.uvLen (-1) = 2 ^ 64 - 1 := by
  rw [Platform.uvLen, bits]
  rfl

/-- The message of an entry, as `tr_uv_tcp_send` hands it to the encoder. -/
def PendingReq.message (req : PendingReq) : PcMsg where
  id := req.reqId
  route := some req.route
  msg := some req.msg

/-- The message cannot be encoded: the encoder fails, or the package has no room for
the body. The length of a body is an `int`, which a body of 2^31 bytes or more makes
negative. -/
def Unencodable (env : Env) (tcp : Transport) (req : PendingReq) : Prop :=
  ∃ body, pcDefaultMsgEncode env.text tcp.routeToCode tcp.clientProtos req.message = .ok body ∧
    (body.len < 0 ∨ (pcPkgMaxBodyBytes : Int) ≤ body.len)

/-- A message that is not JSON cannot be encoded. -/
theorem Unencodable.of_refused {tcp : Transport} {req : PendingReq}
    (refused : pcJSONParseWithOpts env.text (req.msg.bytes ++ [0]) true = .error .refused) :
    Unencodable env tcp req := by
  refine ⟨.failed, ?_, .inl (by decide)⟩
  simp only [pcDefaultMsgEncode, PendingReq.message, refused]
  rfl

/-- Nor can one whose body the encoders of bodies refuse. -/
theorem Unencodable.of_body_failed {tcp : Transport} {req : PendingReq} {jsonMsg : Json}
    {last : Nat} (parsed : pcJSONParseWithOpts env.text (req.msg.bytes ++ [0]) true =
      .ok (jsonMsg, last))
    (failed : pcMsgEncodeBody env.text tcp.clientProtos req.route jsonMsg = .ok .failed) :
    Unencodable env tcp req := by
  refine ⟨.failed, ?_, .inl (by decide)⟩
  simp only [pcDefaultMsgEncode, PendingReq.message, parsed, failed]
  rfl

/-- A wrapped value is an `int`. -/
theorem toInt32_bounds (value : Int) : -2 ^ 31 ≤ toInt32 value ∧ toInt32 value < 2 ^ 31 := by
  rw [toInt32]
  omega

/-- The length of a message is that of the buffer, as an `int`. -/
theorem len_pcMsgFill {msgLen : Nat} {head : Bytes} {body buf : PcBuf}
    (filled : pcMsgFill msgLen head body = .ok buf) : buf.len = toInt32 msgLen := by
  obtain ⟨_, -, filled⟩ := Stop.bind_eq_ok filled
  obtain ⟨data, -, filled⟩ := Stop.bind_eq_ok filled
  dsimp only at filled
  split at filled
  · cases filled
  · cases filled
    rfl

theorem len_pcMsgEncodeRoute {id : Nat} {type : MsgType} {route : CStr} {body buf : PcBuf}
    (encoded : pcMsgEncodeRoute id type route body = .ok buf) :
    ∃ msgLen : Nat, buf.len = toInt32 msgLen := by
  rw [pcMsgEncodeRoute] at encoded
  dsimp only at encoded
  split at encoded
  · obtain ⟨_, -, encoded⟩ := Stop.bind_eq_ok encoded
    exact ⟨_, len_pcMsgFill encoded⟩
  · exact ⟨_, len_pcMsgFill encoded⟩

/-- The length of an encoded message is an `int`. -/
theorem len_pcDefaultMsgEncode {text : JsonText} {route2code clientProtos : Option Json}
    {msg : PcMsg} {buf : PcBuf}
    (encoded : pcDefaultMsgEncode text route2code clientProtos msg = .ok buf) :
    -2 ^ 31 ≤ buf.len ∧ buf.len < 2 ^ 31 := by
  have failed : -2 ^ 31 ≤ PcBuf.failed.len ∧ PcBuf.failed.len < 2 ^ 31 := by decide
  rw [pcDefaultMsgEncode] at encoded
  split at encoded
  next msgText route _ _ =>
    split at encoded
    · cases encoded
      exact failed
    · cases encoded
    · obtain ⟨body, -, encoded⟩ := Stop.bind_eq_ok encoded
      dsimp only at encoded
      split at encoded
      · split at encoded <;> cases encoded
        exact failed
      split at encoded
      · cases encoded
      obtain ⟨routeCode, -, encoded⟩ := Stop.bind_eq_ok encoded
      split at encoded
      · rw [len_pcMsgFill encoded]
        exact toInt32_bounds _
      · obtain ⟨msgLen, len⟩ := len_pcMsgEncodeRoute encoded
        rw [len]
        exact toInt32_bounds _
  · cases encoded

/-- Both tests of a message that cannot be encoded pass. -/
theorem trUvTcpSendEncode_of_unencodable {tcp : Transport} {req : PendingReq}
    (bits : env.platform.uvLenBits = 64) (fails : Unencodable env tcp req) :
    trUvTcpSendEncode env tcp req = .ok (some { base := none, len := 2 ^ 64 - 1 }) := by
  obtain ⟨body, encoded, wrong⟩ := fails
  obtain ⟨least, greatest⟩ := len_pcDefaultMsgEncode encoded
  obtain ⟨len, becomes, long, other⟩ : ∃ len, env.platform.uvLen body.len = len ∧
      len > pcPkgMaxBodyBytes - 1 ∧ len ≠ unsignedMinusOne := by
    rw [Platform.uvLen, bits]
    simp only [pcPkgMaxBodyBytes, unsignedMinusOne] at wrong ⊢
    exact ⟨_, rfl, by omega, by omega⟩
  have message : prDefaultMsgEncoder env.platform env.text tcp.routeToCode tcp.clientProtos
      { id := req.reqId, route := some req.route, msg := some req.msg } =
        .ok { base := body.base, len } := by
    rw [prDefaultMsgEncoder, show pcDefaultMsgEncode env.text tcp.routeToCode tcp.clientProtos
      { id := req.reqId, route := some req.route, msg := some req.msg } = .ok body from encoded]
    exact congrArg Except.ok (congrArg (UvBuf.mk body.base) becomes)
  have package : pcPkgEncode env.platform PkgType.data.code body.base len =
      { base := none, len := 2 ^ 64 - 1 } := by
    rw [pcPkgEncode, if_pos long, uvLen_minusOne _ bits]
  rw [trUvTcpSendEncode, message, Stop.ok_bind]
  simp only [if_neg other, package]
  rfl

/-- `tr_uv_tcp_send` reports a failure and leaves no trace: the call goes to its
rollback with an error code, and nothing else has changed. -/
def SendReported (env : Env) (id : Nat) (kind : ReqKind) (req : PendingReq) (sys : Sys) : Prop :=
  ∃ rc, rc ≠ pcRcOk ∧
    (trUvTcpSend env id kind req sys).state = (sys.stage id (.sendFailed kind req rc)).state

/-- No message that cannot be encoded is reported: the call goes on to queue a write
item without memory. -/
theorem not_sendReported {id : Nat} {kind : ReqKind} {req : PendingReq} {sys : Sys}
    (bits : env.platform.uvLenBits = 64) (transport : sys.state.client.hasTrans = true)
    (connection : sys.state.tcp.state ≠ .notConn)
    (known : id ∈ sys.state.calls.map Call.id)
    (fails : Unencodable env sys.state.tcp req) :
    ¬ SendReported env id kind req sys ∧
      (trUvTcpSend env id kind req sys).state =
        (sys.stage id (.insert kind req { base := none, len := 2 ^ 64 - 1 })).state := by
  have accepted : (trUvTcpSend env id kind req sys).state =
      (sys.stage id (.insert kind req { base := none, len := 2 ^ 64 - 1 })).state := by
    have encoded := trUvTcpSendEncode_of_unencodable bits fails
    rw [trUvTcpSend, transport, Bool.not_true, if_neg Bool.false_ne_true, if_neg connection]
    simp only [Sys.state_assert, encoded]
    rw [Sys.stage, Sys.stage, Transition.Recorded.state_change, Transition.Recorded.state_change,
      Sys.state_assert]
  refine ⟨?_, accepted⟩
  rintro ⟨rc, -, reported⟩
  obtain ⟨call, member, rfl⟩ := List.mem_map.mp known
  have calls := congrArg Core.calls (accepted.symm.trans reported)
  have same := List.map_inj_left.mp calls call member
  simp only [if_true, Call.mk.injEq, reduceCtorEq, and_false] at same

/-- A request whose message is not JSON. -/
def notJson : PendingReq where
  call := 1
  node := .slot 0
  route := .ofString "route"
  msg := .ofString "hello"
  seqNum := 0
  timeout := 5
  reqId := 1

/-- The request is about to be sent, on a connection whose handshake has been sent. -/
def sendingNotJson : Sys :=
  sampleRun (fun _ => []) (handshakeSent ++
    [.begin (.api (.send .request (some (notJson.route, notJson.msg)) 5)), .advance 1,
      .advance 1]) (by decide +kernel)

/-- The sample is sending its message. -/
theorem sendingNotJson_calls :
    sendingNotJson.state.calls = [⟨1, .user, .send .request notJson⟩] := by
  decide +kernel

/-- Its message is no JSON, and is inserted all the same. -/
theorem not_sendReported_notJson :
    ¬ SendReported (.sample fun _ => []) 1 .request notJson sendingNotJson ∧
      (trUvTcpSend (.sample fun _ => []) 1 .request notJson sendingNotJson).state =
        (sendingNotJson.stage 1 (.insert .request notJson { base := none, len := 2 ^ 64 - 1 })).state :=
  not_sendReported rfl (by decide +kernel) (by decide +kernel)
    (by rw [sendingNotJson_calls]; decide) (.of_refused rfl)

/-- The request is not reported. -/
theorem sendReported_fails_notJson :
    ¬ ∀ (env : Env) (id : Nat) (kind : ReqKind) (req : PendingReq) (sys : Sys),
      env.platform.uvLenBits = 64 → sys.state.client.hasTrans = true →
      sys.state.tcp.state ≠ .notConn → id ∈ sys.state.calls.map Call.id →
      Unencodable env sys.state.tcp req → SendReported env id kind req sys := by
  intro claim
  obtain ⟨rc, -, same⟩ := claim (.sample fun _ => []) 1 .request notJson sendingNotJson rfl
    (by decide +kernel) (by decide +kernel) (by rw [sendingNotJson_calls]; decide) (.of_refused rfl)
  have sent : (trUvTcpSend (.sample fun _ => []) 1 .request notJson sendingNotJson).state.calls =
      [⟨1, .user, .insert .request notJson { base := none, len := 2 ^ 64 - 1 }⟩] := by
    decide +kernel
  rw [same, Sys.stage, Transition.Recorded.state_change, sendingNotJson_calls] at sent
  simp at sent

end Pomelo
