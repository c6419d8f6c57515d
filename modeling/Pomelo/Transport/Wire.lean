import Pomelo.Json.RoundTrip
import Pomelo.Message.Estimate
import Pomelo.Message.RoundTrip
import Pomelo.Package.Framing
import Pomelo.Transport.System

/-!
# Messages on the wire

The way of a message through all layers: its text is parsed and encoded, the package goes into
the stream, the stream arrives in any chunks, and the other end decodes the body of each package
and prints the value. The JSON code is that of `pc_JSON.c` on both ends.
-/

namespace Pomelo

open Codec (Double)

variable {pow : Double → Double → Double}

/-- `pc_JSON.c` reads an object back, whatever follows it. -/
theorem printsBack_object (unit : pow (.ofInt 10) (.ofInt 0) = .ofInt 1) {fields : List (CStr × Json)}
    (whole : (Json.object fields).whole = true) (short : (printValue (.object fields)).length < 2 ^ 31) :
    (pcJSONSource pow).PrintsBack (.object fields) := by
  refine ⟨printValue (.object fields), rfl, textSize_le_printValue _, short, fun rest => ?_⟩
  have parsed : pcJSONParseText pow ((printValue (.object fields)).bytes ++ rest) =
      .ok (.object fields, rest) := readBack_text unit whole short rfl
  simp only [pcJSONSource, pcJSONText, parsed, List.length_append, Nat.add_sub_cancel]
  rfl

variable {env : Env} {tcp : Transport}

/-- What the ends of a connection have in common: the JSON code, a machine whose `uv_buf_t` counts
32 bits at least, and dictionaries that are inverse to each other. -/
structure Agreement (env : Env) (tcp : Transport) where
  pow : Double → Double → Double
  unit : pow (.ofInt 10) (.ofInt 0) = .ofInt 1
  text : env.text = pcJSONSource pow
  wide : 32 ≤ env.platform.uvLenBits
  codeToRoute : Option Json
  pair : DictionaryPair tcp.routeToCode codeToRoute

/-- A message that `tr_uv_tcp_send` has made a package of. Its numbers are integers of 53 bits, its
route has no code or one of two bytes, and if a definition applies to the route, the message
conforms to it and leaves something to write. -/
structure SentMsg (env : Env) (tcp : Transport) where
  req : PendingReq
  fields : List (CStr × Json)
  last : Nat
  stream : Bytes
  size : Nat
  parsed : env.text.parse (req.msg.bytes ++ [0]) = some (.object fields, last)
  encoded : trUvTcpSendEncode env tcp req = .ok (some ⟨some stream, size⟩)
  valid : req.reqId < pcInvalidReqId
  short : req.route.length ≤ 127
  code : ∀ code, pcMsgRouteCode tcp.routeToCode req.route = .ok code → code < 2 ^ 16
  conforms : ∀ gprotos pbDef, Defines tcp.clientProtos req.route gprotos pbDef →
    SchemaWF gprotos pbDef ∧ conformsFields .unlimited gprotos pbDef fields ∧
      normalFields gprotos pbDef fields ≠ []
  whole : (Json.object fields).whole = true
  fits : (printValue (.object fields)).length < 2 ^ 31
  wholeValue : (bodyValue tcp.clientProtos req.route fields).whole = true
  fitsValue : (printValue (bodyValue tcp.clientProtos req.route fields)).length < 2 ^ 31

namespace SentMsg

/-- What the other end makes of the message: the same id and route, and the text that
`pc_JSON_PrintUnformatted` prints for the value. -/
def received (message : SentMsg env tcp) : PcMsg where
  id := message.req.reqId
  route := some message.req.route
  msg := some (printValue (bodyValue tcp.clientProtos message.req.route message.fields))

end SentMsg

/-- A buffer with memory is the package of the message that the encoder has made. -/
theorem encoded_of_trUvTcpSendEncode {req : PendingReq} {stream : Bytes} {size : Nat}
    (encoded : trUvTcpSendEncode env tcp req = .ok (some ⟨some stream, size⟩)) :
    ∃ base len, pcDefaultMsgEncode env.text tcp.routeToCode tcp.clientProtos
        ⟨req.reqId, some req.route, some req.msg⟩ = .ok ⟨base, len⟩ ∧
      pcPkgEncode env.platform PkgType.data.code base (env.platform.uvLen len) =
        ⟨some stream, size⟩ := by
  unfold trUvTcpSendEncode at encoded
  obtain ⟨buf, made, encoded⟩ := Stop.bind_eq_ok encoded
  obtain ⟨⟨base, len⟩, message, made⟩ := Stop.bind_eq_ok made
  obtain rfl := Except.ok.inj made
  split at encoded
  · exact absurd (Except.ok.inj encoded) (by simp)
  dsimp only at encoded
  split at encoded
  · exact absurd (Except.ok.inj encoded) (by simp)
  · exact ⟨base, len, message, Option.some.inj (Except.ok.inj encoded)⟩

/-- A message without memory is a refusal. -/
theorem pcDefaultMsgEncode_none {text : JsonText} {route2code clientProtos : Option Json}
    {msg : PcMsg} {len : Int}
    (encoded : pcDefaultMsgEncode text route2code clientProtos msg = .ok ⟨none, len⟩) : len = -1 := by
  have filled {msgLen : Nat} {head : Bytes} {body : PcBuf} :
      pcMsgFill msgLen head body ≠ .ok ⟨none, len⟩ := by
    intro filled
    obtain ⟨_, -, filled⟩ := Stop.bind_eq_ok filled
    obtain ⟨data, -, filled⟩ := Stop.bind_eq_ok filled
    dsimp only at filled
    split at filled <;> cases filled
  unfold pcDefaultMsgEncode at encoded
  split at encoded
  · split at encoded
    · exact (congrArg PcBuf.len (Except.ok.inj encoded)).symm
    · cases encoded
    obtain ⟨body, -, encoded⟩ := Stop.bind_eq_ok encoded
    dsimp only at encoded
    split at encoded
    · split at encoded
      · cases encoded
      · exact (congrArg PcBuf.len (Except.ok.inj encoded)).symm
    split at encoded
    · cases encoded
    obtain ⟨routeCode, -, encoded⟩ := Stop.bind_eq_ok encoded
    split at encoded
    · exact absurd encoded filled
    generalize (if msg.id = pcNotifyPushReqId then MsgType.notify else .request) = type at encoded
    unfold pcMsgEncodeRoute at encoded
    dsimp only at encoded
    split at encoded
    · obtain ⟨_, -, encoded⟩ := Stop.bind_eq_ok encoded
      exact absurd encoded filled
    · exact absurd encoded filled
  · cases encoded

/-- `uv_buf_t.len` tells the lengths that fit a package from all others. -/
theorem uvLen_toInt32 {platform : Platform} (wide : 32 ≤ platform.uvLenBits) {size : Nat}
    (bound : size < 2 ^ 32) (short : platform.uvLen (toInt32 size) < pcPkgMaxBodyBytes) :
    platform.uvLen (toInt32 size) = size ∧ size < pcPkgMaxBodyBytes := by
  have large : (2 : Int) ^ 32 ≤ 2 ^ platform.uvLenBits := pow_le_pow_right₀ (by decide) wide
  have value : toInt32 size = if size < 2 ^ 31 then (size : Int) else size - 2 ^ 32 := by
    unfold toInt32
    split <;> omega
  rw [Platform.uvLen] at short ⊢
  by_cases positive : size < 2 ^ 31
  · rw [if_pos positive] at value
    have same : toInt32 size % 2 ^ platform.uvLenBits = size := by
      rw [value]
      exact Int.emod_eq_of_lt (by omega) (by omega)
    rw [same] at short ⊢
    exact ⟨Int.toNat_natCast size, by omega⟩
  · rw [if_neg positive] at value
    have wrapped : toInt32 size % 2 ^ platform.uvLenBits =
        2 ^ platform.uvLenBits + (size - 2 ^ 32 : Int) := by
      rw [value, ← Int.add_emod_left]
      exact Int.emod_eq_of_lt (by omega) (by omega)
    rw [wrapped, pcPkgMaxBodyBytes] at short
    omega

/-- A package with memory has the whole message as its body. -/
theorem package_of_pcPkgEncode {platform : Platform} (wide : 32 ≤ platform.uvLenBits)
    {bytes stream : Bytes} {size : Nat} (bound : bytes.length < 2 ^ 32)
    (encoded : pcPkgEncode platform PkgType.data.code (some bytes)
      (platform.uvLen (toInt32 bytes.length)) = ⟨some stream, size⟩) :
    (Package.mk PkgType.data.code bytes).Fits ∧
      stream = (Package.mk PkgType.data.code bytes).encode := by
  by_cases long : platform.uvLen (toInt32 bytes.length) > pcPkgMaxBodyBytes - 1
  · rw [pcPkgEncode, if_pos long] at encoded
    cases encoded
  · have short : platform.uvLen (toInt32 bytes.length) < pcPkgMaxBodyBytes := by
      rw [pcPkgMaxBodyBytes] at long ⊢
      omega
    obtain ⟨length, fits⟩ := uvLen_toInt32 wide bound short
    have whole := pcPkgEncode_eq_encode platform ⟨PkgType.data.code, bytes⟩ fits
    rw [length] at encoded
    rw [whole] at encoded
    exact ⟨fits, (Option.some.inj (congrArg UvBuf.base encoded)).symm⟩

/-- A body with a byte is printed as `pc_JSON.c` prints the value that it is read as. -/
theorem pcMsgDecodeText_printed {pow : Double → Double → Double} {protos : Option Json}
    {whole : MsgRaw} {route : CStr} {data : Bytes} {value : Json} (some : data ≠ [])
    (small : data.length < 2 ^ 31) (base : whole.body = ⟨.some (data ++ []), data.length⟩)
    (decoded : pcMsgDecodeBody (pcJSONSource pow) protos (.some route) (data ++ []) data.length =
      .ok value) :
    pcMsgDecodeText (pcJSONSource pow) protos whole (.some route) =
      .ok ⟨whole.id, .some route, .some (printValue value)⟩ := by
  have positive : 0 < data.length := List.length_pos_iff.mpr some
  unfold pcMsgDecodeText
  rw [base]
  simp only
  rw [if_pos (by omega), deref_some, Stop.ok_bind, toUInt64_length small, decoded]
  rfl

/-- A message with a byte in its body is decoded to the route that its head stands for. -/
theorem pcDefaultMsgDecode_of_head {platform : Platform} {code2route protos : Option Json}
    {type : MsgType} {id : Nat} {compressed : Bool} {routeBytes data : Bytes} {raw : RawRoute}
    {route : CStr} {value : Json} (valid : id < pcInvalidReqId) (hasRoute : type.hasRoute)
    (pushed : ¬ type.hasId → id = pcNotifyPushReqId)
    (reads : ReadsRoute platform compressed routeBytes raw) (short : routeBytes.length ≤ 2 ^ 8)
    (filled : data ≠ []) (small : data.length < 2 ^ 31)
    (resolves : ∀ body, pcMsgResolveRoute code2route ⟨id, type, compressed, raw, body⟩ =
      .ok (some route))
    (decoded : pcMsgDecodeBody (pcJSONSource pow) protos (some route) (data ++ []) data.length =
      .ok value) :
    let bytes := msgHead type compressed id routeBytes ++ data
    bytes ≠ [] ∧ bytes.length < 2 ^ 32 ∧
      pcDefaultMsgDecode platform (pcJSONSource pow) code2route protos
        ⟨some bytes, toInt32 bytes.length⟩ = .ok ⟨id, some route, some (printValue value)⟩ := by
  intro bytes
  have digits : (idBytes type id).length ≤ 5 :=
    length_idBytes_le (Nat.lt_trans valid (by decide))
  have head : (msgHead type compressed id routeBytes).length = _ := length_msgHead compressed routeBytes
  have length : bytes.length = (msgHead type compressed id routeBytes).length + data.length :=
    List.length_append
  refine ⟨List.append_ne_nil_of_right_ne_nil _ filled, by omega, ?_⟩
  have read := @pcDefaultMsgDecode_eq (pcJSONSource pow) platform code2route protos type id compressed
    routeBytes data raw valid hasRoute pushed reads short small []
  simp only [resolves] at read
  rw [List.append_nil] at read
  rw [length, read]
  exact pcMsgDecodeText_printed filled small rfl decoded

/-- The bytes of an accepted message, and how they are decoded. -/
theorem pcDefaultMsgDecode_of_sent (agreement : Agreement env tcp) (message : SentMsg env tcp)
    {bytes : Bytes} {len : Int}
    (encoded : pcDefaultMsgEncode env.text tcp.routeToCode tcp.clientProtos
      ⟨message.req.reqId, some message.req.route, some message.req.msg⟩ = .ok ⟨some bytes, len⟩) :
    len = toInt32 bytes.length ∧ bytes ≠ [] ∧ bytes.length < 2 ^ 32 ∧
      pcDefaultMsgDecode env.platform env.text agreement.codeToRoute tcp.clientProtos
        ⟨some bytes, toInt32 bytes.length⟩ = .ok message.received := by
  have bound : message.req.reqId < 2 ^ 32 := Nat.lt_trans message.valid (by decide)
  have routeShort := message.short
  have printsBack := printsBack_object agreement.unit message.whole message.fits
  rw [← agreement.text] at printsBack
  obtain ⟨body, code, bodyIs, accepted, codeIs, written⟩ := pcDefaultMsgEncode_ok message.parsed encoded
  obtain ⟨data, unused, rfl, small, decoded, empty⟩ :=
    pcMsgEncodeBody_eq (fun gprotos pbDef isDef =>
      ⟨(message.conforms gprotos pbDef isDef).1, (message.conforms gprotos pbDef isDef).2.1⟩)
      printsBack bodyIs accepted
  have filled : data ≠ [] := by
    rw [Ne, empty]
    rintro ⟨gprotos, pbDef, isDef, nil⟩
    exact (message.conforms gprotos pbDef isDef).2.2 nil
  have value := decoded []
  rw [agreement.text] at value ⊢
  simp only at written
  generalize typeIs : (if message.req.reqId = pcNotifyPushReqId then MsgType.notify else .request) =
    type at written
  have hasRoute : type.hasRoute := by
    rw [← typeIs]
    split <;> rfl
  have pushed : ¬ type.hasId → message.req.reqId = pcNotifyPushReqId := by
    rw [← typeIs]
    split
    · next push => exact fun _ => push
    · exact fun without => absurd rfl without
  by_cases positive : code > 0
  · rw [if_pos positive, pcMsgEncodeCode_eq bound hasRoute code small] at written
    obtain ⟨same, lenIs⟩ := PcBuf.mk.inj (Stop.ok_of_ite written)
    obtain rfl := Option.some.inj same
    have resolved := (pcResolveDictionary_iff agreement.pair positive codeIs).mpr
      (message.code code codeIs)
    refine ⟨by rw [← lenIs, List.length_append], ?_⟩
    apply pcDefaultMsgDecode_of_head message.valid hasRoute pushed
      (readsRoute_code env.platform code) (show 2 ≤ 2 ^ 8 by decide) filled small _ value
    intro body
    rw [pcMsgResolveRoute, if_pos hasRoute]
    simp only [resolved]
    rfl
  · rw [if_neg positive, pcMsgEncodeRoute_eq bound hasRoute (by omega) small] at written
    obtain ⟨same, lenIs⟩ := PcBuf.mk.inj (Stop.ok_of_ite written)
    obtain rfl := Option.some.inj same
    have shortBytes : (UInt8.ofNat message.req.route.length :: message.req.route.bytes).length ≤
        2 ^ 8 := by
      rw [List.length_cons, show message.req.route.bytes.length = message.req.route.length from rfl]
      omega
    refine ⟨by rw [← lenIs, List.length_append], ?_⟩
    apply pcDefaultMsgDecode_of_head message.valid hasRoute pushed
      (readsRoute_str env.platform routeShort) shortBytes filled small _ value
    intro body
    rw [pcMsgResolveRoute, if_pos hasRoute]
    rfl

/-- The other end decodes the body of each data package. -/
def receiveData (env : Env) (tcp : Transport) (codeToRoute : Option Json) (type : UInt8)
    (data : Option Bytes) (len : Nat) (received : List (Except Stop PcMsg)) :
    List (Except Stop PcMsg) :=
  if type = PkgType.data.code then
    received ++ [prDefaultMsgDecoder env.platform env.text codeToRoute tcp.clientProtos ⟨data, len⟩]
  else received

/-- What `tr_uv_tcp_send` has made of a message is one package, that the other end decodes. -/
theorem SentMsg.package (agreement : Agreement env tcp) (message : SentMsg env tcp) :
    ∃ package : Package, package.Fits ∧ package.encode = message.stream ∧
      ∀ received, receiveData env tcp agreement.codeToRoute package.type package.pointer
        package.body.length received = received ++ [.ok message.received] := by
  obtain ⟨base, len, encoded, framed⟩ := encoded_of_trUvTcpSendEncode message.encoded
  cases base with
  | none =>
      have large : (2 : Int) ^ 32 ≤ 2 ^ env.platform.uvLenBits :=
        pow_le_pow_right₀ (by decide) agreement.wide
      have long : env.platform.uvLen len > pcPkgMaxBodyBytes - 1 := by
        rw [pcDefaultMsgEncode_none encoded, Platform.uvLen, pcPkgMaxBodyBytes, ← Int.add_emod_left,
          Int.emod_eq_of_lt (by omega) (by omega)]
        omega
      rw [pcPkgEncode, if_pos long] at framed
      cases framed
  | some bytes =>
      obtain ⟨length, filled, bound, decoded⟩ := pcDefaultMsgDecode_of_sent agreement message encoded
      rw [length] at framed
      obtain ⟨fits, whole⟩ := package_of_pcPkgEncode agreement.wide bound framed
      refine ⟨⟨PkgType.data.code, bytes⟩, fits, whole.symm, fun received => ?_⟩
      simp only [receiveData, Package.pointer, if_neg filled, if_true, prDefaultMsgDecoder]
      rw [decoded]

/-- Whole packages come in their order. -/
theorem wholePackages_isPrefix (packages : List Package) (count : Nat) :
    wholePackages packages count <+: packages := by
  induction packages generalizing count with
  | nil => exact List.prefix_rfl
  | cons package packages ih =>
      rw [wholePackages]
      split
      · exact List.cons_prefix_cons.mpr ⟨rfl, ih _⟩
      · exact List.nil_prefix

/-- Packages that are read as messages give these messages in order. -/
theorem deliverAll_map {α β : Type} {receive : UInt8 → Option Bytes → Nat → List β → List β}
    {package : α → Package} {result : α → β}
    (reads : ∀ entry received, receive (package entry).type (package entry).pointer
      (package entry).body.length received = received ++ [result entry])
    (entries : List α) (received : List β) :
    deliverAll receive (entries.map package) received = received ++ entries.map result := by
  unfold deliverAll
  induction entries generalizing received with
  | nil => rw [List.map_nil, List.foldl_nil, List.map_nil, List.append_nil]
  | cons entry entries ih =>
      rw [List.map_cons, List.foldl_cons, reads, ih, List.map_cons, List.append_assoc,
        List.singleton_append]

/-- A machine with the code of `pc_JSON.c`. -/
def wireEnv : Env :=
  { Env.sample fun _ => [] with
    text := pcJSONSource samplePow }

/-- A connection with one code and one definition. -/
def wireTcp : Transport :=
  { Transport.init with routeToCode := some sampleRoute2code, clientProtos := some sampleProtos }

def wireAgreement : Agreement wireEnv wireTcp where
  pow := samplePow
  unit := by decide
  text := rfl
  wide := by decide
  codeToRoute := some sampleCode2route
  pair := sampleDictionaryPair

def wireReq (id : Nat) (route : CStr) : PendingReq where
  call := 0
  node := .slot 0
  route := route
  msg := printValue (.object oneName)
  seqNum := 0
  timeout := -1
  reqId := id

/-- The message of the sample is parsed. -/
theorem wireReq_parsed (id : Nat) (route : CStr) :
    wireEnv.text.parse ((wireReq id route).msg.bytes ++ [0]) = some (.object oneName, 17) := by
  obtain ⟨printed, prints, -, -, parses⟩ := printsBack_object wireAgreement.unit
    (show (Json.object oneName).whole = true by decide +kernel) (by decide +kernel)
  obtain rfl := Option.some.inj prints
  have length : (printValue (.object oneName)).length = 17 := by decide +kernel
  rw [wireReq, wireAgreement.text, parses, length]

/-- Its route has a code of two bytes. -/
theorem wireReq_code {route : CStr} {code : Int}
    (found : pcMsgRouteCode wireTcp.routeToCode route = .ok code) : code < 2 ^ 16 := by
  by_cases same : route = .ofString "hall.join"
  · subst same
    have seven : pcMsgRouteCode (some sampleRoute2code) (.ofString "hall.join") =
        .ok (Json.number (.ofInt 7)).valueint := rfl
    have value := Except.ok.inj (found.symm.trans seven)
    rw [Json.valueint_ofInt (by decide) (by decide)] at value
    omega
  · have other : pcMsgRouteCode (some sampleRoute2code) route = .ok (-1) := by
      change pcJSONGetObjectItem sampleRoute2code route >>= _ = _
      rw [sampleRoute2code, pcJSONGetObjectItem_object, Json.lookup_of_notMem (by simpa using same)]
      rfl
    have value := Except.ok.inj (found.symm.trans other)
    omega

/-- Its schema is well formed, and the message conforms. -/
theorem wireTcp_conforms {route : CStr} {gprotos pbDef : Json}
    (defined : Defines wireTcp.clientProtos route gprotos pbDef) :
    SchemaWF gprotos pbDef ∧ conformsFields .unlimited gprotos pbDef oneName ∧
      normalFields gprotos pbDef oneName ≠ [] := by
  by_cases same : route = .ofString "hall.join"
  · subst same
    obtain ⟨rfl, rfl⟩ := sampleProtos_defines defined
    exact ⟨stringSchema_wf rfl, by decide +kernel, List.cons_ne_nil _ _⟩
  · obtain ⟨table, isDef⟩ := defined
    obtain rfl := Option.some.inj table
    rw [sampleProtos, Json.lookup_of_notMem (by simpa using same)] at isDef
    cases isDef

/-- A request, in the format of a definition. -/
def wireRequest : SentMsg wireEnv wireTcp where
  req := wireReq 300 (.ofString "hall.join")
  fields := oneName
  last := 17
  stream := [4, 0, 0, 13, 1, 172, 2, 0, 7, 10, 6, 112, 111, 109, 101, 108, 111]
  size := 17
  parsed := wireReq_parsed ..
  encoded := by decide +kernel
  valid := by decide
  short := by decide
  code _ := wireReq_code
  conforms _ _ := wireTcp_conforms
  whole := by decide +kernel
  fits := by decide +kernel
  wholeValue := by decide +kernel
  fitsValue := by decide +kernel

/-- A notify, as a JSON text. -/
def wireNotify : SentMsg wireEnv wireTcp where
  req := wireReq 0 (.ofString "chat.say")
  fields := oneName
  last := 17
  stream := [4, 0, 0, 27, 2, 8] ++ (CStr.ofString "chat.say").bytes ++
    (printValue (.object oneName)).bytes
  size := 31
  parsed := wireReq_parsed ..
  encoded := by decide +kernel
  valid := by decide
  short := by decide
  code _ := wireReq_code
  conforms _ _ := wireTcp_conforms
  whole := by decide +kernel
  fits := by decide +kernel
  wholeValue := by decide +kernel
  fitsValue := by decide +kernel

end Pomelo
