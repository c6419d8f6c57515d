import Pomelo.Message.RawRoundTrip

/-!
# The raw codec

`pc_msg_encode_code` and `pc_msg_encode_route` with `pc_msg_decode_to_raw` behind
them, for messages of every type. A message with a route code comes back if an `int`
counts its bytes, as the length of a buffer has to. A literal route comes back exactly
when its length also survives the one byte that it is written in, and the `char` that it
is read from.
-/

namespace Pomelo

variable {type : MsgType} {id : Nat} {data unused : Bytes}

/-- The id of a message that comes back: a type without ids has the id of a push. -/
def MsgType.sentId (type : MsgType) (id : Nat) : Nat :=
  if type.hasId then id else pcNotifyPushReqId

/-- The id that is sent is valid. -/
theorem MsgType.sentId_lt (valid : type.hasId → id < pcInvalidReqId) :
    type.sentId id < pcInvalidReqId := by
  rw [sentId]
  split
  · next hasId => exact valid hasId
  · decide

/-- Without an id field a message is read as a push. -/
theorem MsgType.sentId_pushed (pushed : ¬ type.hasId) : type.sentId id = pcNotifyPushReqId :=
  if_neg pushed

/-- A head has no id but the one that comes back. -/
theorem msgHead_sentId (compressed : Bool) (routeBytes : Bytes) :
    msgHead type compressed (type.sentId id) routeBytes =
      msgHead type compressed id routeBytes := by
  by_cases hasId : type.hasId
  · rw [MsgType.sentId, if_pos hasId]
  · rw [msgHead, msgHead, idBytes, idBytes, if_neg hasId, if_neg hasId]

/-- `msg_len` of `pc_msg_encode_code`: the size of the block that it allocates. -/
def pcMsgCodeSize (id : Nat) (type : MsgType) (bodyLen : Int) : Nat :=
  toUInt64 (toInt32 ((1 + (if type.hasId then pcMsgIdLength id else 0) +
    (if type.hasRoute then 2 else 0) : Nat) + bodyLen))

/-- The message is the flag, the id, the code and the body. -/
theorem pcMsgEncodeCode_size (routeCode : Int) (body : PcBuf) :
    pcMsgEncodeCode id type routeCode body =
      pcMsgFill (pcMsgCodeSize id type body.len)
        (pcMsgEncodeFlag type true :: (if type.hasId then pcMsgEncodeId id else []) ++
          (if type.hasRoute then routeCodeBytes routeCode else [])) body := rfl

/-- The message that stands for a route code and a body. -/
def MsgRaw.ofCode (type : MsgType) (id routeCode : Nat) (data : Bytes) : MsgRaw where
  id := type.sentId id
  type := type
  isRouteCompressed := true
  route := .code (if type.hasRoute then routeCode else 0)
  body := { base := some data, len := data.length }

/-- A route code is read back, of a type that has a route. -/
theorem readsRawRoute_code (platform : Platform) (type : MsgType) {routeCode : Nat}
    (narrow : routeCode < 2 ^ 16) :
    ReadsRawRoute platform type true (if type.hasRoute then routeCodeBytes routeCode else [])
      (.code (if type.hasRoute then routeCode else 0)) := by
  by_cases hasRoute : type.hasRoute
  · have code : ((routeCode : Int) % 2 ^ 16).toNat = routeCode := by omega
    have reads := (readsRoute_code platform routeCode).raw hasRoute
    rw [if_pos hasRoute, if_pos hasRoute]
    rwa [code] at reads
  · have reads := readsRawRoute_none platform hasRoute true
    rw [if_neg hasRoute, if_neg hasRoute]
    exact reads

/-- A message with a route code whose bytes an `int` counts fills its block, and comes back from
it. -/
theorem pcMsgDecodeToRaw_pcMsgEncodeCode (platform : Platform) (type : MsgType)
    {id routeCode : Nat} (valid : id < pcInvalidReqId) (narrow : routeCode < 2 ^ 16)
    {data : Bytes} (counted : 1 + (if type.hasId then pcMsgIdLength id else 0) +
      (if type.hasRoute then 2 else 0) + data.length < 2 ^ 31) (unused : Bytes) :
    pcMsgIdLength id = (pcMsgEncodeId id).length ∧
      ∃ base, pcMsgEncodeCode id type routeCode ⟨some (data ++ unused), data.length⟩ =
          .ok ⟨some base, toInt32 base.length⟩ ∧
        base.length = pcMsgCodeSize id type data.length ∧
          pcMsgDecodeToRaw platform ⟨some base, toInt32 base.length⟩ =
            .ok (MsgRaw.ofCode type id routeCode data) := by
  have bound : id < 2 ^ 32 := Nat.lt_trans valid (by decide)
  have small : data.length < 2 ^ 31 := by omega
  have reads := readsRawRoute_code platform type narrow
  have bytes : (if type.hasRoute then 2 else 0) =
      (if type.hasRoute then routeCodeBytes routeCode else []).length := by
    split <;> rfl
  have short : (if type.hasRoute then routeCodeBytes routeCode else []).length ≤ 2 := by
    rw [← bytes]
    split <;> decide
  have digits : (idBytes type id).length ≤ 5 := length_idBytes_le bound
  have size : pcMsgCodeSize id type data.length = toUInt64 (toInt32 ((msgHead type true id
      (if type.hasRoute then routeCodeBytes routeCode else [])).length + data.length : Nat)) := by
    rw [pcMsgCodeSize, ite_pcMsgIdLength bound, bytes, length_msgHead, ← Nat.cast_add]
  rw [ite_pcMsgIdLength bound, bytes] at counted
  rw [pcMsgEncodeCode_size, ite_pcMsgEncodeId, size]
  generalize (if type.hasRoute then routeCodeBytes routeCode else []) = routeBytes at *
  have head : (msgHead type true id routeBytes).length =
      1 + (idBytes type id).length + routeBytes.length := length_msgHead true routeBytes
  have filled := @pcMsgFill_eq _ data unused
    (show (msgHead type true id routeBytes).length < 2 ^ 16 by omega) small
  rw [if_pos (by omega)] at filled
  have back := pcMsgDecodeToRaw_reads platform (MsgType.sentId_lt fun _ => valid)
    MsgType.sentId_pushed reads (by omega) small []
  rw [msgHead_sentId, List.append_nil, List.append_nil] at back
  refine ⟨pcMsgIdLength_eq bound, msgHead type true id routeBytes ++ data, ?_, ?_, ?_⟩
  · rw [List.length_append]
    exact filled
  · rw [List.length_append, toUInt64_counted (by omega)]
  · rw [List.length_append]
    exact back

/-- A request with the largest id, a code of two bytes and a body of one. -/
theorem pcMsgDecodeToRaw_pcMsgEncodeCode_request :
    pcMsgIdLength (2 ^ 32 - 2) = (pcMsgEncodeId (2 ^ 32 - 2)).length ∧
      ∃ base, pcMsgEncodeCode (2 ^ 32 - 2) .request (300 : Nat) ⟨some ([7] ++ []), 1⟩ =
          .ok ⟨some base, toInt32 base.length⟩ ∧
        base.length = pcMsgCodeSize (2 ^ 32 - 2) .request 1 ∧
          pcMsgDecodeToRaw ⟨64, true⟩ ⟨some base, toInt32 base.length⟩ =
            .ok ⟨2 ^ 32 - 2, .request, true, .code 300, ⟨some [7], 1⟩⟩ :=
  pcMsgDecodeToRaw_pcMsgEncodeCode ⟨64, true⟩ .request (by decide) (by decide) (by
    have few := @length_idBytes_le .request (2 ^ 32 - 2) (by decide)
    have route : MsgType.request.hasRoute = true := rfl
    rw [ite_pcMsgIdLength (by decide), if_pos route, List.length_singleton]
    omega) []

/-- The largest body that an `int` counts leaves no room for the head of its message: the sum of
the lengths is negative, and no block has the size that it stands for. -/
theorem pcMsgEncodeCode_largest {data : Bytes} (largest : data.length = 2 ^ 31 - 1) :
    pcMsgEncodeCode 1 .request (300 : Nat) ⟨some (data ++ []), data.length⟩ = .error .aborted := by
  have encoded := @pcMsgEncodeCode_eq .request 1 data [] (by decide) rfl (300 : Nat)
    (by rw [largest]; decide)
  rw [encoded, if_neg (by rw [largest, length_msgHead]; omega)]

/-- A body that fills an `int` leaves no room for the head. -/
theorem pcMsgEncodeCode_aborts : ¬ ∀ (platform : Platform) (type : MsgType) (id routeCode : Nat)
    (data : Bytes), id < pcInvalidReqId → routeCode < 2 ^ 16 → data.length < 2 ^ 31 →
      ∃ base, pcMsgEncodeCode id type routeCode ⟨some (data ++ []), data.length⟩ =
          .ok ⟨some base, toInt32 base.length⟩ ∧
        base.length = pcMsgCodeSize id type data.length ∧
          pcMsgDecodeToRaw platform ⟨some base, toInt32 base.length⟩ =
            .ok (MsgRaw.ofCode type id routeCode data) := by
  intro claim
  obtain ⟨data, largest⟩ : ∃ data : Bytes, data.length = 2 ^ 31 - 1 :=
    ⟨_, List.length_replicate (a := 7)⟩
  obtain ⟨base, encoded, -⟩ := claim ⟨64, true⟩ .request 1 300 data (by decide) (by decide)
    (by rw [largest]; decide)
  rw [pcMsgEncodeCode_largest largest] at encoded
  cases encoded

/-- The message that stands for a literal route and a body. -/
def MsgRaw.ofRoute (type : MsgType) (id : Nat) (route : CStr) (data : Bytes) : MsgRaw where
  id := type.sentId id
  type := type
  isRouteCompressed := false
  route := .str (some route)
  body := { base := some data, len := data.length }

/-- `pc_msg_encode_route` reports an error, or its output is read back as the message
that it was made from. -/
def RouteKept (platform : Platform) (type : MsgType) (id : Nat) (route : CStr) (data : Bytes) :
    Prop :=
  let encoded := pcMsgEncodeRoute id type route { base := some data, len := data.length }
  encoded = .error .refused ∨ encoded = .ok .failed ∨
    ∃ buf, encoded = .ok buf ∧
      pcMsgDecodeToRaw platform buf = .ok (MsgRaw.ofRoute type id route data)

/-- A block that has been filled is there, and is no longer than what was allocated. -/
theorem pcMsgFill_ok {msgLen : Nat} {head : Bytes} {body buf : PcBuf}
    (filled : pcMsgFill msgLen head body = .ok buf) :
    ∃ base, buf.base = some base ∧ base.length < 2 ^ 63 := by
  rw [pcMsgFill] at filled
  obtain ⟨_, block, filled⟩ := Stop.bind_eq_ok filled
  obtain ⟨data, -, filled⟩ := Stop.bind_eq_ok filled
  have fits : msgLen < 2 ^ 63 := by
    by_contra large
    have none : pcLibMalloc msgLen = .error .aborted := if_neg large
    rw [none] at block
    cases block
  split at filled
  · cases filled
  · next inside =>
      cases filled
      refine ⟨_, rfl, ?_⟩
      rw [List.length_append, List.length_take]
      omega

/-- Filling a block is never refused. -/
theorem pcMsgFill_not_refused (msgLen : Nat) (head : Bytes) (body : PcBuf) :
    pcMsgFill msgLen head body ≠ .error .refused := by
  intro refused
  have block : pcLibMalloc msgLen = .ok () ∨ pcLibMalloc msgLen = .error .aborted := by
    rw [pcLibMalloc]
    split
    · exact .inl rfl
    · exact .inr rfl
  rw [pcMsgFill] at refused
  rcases block with block | block
  · rw [block, Stop.ok_bind] at refused
    dsimp only at refused
    cases found : body.base with
    | none => rw [found] at refused; cases refused
    | some data =>
        rw [found, deref_some, Stop.ok_bind] at refused
        split at refused <;> cases refused
  · rw [block] at refused
    cases refused

/-- `pc_msg_encode_route` reports no error, whatever it is given. -/
theorem pcMsgEncodeRoute_no_report (route : CStr) (body : PcBuf) :
    pcMsgEncodeRoute id type route body ≠ .error .refused ∧
      pcMsgEncodeRoute id type route body ≠ .ok .failed := by
  rw [pcMsgEncodeRoute]
  generalize (if type.hasRoute then route.length % 2 ^ 16 else 0) = routeLen
  by_cases hasRoute : type.hasRoute
  · rw [if_pos hasRoute, pcMsgEncodeRouteStr]
    split
    · exact ⟨(by rintro ⟨⟩), (by rintro ⟨⟩)⟩
    · refine ⟨pcMsgFill_not_refused _ _ body, fun failed => ?_⟩
      obtain ⟨base, there, -⟩ := pcMsgFill_ok failed
      cases there
  · rw [if_neg hasRoute]
    refine ⟨pcMsgFill_not_refused _ _ body, fun failed => ?_⟩
    obtain ⟨base, there, -⟩ := pcMsgFill_ok failed
    cases there

/-- What is returned fits a buffer. -/
theorem pcMsgEncodeRoute_ok {route : CStr} {body buf : PcBuf}
    (encoded : pcMsgEncodeRoute id type route body = .ok buf) :
    ∃ base, buf.base = some base ∧ base.length < 2 ^ 63 := by
  rw [pcMsgEncodeRoute] at encoded
  dsimp only at encoded
  split at encoded
  · obtain ⟨routeBytes, -, filled⟩ := Stop.bind_eq_ok encoded
    exact pcMsgFill_ok filled
  · exact pcMsgFill_ok encoded

/-- A route that has been read is as long as a `char` can say. -/
theorem routeFits_of_decoded {platform : Platform} {data : Bytes} {len offset next : Nat}
    {compressed : Bool} {route : CStr} (bound : data.length < 2 ^ 63)
    (decoded : pcMsgDecodeRoute platform data len offset compressed =
      .ok (.str (some route), next)) : RouteFits platform route := by
  rw [pcMsgDecodeRoute] at decoded
  split at decoded
  · split at decoded
    · obtain ⟨high, -, decoded⟩ := Stop.bind_eq_ok decoded
      obtain ⟨low, -, decoded⟩ := Stop.bind_eq_ok decoded
      cases decoded
    · cases decoded
  split at decoded
  · obtain ⟨char, -, decoded⟩ := Stop.bind_eq_ok decoded
    dsimp only at decoded
    split at decoded
    · obtain ⟨-, -, decoded⟩ := Stop.bind_eq_ok decoded
      split at decoded
      · cases decoded
      · next inside =>
          cases decoded
          have char8 := char.toNat_lt
          -- A negative length byte stands for a length that no block has.
          have sound : ¬ (platform.charSigned = true ∧ 128 ≤ char.toNat) := by
            intro negative
            rw [Platform.charToSize, if_pos negative] at inside
            omega
          rw [Platform.charToSize, if_neg sound]
          have length : (CStr.ofBytes ((data.drop (offset + 1)).take char.toNat)).length ≤
              char.toNat :=
            (List.takeWhile_prefix _).length_le.trans (List.length_take_le ..)
          by_cases signed : platform.charSigned = true
          · exact .inl (by have := not_and.mp sound signed; omega)
          · exact .inr ⟨Bool.eq_false_of_not_eq_true signed, by omega⟩
    · cases decoded
  · cases decoded

/-- The route of a message that has been read, where its type has one. -/
theorem pcMsgDecodeToRaw_route {platform : Platform} {buf : PcBuf} {raw : MsgRaw}
    (decoded : pcMsgDecodeToRaw platform buf = .ok raw) (hasRoute : raw.type.hasRoute) :
    ∃ data offset next, buf.base = some data ∧
      pcMsgDecodeRoute platform data (toUInt64 buf.len) offset raw.isRouteCompressed =
        .ok (raw.route, next) := by
  rw [pcMsgDecodeToRaw] at decoded
  obtain ⟨data, there, decoded⟩ := Stop.bind_eq_ok decoded
  have base : buf.base = some data := by
    cases found : buf.base with
    | none => rw [found] at there; cases there
    | some block => rw [found] at there; cases there; rfl
  dsimp only at decoded
  split at decoded
  · cases decoded
  obtain ⟨flag, -, decoded⟩ := Stop.bind_eq_ok decoded
  split at decoded
  · cases decoded
  · obtain ⟨⟨readId, offset⟩, -, decoded⟩ := Stop.bind_eq_ok decoded
    obtain ⟨⟨route, next⟩, read, decoded⟩ := Stop.bind_eq_ok decoded
    split at decoded
    · cases decoded
    · cases decoded
      rw [pcMsgDecodeRawRoute, if_pos hasRoute] at read
      exact ⟨data, offset, next, base, read⟩

/-- A literal route survives if and only if its length fits a `char` and the length of the whole
message fits an `int`. -/
theorem routeKept_iff (platform : Platform) {type : MsgType} (sent : type = .request ∨ type = .notify)
    {id : Nat} (valid : type = .request → id < pcInvalidReqId) (bound : id < 2 ^ 32) (route : CStr)
    {data : Bytes} (small : data.length < 2 ^ 31) :
    RouteKept platform type id route data ↔ RouteFits platform route ∧
      1 + (if type.hasId then pcMsgIdLength id else 0) + 1 + route.length + data.length <
        2 ^ 31 := by
  have hasRoute : type.hasRoute := by rcases sent with rfl | rfl <;> rfl
  have size : (msgHead type false id (UInt8.ofNat route.length :: route.bytes)).length =
      1 + (if type.hasId then pcMsgIdLength id else 0) + 1 + route.length := by
    have length : route.bytes.length = route.length := rfl
    rw [ite_pcMsgIdLength bound, length_msgHead, List.length_cons, length]
    omega
  constructor
  · intro kept
    obtain ⟨notRefused, notFailed⟩ :=
      @pcMsgEncodeRoute_no_report type id route { base := some data, len := data.length }
    obtain ⟨buf, encoded, decoded⟩ := (kept.resolve_left notRefused).resolve_left notFailed
    obtain ⟨base, there, short⟩ := pcMsgEncodeRoute_ok encoded
    obtain ⟨block, offset, next, same, read⟩ := pcMsgDecodeToRaw_route decoded hasRoute
    obtain rfl := Option.some.inj (there.symm.trans same)
    have fits := routeFits_of_decoded short read
    refine ⟨fits, ?_⟩
    by_contra long
    have aborted := @pcMsgEncodeRoute_eq type id data [] bound hasRoute route fits.short small
    dsimp only at aborted
    rw [List.append_nil, size, if_neg long] at aborted
    exact absurd (aborted.symm.trans encoded) (by simp)
  · rintro ⟨fits, counted⟩
    have short : route.length < 2 ^ 8 := fits.short
    have named : type.hasId → id < pcInvalidReqId := by
      rcases sent with rfl | rfl
      · exact fun _ => valid rfl
      · exact nofun
    have encoded := @pcMsgEncodeRoute_eq type id data [] bound hasRoute route short small
    have back := pcMsgDecodeToRaw_eq platform (MsgType.sentId_lt named) hasRoute
      MsgType.sentId_pushed (readsRoute_of_fits fits)
      (show (UInt8.ofNat route.length :: route.bytes).length ≤ 2 ^ 8 from short) small []
    dsimp only at encoded
    rw [List.append_nil, if_pos (by rw [size]; exact counted)] at encoded
    rw [msgHead_sentId, List.append_nil, List.append_nil] at back
    exact .inr (.inr ⟨_, encoded, back⟩)

/-- A request with a short route. -/
theorem routeKept_short : RouteKept ⟨64, true⟩ .request 1 (.ofString "a") [7] ↔
    RouteFits ⟨64, true⟩ (.ofString "a") ∧
      1 + pcMsgIdLength 1 + 1 + (CStr.ofString "a").length + 1 < 2 ^ 31 :=
  routeKept_iff ⟨64, true⟩ (.inl rfl) (fun _ => by decide) (by decide) (.ofString "a") (by decide)

/-- A route of 128 letters. -/
def longRoute : CStr where
  bytes := List.replicate 128 97
  noZero := fun member => absurd (List.eq_of_mem_replicate member) (by decide)

/-- A request with a route of 128 letters is encoded, and is not read back where `char`
is signed. -/
theorem routeKept_fails_long : ¬ RouteKept ⟨64, true⟩ .request 1 longRoute [7] := by
  have encoded : pcMsgEncodeRoute 1 .request longRoute ⟨some [7], 1⟩ =
      .ok ⟨some (0 :: 1 :: 128 :: (longRoute.bytes ++ [7])), 132⟩ := by decide +kernel
  have decoded : pcMsgDecodeToRaw ⟨64, true⟩
      ⟨some (0 :: 1 :: 128 :: (longRoute.bytes ++ [7])), 132⟩ = .error .refused := by
    decide +kernel
  rintro (refused | failed | ⟨buf, written, read⟩)
  · exact absurd (encoded.symm.trans refused) nofun
  · exact absurd (encoded.symm.trans failed) (by decide +kernel)
  · obtain rfl := Except.ok.inj (encoded.symm.trans written)
    exact absurd (decoded.symm.trans read) nofun

end Pomelo
