import Pomelo.Message.Format

/-!
# The round trip below the bodies

What the two encoders of `pr_msg.c` write in front of a body, and that
`pc_msg_decode_to_raw` reads it back, whatever memory follows. A route code is
read back modulo 2^16, since only two bytes of it are written.
-/

namespace Pomelo

/-- The id is encoded in base 128. -/
theorem pcMsgEncodeId_eq_leb128 (id : Nat) : pcMsgEncodeId id = Codec.leb128 id := by
  induction id using Nat.strongRecOn with
  | ind id ih =>
      have low : id &&& 0x7F = id % 128 := Nat.and_two_pow_sub_one_eq_mod id 7
      have high : id >>> 7 = id / 128 := Nat.shiftRight_eq_div_pow id 7
      rw [pcMsgEncodeId]
      simp only [low, high]
      by_cases small : id < 128
      · rw [Codec.leb128_of_lt small, if_neg (by omega), Nat.mod_eq_of_lt small]
      · rw [Codec.leb128_of_le (Nat.le_of_not_lt small), if_pos (by omega), ih _ (by omega)]

/-- The length that is allocated for an id is the length that is written. -/
theorem pcMsgIdLength_eq {id : Nat} (bound : id < 2 ^ 32) :
    pcMsgIdLength id = (pcMsgEncodeId id).length := by
  rw [pcMsgEncodeId_eq_leb128]
  induction id using Nat.strongRecOn with
  | ind id ih =>
      have high : id >>> 7 = id / 128 := Nat.shiftRight_eq_div_pow id 7
      rw [pcMsgIdLength, high]
      by_cases small : id < 128
      · rw [Codec.leb128_of_lt small, if_neg (by omega), List.length_singleton]
      · have digits : (Codec.leb128 (id / 128)).length ≤ 4 + 1 := Codec.length_leb128_le (by omega)
        rw [Codec.leb128_of_le (Nat.le_of_not_lt small), if_pos (by omega), ih _ (by omega) (by omega),
          List.length_cons]
        omega

/-- An id is read above the digits that are there already. -/
theorem pcMsgDecodeId_leb128 {len offset i id value : Nat} (aligned : 7 * i < 32)
    (bound : id + value * 2 ^ (7 * i) < 2 ^ 32)
    (within : offset + (Codec.leb128 value).length ≤ len) (rest : Bytes) :
    pcMsgDecodeId len (Codec.leb128 value ++ rest) offset i id =
      .ok (id + value * 2 ^ (7 * i), offset + (Codec.leb128 value).length) := by
  induction value using Nat.strongRecOn generalizing offset i id with
  | ind value ih =>
      by_cases small : value < 128
      · obtain ⟨digit, last⟩ := Codec.last_digit_bits small
        rw [Codec.leb128_of_lt small] at within ⊢
        rw [List.length_singleton] at within ⊢
        rw [List.singleton_append, pcMsgDecodeId, if_pos (by omega)]
        simp only [digit, last, Nat.shiftLeft_eq, Nat.mod_eq_of_lt aligned, Nat.mod_eq_of_lt bound,
          ne_eq, not_true_eq_false, if_false]
        rfl
      · have large := Nat.le_of_not_lt small
        obtain ⟨digit, marked⟩ := Codec.marked_digit_bits (Nat.mod_lt value (by decide : 0 < 128))
        rw [Codec.leb128_of_le large] at within ⊢
        rw [List.length_cons] at within ⊢
        -- The digits above the first stand for the rest of the value.
        have power : 2 ^ (7 * (i + 1)) = 128 * 2 ^ (7 * i) := by
          rw [Nat.mul_add, Nat.pow_add, Nat.mul_comm]
        have parts : value % 128 * 2 ^ (7 * i) + value / 128 * 2 ^ (7 * (i + 1)) =
            value * 2 ^ (7 * i) := by
          rw [power, ← Nat.mul_assoc, ← Nat.add_mul, Nat.mul_comm _ 128, Nat.mod_add_div]
        have next : 7 * (i + 1) < 32 := by
          have top : 1 * 2 ^ (7 * (i + 1)) ≤ value / 128 * 2 ^ (7 * (i + 1)) :=
            Nat.mul_le_mul_right _ (by omega)
          rw [← Nat.pow_lt_pow_iff_right (by decide : 1 < 2)]
          omega
        have sum : (id + value % 128 * 2 ^ (7 * i)) % 2 ^ 32 = id + value % 128 * 2 ^ (7 * i) :=
          Nat.mod_eq_of_lt (by omega)
        rw [List.cons_append, pcMsgDecodeId, if_pos (by omega)]
        simp only [digit, marked, Nat.shiftLeft_eq, Nat.mod_eq_of_lt aligned, sum, ne_eq,
          not_false_eq_true, if_true]
        rw [ih (value / 128) (by omega) next (by omega) (by omega), Nat.add_assoc, parts,
          Nat.add_assoc, Nat.add_comm 1]

/-- Bytes that are read as a route, wherever they are and whatever follows. -/
def ReadsRoute (platform : Platform) (compressed : Bool) (bytes : Bytes) (route : RawRoute) : Prop :=
  ∀ before rest len, before.length < 2 ^ 32 → before.length + bytes.length ≤ len → len < 2 ^ 64 →
    pcMsgDecodeRoute platform (before ++ bytes ++ rest) len before.length compressed =
      .ok (route, before.length + bytes.length)

theorem byteAt_append (before : Bytes) (byte : UInt8) (rest : Bytes) :
    byteAt (before ++ byte :: rest) before.length = .ok byte := by
  rw [byteAt, List.getElem?_append_right (Nat.le_refl _), Nat.sub_self]
  rfl

/-- The two bytes of a route code. -/
def routeCodeBytes (code : Int) : Bytes :=
  [UInt8.ofNat (code / 2 ^ 8 % 2 ^ 8).toNat, UInt8.ofNat (code % 2 ^ 8).toNat]

/-- A route code is read back in two bytes. -/
theorem readsRoute_code (platform : Platform) (code : Int) :
    ReadsRoute platform true (routeCodeBytes code) (.code (code % 2 ^ 16).toNat) := by
  intro before rest len position inside bound
  have value : (UInt8.ofNat (code / 2 ^ 8 % 2 ^ 8).toNat).toNat <<< 8 |||
      (UInt8.ofNat (code % 2 ^ 8).toNat).toNat = (code % 2 ^ 16).toNat := by
    have small : (UInt8.ofNat (code % 2 ^ 8).toNat).toNat < 2 ^ 8 := UInt8.toNat_lt _
    rw [Nat.or_comm, Codec.or_shiftLeft_eq_add small, UInt8.toNat_ofNat', UInt8.toNat_ofNat']
    omega
  rw [routeCodeBytes] at inside ⊢
  rw [List.length_cons, List.length_singleton] at inside
  generalize UInt8.ofNat (code / 2 ^ 8 % 2 ^ 8).toNat = high at value
  generalize UInt8.ofNat (code % 2 ^ 8).toNat = low at value
  have first : byteAt (before ++ [high, low] ++ rest) before.length = .ok high := by
    rw [List.append_assoc]
    exact byteAt_append before high (low :: rest)
  have second : byteAt (before ++ [high, low] ++ rest) (before.length + 1) = .ok low := by
    have found := byteAt_append (before ++ [high]) low rest
    rw [List.append_assoc] at found ⊢
    rwa [List.length_append] at found
  rw [pcMsgDecodeRoute, if_pos rfl, if_pos (by omega), first, Stop.ok_bind, second, Stop.ok_bind,
    value]
  rfl

/-- A route whose length is read back from the one byte it is written in. -/
def RouteFits (platform : Platform) (route : CStr) : Prop :=
  route.length < 128 ∨ platform.charSigned = false ∧ route.length < 256

/-- A route that fits has a length of one byte. -/
theorem RouteFits.short {platform : Platform} {route : CStr} (fits : RouteFits platform route) :
    route.length < 2 ^ 8 := by
  rcases fits with ascii | ⟨-, byte⟩ <;> omega

/-- A route that fits is read back from its length and its letters. -/
theorem readsRoute_of_fits {platform : Platform} {route : CStr} (fits : RouteFits platform route) :
    ReadsRoute platform false (UInt8.ofNat route.length :: route.bytes) (.str (some route)) := by
  intro before rest len position inside bound
  have length : route.bytes.length = route.length := rfl
  have short : route.length < 256 := by
    rcases fits with ascii | ⟨-, byte⟩ <;> omega
  have size : platform.charToSize (UInt8.ofNat route.length) = route.length := by
    have char : (UInt8.ofNat route.length).toNat = route.length := by
      rw [UInt8.toNat_ofNat']
      omega
    rw [Platform.charToSize, char, if_neg]
    rintro ⟨signed, large⟩
    rcases fits with ascii | ⟨unsigned, -⟩
    · omega
    · exact absurd (unsigned.symm.trans signed) Bool.false_ne_true
  rw [List.append_assoc, List.cons_append]
  rw [List.length_cons] at inside ⊢
  have text : ((before ++ UInt8.ofNat route.length :: (route.bytes ++ rest)).drop
      (before.length + 1)).take route.length = route.bytes := by
    rw [List.drop_append, List.drop_eq_nil_of_le (Nat.le_add_right _ _), Nat.add_sub_cancel_left,
      List.nil_append, List.drop_succ_cons, List.drop_zero]
    exact List.take_left
  rw [pcMsgDecodeRoute, if_neg Bool.false_ne_true, if_pos (by omega), byteAt_append, Stop.ok_bind]
  simp only [size]
  rw [if_pos (by omega), pcLibMalloc, if_pos (by omega)]
  change (if _ then _ else _) = _
  rw [if_neg (by simp only [List.length_append, List.length_cons]; omega), text,
    CStr.ofBytes_bytes, length, Nat.add_assoc, Nat.add_comm 1]
  rfl

/-- Up to 127 letters fit on every platform. -/
theorem readsRoute_str (platform : Platform) {route : CStr} (short : route.length ≤ 127) :
    ReadsRoute platform false (UInt8.ofNat route.length :: route.bytes) (.str (some route)) :=
  readsRoute_of_fits (.inl (Nat.lt_succ_of_le short))

/-- Bytes that are read as the route of a message of a type, which may have none. -/
def ReadsRawRoute (platform : Platform) (type : MsgType) (compressed : Bool) (bytes : Bytes)
    (route : RawRoute) : Prop :=
  ∀ before rest len, before.length < 2 ^ 32 → before.length + bytes.length ≤ len → len < 2 ^ 64 →
    pcMsgDecodeRawRoute platform type (before ++ bytes ++ rest) len before.length compressed =
      .ok (route, before.length + bytes.length)

/-- Where a route is expected it is read. -/
theorem ReadsRoute.raw {platform : Platform} {type : MsgType} (hasRoute : type.hasRoute)
    {compressed : Bool} {bytes : Bytes} {route : RawRoute}
    (reads : ReadsRoute platform compressed bytes route) :
    ReadsRawRoute platform type compressed bytes route := by
  intro before rest len position inside bound
  rw [pcMsgDecodeRawRoute, if_pos hasRoute]
  exact reads before rest len position inside bound

/-- Where none is expected nothing is read. -/
theorem readsRawRoute_none (platform : Platform) {type : MsgType} (noRoute : ¬ type.hasRoute)
    (compressed : Bool) :
    ReadsRawRoute platform type compressed [] (if compressed then .code 0 else .str none) := by
  intro before rest len position inside bound
  rw [pcMsgDecodeRawRoute, if_neg noRoute]
  rfl

/-- The flag byte gives back the type and the compression of the route. -/
theorem flag_pcMsgEncodeFlag (type : MsgType) (compressed : Bool) :
    MsgType.ofCode? (pcMsgEncodeFlag type compressed >>> 1).toNat = some type ∧
      decide (pcMsgEncodeFlag type compressed &&& 0x01 ≠ 0) = compressed := by
  cases type <;> cases compressed <;> decide

/-- The digits of an id, of a type that has one. -/
def idBytes (type : MsgType) (id : Nat) : Bytes := if type.hasId then Codec.leb128 id else []

/-- What precedes the body of a message with a route. -/
def msgHead (type : MsgType) (compressed : Bool) (id : Nat) (routeBytes : Bytes) : Bytes :=
  pcMsgEncodeFlag type compressed :: (idBytes type id ++ routeBytes)

variable {type : MsgType} {id : Nat}

/-- An id takes five bytes at most. -/
theorem length_idBytes_le (bound : id < 2 ^ 32) : (idBytes type id).length ≤ 5 := by
  rw [idBytes]
  split
  · exact Codec.length_leb128_le (show id < 128 ^ (4 + 1) by omega)
  · exact Nat.zero_le _

/-- The head is the flag, the id and the route. -/
theorem length_msgHead (compressed : Bool) (routeBytes : Bytes) :
    (msgHead type compressed id routeBytes).length =
      1 + (idBytes type id).length + routeBytes.length := by
  rw [msgHead, List.length_cons, List.length_append]
  omega

theorem toUInt64_length {data : Bytes} (small : data.length < 2 ^ 31) :
    toUInt64 (data.length : Int) = data.length := by
  rw [toUInt64]
  omega

/-- A size that an `int` counts is the size of the block that is allocated for it. -/
theorem toUInt64_counted {size : Nat} (counted : size < 2 ^ 31) :
    toUInt64 (toInt32 size) = size := by
  rw [toUInt64, toInt32]
  omega

/-- A block is filled with a head and a body if an `int` counts both; if not, no block can have the
size that the sum stands for. -/
theorem pcMsgFill_eq {head data unused : Bytes} (short : head.length < 2 ^ 16)
    (small : data.length < 2 ^ 31) :
    pcMsgFill (toUInt64 (toInt32 (head.length + data.length : Nat))) head
        ⟨some (data ++ unused), data.length⟩ =
      if head.length + data.length < 2 ^ 31 then
        .ok ⟨some (head ++ data), toInt32 (head.length + data.length : Nat)⟩
      else .error .aborted := by
  by_cases counted : head.length + data.length < 2 ^ 31
  · have total := toUInt64_counted counted
    have count := toUInt64_length small
    have body : (data ++ unused).take data.length = data := List.take_left
    rw [if_pos counted, total, pcMsgFill, pcLibMalloc, if_pos (by omega)]
    simp only [count]
    change (if _ then _ else _) = _
    rw [if_neg (by simp only [List.length_append]; omega), body]
    rfl
  · have huge : ¬ toUInt64 (toInt32 (head.length + data.length : Nat)) < 2 ^ 63 := by
      rw [toUInt64, toInt32]
      omega
    rw [if_neg counted, pcMsgFill, pcLibMalloc, if_neg huge]
    rfl

/-- What has been returned was not an error. -/
theorem Stop.ok_of_ite {α : Type} {stop : Stop} {counted : Prop} [Decidable counted]
    {value result : α} (ended : (if counted then Except.ok value else .error stop) = .ok result) :
    value = result := by
  split at ended
  · exact Except.ok.inj ended
  · cases ended

variable {data unused : Bytes}

theorem ite_pcMsgEncodeId :
    (if type.hasId = true then pcMsgEncodeId id else []) = idBytes type id := by
  rw [pcMsgEncodeId_eq_leb128]
  rfl

theorem ite_pcMsgIdLength (bound : id < 2 ^ 32) :
    (if type.hasId = true then pcMsgIdLength id else 0) = (idBytes type id).length := by
  rw [pcMsgIdLength_eq bound, pcMsgEncodeId_eq_leb128, idBytes]
  split <;> rfl

/-- `pc_msg_encode_code` encodes the head and the body, unless the sum leaves the `int`. -/
theorem pcMsgEncodeCode_eq (bound : id < 2 ^ 32) (hasRoute : type.hasRoute) (code : Int)
    (small : data.length < 2 ^ 31) :
    pcMsgEncodeCode id type code ⟨some (data ++ unused), data.length⟩ =
      if (msgHead type true id (routeCodeBytes code)).length + data.length < 2 ^ 31 then
        .ok ⟨some (msgHead type true id (routeCodeBytes code) ++ data),
          toInt32 ((msgHead type true id (routeCodeBytes code)).length + data.length : Nat)⟩
      else .error .aborted := by
  have digits : (idBytes type id).length ≤ 5 := length_idBytes_le bound
  have size : (msgHead type true id (routeCodeBytes code)).length =
      1 + (idBytes type id).length + 2 := length_msgHead true (routeCodeBytes code)
  rw [pcMsgEncodeCode, ite_pcMsgEncodeId, ite_pcMsgIdLength bound, if_pos hasRoute, if_pos hasRoute,
    ← size, ← Nat.cast_add]
  exact pcMsgFill_eq (by omega) small

/-- `pc_msg_encode_route` does the same with a route of letters. -/
theorem pcMsgEncodeRoute_eq (bound : id < 2 ^ 32) (hasRoute : type.hasRoute) {route : CStr}
    (short : route.length < 2 ^ 8) (small : data.length < 2 ^ 31) :
    let routeBytes := UInt8.ofNat route.length :: route.bytes
    pcMsgEncodeRoute id type route ⟨some (data ++ unused), data.length⟩ =
      if (msgHead type false id routeBytes).length + data.length < 2 ^ 31 then
        .ok ⟨some (msgHead type false id routeBytes ++ data),
          toInt32 ((msgHead type false id routeBytes).length + data.length : Nat)⟩
      else .error .aborted := by
  intro routeBytes
  have length : route.bytes.length = route.length := rfl
  have digits : (idBytes type id).length ≤ 5 := length_idBytes_le bound
  have size : (msgHead type false id routeBytes).length =
      1 + (idBytes type id).length + (route.length + 1) := length_msgHead false routeBytes
  have low : route.length &&& 0xFF = route.length := by
    rw [show 0xFF = 2 ^ 8 - 1 from rfl, Nat.and_two_pow_sub_one_eq_mod, Nat.mod_eq_of_lt short]
  have written : pcMsgEncodeRouteStr route route.length = .ok routeBytes := by
    rw [pcMsgEncodeRouteStr, if_neg (by omega), low]
    rw [List.take_append_of_le_length (Nat.le_of_eq length.symm), ← length, List.take_length]
    rfl
  have total : 1 + (idBytes type id).length + 1 + route.length =
      (msgHead type false id routeBytes).length := by omega
  rw [pcMsgEncodeRoute, ite_pcMsgEncodeId, ite_pcMsgIdLength bound, if_pos hasRoute, if_pos hasRoute,
    Nat.mod_eq_of_lt (Nat.lt_trans short (by decide)), written, total, ← Nat.cast_add,
    Stop.ok_bind]
  exact pcMsgFill_eq (by omega) small

/-- A length below 2^32 may come out of an `int` as an enormous one, but it is right
modulo 2^32. -/
theorem toUInt64_toInt32 {size : Nat} (bound : size < 2 ^ 32) :
    toUInt64 (toInt32 size) % 2 ^ 32 = size ∧ size ≤ toUInt64 (toInt32 size) ∧
      toUInt64 (toInt32 size) < 2 ^ 64 := by
  rw [toUInt64, toInt32]
  omega

/-- The digits behind the flag are read back, of a type that has an id. -/
theorem pcMsgDecodeRawId_eq (bound : id < 2 ^ 32) (pushed : ¬ type.hasId → id = pcNotifyPushReqId)
    {len : Nat} (inside : 1 + (idBytes type id).length ≤ len) (flag : UInt8) (rest : Bytes) :
    pcMsgDecodeRawId type (flag :: (idBytes type id ++ rest)) len =
      .ok (id, 1 + (idBytes type id).length) := by
  rw [idBytes] at inside ⊢
  rw [pcMsgDecodeRawId, List.drop_succ_cons, List.drop_zero]
  split
  · next hasId =>
      rw [if_pos hasId] at inside
      have read := pcMsgDecodeId_leb128 (by decide) (show 0 + id * 2 ^ (7 * 0) < 2 ^ 32 by omega)
        inside rest
      rwa [Nat.mul_zero, Nat.pow_zero, Nat.mul_one, Nat.zero_add] at read
  · next hasId =>
      rw [pushed hasId]
      rfl

/-- The decoder reads back a head and a body, whatever memory follows them. -/
theorem pcMsgDecodeToRaw_reads (platform : Platform) (valid : id < pcInvalidReqId)
    (pushed : ¬ type.hasId → id = pcNotifyPushReqId)
    {compressed : Bool} {routeBytes : Bytes} {route : RawRoute}
    (reads : ReadsRawRoute platform type compressed routeBytes route) (short : routeBytes.length ≤ 2 ^ 8)
    (small : data.length < 2 ^ 31) (rest : Bytes) :
    pcMsgDecodeToRaw platform ⟨some (msgHead type compressed id routeBytes ++ data ++ rest),
      toInt32 ((msgHead type compressed id routeBytes).length + data.length : Nat)⟩ =
      .ok ⟨id, type, compressed, route, ⟨some (data ++ rest), data.length⟩⟩ := by
  have bound : id < 2 ^ 32 := Nat.lt_trans valid (by decide)
  have digits : (idBytes type id).length ≤ 5 := length_idBytes_le bound
  have size : (msgHead type compressed id routeBytes).length =
      1 + (idBytes type id).length + routeBytes.length := length_msgHead compressed routeBytes
  obtain ⟨known, mark⟩ := flag_pcMsgEncodeFlag type compressed
  obtain ⟨low, high, wide⟩ := toUInt64_toInt32
    (show (msgHead type compressed id routeBytes).length + data.length < 2 ^ 32 by omega)
  rw [pcMsgDecodeToRaw, deref_some, Stop.ok_bind]
  generalize toUInt64 _ = len at low high wide
  have left : toInt32 (((len + (2 ^ 64 - (1 + (idBytes type id).length + routeBytes.length))) %
      2 ^ 64 : Nat) : Int) = data.length := by
    rw [toInt32]
    omega
  -- The flag stands before the id, both before the route, and all of them before the body.
  have behindFlag : msgHead type compressed id routeBytes ++ data ++ rest =
      pcMsgEncodeFlag type compressed :: (idBytes type id ++ (routeBytes ++ data ++ rest)) := by
    simp only [msgHead, List.cons_append, List.append_assoc]
  have behindId : pcMsgEncodeFlag type compressed :: idBytes type id ++ routeBytes ++ (data ++ rest) =
      pcMsgEncodeFlag type compressed :: (idBytes type id ++ (routeBytes ++ data ++ rest)) := by
    simp only [List.cons_append, List.append_assoc]
  have idEnd : (pcMsgEncodeFlag type compressed :: idBytes type id).length =
      1 + (idBytes type id).length := by rw [List.length_cons, Nat.add_comm]
  have body : (pcMsgEncodeFlag type compressed ::
      (idBytes type id ++ (routeBytes ++ data ++ rest))).drop
        (1 + (idBytes type id).length + routeBytes.length) = data ++ rest := by
    rw [← behindId, ← idEnd, ← List.length_append]
    exact List.drop_left
  have readId := pcMsgDecodeRawId_eq bound pushed (show 1 + (idBytes type id).length ≤ len by omega)
    (pcMsgEncodeFlag type compressed) (routeBytes ++ data ++ rest)
  have readRoute := reads (pcMsgEncodeFlag type compressed :: idBytes type id) (data ++ rest) len
    (by omega) (by omega) wide
  rw [behindId, idEnd] at readRoute
  have first : byteAt (pcMsgEncodeFlag type compressed ::
      (idBytes type id ++ (routeBytes ++ data ++ rest))) 0 =
        .ok (pcMsgEncodeFlag type compressed) := rfl
  rw [behindFlag, if_neg (by omega)]
  change (byteAt _ 0 >>= _) = _
  rw [first, Stop.ok_bind, known]
  simp only [readId, Stop.ok_bind, mark, readRoute, body, left]
  change (if _ then _ else _) = _
  rw [if_neg (Nat.ne_of_lt valid)]
  rfl

/-- The decoder reads back a message with a route, whatever memory follows it. -/
theorem pcMsgDecodeToRaw_eq (platform : Platform) (valid : id < pcInvalidReqId)
    (hasRoute : type.hasRoute) (pushed : ¬ type.hasId → id = pcNotifyPushReqId)
    {compressed : Bool} {routeBytes : Bytes} {route : RawRoute}
    (reads : ReadsRoute platform compressed routeBytes route) (short : routeBytes.length ≤ 2 ^ 8)
    (small : data.length < 2 ^ 31) (rest : Bytes) :
    pcMsgDecodeToRaw platform ⟨some (msgHead type compressed id routeBytes ++ data ++ rest),
      toInt32 ((msgHead type compressed id routeBytes).length + data.length : Nat)⟩ =
      .ok ⟨id, type, compressed, route, ⟨some (data ++ rest), data.length⟩⟩ :=
  pcMsgDecodeToRaw_reads platform valid pushed (reads.raw hasRoute) short small rest

end Pomelo
