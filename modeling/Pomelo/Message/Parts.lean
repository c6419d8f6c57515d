import Pomelo.Message.Codec

/-!
# The parts of a message

A message as a division of its bytes: a type, the digits of an id, a route and a body.
The division does not look at the code, and there is none for bytes that are no message.
The decoder of `pr_msg.c` finds these parts as long as an id has at most five digits and
the length byte of a route is not taken for a negative number.
-/

namespace Pomelo

/-- The bytes of an id, as far as they are there: the marked ones, and the one that ends
them. -/
def idDigits (bytes : Bytes) : Bytes :=
  bytes.takeWhile (fun byte => 128 ≤ byte.toNat) ++
    (bytes.dropWhile fun byte => 128 ≤ byte.toNat).take 1

/-- The last byte of an id is there. -/
def idEnds (bytes : Bytes) : Bool := bytes.any fun byte => byte.toNat < 128

/-- The value of the digits of an id. -/
def idValue : (digits : Bytes) → Nat
  | [] => 0
  | digit :: digits => digit.toNat % 128 + 128 * idValue digits

/-- The distances that the loop of `pc_msg_decode_to_raw` shifts the bytes of an id by. -/
def pcMsgIdShifts (len : Nat) : (data : Bytes) → (offset i : Nat) → List Nat
  | [], _, _ => []
  | m :: data, offset, i =>
      if offset < len then
        7 * i :: if m &&& 0x80 ≠ 0 then pcMsgIdShifts len data (offset + 1) (i + 1) else []
      else []

/-- The mark of a byte is its highest bit. -/
theorem and_mark_ne_zero (byte : UInt8) : byte &&& 0x80 ≠ 0 ↔ 128 ≤ byte.toNat := by
  have every : ∀ value : Fin 256, UInt8.ofNat value &&& 0x80 ≠ 0 ↔ 128 ≤ value.val := by
    decide +kernel
  have this := every ⟨byte.toNat, byte.toNat_lt⟩
  rwa [UInt8.ofNat_toNat] at this

/-- The other bits are the digit. -/
theorem and_digit (byte : UInt8) : (byte &&& 0x7F).toNat = byte.toNat % 128 := by
  rw [UInt8.toNat_and]
  exact Nat.and_two_pow_sub_one_eq_mod byte.toNat 7

/-- Behind a marked byte the id goes on. -/
theorem idDigits_cons_of_le {byte : UInt8} (marked : 128 ≤ byte.toNat) (bytes : Bytes) :
    idDigits (byte :: bytes) = byte :: idDigits bytes := by
  rw [idDigits, List.takeWhile_cons_of_pos (by simpa using marked),
    List.dropWhile_cons_of_pos (by simpa using marked), List.cons_append]
  rfl

/-- A byte without the mark is the last one. -/
theorem idDigits_cons_of_lt {byte : UInt8} (last : byte.toNat < 128) (bytes : Bytes) :
    idDigits (byte :: bytes) = [byte] := by
  rw [idDigits, List.takeWhile_cons_of_neg (by simpa using last),
    List.dropWhile_cons_of_neg (by simpa using last)]
  rfl

theorem idEnds_cons_of_le {byte : UInt8} (marked : 128 ≤ byte.toNat) (bytes : Bytes) :
    idEnds (byte :: bytes) = idEnds bytes := by
  rw [idEnds, List.any_cons, decide_eq_false (Nat.not_lt_of_le marked), Bool.false_or]
  rfl

theorem idEnds_cons_of_lt {byte : UInt8} (last : byte.toNat < 128) (bytes : Bytes) :
    idEnds (byte :: bytes) = true := by
  rw [idEnds, List.any_cons, decide_eq_true last, Bool.true_or]

/-- The digits of an id are at its front. -/
theorem idDigits_isPrefix (bytes : Bytes) : idDigits bytes <+: bytes := by
  induction bytes with
  | nil => exact List.prefix_refl _
  | cons byte bytes ih =>
      by_cases marked : 128 ≤ byte.toNat
      · rw [idDigits_cons_of_le marked]
        exact (List.prefix_cons_inj byte).mpr ih
      · rw [idDigits_cons_of_lt (Nat.lt_of_not_le marked)]
        exact ⟨bytes, rfl⟩

/-- An id that does not end takes all bytes. -/
theorem length_idDigits_of_not_idEnds {bytes : Bytes} (unfinished : idEnds bytes = false) :
    (idDigits bytes).length = bytes.length := by
  induction bytes with
  | nil => rfl
  | cons byte bytes ih =>
      by_cases marked : 128 ≤ byte.toNat
      · rw [idEnds_cons_of_le marked] at unfinished
        rw [idDigits_cons_of_le marked, List.length_cons, List.length_cons, ih unfinished]
      · rw [idEnds_cons_of_lt (Nat.lt_of_not_le marked)] at unfinished
        exact absurd unfinished.symm Bool.false_ne_true

/-- The loop shifts one byte after the other by seven bits more. -/
theorem pcMsgIdShifts_eq {len offset : Nat} (i : Nat) (bytes : Bytes)
    (inside : len = offset + bytes.length) :
    pcMsgIdShifts len bytes offset i =
      (List.range' i (idDigits bytes).length).map fun i => 7 * i := by
  induction bytes generalizing offset i with
  | nil => rfl
  | cons byte bytes ih =>
      rw [List.length_cons] at inside
      rw [pcMsgIdShifts, if_pos (by omega)]
      by_cases marked : 128 ≤ byte.toNat
      · rw [if_pos ((and_mark_ne_zero byte).mpr marked), ih (i + 1) (by omega),
          idDigits_cons_of_le marked, List.length_cons, List.range'_succ, List.map_cons]
      · rw [if_neg (fun mark => marked ((and_mark_ne_zero byte).mp mark)),
          idDigits_cons_of_lt (Nat.lt_of_not_le marked)]
        rfl

/-- No byte is shifted out of an `int` if and only if there are at most five. -/
theorem pcMsgIdShifts_lt_iff {len offset : Nat} (bytes : Bytes)
    (inside : len = offset + bytes.length) :
    (∀ shift ∈ pcMsgIdShifts len bytes offset 0, shift < 32) ↔ (idDigits bytes).length ≤ 5 := by
  rw [pcMsgIdShifts_eq 0 bytes inside]
  simp only [List.forall_mem_map, List.mem_range'_1, Nat.zero_le, true_and, Nat.zero_add]
  constructor
  · intro small
    by_contra long
    have fifth := small 5 (by omega)
    omega
  · intro short i within
    omega

/-- An id of at most five digits is read as its value modulo 2^32. -/
theorem pcMsgDecodeId_eq {len offset : Nat} (i id : Nat) (bytes : Bytes)
    (inside : len = offset + bytes.length) (short : i + (idDigits bytes).length ≤ 5) :
    pcMsgDecodeId len bytes offset i id =
      if idEnds bytes then
        .ok ((id + idValue (idDigits bytes) * 2 ^ (7 * i)) % 2 ^ 32,
          offset + (idDigits bytes).length)
      else .error .refused := by
  induction bytes generalizing offset i id with
  | nil =>
      rw [List.length_nil] at inside
      rw [pcMsgDecodeId, if_neg (by omega)]
      rfl
  | cons byte bytes ih =>
      rw [List.length_cons] at inside
      rw [pcMsgDecodeId, if_pos (by omega)]
      dsimp only
      rw [and_digit, Nat.shiftLeft_eq]
      by_cases marked : 128 ≤ byte.toNat
      · rw [idDigits_cons_of_le marked] at short ⊢
        rw [List.length_cons] at short
        have power : 2 ^ (7 * (i + 1)) = 128 * 2 ^ (7 * i) := by
          rw [Nat.mul_add, Nat.pow_add, Nat.mul_comm]
        have value : ((id + byte.toNat % 128 * 2 ^ (7 * i)) % 2 ^ 32 +
            idValue (idDigits bytes) * 2 ^ (7 * (i + 1))) % 2 ^ 32 =
              (id + idValue (byte :: idDigits bytes) * 2 ^ (7 * i)) % 2 ^ 32 := by
          rw [Nat.mod_add_mod, idValue, power, Nat.add_mul, ← Nat.add_assoc, ← Nat.mul_assoc,
            Nat.mul_comm 128]
        rw [if_pos ((and_mark_ne_zero byte).mpr marked), Nat.mod_eq_of_lt (by omega : 7 * i < 32),
          ih (i + 1) _ (by omega) (by omega), idEnds_cons_of_le marked, value, List.length_cons,
          Nat.add_assoc, Nat.add_comm 1]
      · have last := Nat.lt_of_not_le marked
        rw [idDigits_cons_of_lt last] at short ⊢
        rw [List.length_singleton] at short
        rw [if_neg (fun mark => marked ((and_mark_ne_zero byte).mp mark)),
          Nat.mod_eq_of_lt (by omega : 7 * i < 32), idEnds_cons_of_lt last, idValue, idValue]
        rfl

/-- A length byte that is not taken for a negative number, or for one that reaches before
the block. -/
def LengthSound (platform : Platform) (offset : Nat) (char : UInt8) : Prop :=
  platform.charSigned = true → char.toNat < 128 ∨ offset + char.toNat < 256

/-- A route and the body behind it. -/
def splitRoute (platform : Platform) : (compressed : Bool) → Bytes → Option (RawRoute × Bytes)
  | true, high :: low :: body => some (.code (high.toNat * 2 ^ 8 + low.toNat), body)
  | false, char :: rest =>
      if (platform.charSigned → char.toNat < 128) ∧ char.toNat ≤ rest.length then
        some (.str (some (.ofBytes (rest.take char.toNat))), rest.drop char.toNat)
      else none
  | _, _ => none

/-- A route is read where the message has one. -/
theorem pcMsgDecodeRoute_eq {platform : Platform} {compressed : Bool} {data behind : Bytes}
    {offset : Nat} (rest : data.drop offset = behind) (within : offset ≤ data.length)
    (positive : 0 < offset) (low : offset < 2 ^ 8) (bound : data.length < 2 ^ 31)
    (sound : compressed = false → ∀ char ∈ behind.head?, LengthSound platform offset char) :
    pcMsgDecodeRoute platform data data.length offset compressed =
      match splitRoute platform compressed behind with
      | some (route, body) => .ok (route, data.length - body.length)
      | none => .error .refused := by
  have size : data.length = offset + behind.length := by
    rw [← rest, List.length_drop]
    omega
  have at_ (index : Nat) : data[offset + index]? = behind[index]? := by
    rw [← rest, List.getElem?_drop]
  rw [pcMsgDecodeRoute]
  cases compressed with
  | true =>
      rw [if_pos rfl]
      match behind, size, at_ with
      | [], size, _ => rw [if_neg (by rw [size, List.length_nil]; omega)]; rfl
      | [_], size, _ => rw [if_neg (by rw [size, List.length_singleton]; omega)]; rfl
      | high :: second :: body, size, at_ =>
          rw [List.length_cons, List.length_cons] at size
          have first : byteAt data offset = .ok high := by
            rw [byteAt, ← Nat.add_zero offset, at_ 0]
            rfl
          have next : byteAt data (offset + 1) = .ok second := by
            rw [byteAt, at_ 1]
            rfl
          have code : high.toNat <<< 8 ||| second.toNat = high.toNat * 2 ^ 8 + second.toNat := by
            rw [Nat.or_comm, Codec.or_shiftLeft_eq_add (UInt8.toNat_lt second), Nat.add_comm]
          rw [if_pos (by omega), first, Stop.ok_bind, next, Stop.ok_bind, code]
          dsimp only [splitRoute]
          rw [size, show offset + (body.length + 1 + 1) - body.length = offset + 2 by omega]
          rfl
  | false =>
      rw [if_neg Bool.false_ne_true]
      match behind, size, at_, rest, sound rfl with
      | [], size, _, _, _ => rw [if_neg (by rw [size, List.length_nil]; omega)]; rfl
      | char :: text, size, at_, rest, sound =>
          rw [List.length_cons] at size
          have first : byteAt data offset = .ok char := by
            rw [byteAt, ← Nat.add_zero offset, at_ 0]
            rfl
          have small := UInt8.toNat_lt char
          have read : data.drop (offset + 1) = text := by
            rw [← List.drop_drop, rest, List.drop_one, List.tail_cons]
          have sound := sound char rfl
          rw [if_pos (by omega), first, Stop.ok_bind]
          dsimp only
          rw [splitRoute, Platform.charToSize]
          by_cases negative : platform.charSigned = true ∧ 128 ≤ char.toNat
          · -- The length wraps around, and what is left is far too short for it.
            have before := (sound negative.1).resolve_left (by omega)
            rw [if_pos negative, if_neg (by omega),
              if_neg fun fits => absurd (fits.1 negative.1) (by omega)]
            rfl
          · rw [if_neg negative]
            by_cases fits : char.toNat ≤ text.length
            · have plain : platform.charSigned = true → char.toNat < 128 := by
                intro signed
                by_contra large
                exact negative ⟨signed, by omega⟩
              have block : pcLibMalloc ((char.toNat + 1) % 2 ^ 64) = .ok () := by
                rw [pcLibMalloc, if_pos (by omega)]
                rfl
              have both : (platform.charSigned = true → char.toNat < 128) ∧
                char.toNat ≤ text.length := ⟨plain, fits⟩
              rw [if_pos (by omega), if_pos both, block, Stop.ok_bind, if_neg (by omega), read]
              dsimp only
              rw [List.length_drop]
              rw [size, show offset + (text.length + 1) - (text.length - char.toNat) =
                offset + 1 + char.toNat by omega]
              rfl
            · rw [if_neg (by omega), if_neg fun both => fits both.2]
              rfl

/-- A length byte that is not sound makes the decoder stop. -/
theorem pcMsgDecodeRoute_unsound {platform : Platform} {data behind : Bytes} {char : UInt8}
    {offset : Nat} (rest : data.drop offset = char :: behind) (low : offset < 2 ^ 7)
    (positive : 0 < offset) (bound : data.length < 2 ^ 31)
    (unsound : ¬ LengthSound platform offset char) :
    ∃ stop, stop ≠ .refused ∧
      pcMsgDecodeRoute platform data data.length offset false = .error stop := by
  have size : data.length = offset + (behind.length + 1) := by
    have length := congrArg List.length rest
    rw [List.length_drop, List.length_cons] at length
    omega
  have first : byteAt data offset = .ok char := by
    rw [byteAt, ← Nat.add_zero offset, ← List.getElem?_drop, rest]
    rfl
  have small := UInt8.toNat_lt char
  rw [LengthSound, Classical.not_imp, not_or] at unsound
  have size' : platform.charToSize char = char.toNat + (2 ^ 64 - 256) := by
    rw [Platform.charToSize, if_pos ⟨unsound.1, by omega⟩]
  rw [pcMsgDecodeRoute, if_neg Bool.false_ne_true, if_pos (by omega), first, Stop.ok_bind]
  dsimp only
  rw [size', if_pos (by omega)]
  by_cases whole : char.toNat = 255
  · have block : pcLibMalloc ((char.toNat + (2 ^ 64 - 256) + 1) % 2 ^ 64) = .ok () := by
      rw [pcLibMalloc, if_pos (by omega)]
      rfl
    refine ⟨.outOfBounds, nofun, ?_⟩
    have beyond : offset + 1 + (char.toNat + (2 ^ 64 - 256)) > data.length := by
      have wrapped : 2 ^ 31 ≤ 2 ^ 64 - 256 := by decide
      generalize 2 ^ 64 - 256 = wrap at wrapped ⊢
      omega
    rw [block, Stop.ok_bind, if_pos beyond]
    rfl
  · have block : pcLibMalloc ((char.toNat + (2 ^ 64 - 256) + 1) % 2 ^ 64) = .error .aborted := by
      rw [pcLibMalloc, if_neg (by omega)]
      rfl
    refine ⟨.aborted, nofun, ?_⟩
    rw [block]
    rfl

/-- The parts of a message. -/
structure MsgParts where
  type : MsgType
  id : Nat
  compressed : Bool
  route : RawRoute
  body : Bytes

/-- What the decoder makes of the parts. -/
def MsgParts.raw (parts : MsgParts) : MsgRaw where
  id := parts.id
  type := parts.type
  isRouteCompressed := parts.compressed
  route := parts.route
  body := { base := some parts.body, len := parts.body.length }

/-- The type that a flag byte tells. -/
def flagType (flag : UInt8) : Option MsgType := MsgType.ofCode? (flag >>> 1).toNat

/-- Whether a flag byte tells that the route is a code. -/
def flagCompressed (flag : UInt8) : Bool := flag &&& 0x01 ≠ 0

/-- The digits of the id behind the flag of a message. -/
def MsgType.digits (type : MsgType) (rest : Bytes) : Bytes :=
  if type.hasId then idDigits rest else []

/-- The division of what follows the flag. -/
def partsBehind (platform : Platform) (type : MsgType) (compressed : Bool) (rest : Bytes) :
    Option MsgParts :=
  let digits := type.digits rest
  let behind := rest.drop digits.length
  let id := idValue digits % 2 ^ 32
  if type.hasId ∧ idEnds rest = false then none
  else if type.hasRoute then
    (splitRoute platform compressed behind).map fun (route, body) =>
      { type, id, compressed, route, body }
  else
    some { type, id, compressed, route := if compressed then .code 0 else .str none, body := behind }

/-- The division of a message into its parts. -/
def msgParts (platform : Platform) : Bytes → Option MsgParts
  | [] => none
  | flag :: rest => do partsBehind platform (← flagType flag) (flagCompressed flag) rest

/-- An id of at most five digits, in a message that has one. -/
def IdShort : Bytes → Prop
  | [] => True
  | flag :: rest => ∀ type ∈ flagType flag, (type.digits rest).length ≤ 5

/-- A sound length byte, in a message that has one. -/
def RouteSound (platform : Platform) : Bytes → Prop
  | [] => True
  | flag :: rest =>
      ∀ type ∈ flagType flag, type.hasRoute → flagCompressed flag = false →
        ∀ char ∈ (rest.drop (type.digits rest).length).head?,
          LengthSound platform (1 + (type.digits rest).length) char

/-- The id that is read behind the flag. -/
theorem pcMsgDecodeRawId_digits (type : MsgType) (flag : UInt8) {rest : Bytes}
    (short : (type.digits rest).length ≤ 5) :
    pcMsgDecodeRawId type (flag :: rest) (flag :: rest).length =
      if type.hasId ∧ idEnds rest = false then .error .refused
      else .ok (idValue (type.digits rest) % 2 ^ 32, 1 + (type.digits rest).length) := by
  rw [pcMsgDecodeRawId, MsgType.digits] at *
  by_cases hasId : type.hasId = true
  · rw [if_pos hasId] at short ⊢
    have read := pcMsgDecodeId_eq 0 0 rest
      (show (flag :: rest).length = 1 + rest.length by rw [List.length_cons, Nat.add_comm])
      (by rwa [Nat.zero_add])
    rw [List.drop_one, List.tail_cons, read]
    cases ends : idEnds rest with
    | true =>
        rw [if_pos rfl, if_neg fun both => Bool.noConfusion both.2, if_pos hasId, Nat.mul_zero,
          Nat.pow_zero, Nat.mul_one, Nat.zero_add]
    | false => rw [if_neg Bool.false_ne_true, if_pos ⟨hasId, rfl⟩]
  · rw [if_neg hasId, if_neg fun both => hasId both.1, if_neg hasId]
    rfl

/-- The digits of the id are bytes of the message. -/
theorem length_digits_le (type : MsgType) (rest : Bytes) :
    (type.digits rest).length ≤ rest.length := by
  rw [MsgType.digits]
  split
  · exact (idDigits_isPrefix rest).length_le
  · exact Nat.zero_le _

/-- The body is what is left behind the route. -/
theorem splitRoute_suffix {platform : Platform} {compressed : Bool} {behind body : Bytes}
    {route : RawRoute} (split : splitRoute platform compressed behind = some (route, body)) :
    body <:+ behind := by
  match compressed, behind, split with
  | true, high :: low :: rest, split =>
      obtain ⟨-, rfl⟩ := Prod.mk.inj (Option.some.inj split)
      exact ⟨[high, low], rfl⟩
  | false, char :: rest, split =>
      rw [splitRoute] at split
      split at split
      · obtain ⟨-, rfl⟩ := Prod.mk.inj (Option.some.inj split)
        exact (List.drop_suffix _ rest).trans (List.suffix_cons _ _)
      · exact absurd split nofun

/-- The end of `pc_msg_decode_to_raw`: the id is checked, and what is left is the body. -/
theorem body_raw {data body : Bytes} (bound : data.length < 2 ^ 31) (suffix : body <:+ data) :
    (data.drop (data.length - body.length) = body) ∧
      toInt32 (((data.length + (2 ^ 64 - (data.length - body.length))) % 2 ^ 64 : Nat) : Int) =
        body.length := by
  have shorter := suffix.length_le
  refine ⟨(List.suffix_iff_eq_drop.mp suffix).symm, ?_⟩
  have left : (data.length + (2 ^ 64 - (data.length - body.length))) % 2 ^ 64 = body.length := by
    omega
  rw [left, toInt32]
  omega

/-- The route that is read behind the id. -/
theorem pcMsgDecodeRawRoute_eq {platform : Platform} {type : MsgType} {flag : UInt8}
    {rest : Bytes} (bound : (flag :: rest).length < 2 ^ 31)
    (short : (type.digits rest).length ≤ 5)
    (sound : type.hasRoute → flagCompressed flag = false →
      ∀ char ∈ (rest.drop (type.digits rest).length).head?,
        LengthSound platform (1 + (type.digits rest).length) char)
    (ends : ¬ (type.hasId ∧ idEnds rest = false)) :
    pcMsgDecodeRawRoute platform type (flag :: rest) (flag :: rest).length
        (1 + (type.digits rest).length) (flagCompressed flag) =
      match partsBehind platform type (flagCompressed flag) rest with
      | none => .error .refused
      | some parts => .ok (parts.route, (flag :: rest).length - parts.body.length) := by
  have within := length_digits_le type rest
  have behind : (flag :: rest).drop (1 + (type.digits rest).length) =
      rest.drop (type.digits rest).length := by
    rw [Nat.add_comm, List.drop_succ_cons]
  rw [pcMsgDecodeRawRoute, partsBehind]
  dsimp only
  rw [if_neg ends]
  by_cases hasRoute : type.hasRoute = true
  · rw [if_pos hasRoute, if_pos hasRoute, pcMsgDecodeRoute_eq behind
      (by rw [List.length_cons]; omega) (by omega) (by omega) bound (sound hasRoute)]
    cases splitRoute platform (flagCompressed flag) (rest.drop (type.digits rest).length) <;> rfl
  · rw [if_neg hasRoute, if_neg hasRoute]
    dsimp only
    rw [List.length_drop, List.length_cons,
      show rest.length + 1 - (rest.length - (type.digits rest).length) =
        1 + (type.digits rest).length by omega]
    rfl

/-- What the parts have from the flag and from the digits. -/
theorem partsBehind_some {platform : Platform} {type : MsgType} {compressed : Bool}
    {rest : Bytes} {parts : MsgParts} (found : partsBehind platform type compressed rest = some parts) :
    ¬ (type.hasId ∧ idEnds rest = false) ∧ parts.type = type ∧
      parts.id = idValue (type.digits rest) % 2 ^ 32 ∧ parts.compressed = compressed ∧
        parts.body <:+ rest := by
  rw [partsBehind] at found
  dsimp only at found
  split at found
  · exact absurd found nofun
  next ends =>
    have behind : rest.drop (type.digits rest).length <:+ rest := List.drop_suffix _ rest
    split at found
    · obtain ⟨⟨route, body⟩, split, rfl⟩ := Option.map_eq_some_iff.mp found
      exact ⟨ends, rfl, rfl, rfl, (splitRoute_suffix split).trans behind⟩
    · rw [← Option.some.inj found]
      exact ⟨ends, rfl, rfl, rfl, behind⟩

/-- An id that does not end leaves no parts. -/
theorem partsBehind_none {platform : Platform} {type : MsgType} {compressed : Bool}
    {rest : Bytes} (unfinished : type.hasId ∧ idEnds rest = false) :
    partsBehind platform type compressed rest = none := by
  rw [partsBehind]
  exact if_pos unfinished

/-- The decoder finds the parts of a message. -/
theorem pcMsgDecodeToRaw_parts {platform : Platform} {bytes : Bytes}
    (bound : bytes.length < 2 ^ 31) (short : IdShort bytes) (sound : RouteSound platform bytes) :
    pcMsgDecodeToRaw platform { base := some bytes, len := toInt32 bytes.length } =
      match msgParts platform bytes with
      | none => .error .refused
      | some parts => if parts.id = pcInvalidReqId then .error .aborted else .ok parts.raw := by
  have len : toUInt64 (toInt32 bytes.length) = bytes.length := by
    rw [toUInt64, toInt32]
    omega
  cases bytes with
  | nil => rfl
  | cons flag rest =>
      have filled : ¬ (flag :: rest).length < 1 := by
        rw [List.length_cons]
        omega
      have first : byteAt (flag :: rest) 0 = .ok flag := rfl
      rw [pcMsgDecodeToRaw, deref_some, Stop.ok_bind]
      dsimp only
      rw [len, if_neg filled]
      change (byteAt (flag :: rest) 0 >>= _) = _
      rw [first, Stop.ok_bind, ← flagType]
      rw [msgParts]
      rw [IdShort] at short
      rw [RouteSound] at sound
      cases known : flagType flag with
      | none => rfl
      | some type =>
          have short := short type known
          change (pcMsgDecodeRawId type (flag :: rest) (flag :: rest).length >>= _) = _
          rw [pcMsgDecodeRawId_digits type flag short]
          by_cases unfinished : type.hasId ∧ idEnds rest = false
          · rw [if_pos unfinished]
            change _ = match partsBehind platform type (flagCompressed flag) rest with
              | none => _ | some parts => _
            rw [partsBehind_none unfinished]
            rfl
          · rw [if_neg unfinished, Stop.ok_bind]
            change (pcMsgDecodeRawRoute platform type (flag :: rest) (flag :: rest).length
              (1 + (type.digits rest).length) (flagCompressed flag) >>= _) = _
            rw [pcMsgDecodeRawRoute_eq bound short (sound type known) unfinished]
            change _ = match partsBehind platform type (flagCompressed flag) rest with
              | none => _ | some parts => _
            cases found : partsBehind platform type (flagCompressed flag) rest with
            | none => rfl
            | some parts =>
                obtain ⟨-, same, value, compressed, suffix⟩ := partsBehind_some found
                obtain ⟨body, size⟩ := body_raw bound (suffix.trans (List.suffix_cons flag rest))
                dsimp only
                rw [Stop.ok_bind]
                dsimp only
                rw [body, size, ← value]
                by_cases invalid : parts.id = pcInvalidReqId
                · rw [if_pos invalid, if_pos invalid]
                  rfl
                · rw [if_neg invalid, if_neg invalid, MsgParts.raw, same, compressed]
                  rfl

/-- Behind a length byte that is not sound the decoder stops. -/
theorem pcMsgDecodeToRaw_unsound {platform : Platform} {bytes : Bytes}
    (bound : bytes.length < 2 ^ 31) (short : IdShort bytes)
    (unsound : ¬ RouteSound platform bytes) :
    ∃ stop, stop ≠ .refused ∧
      pcMsgDecodeToRaw platform { base := some bytes, len := toInt32 bytes.length } =
        .error stop := by
  have len : toUInt64 (toInt32 bytes.length) = bytes.length := by
    rw [toUInt64, toInt32]
    omega
  cases bytes with
  | nil => exact absurd trivial unsound
  | cons flag rest =>
      have filled : ¬ (flag :: rest).length < 1 := by
        rw [List.length_cons]
        omega
      have first : byteAt (flag :: rest) 0 = .ok flag := rfl
      rw [RouteSound] at unsound
      push Not at unsound
      obtain ⟨type, known, hasRoute, plain, char, next, wrapped⟩ := unsound
      have short := short type known
      have ends : ¬ (type.hasId ∧ idEnds rest = false) := by
        intro unfinished
        have whole : (type.digits rest).length = rest.length := by
          rw [MsgType.digits, if_pos unfinished.1, length_idDigits_of_not_idEnds unfinished.2]
        rw [whole, List.drop_length] at next
        exact absurd next nofun
      have behind : (flag :: rest).drop (1 + (type.digits rest).length) =
          char :: (rest.drop (type.digits rest).length).tail := by
        rw [Nat.add_comm, List.drop_succ_cons]
        exact List.eq_cons_of_mem_head? next
      obtain ⟨stop, other, stops⟩ := pcMsgDecodeRoute_unsound behind (by omega) (by omega) bound
        wrapped
      refine ⟨stop, other, ?_⟩
      rw [pcMsgDecodeToRaw, deref_some, Stop.ok_bind]
      dsimp only
      rw [len, if_neg filled]
      rw [first, Stop.ok_bind, ← flagType]
      rw [known]
      change (pcMsgDecodeRawId type (flag :: rest) (flag :: rest).length >>= _) = _
      rw [pcMsgDecodeRawId_digits type flag short, if_neg ends, Stop.ok_bind]
      change (pcMsgDecodeRawRoute platform type (flag :: rest) (flag :: rest).length
        (1 + (type.digits rest).length) (flagCompressed flag) >>= _) = _
      rw [pcMsgDecodeRawRoute, if_pos hasRoute, plain, stops]
      rfl

/-- The route of a message, as far as the dictionary has one for its code. -/
inductive MsgParts.Routed (codeToRoute : Option Json) (parts : MsgParts) : Option CStr → Prop where
  | response (without : parts.type.hasRoute = false) : Routed codeToRoute parts none
  | text {route : CStr} (hasRoute : parts.type.hasRoute) (text : parts.route = .str (some route)) :
      Routed codeToRoute parts (some route)
  | code {table : Json} {code : Nat} {route : CStr} (hasRoute : parts.type.hasRoute)
      (compressed : parts.route = .code code) (present : codeToRoute = some table)
      (found : pcJSONGetObjectItem table (.decimal code) = .ok (some (.string route))) :
      Routed codeToRoute parts (some route)

/-- A body that is there is refused by the reader for its route, or read as something that
can be printed; and it is not the body of an answer to a route. -/
def BodySound (text : JsonText) (serverProtos : Option Json) (id : Nat) (route : Option CStr)
    (body : Bytes) : Prop :=
  body ≠ [] →
    match pcMsgDecodeBody text serverProtos route body body.length with
    | .error stop => stop = .refused
    | .ok json => (text.print json).isSome ∧ (id = pcNotifyPushReqId ∨ route = none)

/-- What the bytes of a message, the dictionary and the definitions have to be like. -/
structure MsgSound (platform : Platform) (text : JsonText) (codeToRoute serverProtos : Option Json)
    (bytes : Bytes) : Prop where
  id : IdShort bytes
  route : RouteSound platform bytes
  parts : ∀ parts, msgParts platform bytes = some parts →
    parts.id ≠ pcInvalidReqId ∧ ∃ route, parts.Routed codeToRoute route ∧
      BodySound text serverProtos parts.id route parts.body

/-- A message that is handled as what it is: it is refused, or it has no route exactly when
it has an id of its own. -/
def PcMsg.Usable (msg : PcMsg) : Prop :=
  msg.msg = none ∨ msg.id = pcInvalidReqId ∨ msg.id = pcNotifyPushReqId ∨ msg.route = none

/-- An invalid message may be used: it says that it is invalid. -/
theorem usable_invalid : PcMsg.invalid.Usable := .inl rfl

/-- The route of a message that has one is not missing. -/
theorem route_of_partsBehind {platform : Platform} {type : MsgType} {compressed : Bool}
    {rest : Bytes} {parts : MsgParts}
    (found : partsBehind platform type compressed rest = some parts) (hasRoute : type.hasRoute) :
    parts.route ≠ .str none := by
  rw [partsBehind] at found
  dsimp only at found
  split at found
  · exact absurd found nofun
  obtain ⟨⟨route, body⟩, split, rfl⟩ := Option.map_eq_some_iff.mp found
  match compressed, rest.drop (type.digits rest).length, split with
  | true, high :: low :: rest, split =>
      obtain ⟨rfl, -⟩ := Prod.mk.inj (Option.some.inj split)
      exact nofun
  | false, char :: rest, split =>
      rw [splitRoute] at split
      split at split
      · obtain ⟨rfl, -⟩ := Prod.mk.inj (Option.some.inj split)
        exact nofun
      · exact absurd split nofun

/-- A message with a route has one. -/
theorem route_of_msgParts {platform : Platform} {bytes : Bytes} {parts : MsgParts}
    (found : msgParts platform bytes = some parts) (hasRoute : parts.type.hasRoute) :
    parts.route ≠ .str none := by
  cases bytes with
  | nil => exact absurd found nofun
  | cons flag rest =>
      obtain ⟨type, -, behind⟩ := Option.bind_eq_some_iff.mp found
      have same : parts.type = type := (partsBehind_some behind).2.1
      exact route_of_partsBehind behind (same ▸ hasRoute)

/-- The decoder resolves exactly the routes that the dictionary has. -/
theorem pcMsgResolveRoute_ok_iff {codeToRoute : Option Json} {parts : MsgParts}
    (there : parts.type.hasRoute → parts.route ≠ .str none) (route : Option CStr) :
    pcMsgResolveRoute codeToRoute parts.raw = .ok route ↔ parts.Routed codeToRoute route := by
  by_cases hasRoute : parts.type.hasRoute = true
  · have without : parts.type.hasRoute ≠ false := by
      rw [hasRoute]
      exact nofun
    rw [pcMsgResolveRoute, if_pos (show parts.raw.type.hasRoute = true from hasRoute)]
    cases kind : parts.route with
    | code code =>
        have raw : parts.raw.route = .code code := kind
        rw [raw]
        dsimp only
        rw [pcResolveDictionary]
        constructor
        · intro resolved
          obtain ⟨text, resolved, same⟩ := Stop.bind_eq_ok resolved
          obtain ⟨table, present, resolved⟩ := Stop.bind_eq_ok resolved
          obtain ⟨entry, found, taken⟩ := Stop.bind_eq_ok resolved
          cases Except.ok.inj same
          cases codeToRoute with
          | none => exact absurd present nofun
          | some _ =>
              cases Except.ok.inj present
              match entry, found, taken with
              | some (.string _), found, taken =>
                  cases Except.ok.inj taken
                  exact .code hasRoute kind rfl found
        · intro routed
          cases routed with
          | response none => exact absurd none without
          | text _ text => exact absurd (kind.symm.trans text) nofun
          | code _ compressed present found =>
              cases RawRoute.code.inj (kind.symm.trans compressed)
              rw [present, deref_some, Stop.ok_bind, found]
              rfl
    | str text =>
        have raw : parts.raw.route = .str text := kind
        rw [raw]
        dsimp only
        constructor
        · intro resolved
          cases Except.ok.inj resolved
          cases route with
          | none => exact absurd kind (there hasRoute)
          | some route => exact .text hasRoute kind
        · intro routed
          cases routed with
          | response none => exact absurd none without
          | text _ same => exact congrArg Except.ok (RawRoute.str.inj (kind.symm.trans same))
          | code _ compressed _ _ => exact absurd (kind.symm.trans compressed) nofun
  · have without : parts.type.hasRoute = false := Bool.eq_false_iff.mpr hasRoute
    rw [pcMsgResolveRoute, if_neg (show ¬ parts.raw.type.hasRoute = true from hasRoute)]
    constructor
    · intro resolved
      cases Except.ok.inj resolved
      exact .response without
    · intro routed
      cases routed with
      | response _ => rfl
      | text also _ => exact absurd also hasRoute
      | code also _ _ _ => exact absurd also hasRoute

/-- A body that is read leads to a message that can be used if and only if it is sound. -/
theorem pcMsgDecodeText_usable_iff {text : JsonText} {serverProtos : Option Json}
    {parts : MsgParts} {route : Option CStr} (bound : parts.body.length < 2 ^ 31)
    (valid : parts.id ≠ pcInvalidReqId) :
    (∃ msg, pcMsgDecodeText text serverProtos parts.raw route = .ok msg ∧ msg.Usable) ↔
      BodySound text serverProtos parts.id route parts.body := by
  rw [pcMsgDecodeText, BodySound]
  by_cases empty : parts.body = []
  · have len : ¬ parts.raw.body.len > 0 := by
      change ¬ (parts.body.length : Int) > 0
      rw [empty]
      exact Int.lt_irrefl 0
    rw [if_neg len]
    exact ⟨fun _ filled => absurd empty filled, fun _ => ⟨_, rfl, .inl rfl⟩⟩
  · have positive := List.length_pos_iff.mpr empty
    have len : parts.raw.body.len > 0 := by
      change (parts.body.length : Int) > 0
      omega
    have size : toUInt64 parts.raw.body.len = parts.body.length := by
      change toUInt64 (parts.body.length : Int) = _
      rw [toUInt64]
      omega
    have base : parts.raw.body.base = some parts.body := rfl
    rw [if_pos len, base, deref_some, Stop.ok_bind, size]
    cases pcMsgDecodeBody text serverProtos route parts.body parts.body.length with
    | error stop =>
        cases stop with
        | refused => exact ⟨fun _ _ => rfl, fun _ => ⟨_, rfl, usable_invalid⟩⟩
        | _ => exact ⟨fun ⟨_, ends, _⟩ => absurd ends nofun, fun sound => absurd (sound empty) nofun⟩
    | ok json =>
        dsimp only
        rw [pcJSONPrintUnformatted]
        cases printed : text.print json with
        | none =>
            exact ⟨fun ⟨_, ends, _⟩ => absurd ends nofun,
              fun sound => absurd (sound empty).1 Bool.false_ne_true⟩
        | some data =>
            constructor
            · rintro ⟨msg, ends, usable⟩ -
              cases Except.ok.inj ends
              rcases usable with none | invalid | usable
              · exact absurd none nofun
              · exact absurd invalid valid
              · exact ⟨rfl, usable⟩
            · intro sound
              exact ⟨_, rfl, .inr (.inr (sound empty).2)⟩

/-- The body is shorter than the message. -/
theorem length_body_lt {platform : Platform} {bytes : Bytes} {parts : MsgParts}
    (found : msgParts platform bytes = some parts) : parts.body.length < bytes.length := by
  cases bytes with
  | nil => exact absurd found nofun
  | cons flag rest =>
      obtain ⟨type, -, behind⟩ := Option.bind_eq_some_iff.mp found
      have suffix := (partsBehind_some behind).2.2.2.2
      rw [List.length_cons]
      exact Nat.lt_succ_of_le suffix.length_le

/-- The decoder returns a message that can be used, and shifts no byte of an id too far, if
and only if the bytes, the dictionary and the definitions are what it needs. -/
theorem pcDefaultMsgDecode_usable_iff {platform : Platform} {text : JsonText}
    {codeToRoute serverProtos : Option Json} {bytes : Bytes} (bound : bytes.length < 2 ^ 31)
    (short : IdShort bytes) :
    (∃ msg, pcDefaultMsgDecode platform text codeToRoute serverProtos
        { base := some bytes, len := toInt32 bytes.length } = .ok msg ∧ msg.Usable) ↔
      MsgSound platform text codeToRoute serverProtos bytes := by
  by_cases lengths : RouteSound platform bytes
  · have raw := pcMsgDecodeToRaw_parts bound short lengths
    rw [pcDefaultMsgDecode, raw]
    cases found : msgParts platform bytes with
    | none =>
        have absent (parts : MsgParts) (there : msgParts platform bytes = some parts) : False :=
          absurd (found.symm.trans there) nofun
        exact ⟨fun _ => ⟨short, lengths, fun parts there => (absent parts there).elim⟩,
          fun _ => ⟨_, rfl, usable_invalid⟩⟩
    | some parts =>
        have only {other : MsgParts} (there : msgParts platform bytes = some other) :
            parts = other := Option.some.inj (found.symm.trans there)
        dsimp only
        by_cases invalid : parts.id = pcInvalidReqId
        · rw [if_pos invalid]
          exact ⟨fun ⟨_, ends, _⟩ => absurd ends nofun,
            fun sound => absurd invalid (sound.parts parts found).1⟩
        · rw [if_neg invalid]
          have resolves := @pcMsgResolveRoute_ok_iff codeToRoute _ (route_of_msgParts found)
          have body (route : Option CStr) := @pcMsgDecodeText_usable_iff text serverProtos _ route
            (Nat.lt_trans (length_body_lt found) bound) invalid
          have valid : ¬ parts.raw.id = pcInvalidReqId := invalid
          change (∃ msg, (if parts.raw.id = pcInvalidReqId then _ else _) = Except.ok msg ∧ _) ↔ _
          rw [if_neg valid]
          cases resolved : pcMsgResolveRoute codeToRoute parts.raw with
          | error stop =>
              refine ⟨fun ⟨_, ends, _⟩ => absurd ends nofun, fun sound => ?_⟩
              obtain ⟨-, route, routed, -⟩ := sound.parts parts found
              exact absurd (resolved.symm.trans ((resolves route).mpr routed)) nofun
          | ok route =>
              have routed := (resolves route).mp resolved
              have there : ¬ (parts.raw.type.hasRoute = true ∧ route.isNone = true) := by
                rintro ⟨hasRoute, none⟩
                cases routed with
                | response without => exact absurd (without.symm.trans hasRoute) nofun
                | text _ _ => exact absurd none nofun
                | code _ _ _ _ => exact absurd none nofun
              rw [Stop.ok_bind, if_neg there]
              refine (body route).trans ⟨fun sound => ⟨short, lengths, fun other found => ?_⟩,
                fun sound => ?_⟩
              · rw [← only found]
                exact ⟨invalid, route, routed, sound⟩
              · obtain ⟨-, other, also, sound⟩ := sound.parts parts found
                rwa [Except.ok.inj (resolved.symm.trans ((resolves other).mpr also))]
  · obtain ⟨stop, other, stops⟩ := pcMsgDecodeToRaw_unsound bound short lengths
    rw [pcDefaultMsgDecode, stops]
    refine ⟨fun ⟨_, ends, _⟩ => ?_, fun all => absurd all.route lengths⟩
    cases stop with
    | refused => exact absurd rfl other
    | _ => exact absurd ends nofun

end Pomelo
