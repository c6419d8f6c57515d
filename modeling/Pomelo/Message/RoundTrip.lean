import Pomelo.Message.Codec
import Pomelo.Message.RawRoundTrip
import Pomelo.Protobuf.RoundTrip
import Pomelo.Protobuf.Size

/-!
# The round trip of the message codec

What `pc_default_msg_encode` accepts, `pc_default_msg_decode` gives back with its id,
its route and the value of its body, if the route code fits two bytes and the
body is not empty. A code above 65535 is cut off and names another route or none;
a protobuf message without a field to write has an empty body, and comes back
without a text.
-/

namespace Pomelo

/-- The parser reads back what the printer prints for a value, whatever follows
it. The printer adds up the length of its text in an `int`. -/
def JsonText.PrintsBack (text : JsonText) (json : Json) : Prop :=
  ∃ printed, text.print json = some printed ∧ json.textSize ≤ printed.length ∧
    printed.length < 2 ^ 31 ∧ ∀ rest, text.parse (printed.bytes ++ rest) = some (json, printed.length)

/-- The two dictionaries of a server are inverse to each other. -/
def DictionaryPair (route2code code2route : Option Json) : Prop :=
  ∀ route (code : Nat), (code2route.bind fun table => table.lookup (.decimal code)) =
      some (.string route) ↔ 0 < code ∧ pcMsgRouteCode route2code route = .ok code

/-- The set of definitions and the definition that apply to a route. -/
def Defines (protos : Option Json) (route : CStr) (gprotos pbDef : Json) : Prop :=
  protos = some gprotos ∧ gprotos.lookup route = some pbDef

/-- The value that a message is read back as. -/
def bodyValue (protos : Option Json) (route : CStr) (fields : List (CStr × Json)) : Json :=
  match protos with
  | none => .object fields
  | some gprotos =>
      match gprotos.lookup route with
      | none => .object fields
      | some pbDef => .object (normalFields gprotos pbDef fields)

/-- A message whose normal form has no field has no bytes, and conversely. -/
theorem wireFields_eq_nil_iff {gprotos protos : Json} (fields : List (CStr × Json)) :
    wireFields gprotos protos fields = [] ↔ normalFields gprotos protos fields = [] := by
  induction fields with
  | nil => simp only [wireFields, normalFields]
  | cons field fields ih =>
      obtain ⟨key, value⟩ := field
      rw [wireFields, normalFields, List.append_eq_nil_iff, List.append_eq_nil_iff, ih, wireField,
        normalField]
      refine and_congr_left fun _ => ?_
      split
      · exact iff_of_true rfl rfl
      · next spec described =>
          split
          · cases value with
            | array items =>
                rw [wireArray, normalArray]
                by_cases packed : spec.type.packed
                · simp [packed, wireTag, Codec.leb128_ne_nil]
                · cases items <;> simp [packed, wireItems, wireTag, Codec.leb128_ne_nil]
            | null | false | true | number | string | object =>
                exact iff_of_true rfl rfl
          · simp [wireTag, Codec.leb128_ne_nil]

variable {text : JsonText} {protos : Option Json} {route : CStr} {fields : List (CStr × Json)}

/-- The members of a table are found if the lookup ends at all. -/
theorem pcTableItem_eq {table : Option Json} {key : CStr} {item : Option Json}
    (found : pcTableItem table key = .ok item) : item = table.bind fun table => table.lookup key := by
  cases table with
  | none => exact (Except.ok.inj found).symm
  | some table =>
      change pcJSONGetObjectItem table key = _ at found
      unfold pcJSONGetObjectItem at found
      split at found
      · cases found
      · exact (Except.ok.inj found).symm

/-- A JSON body is the text of the message. -/
theorem pcBodyJsonEncode_eq {json : Json} (printsBack : text.PrintsBack json) :
    ∃ data : Bytes, pcBodyJsonEncode text json = ⟨some (data ++ [0]), data.length⟩ ∧
      json.textSize ≤ data.length ∧ data.length < 2 ^ 31 ∧
        ∀ rest, pcBodyJsonDecode text (data ++ rest) data.length = .ok json := by
  obtain ⟨printed, prints, size, small, parses⟩ := printsBack
  have length : toInt32 printed.length = printed.length := by
    rw [toInt32]
    omega
  refine ⟨printed.bytes, ?_, size, small, fun rest => ?_⟩
  · rw [pcBodyJsonEncode, pcJSONPrintUnformatted, prints]
    simp only [length]
    rfl
  · rw [pcBodyJsonDecode, pcJSONParseWithOpts, parses]
    change (if printed.length ≠ printed.bytes.length then _ else pure json) = _
    exact if_neg (not_not_intro rfl)

/-- A protobuf body is the wire format of the message, of at most twice the
length of its text. -/
theorem pcBodyPbEncode_eq {gprotos pbDef : Json} (wf : SchemaWF gprotos pbDef)
    (conforms : conformsFields .unlimited gprotos pbDef fields)
    (printsBack : text.PrintsBack (.object fields)) {body : PcBuf}
    (encoded : pcBodyPbEncode text (.object fields) gprotos pbDef = .ok body) (accepted : body.len ≠ -1) :
    body = ⟨some (wireFields gprotos pbDef fields), (wireFields gprotos pbDef fields).length⟩ ∧
      (wireFields gprotos pbDef fields).length < 2 ^ 31 ∧
        conformsFields .machine gprotos pbDef fields := by
  obtain ⟨data, printed, size, small, -⟩ := pcBodyJsonEncode_eq printsBack
  rw [Json.textSize] at size
  have wire := length_wireFields_le wf .root fields conforms (by omega)
  have counts := conformsFields_of_admits Limits.counted_admits fields conforms (by omega) (by omega)
  rw [pcBodyPbEncode, printed] at encoded
  simp only at encoded
  rw [if_neg (by omega)] at encoded
  -- A doubled length that does not fit an `int` is negative, and no block has that size.
  have evalSize : toUInt64 (toInt32 (data.length * pcPbEvalFactor)) < 2 ^ 63 := by
    by_contra large
    rw [pcLibMalloc, if_neg large] at encoded
    cases encoded
  have evalSmall : toUInt64 (toInt32 (data.length * pcPbEvalFactor)) < 2 ^ 31 := by
    rw [toUInt64, toInt32] at evalSize ⊢
    omega
  rw [pcLibMalloc, if_pos evalSize] at encoded
  generalize toUInt64 (toInt32 (data.length * pcPbEvalFactor)) = len at encoded evalSmall
  by_cases fits : (wireFields gprotos pbDef fields).length ≤ len
  · have written := pcPbEncode_of_le Limits.counted_encodable wf counts (by omega) fits
    have count : ((pbOStreamFromBuffer len).written (wireFields gprotos pbDef fields)).bytesWritten =
        (wireFields gprotos pbDef fields).length := Nat.zero_add _
    have state : ((pbOStreamFromBuffer len).written (wireFields gprotos pbDef fields)).state =
        wireFields gprotos pbDef fields := List.nil_append _
    have length : toInt32 ((wireFields gprotos pbDef fields).length : Nat) =
        (wireFields gprotos pbDef fields).length := by
      rw [toInt32]
      omega
    rw [written] at encoded
    simp only [count, state, length] at encoded
    refine ⟨(Except.ok.inj encoded).symm, by omega, ?_⟩
    exact conformsFields_of_admits Limits.machine_admits fields conforms (by omega) (by omega)
  · have refused := pcPbEncode_of_lt Limits.counted_encodable wf counts (by omega)
      (Nat.lt_of_not_le fits)
    generalize pcPbEncode len gprotos pbDef (.object fields) = result at encoded refused
    obtain ⟨status, stream⟩ := result
    obtain rfl : status = .error .refused := refused
    exact absurd (congrArg PcBuf.len (Except.ok.inj encoded)).symm accepted

/-- What a body is to the decoder: the bytes it is read from give the value that
the message is read back as, and there are none exactly for a message whose
normal form under its definition has no field. -/
theorem pcMsgEncodeBody_eq
    (conforming : ∀ gprotos pbDef, Defines protos route gprotos pbDef →
      SchemaWF gprotos pbDef ∧ conformsFields .unlimited gprotos pbDef fields)
    (printsBack : text.PrintsBack (.object fields)) {body : PcBuf}
    (encoded : pcMsgEncodeBody text protos route (.object fields) = .ok body)
    (accepted : body.len ≠ -1) :
    ∃ data unused : Bytes, body = ⟨some (data ++ unused), data.length⟩ ∧ data.length < 2 ^ 31 ∧
      (∀ rest, pcMsgDecodeBody text protos (some route) (data ++ rest) data.length =
        .ok (bodyValue protos route fields)) ∧
      (data = [] ↔ ∃ gprotos pbDef, Defines protos route gprotos pbDef ∧
        normalFields gprotos pbDef fields = []) := by
  obtain ⟨item, found⟩ : ∃ item, pcTableItem protos route = .ok item := by
    cases found : pcTableItem protos route with
    | ok item => exact ⟨item, rfl⟩
    | error stop =>
        rw [pcMsgEncodeBody, found] at encoded
        cases protos <;> cases encoded
  have lookup := pcTableItem_eq found
  rw [pcMsgEncodeBody, found] at encoded
  by_cases defined : ∃ gprotos pbDef, Defines protos route gprotos pbDef
  · obtain ⟨gprotos, pbDef, rfl, isDef⟩ := defined
    obtain rfl : item = some pbDef := lookup.trans isDef
    obtain ⟨wf, conforms⟩ := conforming gprotos pbDef ⟨rfl, isDef⟩
    obtain ⟨rfl, small, machine⟩ := pcBodyPbEncode_eq wf conforms printsBack encoded accepted
    refine ⟨wireFields gprotos pbDef fields, [], by rw [List.append_nil], small, fun rest => ?_, ?_⟩
    · rw [pcMsgDecodeBody, found, bodyValue, isDef]
      exact pcPbDecode_wireFields wf machine rest
    · rw [wireFields_eq_nil_iff]
      refine ⟨fun empty => ⟨gprotos, pbDef, ⟨rfl, isDef⟩, empty⟩, ?_⟩
      rintro ⟨other, otherDef, ⟨same, otherIsDef⟩, empty⟩
      obtain rfl := Option.some.inj same
      obtain rfl := Option.some.inj (isDef.symm.trans otherIsDef)
      exact empty
  · obtain rfl : item = none := by
      cases item with
      | none => rfl
      | some pbDef =>
          obtain ⟨gprotos, table, isDef⟩ := Option.bind_eq_some_iff.mp lookup.symm
          exact absurd ⟨gprotos, pbDef, table, isDef⟩ defined
    obtain ⟨data, printed, size, small, parses⟩ := pcBodyJsonEncode_eq printsBack
    have value : bodyValue protos route fields = .object fields := by
      unfold bodyValue
      split
      · rfl
      · next gprotos =>
          rw [show gprotos.lookup route = none from lookup.symm]
    have same : body = pcBodyJsonEncode text (.object fields) := by
      cases protos <;> exact (Except.ok.inj encoded).symm
    refine ⟨data, [0], same.trans printed, small, fun rest => ?_, ?_⟩
    · rw [pcMsgDecodeBody, found, value]
      cases protos <;> exact parses rest
    · rw [Json.textSize] at size
      refine iff_of_false (fun empty => by rw [empty, List.length_nil] at size; omega) ?_
      exact fun ⟨gprotos, pbDef, isDef, _⟩ => defined ⟨gprotos, pbDef, isDef⟩

/-- The decoder gives a buffer this id, this route and a text that is read as this
value. -/
def DecodesTo (platform : Platform) (text : JsonText) (code2route serverProtos : Option Json)
    (buf : PcBuf) (id : Nat) (route : CStr) (value : Json) : Prop :=
  ∃ printed, pcDefaultMsgDecode platform text code2route serverProtos buf =
      .ok ⟨id, some route, some printed⟩ ∧
    text.parse (printed.bytes ++ [0]) = some (value, printed.length)

/-- With options or without, the same value is parsed. -/
theorem pcJSONParseWithOpts_value {value : Bytes} {strict : Bool} {item parsed : Json}
    {last other : Nat} (found : pcJSONParseWithOpts text value strict = .ok (item, last))
    (parse : text.parse value = some (parsed, other)) : item = parsed := by
  simp only [pcJSONParseWithOpts, parse] at found
  split at found
  · generalize other + pcJSONSkip _ = behind at found
    cases read : byteAt value behind with
    | error stop =>
        rw [read] at found
        cases found
    | ok byte =>
        rw [read, Stop.ok_bind] at found
        split at found
        · cases found
        · exact (congrArg Prod.fst (Except.ok.inj found)).symm
  · exact (congrArg Prod.fst (Except.ok.inj found)).symm

/-- What the encoder has done when it returns a buffer. -/
theorem pcDefaultMsgEncode_ok {route2code clientProtos : Option Json} {id last : Nat} {source : CStr}
    (parsed : text.parse (source.bytes ++ [0]) = some (.object fields, last)) {bytes : Bytes} {len : Int}
    (encoded : pcDefaultMsgEncode text route2code clientProtos ⟨id, some route, some source⟩ =
      .ok ⟨some bytes, len⟩) :
    ∃ body code, pcMsgEncodeBody text clientProtos route (.object fields) = .ok body ∧
      body.len ≠ -1 ∧ pcMsgRouteCode route2code route = .ok code ∧
        let type := if id = pcNotifyPushReqId then .notify else .request
        (if code > 0 then pcMsgEncodeCode id type code body
          else pcMsgEncodeRoute id type route body) = .ok ⟨some bytes, len⟩ := by
  unfold pcDefaultMsgEncode at encoded
  simp only at encoded
  split at encoded
  · cases encoded
  · cases encoded
  next jsonMsg _ parse =>
  obtain rfl : jsonMsg = .object fields := pcJSONParseWithOpts_value parse parsed
  cases bodyIs : pcMsgEncodeBody text clientProtos route (.object fields) with
  | error stop =>
      rw [bodyIs] at encoded
      cases encoded
  | ok body =>
      rw [bodyIs, Stop.ok_bind] at encoded
      by_cases failed : body.len = -1
      · rw [if_pos failed] at encoded
        split at encoded <;> cases encoded
      rw [if_neg failed] at encoded
      split at encoded
      · cases encoded
      cases codeIs : pcMsgRouteCode route2code route with
      | error stop =>
          rw [codeIs] at encoded
          cases encoded
      | ok code =>
          rw [codeIs] at encoded
          exact ⟨body, code, rfl, failed, rfl, encoded⟩

variable {platform : Platform} {code2route serverProtos : Option Json} {type : MsgType} {id : Nat}
  {compressed : Bool} {routeBytes data : Bytes} {raw : RawRoute}

/-- A message whose route is read back is decoded by its body. -/
theorem pcDefaultMsgDecode_eq (valid : id < pcInvalidReqId) (hasRoute : type.hasRoute)
    (pushed : ¬ type.hasId → id = pcNotifyPushReqId)
    (reads : ReadsRoute platform compressed routeBytes raw) (short : routeBytes.length ≤ 2 ^ 8)
    (small : data.length < 2 ^ 31) (rest : Bytes) :
    let whole : MsgRaw := ⟨id, type, compressed, raw, ⟨some (data ++ rest), data.length⟩⟩
    pcDefaultMsgDecode platform text code2route serverProtos
        ⟨some (msgHead type compressed id routeBytes ++ data ++ rest),
          toInt32 ((msgHead type compressed id routeBytes).length + data.length : Nat)⟩ =
      match pcMsgResolveRoute code2route whole with
      | .error stop => .error stop
      | .ok none => .ok .invalid
      | .ok (some route) => pcMsgDecodeText text serverProtos whole (some route) := by
  intro whole
  have read := pcMsgDecodeToRaw_eq platform valid hasRoute pushed reads short small rest
  rw [pcDefaultMsgDecode, read]
  change (if id = pcInvalidReqId then _ else
    pcMsgResolveRoute code2route whole >>= fun route =>
      if type.hasRoute = true ∧ route.isNone = true then _ else _) = _
  rw [if_neg (Nat.ne_of_lt valid)]
  rcases pcMsgResolveRoute code2route whole with stop | (_ | route)
  · rfl
  · rw [Stop.ok_bind, if_pos ⟨hasRoute, rfl⟩]
    rfl
  · rw [Stop.ok_bind, if_neg (fun both => Bool.false_ne_true both.2)]

/-- A message with a route has a text exactly when its body has a byte. -/
theorem pcMsgDecodeText_iff {value : Json} (printsBack : text.PrintsBack value)
    (small : data.length < 2 ^ 31) {rest : Bytes}
    (decoded : pcMsgDecodeBody text serverProtos (some route) (data ++ rest) data.length = .ok value) :
    (∃ printed, pcMsgDecodeText text serverProtos
          ⟨id, type, compressed, raw, ⟨some (data ++ rest), data.length⟩⟩ (some route) =
        .ok ⟨id, some route, some printed⟩ ∧
      text.parse (printed.bytes ++ [0]) = some (value, printed.length)) ↔ data ≠ [] := by
  obtain ⟨printed, prints, -, -, parses⟩ := printsBack
  rw [pcMsgDecodeText]
  by_cases empty : data = []
  · subst empty
    refine iff_of_false ?_ (not_not_intro rfl)
    rintro ⟨other, found, -⟩
    cases congrArg PcMsg.msg (Except.ok.inj found)
  · have positive : 0 < data.length := List.length_pos_iff.mpr empty
    refine iff_of_true ⟨printed, ?_, parses [0]⟩ empty
    simp only
    rw [if_pos (by omega), deref_some, Stop.ok_bind, toUInt64_length small, decoded]
    simp only [pcJSONPrintUnformatted, prints]
    rfl

/-- A code that fits two bytes is resolved to the route it stands for; any other is
resolved to another route, if to one. -/
theorem pcResolveDictionary_iff {route2code : Option Json} (pair : DictionaryPair route2code code2route)
    {code : Int} (positive : 0 < code) (codeIs : pcMsgRouteCode route2code route = .ok code) :
    pcResolveDictionary code2route (code % 2 ^ 16).toNat = .ok route ↔ code < 2 ^ 16 := by
  have resolves (other : CStr) (short : Nat) : pcResolveDictionary code2route short = .ok other ↔
      0 < short ∧ pcMsgRouteCode route2code other = .ok (short : Int) := by
    rw [← pair other short, pcResolveDictionary]
    cases code2route with
    | none => exact iff_of_false (fun found => by cases found) (fun found => by cases found)
    | some table =>
        rw [deref_some, Stop.ok_bind, Option.bind_some]
        unfold pcJSONGetObjectItem
        split
        · exact iff_of_false (fun found => by cases found) (fun found => by cases found)
        · rw [Stop.ok_bind]
          split
          · next entry =>
              rw [entry, Option.some.injEq, Json.string.injEq]
              exact ⟨fun same => Except.ok.inj same, fun same => congrArg Except.ok same⟩
          · next entry =>
              exact iff_of_false (fun found => by cases found) (entry other)
  rw [resolves]
  constructor
  · rintro ⟨-, found⟩
    have same := Except.ok.inj (codeIs.symm.trans found)
    omega
  · intro small
    have same : (((code % 2 ^ 16).toNat : Nat) : Int) = code := by omega
    exact ⟨by omega, by rw [same]; exact codeIs⟩

/-- A message that is decoded with a text has the route it is decoded with. -/
theorem pcMsgDecodeText_route {whole : MsgRaw} {given : Option CStr} {decoded : PcMsg}
    (found : pcMsgDecodeText text serverProtos whole given = .ok decoded)
    (hasText : decoded.msg ≠ none) : decoded.route = given := by
  unfold pcMsgDecodeText at found
  split at found
  · cases base : whole.body.base with
    | none =>
        rw [base] at found
        cases found
    | some data =>
        rw [base, deref_some, Stop.ok_bind] at found
        split at found
        · exact absurd (congrArg PcMsg.msg (Except.ok.inj found)).symm hasText
        · cases found
        · split at found
          · cases found
          · exact (congrArg PcMsg.route (Except.ok.inj found)).symm
  · exact (congrArg PcMsg.route (Except.ok.inj found)).symm

/-- The round trip: a buffer that the encoder returns is decoded to the id, the
route and the value of the message if and only if the code of the route, where it
has one, fits two bytes, and the message under a definition has a field to
write. -/
theorem pcDefaultMsgDecode_pcDefaultMsgEncode (platform : Platform)
    {route2code : Option Json} (pair : DictionaryPair route2code code2route)
    (valid : id < pcInvalidReqId) (short : route.length ≤ 127) {source : CStr} {last : Nat}
    (parsed : text.parse (source.bytes ++ [0]) = some (.object fields, last))
    (conforming : ∀ gprotos pbDef, Defines protos route gprotos pbDef →
      SchemaWF gprotos pbDef ∧ conformsFields .unlimited gprotos pbDef fields)
    (printsBack : text.PrintsBack (.object fields))
    (printsNormal : text.PrintsBack (bodyValue protos route fields)) {bytes : Bytes} {len : Int}
    (encoded : pcDefaultMsgEncode text route2code protos ⟨id, some route, some source⟩ =
      .ok ⟨some bytes, len⟩) (rest : Bytes) :
    DecodesTo platform text code2route protos ⟨some (bytes ++ rest), len⟩ id route
        (bodyValue protos route fields) ↔
      (∀ code, pcMsgRouteCode route2code route = .ok code → code < 2 ^ 16) ∧
        ∀ gprotos pbDef, Defines protos route gprotos pbDef →
          normalFields gprotos pbDef fields ≠ [] := by
  have bound : id < 2 ^ 32 := Nat.lt_trans valid (by decide)
  obtain ⟨body, code, bodyIs, accepted, codeIs, written⟩ := pcDefaultMsgEncode_ok parsed encoded
  obtain ⟨data, unused, rfl, small, decoded, empty⟩ :=
    pcMsgEncodeBody_eq conforming printsBack bodyIs accepted
  simp only at written
  generalize typeIs : (if id = pcNotifyPushReqId then MsgType.notify else .request) = type at written
  have hasRoute : type.hasRoute := by
    rw [← typeIs]
    split <;> rfl
  have pushed : ¬ type.hasId → id = pcNotifyPushReqId := by
    rw [← typeIs]
    split
    · next push => exact fun _ => push
    · exact fun without => absurd rfl without
  have condition : (∀ code, pcMsgRouteCode route2code route = .ok code → code < 2 ^ 16) ∧
      (∀ gprotos pbDef, Defines protos route gprotos pbDef →
        normalFields gprotos pbDef fields ≠ []) ↔ code < 2 ^ 16 ∧ data ≠ [] := by
    refine and_congr ⟨fun all => all code codeIs, fun fits other otherIs => ?_⟩ ?_
    · exact Except.ok.inj (codeIs.symm.trans otherIs) ▸ fits
    · rw [Ne, empty]
      exact ⟨fun all ⟨gprotos, pbDef, isDef, nil⟩ => all gprotos pbDef isDef nil,
        fun all gprotos pbDef isDef nil => all ⟨gprotos, pbDef, isDef, nil⟩⟩
  rw [condition, DecodesTo]
  by_cases positive : code > 0
  · rw [if_pos positive, pcMsgEncodeCode_eq bound hasRoute code small] at written
    obtain ⟨same, lenIs⟩ := PcBuf.mk.inj (Stop.ok_of_ite written)
    obtain rfl := Option.some.inj same
    subst lenIs
    rw [pcDefaultMsgDecode_eq valid hasRoute pushed (readsRoute_code platform code)
      (show 2 ≤ 2 ^ 8 by decide) small, pcMsgResolveRoute, if_pos hasRoute]
    rw [← pcResolveDictionary_iff pair positive codeIs]
    simp only
    generalize pcResolveDictionary code2route (code % 2 ^ 16).toNat = resolved
    rcases resolved with stop | other
    · exact iff_of_false (fun ⟨_, found, _⟩ => by cases found) (fun both => by cases both.1)
    by_cases same : other = route
    · subst same
      rw [and_iff_right rfl]
      exact pcMsgDecodeText_iff printsNormal small (decoded rest)
    · refine iff_of_false ?_ (fun both => same (Except.ok.inj both.1))
      rintro ⟨printed, found, -⟩
      exact same (Option.some.inj (pcMsgDecodeText_route found (Option.some_ne_none printed)).symm)
  · rw [if_neg positive, pcMsgEncodeRoute_eq bound hasRoute (by omega) small] at written
    obtain ⟨same, lenIs⟩ := PcBuf.mk.inj (Stop.ok_of_ite written)
    obtain rfl := Option.some.inj same
    subst lenIs
    have shortBytes : (UInt8.ofNat route.length :: route.bytes).length ≤ 2 ^ 8 := by
      rw [List.length_cons, show route.bytes.length = route.length from rfl]
      omega
    rw [pcDefaultMsgDecode_eq valid hasRoute pushed (readsRoute_str platform short) shortBytes small,
      pcMsgResolveRoute, if_pos hasRoute]
    rw [and_iff_right (show code < 2 ^ 16 by omega)]
    exact pcMsgDecodeText_iff printsNormal small (decoded rest)

/-- A printer and a parser as far as the message without a field and one with a
name need them. -/
def sampleText : JsonText where
  print
    | .object [] => some (.ofString "\x7b\x7d")
    | .object [(key, .string value)] =>
        some ((CStr.ofString "\x7b\"").append (key.append ((CStr.ofString "\":\"").append
          (value.append (.ofString "\"\x7d")))))
    | _ => none
  parse bytes :=
    if bytes.take 2 = (CStr.ofString "\x7b\x7d").bytes then some (.object [], 2)
    else if bytes.take 13 = (CStr.ofString "\x7b\"name\":\"hi\"\x7d").bytes then
      some (.object [(.ofString "name", .string (.ofString "hi"))], 13)
    else none

/-- The printer and the parser agree on the empty message. -/
theorem sampleText_empty : sampleText.PrintsBack (.object []) :=
  ⟨.ofString "\x7b\x7d", rfl, by decide, by decide, fun _ => rfl⟩

/-- They agree on a message with one text. -/
theorem sampleText_name :
    sampleText.PrintsBack (.object [(.ofString "name", .string (.ofString "hi"))]) :=
  ⟨_, rfl, by decide +kernel, by decide +kernel, fun _ => rfl⟩

/-- A set with one definition. -/
def sampleProtos : Json := .object [(.ofString "hall.join", stringSchema)]

/-- The tables define the messages of this route only. -/
theorem sampleProtos_defines {gprotos pbDef : Json}
    (defined : Defines (some sampleProtos) (.ofString "hall.join") gprotos pbDef) :
    gprotos = sampleProtos ∧ pbDef = stringSchema :=
  ⟨(Option.some.inj defined.1).symm, by
    obtain ⟨same, found⟩ := defined
    obtain rfl := Option.some.inj same
    exact (Option.some.inj found).symm⟩

/-- A dictionary with one code. -/
def sampleRoute2code : Json := .object [(.ofString "hall.join", .number (.ofInt 7))]

def sampleCode2route : Json := .object [(.decimal 7, .string (.ofString "hall.join"))]

/-- The two dictionaries are inverse to each other. -/
theorem sampleDictionaryPair :
    DictionaryPair (some sampleRoute2code) (some sampleCode2route) := by
  intro route code
  have seven : (Json.number (.ofInt 7)).valueint = 7 := Json.valueint_ofInt (by decide) (by decide)
  rw [Option.bind_some, sampleCode2route]
  by_cases same : route = .ofString "hall.join"
  · subst same
    have left : pcMsgRouteCode (some sampleRoute2code) (.ofString "hall.join") = .ok 7 :=
      congrArg Except.ok seven
    rw [left]
    by_cases numeral : CStr.decimal 7 = CStr.decimal code
    · obtain rfl := CStr.decimal_inj numeral
      exact iff_of_true rfl ⟨by decide, rfl⟩
    · refine iff_of_false (fun found => ?_) fun both => numeral ?_
      · simp [Json.lookup, numeral] at found
      · have equal := Except.ok.inj both.2
        rw [show code = 7 by omega]
  · have left : pcMsgRouteCode (some sampleRoute2code) route = .ok (-1) := by
      change pcJSONGetObjectItem sampleRoute2code route >>= _ = _
      rw [sampleRoute2code, pcJSONGetObjectItem_object, Json.lookup_of_notMem (by simpa using same)]
      rfl
    rw [left]
    refine iff_of_false (fun found => ?_) fun both => ?_
    · rw [Json.lookup, Option.map_eq_some_iff] at found
      obtain ⟨field, member, value⟩ := found
      have only := List.mem_singleton.mp (List.mem_of_find?_eq_some member)
      rw [only] at value
      exact same (Json.string.inj value).symm
    · have equal := Except.ok.inj both.2
      omega

/-- A message with a name, on a route with a code and a definition, is read back. -/
theorem pcDefaultMsgDecode_pcDefaultMsgEncode_name :
    let fields := [(CStr.ofString "name", Json.string (.ofString "hi"))]
    let bytes : Bytes := [1, 172, 2, 0, 7, 10, 2, 104, 105]
    pcDefaultMsgEncode sampleText (some sampleRoute2code) (some sampleProtos)
        ⟨300, some (.ofString "hall.join"), some (.ofString "\x7b\"name\":\"hi\"\x7d")⟩ =
          .ok ⟨some bytes, 9⟩ ∧
      DecodesTo ⟨64, true⟩ sampleText (some sampleCode2route) (some sampleProtos)
        ⟨some (bytes ++ []), 9⟩ 300 (.ofString "hall.join") (.object fields) := by
  intro fields bytes
  have encoded : pcDefaultMsgEncode sampleText (some sampleRoute2code) (some sampleProtos)
      ⟨300, some (.ofString "hall.join"), some (.ofString "\x7b\"name\":\"hi\"\x7d")⟩ =
        .ok ⟨some bytes, 9⟩ := by decide +kernel
  have parsed : sampleText.parse ((CStr.ofString "\x7b\"name\":\"hi\"\x7d").bytes ++ [0]) =
      some (.object fields, 13) := rfl
  have value : bodyValue (some sampleProtos) (.ofString "hall.join") fields = .object fields := rfl
  refine ⟨encoded, (pcDefaultMsgDecode_pcDefaultMsgEncode ⟨64, true⟩ sampleDictionaryPair
    (by decide) (by decide) parsed ?_ sampleText_name (value ▸ sampleText_name) encoded []).mpr
      ⟨?_, ?_⟩⟩
  · intro gprotos pbDef defined
    obtain ⟨rfl, rfl⟩ := sampleProtos_defines defined
    exact ⟨stringSchema_wf rfl, by decide +kernel⟩
  · intro code codeIs
    have seven : pcMsgRouteCode (some sampleRoute2code) (.ofString "hall.join") =
        .ok (Json.number (.ofInt 7)).valueint := rfl
    rw [seven, Json.valueint_ofInt (by decide) (by decide), Except.ok.injEq] at codeIs
    omega
  · intro gprotos pbDef defined
    obtain ⟨rfl, rfl⟩ := sampleProtos_defines defined
    exact List.cons_ne_nil _ _

/-- A message without a field conforms to its definition and is encoded, but comes
back without a text. -/
theorem pcDefaultMsgDecode_pcDefaultMsgEncode_empty :
    let buf : PcBuf := ⟨some ([0, 1, 9] ++ (CStr.ofString "hall.join").bytes), 12⟩
    SchemaWF sampleProtos stringSchema ∧
      conformsFields .unlimited sampleProtos stringSchema [] ∧
        sampleText.PrintsBack (.object []) ∧
          pcDefaultMsgEncode sampleText none (some sampleProtos)
            ⟨1, some (.ofString "hall.join"), some (.ofString "\x7b\x7d")⟩ = .ok buf ∧
          pcDefaultMsgDecode ⟨64, true⟩ sampleText none (some sampleProtos) buf =
            .ok ⟨1, some (.ofString "hall.join"), none⟩ :=
  ⟨stringSchema_wf rfl, rfl, sampleText_empty, by decide +kernel, by decide +kernel⟩

end Pomelo
