import Mathlib.Data.Nat.Pairing
import Pomelo.Transport.Settings

/-!
# The tables and the local storage

The dictionary and the definitions are there whole or not at all, and what the local
storage holds is what a restart would load: the tables that are in memory. An answer
either changes nothing, or what it changes is written.
-/

namespace Pomelo

open Transition Recorded

variable {env : Env} {first second : Sys}

/-- All three are set, or all three are null. -/
def TableSet.Complete (tables : TableSet) : Prop := tables.whole = true ∨ tables.empty = true

/-- Tables that are absent are complete. -/
theorem TableSet.complete_absent : TableSet.absent.Complete := .inr rfl

/-- Incomplete tables are taken for absent ones. -/
theorem TableSet.complete_orAbsent (tables : TableSet) : tables.orAbsent.Complete := by
  rw [orAbsent]
  split
  next whole => exact .inl whole
  · exact complete_absent

/-- Complete tables are taken as they are. -/
theorem TableSet.orAbsent_of_complete {tables : TableSet} (complete : tables.Complete) :
    tables.orAbsent = tables := by
  obtain ⟨version, first, second⟩ := tables
  rw [orAbsent]
  split
  · rfl
  next partly =>
    have empty := complete.resolve_left partly
    simp only [TableSet.empty, Bool.and_eq_true, Option.isNone_iff_eq_none] at empty
    obtain ⟨⟨rfl, rfl⟩, rfl⟩ := empty
    rfl

/-- Parsing what is printed gives back the value. -/
def JsonText.ReadsBack (text : JsonText) : Prop :=
  ∀ json, ∃ printed last, text.print json = some printed ∧
    text.parse (printed.bytes ++ [0]) = some (json, last)

/-- Another start would load the tables that are in memory. -/
def Settings.Loads (env : Env) (settings : Settings) : Prop :=
  ∃ tcp, trUvTcpInit env settings.stored = .ok tcp ∧ tcp.dict = settings.dict ∧
    tcp.protos = settings.protos

/-- An assertion on the tables of an answer fails. -/
def Point.failsTables (point : Point) : Bool :=
  point matches .assertion .handshakeDict | .assertion .handshakeProtos

/-- The condition on the notes of a run. -/
structure HandlingCompletes (point : Point) (_ : Core) : Prop where
  /-- The handling of every answer gets through its assertions. -/
  completes : point.failsTables = false

instance (point : Point) (core : Core) : Decidable (HandlingCompletes point core) :=
  decidable_of_iff (point.failsTables = false)
    ⟨fun completes => ⟨completes⟩, fun ⟨completes⟩ => completes⟩

/-- An answer leaves a set of tables as it is, unless it says that it has changed; and it
leaves the set complete if the assertions on it hold. -/
theorem handshakeTables_spec {use : Option Json} {fresh : Except Stop TableSet}
    {tables : TableSet} {result : TableSet × Bool × Bool}
    (taken : handshakeTables use fresh tables = .ok result) :
    (result.2.1 = false → result.1 = tables) ∧
      (tables.Complete → result.2.2 = true → result.1.Complete) := by
  have off (taken : (if tables.whole then (pure (.absent, true, true) : Except Stop _)
      else pure (tables, false, true)) = .ok result) : (result.2.1 = false → result.1 = tables) ∧
        (tables.Complete → result.2.2 = true → result.1.Complete) := by
    split at taken
    · cases Except.ok.inj taken
      exact ⟨fun unchanged => absurd unchanged nofun, fun _ _ => .inr rfl⟩
    · cases Except.ok.inj taken
      exact ⟨fun _ => rfl, fun complete _ => complete⟩
  unfold handshakeTables at taken
  split at taken
  · exact off taken
  · exact off taken
  · obtain ⟨sent, -, taken⟩ := Stop.bind_eq_ok taken
    split at taken
    · cases Except.ok.inj taken
      exact ⟨fun unchanged => absurd unchanged nofun, fun _ whole => .inl whole⟩
    · cases Except.ok.inj taken
      exact ⟨fun _ => rfl, fun complete _ => complete⟩

/-- What an accepted answer makes of both sets. -/
theorem handshakeAccept_spec {answer : Json} {tcp : Transport} {result : HandshakeResult}
    (accepted : handshakeAccept answer tcp = .ok result) :
    (result.needSync = false → result.tcp.dict = tcp.dict ∧ result.tcp.protos = tcp.protos) ∧
      (tcp.dict.Complete → result.dictAsserted = true → result.tcp.dict.Complete) ∧
        (tcp.protos.Complete → result.protosAsserted = true → result.tcp.protos.Complete) := by
  rw [handshakeAccept] at accepted
  obtain ⟨interval, -, accepted⟩ := Stop.bind_eq_ok accepted
  obtain ⟨useDict, -, accepted⟩ := Stop.bind_eq_ok accepted
  obtain ⟨dict, dicts, accepted⟩ := Stop.bind_eq_ok accepted
  obtain ⟨useProto, -, accepted⟩ := Stop.bind_eq_ok accepted
  obtain ⟨protos, defs, accepted⟩ := Stop.bind_eq_ok accepted
  cases Except.ok.inj accepted
  have beats : (tcp.setHeartbeat interval).dict = tcp.dict ∧
      (tcp.setHeartbeat interval).protos = tcp.protos := by
    rw [Transport.setHeartbeat]
    split <;> exact ⟨rfl, rfl⟩
  rw [beats.1] at dicts
  rw [beats.2] at defs
  obtain ⟨sameDict, completeDict⟩ := handshakeTables_spec dicts
  obtain ⟨sameProtos, completeProtos⟩ := handshakeTables_spec defs
  refine ⟨fun unchanged => ?_, completeDict, completeProtos⟩
  obtain ⟨first, second⟩ := Bool.or_eq_false_iff.mp unchanged
  exact ⟨sameDict first, sameProtos second⟩

theorem isObject_addOption {object : Json} (isObject : object.isObject) (key : String)
    (item : Option Json) : (addOption key item object).isObject := by
  cases item with
  | none => exact isObject
  | some item => cases object <;> first | rfl | exact absurd isObject Bool.false_ne_true

/-- An option under another name changes nothing. -/
theorem lookup_addOption_of_ne (key other : String)
    (ne : CStr.ofString key ≠ CStr.ofString other) (item : Option Json) (object : Json) :
    (addOption key item object).lookup (CStr.ofString other) =
      object.lookup (CStr.ofString other) := by
  cases item with
  | none => rfl
  | some item =>
      cases object with
      | object fields =>
          rw [addOption, pcJSONAddItemToObject, Json.lookup, List.find?_append,
            List.find?_singleton, if_neg (by simpa using ne), Option.or_none]
          rfl
      | _ => rfl

/-- An option is found under its name. -/
theorem lookup_addOption_self {object : Json} (isObject : object.isObject) (key : String)
    (free : object.lookup (CStr.ofString key) = none) (item : Option Json) :
    (addOption key item object).lookup (CStr.ofString key) = item := by
  cases item with
  | none => exact free
  | some item =>
      cases object with
      | object fields =>
          have absent : fields.find? (fun field => field.1 = CStr.ofString key) = none :=
            Option.map_eq_none_iff.mp free
          rw [addOption, pcJSONAddItemToObject, Json.lookup, List.find?_append, absent,
            Option.none_or, List.find?_singleton, if_pos (by simp)]
          rfl
      | _ => exact absurd isObject Bool.false_ne_true

theorem detach_of_isObject {object : Json} (isObject : object.isObject) (key : CStr) :
    pcJSONDetachItemFromObject object key = .ok (object.lookup key) := by
  cases object <;> first | rfl | exact absurd isObject Bool.false_ne_true

/-- The entries that are added to an object one after the other. -/
def addOptions (entries : List (String × Option Json)) (object : Json) : Json :=
  entries.foldl (fun object entry => addOption entry.1 entry.2 object) object

/-- Options under other names change nothing. -/
theorem lookup_addOptions_of_notMem {entries : List (String × Option Json)} {key : String}
    (absent : ∀ entry ∈ entries, CStr.ofString entry.1 ≠ CStr.ofString key) (object : Json) :
    (addOptions entries object).lookup (CStr.ofString key) = object.lookup (CStr.ofString key) := by
  induction entries generalizing object with
  | nil => rfl
  | cons entry entries ih =>
      obtain ⟨other, absent⟩ := List.forall_mem_cons.mp absent
      exact (ih absent _).trans (lookup_addOption_of_ne entry.1 key other entry.2 object)

/-- Under different keys, each entry is found under its own. -/
theorem lookup_addOptions {entries : List (String × Option Json)}
    (distinct : entries.Pairwise fun first second =>
      CStr.ofString first.1 ≠ CStr.ofString second.1) {object : Json} (isObject : object.isObject)
    (free : ∀ entry ∈ entries, object.lookup (CStr.ofString entry.1) = none)
    {key : String} {item : Option Json} (member : (key, item) ∈ entries) :
    (addOptions entries object).lookup (CStr.ofString key) = item := by
  induction entries generalizing object with
  | nil => exact absurd member List.not_mem_nil
  | cons entry entries ih =>
      obtain ⟨others, distinct⟩ := List.pairwise_cons.mp distinct
      obtain ⟨here, free⟩ := List.forall_mem_cons.mp free
      have added := isObject_addOption isObject entry.1 entry.2
      rcases List.mem_cons.mp member with rfl | later
      · exact (lookup_addOptions_of_notMem (fun entry member => (others entry member).symm) _).trans
          (lookup_addOption_self isObject key here item)
      · refine ih distinct added (fun other member => ?_) later
        rw [lookup_addOption_of_ne _ _ (others other member)]
        exact free other member

/-- An object with options is one. -/
theorem isObject_addOptions {object : Json} (isObject : object.isObject)
    (entries : List (String × Option Json)) : (addOptions entries object).isObject := by
  induction entries generalizing object with
  | nil => exact isObject
  | cons entry entries ih => exact ih (isObject_addOption isObject entry.1 entry.2)

/-- What is written, under the keys of the local storage. -/
def storedEntries (tcp : Transport) : List (String × Option Json) :=
  [("dv", tcp.dictVer), ("r2c", tcp.routeToCode), ("c2r", tcp.codeToRoute), ("pv", tcp.protoVer),
    ("pc", tcp.clientProtos), ("ps", tcp.serverProtos)]

/-- What is stored under a name is found under it. -/
theorem detach_localStorage {tcp : Transport} {key : String} {item : Option Json}
    (member : (key, item) ∈ storedEntries tcp) :
    pcJSONDetachItemFromObject (localStorage tcp) (CStr.ofString key) = .ok item := by
  have keys : ([CStr.ofString "dv", CStr.ofString "r2c", CStr.ofString "c2r", CStr.ofString "pv",
      CStr.ofString "pc", CStr.ofString "ps"]).Pairwise (· ≠ ·) := by decide
  have distinct : (storedEntries tcp).Pairwise fun first second =>
      CStr.ofString first.1 ≠ CStr.ofString second.1 := List.pairwise_map.mp keys
  have stored : localStorage tcp = addOptions (storedEntries tcp) (.object []) := rfl
  rw [stored, detach_of_isObject (isObject_addOptions rfl _),
    lookup_addOptions distinct rfl (fun _ _ => rfl) member]

/-- What was printed is loaded again. -/
theorem loads_of_print {text : JsonText} (reads : text.ReadsBack) {tcp : Transport}
    (dict : tcp.dict.Complete) (protos : tcp.protos.Complete) :
    ∃ printed, text.print (localStorage tcp) = some printed ∧
      ∃ last, loadLocalStorage text (some printed) .init = .ok last ∧ last.dict = tcp.dict ∧
        last.protos = tcp.protos := by
  obtain ⟨printed, last, prints, parses⟩ := reads (localStorage tcp)
  refine ⟨printed, prints, ?_⟩
  have parsed : pcJSONParseWithOpts text (printed.bytes ++ [0]) false = .ok (localStorage tcp, last) := by
    rw [pcJSONParseWithOpts, parses]
    rfl
  rw [loadLocalStorage, parsed]
  refine ⟨(Transport.init.setDict tcp.dict.orAbsent).setProtos tcp.protos.orAbsent, ?_,
    TableSet.orAbsent_of_complete dict, TableSet.orAbsent_of_complete protos⟩
  have found {key : String} {item : Option Json} (position : Nat)
      (here : (storedEntries tcp)[position]? = some (key, item)) :
      pcJSONDetachItemFromObject (localStorage tcp) (CStr.ofString key) = .ok item :=
    detach_localStorage (List.mem_of_getElem? here)
  dsimp only
  rw [found 1 rfl, found 2 rfl, found 0 rfl, found 4 rfl, found 5 rfl, found 3 rfl]
  rfl

/-- Where the handling of an answer gets through its assertions, they hold. -/
theorem asserted_of_meets {result : HandshakeResult} {sys : Sys}
    (meets : (handshakeAccepted env result sys).Meets HandlingCompletes) :
    result.dictAsserted = true ∧ result.protosAsserted = true := by
  have completes := meets.of_suffix (suffix_handshakeAccepted env result sys)
  constructor
  · by_contra fails
    rw [Sys.assert, Sys.assert, if_neg fails] at completes
    split at completes
    · exact Bool.noConfusion (completes _ (List.mem_cons_self ..)).completes
    · exact Bool.noConfusion
        (completes _ (List.mem_cons_of_mem _ (List.mem_cons_self ..))).completes
  · by_contra fails
    rw [Sys.assert, if_neg fails] at completes
    exact Bool.noConfusion (completes _ (List.mem_cons_self ..)).completes

/-- The invariant: both sets are complete, and another start would load them. -/
structure Settings.Kept (env : Env) (settings : Settings) : Prop where
  dict : settings.dict.Complete
  protos : settings.protos.Complete
  loads : settings.closed = false → settings.Loads env

/-- Accepting an answer keeps the invariant. -/
theorem kept_handshakeAccepted (reads : env.text.ReadsBack)
    (storage : env.config.localStorageCb = true) {answer : Json} {result : HandshakeResult}
    {sys : Sys} (accepted : handshakeAccept answer sys.state.tcp = .ok result)
    (meets : (handshakeAccepted env result sys).Meets HandlingCompletes)
    (kept : sys.state.settings.Kept env) :
    (handshakeAccepted env result sys).state.settings.Kept env := by
  obtain ⟨dictHolds, protosHold⟩ := asserted_of_meets meets
  obtain ⟨same, dict, protos⟩ := handshakeAccept_spec accepted
  have dict := dict kept.dict dictHolds
  have protos := protos kept.protos protosHold
  rw [settings_handshakeAccepted]
  refine ⟨dict, protos, fun running => ?_⟩
  cases changed : result.needSync with
  | false =>
      -- Nothing has changed, and nothing is written.
      obtain ⟨tcp, init, sameDict, sameProtos⟩ := kept.loads running
      obtain ⟨keptDict, keptProtos⟩ := same changed
      have unwritten : storedText env false { sys.state with tcp := result.tcp } =
          sys.state.stored := by
        rw [storedText, Bool.and_false, if_neg Bool.false_ne_true]
      refine ⟨tcp, ?_, sameDict.trans keptDict.symm, sameProtos.trans keptProtos.symm⟩
      dsimp only
      rw [unwritten]
      exact init
  | true =>
      obtain ⟨printed, prints, last, loaded, loadedDict, loadedProtos⟩ :=
        loads_of_print reads dict protos
      have written : storedText env true { sys.state with tcp := result.tcp } = some printed := by
        rw [storedText, storage, Bool.and_self, if_pos rfl]
        dsimp only
        rw [prints]
        rfl
      refine ⟨last, ?_, loadedDict, loadedProtos⟩
      dsimp only
      rw [written, trUvTcpInit, storage, if_pos rfl]
      exact loaded

theorem complete_loadLocalStorage {text : JsonText} {stored : Option CStr} {tcp : Transport}
    (loaded : loadLocalStorage text stored .init = .ok tcp) :
    tcp.dict.Complete ∧ tcp.protos.Complete := by
  have absent : Transport.init.dict.Complete ∧ Transport.init.protos.Complete :=
    ⟨.inr rfl, .inr rfl⟩
  unfold loadLocalStorage at loaded
  split at loaded
  · cases loaded
    exact absent
  split at loaded
  · cases loaded
    exact absent
  · cases loaded
  · obtain ⟨r2c, -, loaded⟩ := Stop.bind_eq_ok loaded
    obtain ⟨c2r, -, loaded⟩ := Stop.bind_eq_ok loaded
    obtain ⟨dv, -, loaded⟩ := Stop.bind_eq_ok loaded
    obtain ⟨pc, -, loaded⟩ := Stop.bind_eq_ok loaded
    obtain ⟨ps, -, loaded⟩ := Stop.bind_eq_ok loaded
    obtain ⟨pv, -, loaded⟩ := Stop.bind_eq_ok loaded
    cases loaded
    exact ⟨TableSet.complete_orAbsent _, TableSet.complete_orAbsent _⟩

/-- A number for a list, from numbers for its elements. -/
def codeList : List Nat → Nat
  | [] => 0
  | first :: rest => Nat.pair first (codeList rest) + 1

/-- Lists with one code are one list. -/
theorem codeList_injective : Function.Injective codeList := by
  intro first second same
  induction first generalizing second with
  | nil =>
      cases second with
      | nil => rfl
      | cons => exact absurd same nofun
  | cons head first ih =>
      cases second with
      | nil => exact absurd same nofun
      | cons other second =>
          obtain ⟨heads, rests⟩ := Nat.pair_eq_pair.mp (Nat.succ.inj same)
          rw [heads, ih rests]

def CStr.code (string : CStr) : Nat := codeList (string.bytes.map UInt8.toNat)

theorem CStr.code_injective : Function.Injective code := by
  intro first second same
  exact CStr.ext (List.map_injective_iff.mpr (fun _ _ => UInt8.toNat_inj.mp)
    (codeList_injective same))

mutual

/-- A number for a tree. -/
def Json.code : Json → Nat
  | .null => Nat.pair 0 0
  | .false => Nat.pair 1 0
  | .true => Nat.pair 2 0
  | .number valuedouble => Nat.pair 3 valuedouble.toNat
  | .string valuestring => Nat.pair 4 valuestring.code
  | .array child => Nat.pair 5 (codeList (Json.codeItems child))
  | .object child => Nat.pair 6 (codeList (Json.codeFields child))

def Json.codeItems : List Json → List Nat
  | [] => []
  | item :: items => item.code :: Json.codeItems items

def Json.codeFields : List (CStr × Json) → List Nat
  | [] => []
  | (key, value) :: fields => Nat.pair key.code value.code :: Json.codeFields fields

end

theorem Json.codeItems_eq (items : List Json) : codeItems items = items.map code := by
  induction items with
  | nil => rfl
  | cons item items ih => rw [codeItems, ih, List.map_cons]

theorem Json.codeFields_eq (fields : List (CStr × Json)) :
    codeFields fields = fields.map fun field => Nat.pair field.1.code field.2.code := by
  induction fields with
  | nil => rfl
  | cons field fields ih => rw [codeFields, ih, List.map_cons]

/-- A map that takes only equals to equals is injective. -/
theorem eq_of_map_eq {α β : Type} {act : α → β} {first second : List α}
    (only : ∀ item ∈ first, ∀ other, act item = act other → item = other)
    (same : first.map act = second.map act) : first = second := by
  induction first generalizing second with
  | nil => exact (List.map_eq_nil_iff.mp same.symm).symm
  | cons item first ih =>
      cases second with
      | nil => exact absurd same nofun
      | cons other second =>
          obtain ⟨head, tail⟩ := List.forall_mem_cons.mp only
          obtain ⟨heads, tails⟩ := List.cons.inj same
          rw [head other heads, ih tail tails]

/-- Different trees have different numbers. -/
theorem Json.code_injective : Function.Injective Json.code := by
  intro json
  induction json using Json.induct with
  | null => intro other same; cases other <;> simp_all [code, Nat.pair_eq_pair]
  | false => intro other same; cases other <;> simp_all [code, Nat.pair_eq_pair]
  | true => intro other same; cases other <;> simp_all [code, Nat.pair_eq_pair]
  | number value =>
      intro other same
      cases other <;> simp [code, Nat.pair_eq_pair] at same
      next bits => rw [BitVec.eq_of_toNat_eq same]
  | string text =>
      intro other same
      cases other <;> simp [code, Nat.pair_eq_pair] at same
      next string => rw [CStr.code_injective same]
  | array items ih =>
      intro other same
      cases other <;> simp [code, Nat.pair_eq_pair] at same
      next others =>
        have same := codeList_injective same
        rw [codeItems_eq, codeItems_eq] at same
        rw [eq_of_map_eq (fun item member other same => ih item member same) same]
  | object fields ih =>
      intro other same
      cases other <;> simp [code, Nat.pair_eq_pair] at same
      next others =>
        have same := codeList_injective same
        rw [codeFields_eq, codeFields_eq] at same
        refine congrArg Json.object (eq_of_map_eq (fun field member other same => ?_) same)
        obtain ⟨keys, values⟩ := Nat.pair_eq_pair.mp same
        exact Prod.ext (CStr.code_injective keys) (ih field member values)

/-- The bytes that stand for a tree by its number. -/
def Json.unary (json : Json) : Bytes := List.replicate (json.code + 1) 1

/-- The printer and the parser of `pc_JSON.c`, except that a value which they do not keep is
written as a number, in a control character that no JSON begins with. -/
noncomputable def keepingText : JsonText where
  print := fun json =>
    if json.whole = true ∧ (printValue json).length < 2 ^ 31 then some (printValue json)
    else some { bytes := json.unary
                noZero := fun member => absurd (List.eq_of_mem_replicate member) (by decide) }
  parse := fun bytes =>
    if bytes.head? = some 1 then
      let digits := bytes.takeWhile (· = 1)
      (Function.partialInv Json.code (digits.length - 1)).map fun json => (json, digits.length)
    else (pcJSONSource samplePow).parse bytes

/-- A value is parsed back from its code. -/
theorem parse_unary (json : Json) :
    keepingText.parse (json.unary ++ [0]) = some (json, json.code + 1) := by
  have digits : (json.unary ++ [0]).takeWhile (· = 1) = json.unary := by
    rw [List.takeWhile_append_of_pos fun byte member => by simpa using List.eq_of_mem_replicate member]
    exact List.append_nil _
  have head : (json.unary ++ [0]).head? = some 1 := rfl
  have length : json.unary.length = json.code + 1 := List.length_replicate ..
  simp only [keepingText, head, if_true, digits, length, Nat.add_sub_cancel,
    Function.partialInv_left Json.code_injective, Option.map_some]

/-- The printer and the parser of the sample agree. -/
theorem readsBack_keepingText : keepingText.ReadsBack := by
  intro json
  by_cases kept : json.whole = true ∧ (printValue json).length < 2 ^ 31
  · refine ⟨printValue json, (printValue json).length, if_pos kept, ?_⟩
    obtain ⟨first, behind, bytes, seen⟩ := beginsVisibly_printValue kept.1
    have head : ((printValue json).bytes ++ [0]).head? ≠ some 1 := by
      rw [bytes]
      rintro ⟨⟩
      exact absurd seen (by decide)
    have ends : json.endsAt [0] = true := by cases json <;> rfl
    exact (if_neg head).trans
      (pcJSONSource_parse_printValue (by decide) kept.1 kept.2 ends rfl)
  · exact ⟨_, _, if_neg kept, parse_unary json⟩

/-- A client with a local storage, which is empty at first. -/
noncomputable def storageEnv : Env :=
  { Env.sample fun _ => [] with
    text := keepingText
    config := { pcClientConfigDefault with localStorageCb := true } }

/-- A package with a text, of less than 256 bytes. -/
def textPackage (type : PkgType) (text : String) : Bytes :=
  let bytes := (CStr.ofString text).bytes
  [type.code, 0, 0, UInt8.ofNat bytes.length] ++ bytes

/-- The first answer brings a dictionary and definitions. -/
def tablesSent : Bytes :=
  textPackage .handshake ("\x7b\"code\":200,\"sys\":\x7b\"heartbeat\":3,\"useDict\":true," ++
    "\"dictVersion\":\"d1\",\"routeToCode\":\x7b\"a.b\":1\x7d," ++
    "\"codeToRoute\":\x7b\"1\":\"a.b\"\x7d,\"useProto\":true,\"protos\":\x7b\"version\":" ++
    "\"p1\",\"client\":\x7b\x7d,\"server\":\x7b\x7d\x7d\x7d\x7d")

/-- The second one keeps the dictionary, and switches the definitions off. -/
def tablesKept : Bytes :=
  textPackage .handshake ("\x7b\"code\":200,\"sys\":\x7b\"heartbeat\":3,\"useDict\":true," ++
    "\"useProto\":false\x7d\x7d")

/-- The user connects, disconnects and connects again, and both handshakes are answered. -/
def answeredTwice : List Label :=
  handshakeSent ++ [.loop (.read tablesSent), .loop (.writeAsync 0), .loop (.writeDone 0),
    .begin (.api .disconnect), .advance 1, .advance 1, .advance 1, .loop .disconnectAsync,
    .begin (.api (.connect (some (CStr.ofString "host")) 3010 none)), .advance 2, .advance 2,
    .advance 2, .loop (.connAsync true 0), .loop (.connDone 0 0), .loop (.writeAsync 0),
    .loop (.writeDone 0), .loop (.read tablesKept)]

end Pomelo
