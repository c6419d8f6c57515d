import Pomelo.Transport.QueueInvariant
import Pomelo.Transport.Settings

/-!
# The answer to a handshake

What `tcp__on_handshake_resp` makes of any bytes: either the connection is done, with the
acknowledgement queued and the client told, or it is reset, and nothing is settled. The
function follows the null pointer of an answer that is no JSON, and leaves partial tables
to its assertions, so one of the two is reached exactly when the answer is what it needs.
-/

namespace Pomelo

open Transition Recorded

variable {env : Env} {first second : Sys}

/-- A value that can be searched for a key: it is not an array with items. -/
def Json.searchable : Json → Bool
  | .array (_ :: _) => Bool.false
  | _ => Bool.true

/-- An object or an array can be searched. -/
theorem pcJSONGetObjectItem_searchable {object : Json} (searchable : object.searchable)
    (key : CStr) : pcJSONGetObjectItem object key = .ok (object.lookup key) := by
  match object, searchable with
  | .null, _ | .false, _ | .true, _ | .number _, _ | .string _, _ | .object _, _ => rfl
  | .array [], _ => rfl
  | .array (_ :: _), searchable => exact absurd searchable Bool.false_ne_true

/-- Anything else is dereferenced in vain. -/
theorem pcJSONGetObjectItem_unsearchable {object : Json} (unsearchable : object.searchable = false)
    (key : CStr) : pcJSONGetObjectItem object key = .error .nullDeref := by
  match object, unsearchable with
  | .array (_ :: _), _ => rfl

/-- The item under a key. -/
def Json.item (object : Json) (key : String) : Option Json := object.lookup (CStr.ofString key)

/-- The answer tells that all is well. -/
def Json.codeOk (res : Json) : Bool :=
  match res.item "code" with
  | some (.number code) => (Json.number code).valueint = pcHandshakeOk
  | _ => Bool.false

/-- A switch of the answer is on: it is there, and not `false`. -/
def Json.switchedOn (sys : Json) (key : String) : Bool :=
  match sys.item key with
  | none | some .false => Bool.false
  | some _ => Bool.true

/-- The dictionary that an answer brings. -/
def Json.dictTables (sys : Json) : TableSet where
  version := sys.item "dictVersion"
  first := sys.item "routeToCode"
  second := sys.item "codeToRoute"

/-- The definitions that an answer brings. -/
def Json.protosTables (sys : Json) : TableSet :=
  match sys.item "protos" with
  | none => .absent
  | some protos =>
      { version := protos.item "version", first := protos.item "client",
        second := protos.item "server" }

/-- Where tables are used, the answer brings all of them, or none of them when they are
stored. -/
def TableSet.Supplied (on : Bool) (fresh stored : TableSet) : Prop :=
  on = true → fresh.whole = true ∨ fresh.empty = true ∧ stored.whole = true

/-- What an answer that is accepted has to be like. -/
structure AnswerSound (sys : Json) (dict protos : TableSet) : Prop where
  searchable : sys.searchable = true
  dict : TableSet.Supplied (sys.switchedOn "useDict") sys.dictTables dict
  definitions : sys.switchedOn "useProto" = true →
    ∀ protos, sys.item "protos" = some protos → protos.searchable = true
  protos : TableSet.Supplied (sys.switchedOn "useProto") sys.protosTables protos

/-- What the bytes of an answer have to be like: JSON that can be searched, and if it tells
that all is well and has a `sys`, this is sound. -/
def ResponseSound (text : JsonText) (data : Option Bytes) (dict protos : TableSet) : Prop :=
  ∃ res last, data.bind text.parse = some (res, last) ∧ res.searchable = true ∧
    (res.codeOk = true → ∀ sys, res.item "sys" = some sys → AnswerSound sys dict protos)

/-- A searchable answer has its `sys` where its code is 200. -/
theorem handshakeSys_searchable {res : Json} (searchable : res.searchable) :
    handshakeSys res = .ok (if res.codeOk then res.item "sys" else none) := by
  rw [handshakeSys, pcJSONGetObjectItem_searchable searchable, Stop.ok_bind, Json.codeOk, Json.item]
  cases res.lookup (CStr.ofString "code") with
  | none => rfl
  | some code =>
      cases code with
      | number code =>
          by_cases ok : (Json.number code).valueint = pcHandshakeOk
          · simp only [ok, decide_true, if_true, pcJSONGetObjectItem_searchable searchable]
            rfl
          · simp only [ok, decide_false, if_false, Bool.false_eq_true]
            rfl
      | _ => rfl

/-- An answer that is no object fails. -/
theorem handshakeSys_unsearchable {res : Json} (unsearchable : res.searchable = false) :
    handshakeSys res = .error .nullDeref := by
  rw [handshakeSys, pcJSONGetObjectItem_unsearchable unsearchable]
  rfl

/-- The tables are new if they are announced, else the old ones. -/
theorem handshakeTables_eq {sys : Json} {key : String} {fresh : Except Stop TableSet}
    {tables : TableSet} :
    handshakeTables (sys.item key) fresh tables =
      if sys.switchedOn key then do
        let fresh ← fresh
        if fresh.version.isSome then return (fresh, true, fresh.whole)
        else return (tables, false, fresh.empty && tables.whole)
      else if tables.whole then return (.absent, true, true)
      else return (tables, false, true) := by
  rw [Json.switchedOn]
  cases sys.item key with
  | none => rfl
  | some use => cases use <;> rfl

/-- The tables of an answer are taken, and their assertions hold, if and only if the answer
supplies what it uses. -/
theorem handshakeTables_asserted_iff (sys : Json) (key : String) (tables : TableSet)
    {fresh : Except Stop TableSet} {brought : TableSet} (found : sys.switchedOn key = true → fresh = .ok brought) :
    (∃ result, handshakeTables (sys.item key) fresh tables = .ok result ∧ result.2.2 = true) ↔
      TableSet.Supplied (sys.switchedOn key) brought tables := by
  rw [handshakeTables_eq]
  cases on : sys.switchedOn key with
  | false =>
      rw [if_neg Bool.false_ne_true]
      refine ⟨fun _ off => absurd off Bool.false_ne_true, fun _ => ?_⟩
      split <;> exact ⟨_, rfl, rfl⟩
  | true =>
      rw [if_pos rfl, found on, Stop.ok_bind]
      cases version : brought.version with
      | some _ =>
          have filled : brought.empty = false := by
            rw [TableSet.empty, version]
            rfl
          rw [if_pos (by exact rfl)]
          constructor
          · rintro ⟨result, taken, asserted⟩ -
            cases Except.ok.inj taken
            exact .inl asserted
          · intro supplied
            rcases supplied rfl with whole | ⟨empty, -⟩
            · exact ⟨_, rfl, whole⟩
            · exact absurd (filled.symm.trans empty) Bool.false_ne_true
      | none =>
          have partly : brought.whole = false := by
            rw [TableSet.whole, version]
            rfl
          rw [if_neg (by exact Bool.false_ne_true)]
          constructor
          · rintro ⟨result, taken, asserted⟩ -
            cases Except.ok.inj taken
            exact .inr (Bool.and_eq_true_iff.mp asserted)
          · intro supplied
            rcases supplied rfl with whole | both
            · exact absurd (partly.symm.trans whole) Bool.false_ne_true
            · exact ⟨_, rfl, Bool.and_eq_true_iff.mpr both⟩

/-- The dictionary is read from a searchable `sys`. -/
theorem handshakeDict_searchable {sys : Json} (searchable : sys.searchable) :
    handshakeDict sys = .ok sys.dictTables := by
  rw [handshakeDict]
  simp only [pcJSONDetachItemFromObject, pcJSONGetObjectItem_searchable searchable, Stop.ok_bind]
  rfl

/-- The definitions are found if and only if they can be searched. -/
theorem handshakeProtos_searchable {sys : Json} (searchable : sys.searchable)
    (definitions : ∀ protos, sys.item "protos" = some protos → protos.searchable = true) :
    handshakeProtos sys = .ok sys.protosTables := by
  rw [handshakeProtos, pcJSONGetObjectItem_searchable searchable, Stop.ok_bind, Json.protosTables]
  change (match sys.item "protos" with | none => _ | some protos => _) = _
  cases found : sys.item "protos" with
  | none => rfl
  | some protos =>
      have searchable := definitions protos found
      simp only [pcJSONDetachItemFromObject, pcJSONGetObjectItem_searchable searchable,
        Stop.ok_bind]
      rfl

/-- Definitions that are no object fail. -/
theorem handshakeProtos_unsearchable {sys protos : Json} (searchable : sys.searchable)
    (found : sys.item "protos" = some protos) (unsearchable : protos.searchable = false) :
    handshakeProtos sys = .error .nullDeref := by
  rw [handshakeProtos, pcJSONGetObjectItem_searchable searchable, Stop.ok_bind]
  change (match sys.item "protos" with | none => _ | some protos => _) = _
  rw [found]
  simp only [pcJSONDetachItemFromObject, pcJSONGetObjectItem_unsearchable unsearchable]
  rfl

/-- A searchable `sys` has an interval, if only the default. -/
theorem handshakeHeartbeat_searchable {sys : Json} (searchable : sys.searchable) :
    ∃ interval, handshakeHeartbeat sys = .ok interval := by
  rw [handshakeHeartbeat, pcJSONGetObjectItem_searchable searchable, Stop.ok_bind]
  split <;> exact ⟨_, rfl⟩

/-- The definitions of an answer are taken, and their assertions hold, if and only if they
can be searched and the answer supplies what it uses. -/
theorem handshakeProtos_asserted_iff {sys : Json} (searchable : sys.searchable)
    (tables : TableSet) :
    (∃ result, handshakeTables (sys.item "useProto") (handshakeProtos sys) tables = .ok result ∧
        result.2.2 = true) ↔
      (sys.switchedOn "useProto" = true →
        ∀ protos, sys.item "protos" = some protos → protos.searchable = true) ∧
      TableSet.Supplied (sys.switchedOn "useProto") sys.protosTables tables := by
  by_cases definitions : sys.switchedOn "useProto" = true →
      ∀ protos, sys.item "protos" = some protos → protos.searchable = true
  · have supplied := handshakeTables_asserted_iff sys "useProto" tables
      fun on => handshakeProtos_searchable searchable (definitions on)
    exact supplied.trans ⟨fun holds => ⟨definitions, holds⟩, And.right⟩
  · refine ⟨fun ⟨result, taken, _⟩ => ?_, fun both => absurd both.1 definitions⟩
    push Not at definitions
    obtain ⟨on, protos, found, unsearchable⟩ := definitions
    rw [handshakeTables_eq, if_pos on, handshakeProtos_unsearchable searchable found
      (Bool.eq_false_of_not_eq_true unsearchable)] at taken
    exact absurd taken nofun

/-- An answer is accepted, and its assertions hold, if and only if it is sound. -/
theorem handshakeAccept_asserted_iff {sys : Json} {tcp : Transport} :
    (∃ result, handshakeAccept sys tcp = .ok result ∧ result.dictAsserted = true ∧
      result.protosAsserted = true) ↔ AnswerSound sys tcp.dict tcp.protos := by
  rw [handshakeAccept]
  cases searchable : sys.searchable with
  | false =>
      rw [handshakeHeartbeat, pcJSONGetObjectItem_unsearchable searchable]
      exact ⟨(by rintro ⟨_, ⟨⟩, _⟩),
        fun sound => absurd (searchable.symm.trans sound.searchable) Bool.false_ne_true⟩
  | true =>
      obtain ⟨interval, beats⟩ := handshakeHeartbeat_searchable searchable
      have kept : (tcp.setHeartbeat interval).dict = tcp.dict ∧
          (tcp.setHeartbeat interval).protos = tcp.protos := by
        rw [Transport.setHeartbeat]
        split <;> exact ⟨rfl, rfl⟩
      have dict := handshakeTables_asserted_iff sys "useDict" tcp.dict
        fun _ => handshakeDict_searchable searchable
      have protos := handshakeProtos_asserted_iff searchable tcp.protos
      rw [beats, Stop.ok_bind, pcJSONGetObjectItem_searchable searchable, Stop.ok_bind, kept.1]
      constructor
      · rintro ⟨result, taken, dictHolds, protosHold⟩
        obtain ⟨dicts, first, taken⟩ := Stop.bind_eq_ok taken
        rw [pcJSONGetObjectItem_searchable searchable, Stop.ok_bind, kept.2] at taken
        obtain ⟨defs, second, taken⟩ := Stop.bind_eq_ok taken
        cases Except.ok.inj taken
        obtain ⟨definitions, supplied⟩ := protos.mp ⟨defs, second, protosHold⟩
        exact ⟨searchable, dict.mp ⟨dicts, first, dictHolds⟩, definitions, supplied⟩
      · intro sound
        obtain ⟨dicts, first, dictHolds⟩ := dict.mpr sound.dict
        obtain ⟨defs, second, protosHold⟩ := protos.mpr ⟨sound.definitions, sound.protos⟩
        change (∃ result, (handshakeTables (sys.item "useDict") _ _ >>= _) = _ ∧ _)
        rw [first, Stop.ok_bind, pcJSONGetObjectItem_searchable searchable, Stop.ok_bind, kept.2]
        change (∃ result, (handshakeTables (sys.item "useProto") _ _ >>= _) = _ ∧ _)
        rw [second, Stop.ok_bind]
        exact ⟨_, rfl, dictHolds, protosHold⟩

/-- The events among some notes, newest first. -/
def fired (notes : List (Point × Core)) : List EvType :=
  notes.filterMap fun entry => match entry.1 with
    | .fire type => some type
    | _ => none

/-- An assertion of `tcp__on_handshake_resp` fails. -/
def Point.failsAnswer (point : Point) : Bool :=
  point matches .assertion .handshakeState | .assertion .handshakeDict |
    .assertion .handshakeProtos

/-- Some events are fired, and no assertion of `tcp__on_handshake_resp` fails. -/
def Fires (events : List EvType) (first second : Sys) : Prop :=
  ∃ new, second.notes = new ++ first.notes ∧ fired new = events ∧
    ∀ entry ∈ new, entry.1.failsAnswer = false

/-- The handshake is done: one acknowledgement is queued, before all else that waits, and
the client is told. -/
structure Connects (first second : Sys) : Prop where
  events : Fires [.connected] first second
  state : second.state.tcp.state = .done
  ack : ∃ ack sent, second.state.tcp.wq.writeWait =
      ack :: first.state.tcp.wq.writeWait ++ sent ∧
    ack.type = .internal ∧ ack.pkgType = some PkgType.handshakeAck.code ∧
      ∀ item ∈ sent, item.type ≠ .internal

/-- The handshake has failed: the client is told, the transport is reset, which is the last
that happens, and what has been settled before is left. -/
structure Refuses (first second : Sys) : Prop where
  events : Fires [.connectFailed] first second
  state : second.state.tcp.state = .notConn
  last : ∃ core earlier, second.notes = (.resetDone, core) :: earlier
  settings : second.state.settings = first.state.settings

/-- An answer is handled with one of the two outcomes. -/
def HandshakeTotal (env : Env) (data : Option Bytes) (len : Nat) (sys : Sys) : Prop :=
  let first := sys.note (.package PkgType.handshake.code data)
  let second := trTcpOnPkgHandler env PkgType.handshake.code data len sys
  Connects first second ∨ Refuses first second

namespace Fires

variable {early late : List EvType} {third : Sys}

theorem trans (left : Fires early first second) (right : Fires late second third) :
    Fires (late ++ early) first third := by
  obtain ⟨before, earlier, rfl, passed⟩ := left
  obtain ⟨after, later, rfl, holds⟩ := right
  refine ⟨after ++ before, by rw [later, earlier, List.append_assoc], List.filterMap_append, ?_⟩
  intro entry member
  exact (List.mem_append.mp member).elim (holds entry) (passed entry)

theorem of_notes (notes : second.notes = first.notes) : Fires [] first second :=
  ⟨[], notes, rfl, fun _ member => absurd member List.not_mem_nil⟩

theorem of_adds {kind : Point → Bool} (adds : Adds kind first second)
    (silent : ∀ {point : Point}, kind point → point.failsAnswer = false)
    (quiet : ∀ {type : EvType}, kind (.fire type) = false) : Fires [] first second := by
  obtain ⟨new, notes, kinds⟩ := adds
  refine ⟨new, notes, List.filterMap_eq_nil_iff.mpr fun entry member => ?_,
    fun entry member => silent (kinds entry member)⟩
  have kind := kinds entry member
  split
  next fires =>
    rw [fires, quiet] at kind
    exact absurd kind Bool.false_ne_true
  · rfl

theorem of_quiet (quiet : Quiet first second) : Fires [] first second := by
  refine of_adds quiet.notes (fun {point} kind => ?_) rfl
  cases point with
  | assertion site => cases site <;> first | rfl | exact absurd kind Bool.false_ne_true
  | _ => rfl

theorem of_fire (type : EvType) (sys : Sys) : Fires [type] sys (sys.note (.fire type)) :=
  ⟨[(.fire type, sys.state)], rfl, rfl, fun entry member => by
    rw [List.mem_singleton.mp member]
    rfl⟩

theorem fireEvent (type : EvType) (arg1 arg2 : Option CStr) (sys : Sys) :
    Fires [type] sys (Pomelo.fireEvent env type arg1 arg2 sys) :=
  (of_fire type sys).trans (of_quiet (quiet_fireEvent env type arg1 arg2 sys))

theorem tcpReset (sys : Sys) : Fires [] sys (Pomelo.tcpReset env sys) := by
  refine of_adds (@adds_tcpReset env sys) (fun {point} kind => ?_) rfl
  cases point with
  | assertion site => cases site <;> first | rfl | exact absurd kind Bool.false_ne_true
  | _ => rfl

/-- The same notes tell the same events. -/
theorem unique (left : Fires early first second) {new : List (Point × Core)}
    (notes : second.notes = new ++ first.notes) :
    fired new = early ∧ ∀ entry ∈ new, entry.1.failsAnswer = false := by
  obtain ⟨same, split, rfl, passed⟩ := left
  rw [split] at notes
  rw [← List.append_cancel_right notes]
  exact ⟨rfl, passed⟩

end Fires

/-- While something is delivered, only messages are queued, behind all that waits. -/
theorem Delivered.appends (delivered : Delivered env first second) :
    ∃ sent, second.state.tcp.wq.items first.state.tcp.state.inbox =
      first.state.tcp.wq.items first.state.tcp.state.inbox ++ sent ∧
        ∀ item ∈ sent, item.type ≠ .internal := by
  induction delivered with
  | refl => exact ⟨[], (List.append_nil _).symm, fun _ member => absurd member List.not_mem_nil⟩
  | @tail mid last before step ih =>
      obtain ⟨sent, earlier, messages⟩ := ih
      have state : mid.state.tcp.state = first.state.tcp.state := (Fills.of_delivered before).state
      rcases step.still_or_accepts with still | ⟨next, item, start, accepts, rest⟩
      · exact ⟨sent, by rw [still.wq, earlier], messages⟩
      · have inbox : next.state.tcp.state = first.state.tcp.state :=
          (Fills.of_still start).state.trans state
        have queued := Core.items_insert next.state item next.state.tcp.state.inbox
        rw [if_pos rfl, inbox, start.wq, earlier] at queued
        refine ⟨sent ++ [item], ?_, fun other member => ?_⟩
        · rw [rest.wq, ← List.append_assoc]
          exact queued
        · rcases List.mem_append.mp member with early | late
          · exact messages other early
          · obtain ⟨id, kind, req, buf, -, rfl⟩ := accepts
            rw [List.mem_singleton.mp late, Core.newItem]
            dsimp only
            split <;> exact nofun

variable (env) in

/-- A failed handshake refuses the connection. -/
theorem refuses_handshakeFailed (sys : Sys) : Refuses sys (handshakeFailed env sys) where
  events := (Fires.fireEvent .connectFailed _ _ sys).trans (.tcpReset _)
  state := by
    have link := @link_tcpReset env (fireReason env .connectFailed "Handshake Error" sys)
    exact congrArg Link.state link
  last := ⟨_, _, rfl⟩
  settings := congrArg Frame.settings (frame_handshakeFailed env sys)

variable (env) in
/-- Accepting a sound answer leads to the end of the handshake. -/
theorem connects_handshakeAccepted {answer : Json} {result : HandshakeResult} {sys : Sys}
    (accepted : handshakeAccept answer sys.state.tcp = .ok result)
    (dict : result.dictAsserted = true) (protos : result.protosAsserted = true) :
    Connects sys (handshakeAccepted env result sys) := by
  have stored := state_storeHandshake env result.needSync (sys.tcp fun _ => result.tcp)
  have unnoted : (storeHandshake env result.needSync (sys.tcp fun _ => result.tcp)).notes =
      sys.notes := by
    rw [storeHandshake]
    split
    · split <;> rfl
    · rfl
  rw [handshakeAccepted, Sys.assert, if_pos protos, Sys.assert, if_pos dict]
  generalize storeHandshake env result.needSync (sys.tcp fun _ => result.tcp) = mid
    at stored unnoted ⊢
  have waits : mid.state.tcp.wq.writeWait = sys.state.tcp.wq.writeWait := by
    have kept := congrArg WriteQueues.writeWait (alike_handshakeAccept accepted).wq
    rw [stored]
    exact kept
  have done (first : Sys) : ∃ next, next.notes = first.notes ∧
      next.state.tcp.state = .done ∧ next.state.tcp.wq = first.state.tcp.wq ∧
        handshakeDone env first =
          (fireEvent env .connected none none next).tcp fun tcp => { tcp with writeAsync := true } :=
    ⟨first.tcp fun tcp => { tcp with
      state := .done
      hbTimer :=
        if tcp.hbInterval ≠ -1 then .start tcp.loopTime (toInt32 (tcp.hbInterval * 1000))
        else tcp.hbTimer }, rfl, rfl, rfl, rfl⟩
  obtain ⟨next, notes, state, wq, finished⟩ := done (tcpSendHandshakeAck env mid)
  have acked : (tcpSendHandshakeAck env mid).state.tcp.wq.writeWait =
      mid.state.internalItem (pcPkgEncode env.platform PkgType.handshakeAck.code none 0) ::
        mid.state.tcp.wq.writeWait := rfl
  have quiet := quiet_fireEvent env .connected none none next
  obtain ⟨sent, appended, messages⟩ :=
    (@delivered_fireEvent env .connected none none next).appends
  have inbox : (next.note (.fire .connected)).state.tcp.state.inbox = .writeWait := if_pos state
  rw [inbox] at appended
  rw [finished]
  refine ⟨?_, ?_, ?_⟩
  · exact ((Fires.of_notes (notes.trans unnoted)).trans (.fireEvent .connected none none next)).trans
      (.of_notes rfl)
  · have kept := congrArg Transport.state quiet.conn
    exact Eq.trans kept state
  · refine ⟨mid.state.internalItem (pcPkgEncode env.platform PkgType.handshakeAck.code none 0), sent,
      ?_, rfl, rfl, messages⟩
    · change (fireEvent env .connected none none next).state.tcp.wq.writeWait = _
      exact appended.trans (by
        change next.state.tcp.wq.writeWait ++ sent = _
        rw [wq, acked, waits])

/-- A failed assertion is never forgotten. -/
theorem not_asserted {result : HandshakeResult} {sys : Sys} {events : List EvType}
    (started : first.notes <:+ sys.notes)
    (fires : Fires events first (handshakeAccepted env result sys)) :
    result.dictAsserted = true ∧ result.protosAsserted = true := by
  have noted (entry : Point × Core) (before : List (Point × Core)) (fails : entry.1.failsAnswer)
      (since : first.notes <:+ before)
      (ends : entry :: before <:+ (handshakeAccepted env result sys).notes) : False := by
    obtain ⟨early, since⟩ := since
    obtain ⟨late, ends⟩ := ends
    rw [← since, ← List.cons_append, ← List.append_assoc] at ends
    have passed := (fires.unique ends.symm).2 entry
      (List.mem_append_right _ List.mem_cons_self)
    exact absurd (fails.symm.trans passed) nofun
  have handled := suffix_handshakeAccepted env result sys
  constructor
  · by_contra fails
    have failed : (sys.assert (fun _ => result.dictAsserted) .handshakeDict).notes =
        (.assertion .handshakeDict, sys.state) :: sys.notes := by
      rw [Sys.assert, if_neg fails]
      rfl
    have second := (Plain.assert (fun _ => result.protosAsserted) .handshakeProtos
      (sys.assert (fun _ => result.dictAsserted) .handshakeDict)).suffix
    rw [failed] at second
    exact noted _ _ rfl started (second.trans handled)
  · by_contra fails
    have asserted := (Plain.assert (fun _ => result.dictAsserted) .handshakeDict sys).suffix
    generalize sys.assert (fun _ => result.dictAsserted) .handshakeDict = mid at asserted handled
    have failed : (mid.assert (fun _ => result.protosAsserted) .handshakeProtos).notes =
        (.assertion .handshakeProtos, mid.state) :: mid.notes := by
      rw [Sys.assert, if_neg fails]
      rfl
    rw [failed] at handled
    exact noted _ _ rfl (started.trans asserted) handled

/-- What is kept until the answer has been read. -/
structure Answering (first second : Sys) : Prop where
  fires : Fires [] first second
  settings : second.state.settings = first.state.settings
  wq : second.state.tcp.wq = first.state.tcp.wq

variable (env) in

/-- What precedes the answer fires nothing. -/
theorem answering_handshakeAnswering {sys : Sys}
    (handshakeing : sys.state.tcp.state = .handshakeing) :
    Answering sys (handshakeAnswering env sys) := by
  rw [handshakeAnswering, Sys.assert, if_pos (decide_eq_true handshakeing)]
  exact ⟨.of_notes rfl, rfl, rfl⟩

namespace Answering

variable {mid last : Sys}

/-- What leads to the connection leads to it from the answer. -/
theorem connects (answering : Answering first mid) (connects : Connects mid last) :
    Connects first last where
  events := answering.fires.trans connects.events
  state := connects.state
  ack := by
    rw [← answering.wq]
    exact connects.ack

/-- What leads to the refusal leads to it from the answer. -/
theorem refuses (answering : Answering first mid) (refuses : Refuses mid last) :
    Refuses first last where
  events := answering.fires.trans refuses.events
  state := refuses.state
  last := refuses.last
  settings := refuses.settings.trans answering.settings

end Answering

/-- A crash leads to none of the outcomes. -/
theorem not_outcome_crash {stop : Stop} {events : List EvType}
    (fires : Fires events first second) (none : events ≠ [.connected]) :
    ¬ (Connects first (second.crash stop) ∨ Refuses first (second.crash stop)) := by
  have crashed : Fires events first (second.crash stop) := by
    obtain ⟨new, notes, same, passed⟩ := fires
    refine ⟨(.crash stop, second.state) :: new, congrArg (_ :: ·) notes, same, ?_⟩
    intro entry member
    rcases List.mem_cons.mp member with rfl | member
    · rfl
    · exact passed entry member
  rintro (connects | refuses)
  · obtain ⟨new, notes, same, -⟩ := connects.events
    exact none ((crashed.unique notes).1.symm.trans same)
  · obtain ⟨core, earlier, last⟩ := refuses.last
    exact absurd (List.cons.inj last).1 nofun

/-- The `sys` of an answer is handled with one of the two outcomes if and only if it is
sound. -/
theorem handshakeAccept_outcome_iff {sys : Json} {mid : Sys} (answering : Answering first mid) :
    let last := match handshakeAccept sys mid.state.tcp with
      | .error stop => mid.crash stop
      | .ok result => handshakeAccepted env result mid
    Connects first last ∨ Refuses first last ↔
      AnswerSound sys first.state.tcp.dict first.state.tcp.protos := by
  have dict : mid.state.tcp.dict = first.state.tcp.dict := congrArg Settings.dict answering.settings
  have protos : mid.state.tcp.protos = first.state.tcp.protos :=
    congrArg Settings.protos answering.settings
  have sound := @handshakeAccept_asserted_iff sys mid.state.tcp
  rw [dict, protos] at sound
  refine Iff.trans ?_ sound
  cases taken : handshakeAccept sys mid.state.tcp with
  | error stop =>
      refine iff_of_false (not_outcome_crash answering.fires nofun) ?_
      rintro ⟨result, other, -⟩
      exact absurd other nofun
  | ok result =>
      have started : first.notes <:+ mid.notes := by
        obtain ⟨new, notes, -⟩ := answering.fires
        exact ⟨new, notes.symm⟩
      constructor
      · intro outcome
        refine ⟨result, rfl, ?_⟩
        rcases outcome with connects | refuses
        · exact not_asserted started connects.events
        · exact not_asserted started refuses.events
      · rintro ⟨other, same, dictHolds, protosHold⟩
        cases Except.ok.inj same
        exact .inl (answering.connects (connects_handshakeAccepted env taken dictHolds protosHold))

/-- An answer that has been parsed is handled with one of the two outcomes if and only if
it can be searched, and is sound where it is accepted. -/
theorem onHandshakeRes_outcome_iff {res : Json} {mid : Sys} (answering : Answering first mid) :
    Connects first (onHandshakeRes env res mid) ∨ Refuses first (onHandshakeRes env res mid) ↔
      res.searchable = true ∧ (res.codeOk = true → ∀ sys, res.item "sys" = some sys →
        AnswerSound sys first.state.tcp.dict first.state.tcp.protos) := by
  rw [onHandshakeRes]
  cases searchable : res.searchable with
  | false =>
      rw [handshakeSys_unsearchable searchable]
      exact iff_of_false (not_outcome_crash answering.fires (by rintro ⟨⟩))
        fun both => absurd both.1 Bool.false_ne_true
  | true =>
      rw [handshakeSys_searchable searchable]
      by_cases ok : res.codeOk = true
      · rw [if_pos ok]
        cases found : res.item "sys" with
        | none =>
            exact iff_of_true (.inr (answering.refuses (refuses_handshakeFailed env mid)))
              ⟨rfl, (by rintro _ _ ⟨⟩)⟩
        | some sys =>
            have only : (true = true ∧ (res.codeOk = true → ∀ other, some sys = some other →
                AnswerSound other first.state.tcp.dict first.state.tcp.protos)) ↔
                AnswerSound sys first.state.tcp.dict first.state.tcp.protos :=
              ⟨fun both => both.2 ok sys rfl,
                fun sound => ⟨rfl, fun _ _ same => Option.some.inj same ▸ sound⟩⟩
            exact (handshakeAccept_outcome_iff answering).trans only.symm
      · rw [if_neg ok]
        exact iff_of_true (.inr (answering.refuses (refuses_handshakeFailed env mid)))
          ⟨rfl, fun accepted => absurd accepted ok⟩

/-- In HANDSHAKEING, an answer is handled with one of the two outcomes if and only if it is
JSON that can be searched, and brings all tables that it uses and that are not stored, or
none of them. -/
theorem handshakeTotal_iff {sys : Sys} (handshakeing : sys.state.tcp.state = .handshakeing)
    (data : Option Bytes) (len : Nat) :
    HandshakeTotal env data len sys ↔
      ResponseSound env.text data sys.state.tcp.dict sys.state.tcp.protos := by
  have handled : trTcpOnPkgHandler env PkgType.handshake.code data len sys =
      tcpOnHandshakeResp env data (sys.note (.package PkgType.handshake.code data)) := rfl
  have answering := @answering_handshakeAnswering env
    (sys.note (.package PkgType.handshake.code data)) handshakeing
  rw [HandshakeTotal, handled]
  have kept : (sys.note (.package PkgType.handshake.code data)).state = sys.state := rfl
  generalize sys.note (.package PkgType.handshake.code data) = first at answering kept ⊢
  rw [← kept, ResponseSound]
  cases parsed : data.bind env.text.parse with
  | none =>
      rw [tcpOnHandshakeResp_unparsed env parsed]
      have refused := (refuses_handshakeFailed env (handshakeAnswering env first)).events
      refine iff_of_false (not_outcome_crash (answering.fires.trans refused) (by rintro ⟨⟩)) ?_
      rintro ⟨res, last, ⟨⟩, -⟩
  | some found =>
      obtain ⟨res, last⟩ := found
      rw [tcpOnHandshakeResp_parsed env parsed]
      refine (onHandshakeRes_outcome_iff answering).trans ⟨fun sound => ⟨res, last, rfl, sound⟩, ?_⟩
      rintro ⟨other, late, same, sound⟩
      cases Option.some.inj same
      exact sound

/-- The state in which the answer to the handshake is handled. -/
def answerExpected (data : Bytes) : Sys :=
  (sampleRun (fun _ => []) handshakeSent runs_handshakeSent).note (.callback (.read data))

theorem handling_answerExpected (data : Bytes) :
    Handling (.sample fun _ => []) (answerExpected data) := by
  have ready : (sampleRun (fun _ => []) handshakeSent runs_handshakeSent).state.ready
      (.read []) = true := by
    decide +kernel
  exact .chunk (sampleEnds_sampleRun _).reachable ready

/-- It is in the phase of the handshake. -/
theorem handshakeing_answerExpected (data : Bytes) :
    (answerExpected data).state.tcp.state = .handshakeing := by
  have state : (answerExpected []).state.tcp.state = .handshakeing := by decide +kernel
  exact state

/-- The answer to the handshake of the sample. -/
def sampleAnswer : Json :=
  .object [(CStr.ofString "code", .number (Codec.Double.ofInt 200)),
    (CStr.ofString "sys", .object [(CStr.ofString "heartbeat", .number (Codec.Double.ofInt 3))])]

/-- The answer of the sample is handled totally. -/
theorem handshakeTotal_answerExpected :
    HandshakeTotal (.sample fun _ => []) (some (answerBytes.drop 4)) 34 (answerExpected []) := by
  have printed : answerBytes.drop 4 = (printValue sampleAnswer).bytes ++ [] := by decide +kernel
  have parsed := @pcJSONSource_parse_printValue samplePow (by decide) sampleAnswer (by decide +kernel)
    (by decide +kernel) [] rfl _ printed
  have text : (Env.sample fun _ => []).text = pcJSONSource samplePow := rfl
  rw [← text] at parsed
  refine (handshakeTotal_iff (handshakeing_answerExpected []) _ _).mpr
    ⟨sampleAnswer, _, (Option.bind_some _ _).trans parsed, rfl, fun _ sys found => ?_⟩
  cases Option.some.inj found
  exact ⟨rfl, fun on => absurd on (by decide), fun on => absurd on (by decide),
    fun on => absurd on (by decide)⟩

/-- The connection is reset, and then the answer is looked into all the same. -/
theorem handshakeTotal_fails_unparsed :
    ¬ ∀ (env : Env) (sys : Sys) (data : Bytes), Handling env sys →
      sys.state.tcp.state = .handshakeing → HandshakeTotal env (some data) data.length sys := by
  intro claim
  have total := claim _ _ [120] (handling_answerExpected []) (handshakeing_answerExpected [])
  have crashed : ((trTcpOnPkgHandler (.sample fun _ => []) PkgType.handshake.code (some [120]) 1
      (answerExpected [])).notes.head?.map fun entry => entry.1 matches .crash _) = some true := by
    decide +kernel
  have state : (trTcpOnPkgHandler (.sample fun _ => []) PkgType.handshake.code (some [120]) 1
      (answerExpected [])).state.tcp.state ≠ .done := by
    decide +kernel
  rcases total with connects | refuses
  · exact state connects.state
  · obtain ⟨core, earlier, last⟩ := refuses.last
    change (trTcpOnPkgHandler (.sample fun _ => []) PkgType.handshake.code (some [120]) 1
      (answerExpected [])).notes = _ at last
    rw [last] at crashed
    exact absurd crashed nofun

end Pomelo
