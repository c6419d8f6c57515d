import Pomelo.Protobuf.RoundTrip
import Pomelo.Protobuf.Trail

/-!
# Submessages and their announced lengths

`pb_decode_submessage` takes the announced size from what is left when it opens the
substream, and the read pointer from the substream when it closes it. The two agree as long
as the submessage is read to its end (`positions_iff`).
-/

namespace Pomelo

/-- A size is cut to 32 bits. -/
theorem pbDecodeVarint32_lt {stream : IStream} {strLen : Nat}
    (ok : (pbDecodeVarint32.run stream).1 = .ok strLen) : strLen < 2 ^ 32 := by
  rw [pbDecodeVarint32, PbStream.run_bind] at ok
  generalize pbDecodeVarint.run stream = result at ok
  obtain ⟨stop | temp, after⟩ := result
  · cases ok
  · obtain rfl := Except.ok.inj ok
    exact Nat.mod_lt _ (by decide)

/-- What is noted ahead of a string is noted as well behind its size. -/
theorem noteText_read {α β : Type} (next : Nat → PbReader α) (rest : α → PbWatcher β)
    (before : WatchedStream) :
    (do PbWatcher.noteText
        let value ← PbWatcher.read (do next (← pbDecodeVarint32))
        rest value : PbWatcher β).run before =
      (do let strLen ← PbWatcher.read pbDecodeVarint32
          PbWatcher.note (.text strLen)
          PbWatcher.note (.block (pbStringBlock strLen (← get).stream))
          let value ← PbWatcher.read (next strLen)
          rest value : PbWatcher β).run before := by
  obtain ⟨stream, notes⟩ := before
  rw [PbStream.run_bind, PbStream.run_bind]
  have reads {α : Type} (act : PbReader α) (notes : List PbNote) :
      (PbWatcher.read act).run ⟨stream, notes⟩ =
        ((act.run stream).1, ⟨(act.run stream).2, notes⟩) := rfl
  rw [reads]
  rcases size : pbDecodeVarint32.run stream with ⟨stop | strLen, after⟩
  · have noted : PbWatcher.noteText.run ⟨stream, notes⟩ = (.ok (), ⟨stream, notes⟩) := by
      rw [PbWatcher.noteText, PbStream.run_bind, PbStream.run_get]
      dsimp only
      rw [size]
      rfl
    rw [noted]
    dsimp only
    rw [PbStream.run_bind, reads, PbStream.run_bind, size]
  · have noted : PbWatcher.noteText.run ⟨stream, notes⟩ =
        (.ok (), ⟨stream, notes ++ [.text strLen] ++ [.block (pbStringBlock strLen after)]⟩) := by
      rw [PbWatcher.noteText, PbStream.run_bind, PbStream.run_get]
      dsimp only
      rw [size]
      rfl
    have text : (PbWatcher.note (.text strLen)).run ⟨after, notes⟩ =
        (.ok (), ⟨after, notes ++ [.text strLen]⟩) := rfl
    have block (stream : IStream) : (PbWatcher.note (.block (pbStringBlock strLen stream))).run
        ⟨after, notes ++ [.text strLen]⟩ =
        (.ok (), ⟨after, notes ++ [.text strLen] ++ [.block (pbStringBlock strLen stream)]⟩) := rfl
    rw [noted]
    dsimp only
    rw [PbStream.run_bind, reads, PbStream.run_bind, size, PbStream.run_bind (PbWatcher.note _), text]
    dsimp only
    rw [PbStream.run_bind get, PbStream.run_get]
    dsimp only
    rw [PbStream.run_bind (PbWatcher.note _), block]
    dsimp only
    rw [PbStream.run_bind]
    rfl

/-- A string behind its size. -/
theorem pbDecodeScalar_string : pbDecodeScalar .string = (do
    let strLen ← pbDecodeVarint32
    if (strLen + 1) % 2 ^ 32 ≤ strLen then throw .outOfBounds
    let bytes ← pbRead strLen
    return .string (.ofBytes bytes) : PbReader Json) := by
  rw [pbDecodeScalar, pbDecodeString_eq, bind_assoc]
  congr 1
  funext strLen
  dsimp only
  split
  · rfl
  · rw [bind_assoc]
    rfl

/-- The length of a string wraps around, or the string is read. -/
theorem watchScalar_keeps (limit depth floor : Nat) (type : PbType) :
    Marks limit depth floor 0 (watchScalar type) := by
  by_cases text : type = .string
  · subst text
    intro before
    have head : (watchScalar .string).run before = (do
        PbWatcher.noteText
        let value ← PbWatcher.read (pbDecodeScalar .string)
        PbWatcher.note .created
        return value : PbWatcher Json).run before := rfl
    rw [head, pbDecodeScalar_string, noteText_read]
    refine Marks.read_bind .varint32 (fun strLen ⟨stream, ok⟩ => ?_) before
    have bound := pbDecodeVarint32_lt ok
    by_cases wraps : strLen = 2 ^ 32 - 1
    · subst wraps
      exact fun before => ((Marks.wrapped (pbStringBlock _ before.stream)).mono
        (Nat.zero_le _)) before
    · rw [if_neg (by omega)]
      have bytes : Takes (do return .string (.ofBytes (← pbRead strLen)) : PbReader Json) 0 :=
        ((Takes.pbRead strLen).bind fun _ => Takes.pure _).mono (Nat.zero_le _)
      have node : Marks limit depth floor (0 + (1 + 0)) (do
          let value ← PbWatcher.read (do return .string (.ofBytes (← pbRead strLen)))
          PbWatcher.note .created
          return value : PbWatcher Json) :=
        (Marks.read bytes).bind fun value => Marks.created.bind fun _ => Marks.pure value
      exact ((Marks.text wraps).bind fun _ => fun before =>
        ((Marks.block (pbStringBlock strLen before.stream)).bind fun _ => node) before).mono
          (by decide)
  · rw [watchScalar, if_neg text]
    exact Marks.read_bind (.number text) fun value _ =>
      (Marks.created.bind fun _ => Marks.pure value).mono (by decide)

/-- The loop over the fields of a message at some depth. -/
structure LoopTrail (depth : Nat) (before after : WatchedStream) (status : Except Stop Json)
    (notes : List PbNote) : Prop extends Trail depth depth 0 before after status notes where
  /-- A tag that is zero is the last thing that is read. -/
  ended : ∀ left, .ended depth left ∈ notes →
    (∃ value, status = .ok value) ∧ left = after.stream.bytesLeft
  /-- Nothing else leaves bytes behind. -/
  finished : (∃ value, status = .ok value) →
    after.stream.bytesLeft = 0 ∨ .ended depth after.stream.bytesLeft ∈ notes
  /-- Position and count go together in this message. -/
  turns : Whole depth notes → ∀ stream, .turn depth stream ∈ notes →
    stream.state.length + before.stream.bytesLeft = before.stream.state.length + stream.bytesLeft

/-- A loop that leaves a trail, on a stream with at most so many bytes left. -/
def Loops (limit depth : Nat) (act : PbWatcher Json) : Prop :=
  ∀ before : WatchedStream, before.stream.Ready → before.stream.bytesLeft ≤ limit →
    ∃ notes, LoopTrail depth before (act.run before).2 (act.run before).1 notes

/-- No submessage of this depth ends early, and none below it. -/
theorem whole_succ {depth : Nat} {notes : List PbNote} :
    Whole depth notes ↔
      Whole (depth + 1) notes ∧ ∀ left, .ended (depth + 1) left ∈ notes → left = 0 := by
  constructor
  · intro whole
    exact ⟨fun deeper left member deep => whole deeper left member (by omega),
      fun left member => whole _ left member (Nat.lt_succ_self depth)⟩
  · rintro ⟨whole, ended⟩ deeper left member deep
    by_cases here : deeper = depth + 1
    · exact ended left (here ▸ member)
    · exact whole deeper left member (by omega)

/-- The parent stream behind a submessage. -/
def IStream.close (stream : IStream) (size : Nat) (substream : IStream) : IStream :=
  { stream with
    state := substream.state
    bytesLeft := stream.bytesLeft - size }

/-- The submessage reads its length, decodes within it and closes its stream. -/
theorem watchSubmessage_run (decode : PbWatcher Json) (before : WatchedStream) :
    (watchSubmessage decode).run before =
      match (PbWatcher.read pbDecodeVarint32).run before with
      | (.error stop, after) => (.error stop, after)
      | (.ok size, ⟨stream, notes⟩) =>
          if stream.bytesLeft < size then (.error .refused, ⟨stream, notes⟩)
          else
            match decode.run ⟨{ stream with bytesLeft := size }, notes⟩ with
            | (.error stop, ⟨substream, notes⟩) =>
                (.error stop, ⟨stream.close size substream, notes⟩)
            | (.ok dest, ⟨substream, notes⟩) =>
                (.ok dest, ⟨stream.close size substream,
                  notes ++ [.closed size stream.state substream.state]⟩) := by
  rw [watchSubmessage, PbStream.run_bind]
  rcases (PbWatcher.read pbDecodeVarint32).run before with ⟨stop | size, ⟨stream, notes⟩⟩
  · rfl
  · dsimp only
    rw [PbStream.run_bind, PbStream.run_get]
    dsimp only
    split
    · rfl
    · rcases decode.run ⟨{ stream with bytesLeft := size }, notes⟩ with
        ⟨stop | dest, ⟨substream, notes⟩⟩
      · rfl
      · rfl

namespace LoopTrail

variable {depth size : Nat} {before : WatchedStream} {stream substream : IStream}
  {notes more inner : List PbNote} {dest : Json}

/-- A submessage that fails fails its parent. -/
theorem abort {stop : Stop} (fits : size ≤ stream.bytesLeft)
    (first : Trail depth (depth + 1) 0 before ⟨stream, notes⟩ (.ok size) [])
    (least : 1 + stream.bytesLeft ≤ before.stream.bytesLeft)
    (loop : LoopTrail (depth + 1) ⟨{ stream with bytesLeft := size }, notes⟩ ⟨substream, more⟩
      (.error stop) inner) :
    Trail depth (depth + 1) 0 before ⟨stream.close size substream, more⟩
      (.error stop : Except Stop Json) inner where
  noted := by
    rw [loop.noted, first.noted, List.append_nil]
  used := by
    obtain ⟨front, state, length, -⟩ := first.used
    obtain ⟨used, state', length', -⟩ := loop.used
    refine ⟨front ++ used, ?_, ?_, fun ok => absurd ok.choose_spec nofun⟩
    · rw [state, List.append_assoc]
      exact congrArg _ state'
    · have split : (front ++ used).length = front.length + used.length := List.length_append
      dsimp only [IStream.close] at length length' ⊢
      omega
  created := by
    have created := loop.created
    dsimp only [IStream.close] at created ⊢
    omega
  below := loop.below
  shallow deeper turn member := by
    have bound := loop.shallow deeper turn member
    dsimp only at bound
    omega
  aligned := by
    have unended (left : Nat) : .ended (depth + 1) left ∉ inner := fun member =>
      absurd (loop.ended left member).1.choose_spec nofun
    rw [whole_succ, loop.aligned]
    exact and_iff_left fun left member => absurd member (unended left)
  stops := loop.stops

/-- A loop that used up its stream ends the submessage. -/
theorem exhausted (loop : LoopTrail (depth + 1) ⟨{ stream with bytesLeft := size }, notes⟩
      ⟨substream, more⟩ (.ok dest) inner)
    (ended : ∀ left, .ended (depth + 1) left ∈ inner → left = 0) : substream.bytesLeft = 0 := by
  rcases loop.finished ⟨dest, rfl⟩ with empty | note
  · exact empty
  · exact ended _ note

/-- A submessage is read to its end exactly if the memory is read on there. -/
theorem close_iff (fits : size ≤ stream.state.length)
    (loop : LoopTrail (depth + 1) ⟨{ stream with bytesLeft := size }, notes⟩ ⟨substream, more⟩
      (.ok dest) inner) (whole : Whole (depth + 1) inner) :
    (∀ left, .ended (depth + 1) left ∈ inner → left = 0) ↔
      substream.state = stream.state.drop size := by
  obtain ⟨used, state, -, exact⟩ := loop.used
  have exact := exact ⟨dest, rfl⟩ whole
  dsimp only at state exact
  constructor
  · intro ended
    have empty := loop.exhausted ended
    rw [state, List.drop_left' (by omega)]
  · intro same left member
    have left_eq : left = substream.bytesLeft := (loop.ended left member).2
    have total : stream.state.length = used.length + substream.state.length := by
      rw [state, List.length_append]
    have rest : substream.state.length = stream.state.length - size := by
      rw [same, List.length_drop]
    omega

/-- The submessage ends where its length says, or is refused. -/
theorem close (fits : size ≤ stream.bytesLeft) (ready : stream.bytesLeft ≤ stream.state.length)
    (first : Trail depth (depth + 1) 0 before ⟨stream, notes⟩ (.ok size) [])
    (least : 1 + stream.bytesLeft ≤ before.stream.bytesLeft)
    (loop : LoopTrail (depth + 1) ⟨{ stream with bytesLeft := size }, notes⟩ ⟨substream, more⟩
      (.ok dest) inner) :
    Trail depth (depth + 1) 0 before
      ⟨stream.close size substream, more ++ [.closed size stream.state substream.state]⟩
      (.ok dest) (inner ++ [.closed size stream.state substream.state]) where
  noted := by
    change more ++ _ = _
    have noted : more = notes ++ inner := loop.noted
    have same : notes = before.notes ++ [] := first.noted
    rw [noted, same, List.append_nil, List.append_assoc]
  used := by
    obtain ⟨front, state, length, exact⟩ := first.used
    obtain ⟨used, state', length', exact'⟩ := loop.used
    have split : (front ++ used).length = front.length + used.length := List.length_append
    have exact := exact ⟨size, rfl⟩ (whole_nil depth)
    dsimp only [IStream.close] at exact exact' length' ⊢
    refine ⟨front ++ used, ?_, by omega, fun _ whole => ?_⟩
    · rw [state, List.append_assoc]
      exact congrArg _ state'
    · obtain ⟨deeper, ended⟩ := whole_succ.mp (whole_append.mp whole).1
      have empty := loop.exhausted ended
      have exact' := exact' ⟨dest, rfl⟩ deeper
      omega
  created := by
    have created := loop.created
    have none : [PbNote.closed size stream.state substream.state].count .created = 0 := rfl
    rw [List.count_append, none]
    dsimp only [IStream.close] at created ⊢
    omega
  below note member deeper same := by
    rcases List.mem_append.mp member with here | last
    · exact loop.below note here deeper same
    · obtain rfl := List.mem_singleton.mp last
      cases same
  shallow deeper turn member := by
    rcases List.mem_append.mp member with here | last
    · have bound := loop.shallow deeper turn here
      dsimp only at bound
      omega
    · cases List.mem_singleton.mp last
  aligned := by
    have last : Whole depth [.closed size stream.state substream.state] := by
      intro deeper left member
      cases List.mem_singleton.mp member
    have closed : Aligned [.closed size stream.state substream.state] ↔
        substream.state = stream.state.drop size := by
      constructor
      · intro aligned
        exact aligned _ _ _ List.mem_cons_self
      · rintro same size start next member
        cases List.mem_singleton.mp member
        exact same
    rw [whole_append, aligned_append, and_iff_left last, whole_succ, closed, ← loop.aligned]
    exact and_congr_right (loop.close_iff (fits.trans ready))
  stops := by
    refine ⟨nofun, nofun, nofun, fun member => ?_⟩
    rcases List.mem_append.mp member with here | last
    · exact absurd (loop.stops.inside.mpr here) nofun
    · cases List.mem_singleton.mp last

end LoopTrail

/-- A submessage behind its prefix: its announced size is taken from what is left, what it has
read is taken from the memory. -/
theorem watchSubmessage_keeps {limit depth : Nat} {decode : PbWatcher Json}
    (loops : Loops limit (depth + 1) decode) :
    Marks limit depth (depth + 1) 0 (watchSubmessage decode) := by
  intro before ready room
  obtain ⟨first, paid⟩ := Trail.read Takes.varint32 depth (depth + 1) ready
  rw [watchSubmessage_run]
  generalize (PbWatcher.read pbDecodeVarint32).run before = result at first paid
  obtain ⟨stop | size, ⟨stream, notes⟩⟩ := result
  · exact ⟨[], first.stopped 0⟩
  have least := paid ⟨size, rfl⟩
  have ready' : stream.bytesLeft ≤ stream.state.length := first.ready ready
  dsimp only at least first ⊢
  split
  · exact ⟨[], first.trans (Trail.still _ .refused)⟩
  next fits =>
  obtain ⟨inner, loop⟩ := loops ⟨{ stream with bytesLeft := size }, notes⟩
    (show size ≤ stream.state.length by omega) (show size ≤ limit by omega)
  generalize decode.run ⟨{ stream with bytesLeft := size }, notes⟩ = result at loop
  obtain ⟨stop | dest, ⟨substream, more⟩⟩ := result
  · exact ⟨inner, loop.abort (Nat.le_of_not_lt fits) first least⟩
  · exact ⟨_, loop.close (Nat.le_of_not_lt fits) ready' first least⟩

section Walk

variable {decode : (protos result : Json) → PbWatcher Json} {gprotos protos proto : Json}
  {limit depth : Nat}

/-- A value of a scalar type pays for its node. -/
theorem watchProto_keeps_scalar {typeText : CStr} {type : PbType}
    (text : pbMemberText proto "type" = .ok typeText) (known : pbGetType typeText = some type)
    (key : Option CStr) (result : Json) :
    Marks limit depth (depth + 1) 0 (watchProto decode gprotos protos proto key result) := by
  rw [watchProto, text]
  refine Marks.liftM_bind (.ok _) fun text ok => ?_
  obtain rfl := Except.ok.inj ok
  refine Marks.liftM_bind (Declines.getObjectItem _ _) fun messages _ => ?_
  rw [known]
  exact (watchScalar_keeps limit depth _ type).bind fun value =>
    Marks.liftM (Declines.addValue result key value)

/-- A message makes a node if it is to be stored under a key. -/
theorem watchProto_keeps (loops : ∀ protos result, Loops limit (depth + 1) (decode protos result))
    (key : Option CStr) (result : Json) :
    Marks limit depth (depth + 1) key.toList.length
      (watchProto decode gprotos protos proto key result) := by
  refine Marks.liftM_bind (Declines.memberText proto _) fun typeText _ => ?_
  refine Marks.liftM_bind (Declines.getObjectItem _ _) fun messages _ => ?_
  cases pbGetType typeText with
  | some type =>
      exact ((watchScalar_keeps limit depth _ type).bind fun value =>
        Marks.liftM (Declines.addValue result key value)).mono (Nat.zero_le _)
  | none =>
      cases messages with
      | none => exact (Marks.pure result).mono (Nat.zero_le _)
      | some messages =>
          refine Marks.liftM_bind (Declines.findMessage gprotos messages typeText) fun found _ => ?_
          cases found with
          | none => exact Marks.refused.mono (Nat.zero_le _)
          | some subMsg =>
              cases key with
              | none => exact (watchSubmessage_keeps (loops subMsg _)).mono (Nat.zero_le _)
              | some key =>
                  exact Marks.created.bind fun _ => (watchSubmessage_keeps (loops subMsg _)).bind
                    fun subValue => Marks.pure _

/-- The elements of a packed array note nothing. -/
theorem watchElements_keeps {typeText : CStr} {type : PbType}
    (text : pbMemberText proto "type" = .ok typeText) (known : pbGetType typeText = some type)
    (key : CStr) (size : Nat) (array : Json) :
    Marks limit depth (depth + 1) 0
      (watchElements decode gprotos protos proto key size array) := by
  induction size generalizing array with
  | zero => exact Marks.pure array
  | succ size ih => exact (watchProto_keeps_scalar text known (some key) array).bind ih

/-- A repeated field notes its submessages. -/
theorem watchArray_keeps (loops : ∀ protos result, Loops limit (depth + 1) (decode protos result))
    (key : CStr) (result : Json) :
    Marks limit depth (depth + 1) 2 (watchArray decode gprotos protos proto key result) := by
  refine Marks.liftM_bind (Declines.memberText proto _) fun typeText text => ?_
  refine Marks.liftM_bind (Declines.getObjectItem _ _) fun existing _ => ?_
  have branches (array : Json) (finish : Json → Json) : Marks limit depth (depth + 1) 1
      (if pbIsPacked typeText then do
          let size ← PbWatcher.read pbDecodeVarint32
          let array ← watchElements decode gprotos protos proto key size array
          return finish array
        else if pbGetType typeText = some .string then do
          let array ← watchProto decode gprotos protos proto (some key) array
          return finish array
        else do
          PbWatcher.note .created
          let value ← watchProto decode gprotos protos proto none (.object [])
          return finish (pcJSONAddItemToArray array value)) := by
    split
    · next packed =>
      obtain ⟨type, known⟩ : ∃ type, pbGetType typeText = some type := by
        rw [pbIsPacked, Bool.and_eq_true] at packed
        exact Option.isSome_iff_exists.mp packed.1
      have elements (size : Nat) : Marks limit depth (depth + 1) (0 + 0) (do
          let array ← watchElements decode gprotos protos proto key size array
          return finish array) :=
        (watchElements_keeps text known key size array).bind fun _ => Marks.pure _
      exact (Marks.read_bind .varint32 fun size _ => (elements size).mono (by decide)).mono
        (Nat.zero_le 1)
    split
    · exact (watchProto_keeps loops (some key) array).bind fun _ => Marks.pure _
    · exact Marks.created.bind fun _ => (watchProto_keeps loops none _).bind fun _ => Marks.pure _
  cases existing with
  | none =>
      exact Marks.created.bind fun _ =>
        branches (.array []) fun array => pcJSONAddItemToObject result key array
  | some array =>
      exact (branches array fun array => result.modifyItem key fun _ => array).mono (by decide)

theorem watchField_keeps (loops : ∀ protos result, Loops limit (depth + 1) (decode protos result))
    (tag : Nat) (result : Json) :
    Marks limit depth (depth + 1) 2 (watchField decode gprotos protos tag result) := by
  refine Marks.liftM_bind (Declines.findField protos tag) fun ⟨name, proto⟩ _ => ?_
  refine Marks.liftM_bind (Declines.memberText proto _) fun optionText _ => ?_
  split
  · exact (watchProto_keeps loops (some name) result).mono (show 1 ≤ 2 by decide)
  split
  · exact watchArray_keeps loops name result
  · exact (Marks.pure result).mono (Nat.zero_le 2)

end Walk

/-- What comes in the place of a tag. -/
inductive TagTrail (depth : Nat) (before : WatchedStream) :
    Except Stop (Option Nat) × WatchedStream → Prop where
  | tag {after : WatchedStream} (tag : Nat)
      (trail : Trail depth depth 0 before after (.ok (some tag) : Except Stop (Option Nat)) [])
      (least : 1 + after.stream.bytesLeft ≤ before.stream.bytesLeft) :
      TagTrail depth before (.ok (some tag), after)
  | ended {after : WatchedStream}
      (trail : Trail depth depth 0 before after (.ok none : Except Stop (Option Nat))
        [.ended depth after.stream.bytesLeft]) :
      TagTrail depth before (.ok none, after)
  | cut {after : WatchedStream}
      (trail : Trail depth depth 0 before after (.ok none : Except Stop (Option Nat)) [.cut depth])
      (empty : after.stream.bytesLeft = 0) : TagTrail depth before (.ok none, after)
  | refused {after : WatchedStream}
      (trail : Trail depth depth 0 before after (.error .refused : Except Stop (Option Nat)) []) :
      TagTrail depth before (.error .refused, after)

/-- The tag is read, or the loop ends. -/
theorem watchTag_run (depth : Nat) (before : WatchedStream) :
    (watchTag depth).run before =
      match (PbWatcher.read pbDecodeTag).run before with
      | (.error stop, after) => (.error stop, after)
      | (.ok (some tag), after) => (.ok (some tag), after)
      | (.ok none, after) =>
          match (pbDecodeVarint32.run before.stream).1 with
          | .ok _ =>
              (.ok none, ⟨after.stream, after.notes ++ [.ended depth after.stream.bytesLeft]⟩)
          | .error _ => (.ok none, ⟨after.stream, after.notes ++ [.cut depth]⟩) := by
  rw [watchTag, PbStream.run_bind, PbStream.run_get]
  dsimp only
  rw [PbStream.run_bind]
  rcases (PbWatcher.read pbDecodeTag).run before with ⟨stop | (_ | tag), after⟩
  · rfl
  · dsimp only [PbWatcher.noteEnd]
    cases (pbDecodeVarint32.run before.stream).1 with
    | ok value => rfl
    | error stop => rfl
  · rfl

theorem watchTag_trail (depth : Nat) {before : WatchedStream} (ready : before.stream.Ready) :
    TagTrail depth before ((watchTag depth).run before) := by
  obtain ⟨used, state, count, outcome⟩ := pbDecodeTag_run before.stream ready
  have run : (PbWatcher.read pbDecodeTag).run before = ((pbDecodeTag.run before.stream).1,
      ⟨(pbDecodeTag.run before.stream).2, before.notes⟩) := rfl
  rw [watchTag_run, run]
  generalize pbDecodeTag.run before.stream = result at state count outcome
  obtain ⟨status, after⟩ := result
  dsimp only at state count outcome
  have moved : Trail depth depth 0 before ⟨after, before.notes⟩ (.ok () : Except Stop Unit) [] :=
    Trail.moved state count (.ok ())
  rcases outcome with ⟨tag, rfl, least⟩ | ⟨rfl, zero | ⟨short, empty⟩⟩ | rfl
  · exact .tag tag (Trail.moved state count (.ok _)) (by dsimp only; omega)
  · dsimp only
    rw [zero]
    exact .ended (moved.trans (Trail.note (.ended depth after.bytesLeft) (.ok none)
      (fun deeper same => Nat.le_of_eq (Option.some.inj same)) nofun
      (fun deeper left same => Nat.le_of_eq (PbNote.ended.inj same).1.symm) nofun nofun))
  · dsimp only
    rw [short]
    exact .cut (moved.trans (Trail.note (.cut depth) (.ok none)
      (fun deeper same => Nat.le_of_eq (Option.some.inj same)) nofun nofun nofun nofun)) empty
  · exact .refused (Trail.moved state count .refused)

/-- A trail of a deeper floor is a trail of this one. -/
theorem Trail.deeper {α : Type} {depth floor allowance : Nat} {before after : WatchedStream}
    {status : Except Stop α} {notes : List PbNote}
    (trail : Trail depth (floor + 1) allowance before after status notes) :
    Trail depth floor allowance before after status notes :=
  { trail with
    below := fun note member deeper same =>
      (Nat.le_succ floor).trans (trail.below note member deeper same) }

/-- The result plays no part in the trail. -/
theorem Trail.returning {α β : Type} {depth floor allowance : Nat} {before after : WatchedStream}
    {value : α} {notes : List PbNote}
    (trail : Trail depth floor allowance before after (.ok value : Except Stop α) notes)
    (result : β) : Trail depth floor allowance before after (.ok result : Except Stop β) notes := by
  have next : Trail depth floor (allowance + 0) before after (.ok result : Except Stop β)
      (notes ++ []) := trail.trans (Trail.still after (.ok result))
  rwa [List.append_nil] at next

namespace LoopTrail

variable {depth : Nat} {before middle after : WatchedStream} {status : Except Stop Json}
  {notes more : List PbNote}

/-- The last pass through the loop. -/
theorem last
    (trail : Trail depth depth 0 before after status (.turn depth before.stream :: notes))
    (turn : ∀ stream, .turn depth stream ∉ notes)
    (ended : ∀ left, .ended depth left ∈ notes →
      (∃ value, status = .ok value) ∧ left = after.stream.bytesLeft)
    (finished : (∃ value, status = .ok value) →
      after.stream.bytesLeft = 0 ∨ .ended depth after.stream.bytesLeft ∈ notes) :
    LoopTrail depth before after status (.turn depth before.stream :: notes) where
  toTrail := trail
  ended left member := by
    rcases List.mem_cons.mp member with same | member
    · cases same
    · exact ended left member
  finished ok := (finished ok).imp_right (List.mem_cons_of_mem _)
  turns _ stream member := by
    rcases List.mem_cons.mp member with same | member
    · obtain rfl := (PbNote.turn.inj same).2
      rfl
    · exact absurd member (turn stream)

/-- A pass through the loop that is not the last one. -/
theorem step {value : Json}
    (trail : Trail depth depth 0 before middle (.ok value : Except Stop Json)
      (.turn depth before.stream :: notes))
    (below : ∀ note ∈ notes, ∀ deeper, note.depth? = some deeper → depth + 1 ≤ deeper)
    (loop : LoopTrail depth middle after status more) :
    LoopTrail depth before after status ((.turn depth before.stream :: notes) ++ more) where
  toTrail := trail.trans loop.toTrail
  ended left member := by
    rcases List.mem_append.mp member with here | there
    · rcases List.mem_cons.mp here with same | here
      · cases same
      · exact absurd (below _ here depth rfl) (Nat.not_succ_le_self depth)
    · exact loop.ended left there
  finished ok := (loop.finished ok).imp_right (List.mem_append_right _)
  turns whole stream member := by
    obtain ⟨here, there⟩ := whole_append.mp whole
    obtain ⟨used, state, -, exact⟩ := trail.used
    have exact := exact ⟨value, rfl⟩ here
    have length : before.stream.state.length = used.length + middle.stream.state.length := by
      rw [state, List.length_append]
    rcases List.mem_append.mp member with same | later
    · rcases List.mem_cons.mp same with same | member
      · obtain rfl := (PbNote.turn.inj same).2
        rfl
      · exact absurd (below _ member depth rfl) (Nat.not_succ_le_self depth)
    · have turn := loop.turns there stream later
      omega

end LoopTrail

/-- The trail of a turn of the loop. -/
theorem Trail.turn (depth : Nat) (before : WatchedStream) {α : Type} {status : Except Stop α}
    (declines : Declines status) : Trail depth depth 0 before
      ⟨before.stream, before.notes ++ [.turn depth before.stream]⟩ status
      [.turn depth before.stream] := by
  refine Trail.note (.turn depth before.stream) declines
    (fun deeper same => Nat.le_of_eq (Option.some.inj same)) (fun deeper stream same => ?_) nofun
    nofun nofun
  obtain ⟨rfl, rfl⟩ := PbNote.turn.inj same
  exact Nat.le_refl _

/-- Without fuel the loop ends, or stops for the lack of it. -/
theorem watchDecode_run_zero (gprotos : Json) (depth : Nat) (protos result : Json)
    (before : WatchedStream) :
    (watchDecode gprotos 0 depth protos result).run before =
      if before.stream.bytesLeft = 0 then
        (.ok result, ⟨before.stream, before.notes ++ [.turn depth before.stream]⟩)
      else (.error .outOfFuel, ⟨before.stream, before.notes ++ [.turn depth before.stream]⟩) := by
  have noted : (PbWatcher.note (.turn depth before.stream)).run before =
      (.ok (), ⟨before.stream, before.notes ++ [.turn depth before.stream]⟩) := rfl
  rw [watchDecode, PbStream.run_bind, PbStream.run_get]
  dsimp only
  rw [PbStream.run_bind, noted]
  dsimp only
  rw [PbStream.run_bind, PbStream.run_get]
  dsimp only
  split
  · rfl
  · rfl

/-- With fuel it takes a turn. -/
theorem watchDecode_run (gprotos : Json) (fuel depth : Nat) (protos result : Json)
    (before : WatchedStream) :
    (watchDecode gprotos (fuel + 1) depth protos result).run before =
      if before.stream.bytesLeft = 0 then
        (.ok result, ⟨before.stream, before.notes ++ [.turn depth before.stream]⟩)
      else
        match (watchTag depth).run
            ⟨before.stream, before.notes ++ [.turn depth before.stream]⟩ with
        | (.error stop, after) => (.error stop, after)
        | (.ok none, after) => (.ok result, after)
        | (.ok (some tag), after) =>
            (do let result ← watchField (watchDecode gprotos fuel (depth + 1)) gprotos protos tag
                  result
                watchDecode gprotos fuel depth protos result : PbWatcher Json).run after := by
  have noted : (PbWatcher.note (.turn depth before.stream)).run before =
      (.ok (), ⟨before.stream, before.notes ++ [.turn depth before.stream]⟩) := rfl
  rw [watchDecode, PbStream.run_bind, PbStream.run_get]
  dsimp only
  rw [PbStream.run_bind, noted]
  dsimp only
  rw [PbStream.run_bind, PbStream.run_get]
  dsimp only
  split
  · rfl
  · rw [PbStream.run_bind]
    generalize (watchTag depth).run
      ⟨before.stream, before.notes ++ [.turn depth before.stream]⟩ = outcome
    obtain ⟨stop | (_ | tag), after⟩ := outcome
    · rfl
    · rfl
    · rfl

/-- Every run of the loop leaves its trail, at any depth, with a fuel as large as what is left. -/
theorem watchDecode_loops (gprotos : Json) (fuel depth : Nat) (protos result : Json) :
    Loops fuel depth (watchDecode gprotos fuel depth protos result) := by
  induction fuel generalizing depth protos result with
  | zero =>
      intro before ready room
      have empty : before.stream.bytesLeft = 0 := Nat.le_zero.mp room
      rw [watchDecode_run_zero, if_pos empty]
      exact ⟨_, .last (Trail.turn depth before (.ok result)) (fun _ => List.not_mem_nil)
        (fun _ member => absurd member List.not_mem_nil) fun _ => .inl empty⟩
  | succ fuel ih =>
      intro before ready room
      rw [watchDecode_run]
      have turn : Trail depth depth 0 before
          ⟨before.stream, before.notes ++ [.turn depth before.stream]⟩
          (.ok () : Except Stop Unit) [.turn depth before.stream] :=
        Trail.turn depth before (.ok ())
      split
      · next empty =>
        exact ⟨_, .last (Trail.turn depth before (.ok result)) (fun _ => List.not_mem_nil)
          (fun _ member => absurd member List.not_mem_nil) fun _ => .inl empty⟩
      next more =>
      have tag := watchTag_trail depth (turn.ready ready)
      generalize (watchTag depth).run
        ⟨before.stream, before.notes ++ [.turn depth before.stream]⟩ = outcome at tag
      cases tag with
      | refused trail =>
          have trail : Trail depth depth 0 _ _ (.error .refused : Except Stop Json) [] :=
            trail.stopped 0
          exact ⟨_, .last (turn.trans trail) (fun _ => List.not_mem_nil)
            (fun _ member => absurd member List.not_mem_nil) fun ok => absurd ok.choose_spec nofun⟩
      | cut trail empty =>
          refine ⟨_, .last (turn.trans (trail.returning result)) (fun _ member => ?_)
            (fun _ member => ?_) fun _ => .inl empty⟩
          · cases List.mem_singleton.mp member
          · cases List.mem_singleton.mp member
      | ended trail =>
          refine ⟨_, .last (turn.trans (trail.returning result)) (fun _ member => ?_)
            (fun left member => ?_) fun _ => .inr (List.mem_singleton.mpr rfl)⟩
          · cases List.mem_singleton.mp member
          · exact ⟨⟨result, rfl⟩, (PbNote.ended.inj (List.mem_singleton.mp member)).2⟩
      | @tag middle tag trail least =>
          have room' : middle.stream.bytesLeft ≤ fuel := by
            dsimp only at least
            omega
          obtain ⟨notes, field⟩ := watchField_keeps (fun protos result =>
            ih (depth + 1) protos result) tag result middle (trail.ready (turn.ready ready)) room'
          dsimp only
          rw [PbStream.run_bind]
          generalize (watchField (watchDecode gprotos fuel (depth + 1)) gprotos protos tag
            result).run middle = outcome at field
          have pass : Trail depth depth 0 before outcome.2 outcome.1
              (.turn depth before.stream :: notes) := by
            have created := field.created
            dsimp only at least
            have none : (PbNote.turn depth before.stream :: notes).count .created =
                notes.count .created := List.count_cons_of_ne (by nofun)
            exact { (turn.trans trail).trans field.deeper with created := by omega }
          obtain ⟨stop | value, last⟩ := outcome
          · refine ⟨_, .last pass (fun stream member => ?_) (fun left member => ?_)
              fun ok => absurd ok.choose_spec nofun⟩
            · exact Nat.not_succ_le_self depth (field.below _ member depth rfl)
            · exact absurd (field.below _ member depth rfl) (Nat.not_succ_le_self depth)
          · obtain ⟨more, loop⟩ := ih depth protos value last (pass.ready ready)
              (field.left_le.trans room')
            exact ⟨_, .step pass field.below loop⟩

/-- The run of the decoder on a buffer, whatever follows it in the memory. -/
theorem watchPbDecode_trail (buf rest : Bytes) (gprotos protos result : Json) :
    ∃ after, LoopTrail 0 ⟨{ state := buf ++ rest, bytesLeft := buf.length }, []⟩ after
      (watchPbDecode (buf ++ rest) buf.length gprotos protos result).1
      (watchPbDecode (buf ++ rest) buf.length gprotos protos result).2 := by
  have ready : buf.length ≤ (buf ++ rest).length := by
    rw [List.length_append]
    exact Nat.le_add_right _ _
  obtain ⟨notes, loop⟩ := watchDecode_loops gprotos buf.length 0 protos result
    ⟨{ state := buf ++ rest, bytesLeft := buf.length }, []⟩ ready (Nat.le_refl _)
  rw [watchPbDecode]
  generalize (watchDecode gprotos buf.length 0 protos result).run
    ⟨{ state := buf ++ rest, bytesLeft := buf.length }, []⟩ = outcome at loop
  obtain ⟨status, after⟩ := outcome
  obtain rfl : after.notes = notes := loop.noted
  exact ⟨after, loop⟩

/-- How far the read pointer is in a memory. -/
def IStream.position (memory : Bytes) (stream : IStream) : Nat :=
  memory.length - stream.state.length

/-- The read pointer and the count of what is left agree on a buffer in a memory. -/
structure Positioned (memory : Bytes) (size : Nat) (notes : List PbNote) : Prop where
  /-- Behind a submessage the memory is read on where the submessage ends. -/
  submessages : ∀ announced start next, .closed announced start next ∈ notes →
    next = start.drop announced
  /-- In every pass through the loop over the message itself. -/
  turns : ∀ stream, .turn 0 stream ∈ notes → stream.position memory + stream.bytesLeft = size

/-- Positions agree exactly if no submessage is ended by a zero tag ahead of its last byte. -/
theorem positioned_iff (buf rest : Bytes) (gprotos protos result : Json) :
    let notes := (watchPbDecode (buf ++ rest) buf.length gprotos protos result).2
    Positioned (buf ++ rest) buf.length notes ↔
      ∀ depth left, .ended (depth + 1) left ∈ notes → left = 0 := by
  intro notes
  obtain ⟨after, loop⟩ := watchPbDecode_trail buf rest gprotos protos result
  have whole : Whole 0 notes ↔ ∀ depth left, .ended (depth + 1) left ∈ notes → left = 0 := by
    constructor
    · exact fun whole depth left member => whole _ left member (Nat.succ_pos depth)
    · intro ended depth left member deep
      obtain ⟨depth, rfl⟩ := Nat.exists_eq_succ_of_ne_zero (Nat.pos_iff_ne_zero.mp deep)
      exact ended depth left member
  rw [← whole]
  constructor
  · exact fun positioned => loop.aligned.mpr positioned.submessages
  · intro whole
    refine ⟨loop.aligned.mp whole, fun stream member => ?_⟩
    have turn := loop.turns whole stream member
    have shallow := loop.shallow 0 stream member
    rw [IStream.position]
    dsimp only at turn shallow
    rw [List.length_append] at turn ⊢
    omega

/-- A message in a message. -/
def nestedSchema : Json :=
  .object [(.ofString "__messages", .object [(.ofString "Inner", .object [
      (.ofString "__messages", .object []),
      (.ofString "__tags", .object [(.ofString "1", .string (.ofString "id"))]),
      (.ofString "id", fieldJson "required" "uInt32" 1)])]),
    (.ofString "__tags", .object [(.ofString "1", .string (.ofString "inner"))]),
    (.ofString "inner", fieldJson "required" "Inner" 1)]

/-- Behind the submessage `00 08` its second byte is still to be read. -/
theorem positioned_fails :
    ¬ Positioned [0x0A, 0x02, 0x00, 0x08] 4
      (watchPbDecode [0x0A, 0x02, 0x00, 0x08] 4 (.object []) nestedSchema (.object [])).2 := by
  intro positioned
  have next := positioned.submessages 2 [0x00, 0x08] [0x08] (by decide +kernel)
  exact absurd next (by decide)

end Pomelo
