import Pomelo.Protobuf.Watch

/-!
# What a run of the decoder leaves behind

Every operation of the decoder moves its stream forward and adds notes (`Trail`). The
position may fall behind the count of the bytes that are left, namely where a submessage is
ended before its last byte, and nowhere else.
-/

namespace Pomelo

variable {α β : Type}

/-- The bytes that are left are there. -/
def IStream.Ready (stream : IStream) : Prop := stream.bytesLeft ≤ stream.state.length

/-- A reader takes some bytes, at least so many if it ends well, and is only ever refused. -/
def Takes (act : PbReader α) (least : Nat) : Prop :=
  ∀ stream : IStream, stream.Ready →
    ∃ used, stream.state = used ++ (act.run stream).2.state ∧
      used.length + (act.run stream).2.bytesLeft = stream.bytesLeft ∧
        ((∃ value, (act.run stream).1 = .ok value ∧ least ≤ used.length) ∨
          (act.run stream).1 = .error .refused)

/-- A stream stays ready when bytes are used. -/
theorem IStream.Ready.of_used {stream after : IStream} (ready : stream.Ready) {used : Bytes}
    (state : stream.state = used ++ after.state)
    (count : used.length + after.bytesLeft ≤ stream.bytesLeft) : after.Ready := by
  rw [Ready, state, List.length_append] at ready
  rw [Ready]
  omega

namespace Takes

theorem pure (value : α) : Takes (pure value) 0 :=
  fun _ _ => ⟨[], rfl, Nat.zero_add _, .inl ⟨value, rfl, Nat.zero_le _⟩⟩

theorem mono {act : PbReader α} {least less : Nat} (takes : Takes act least) (le : less ≤ least) :
    Takes act less := by
  intro stream ready
  obtain ⟨used, state, count, status⟩ := takes stream ready
  refine ⟨used, state, count, status.imp_left ?_⟩
  rintro ⟨value, same, enough⟩
  exact ⟨value, same, le.trans enough⟩

/-- A refusal takes as many as one likes. -/
theorem refused (least : Nat) : Takes (throw .refused : PbReader α) least :=
  fun _ _ => ⟨[], rfl, Nat.zero_add _, .inr rfl⟩

/-- Two steps take the bytes of both. -/
theorem bind {first : PbReader α} {next : α → PbReader β} {least more : Nat}
    (head : Takes first least) (tail : ∀ value, Takes (next value) more) :
    Takes (first >>= next) (least + more) := by
  intro stream ready
  obtain ⟨used, state, count, status⟩ := head stream ready
  rw [PbStream.run_bind]
  generalize first.run stream = result at state count status
  obtain ⟨outcome, after⟩ := result
  dsimp only at state count status
  rcases status with ⟨value, rfl, enough⟩ | rfl
  · obtain ⟨further, state', count', status'⟩ :=
      tail value after (ready.of_used state (Nat.le_of_eq count))
    dsimp only
    refine ⟨used ++ further, ?_, ?_, ?_⟩
    · rw [state, List.append_assoc, ← state']
    · rw [List.length_append]
      omega
    · rcases status' with ⟨result, same, room⟩ | same
      · refine .inl ⟨result, same, ?_⟩
        rw [List.length_append]
        omega
      · exact .inr same
  · exact ⟨used, state, count, .inr rfl⟩

/-- A read takes what is asked for. -/
theorem pbRead (count : Nat) : Takes (pbRead count) count := by
  intro stream ready
  rw [IStream.Ready] at ready
  rw [Pomelo.pbRead, PbStream.run_bind, PbStream.run_get]
  dsimp only
  by_cases short : stream.bytesLeft < count
  · rw [if_pos short]
    exact ⟨[], rfl, Nat.zero_add _, .inr rfl⟩
  · rw [if_neg short, if_neg (by omega)]
    refine ⟨stream.state.take count, (List.take_append_drop count stream.state).symm, ?_, ?_⟩
    · have length : (stream.state.take count).length = count :=
        List.length_take_of_le (by omega)
      change (stream.state.take count).length + (stream.bytesLeft - count) = _
      omega
    · exact .inl ⟨_, rfl, Nat.le_of_eq (List.length_take_of_le (by omega)).symm⟩

/-- The loop of the groups takes a byte at least. -/
theorem varintLoop (passes bitpos dest : Nat) :
    Takes (pbDecodeVarintLoop passes bitpos dest) 1 := by
  induction passes generalizing bitpos dest with
  | zero => exact refused 1
  | succ passes ih =>
      rw [pbDecodeVarintLoop]
      split
      · have rest (block : Bytes) : Takes (if block.headD 0 &&& 0x80 = 0 then
            Pure.pure (dest ||| (block.headD 0 &&& 0x7F).toNat <<< bitpos % 2 ^ 64)
            else pbDecodeVarintLoop passes (bitpos + 7)
              (dest ||| (block.headD 0 &&& 0x7F).toNat <<< bitpos % 2 ^ 64)) 0 := by
          split
          · exact pure _
          · exact (ih _ _).mono (Nat.zero_le 1)
        exact (pbRead 1).bind rest
      · exact refused 1

theorem varint : Takes pbDecodeVarint 1 := varintLoop 10 0 0

theorem varint32 : Takes pbDecodeVarint32 1 := varint.bind fun _ => pure _

theorem svarint : Takes pbDecodeSvarint 1 := by
  have rest (value : Nat) : Takes (if value &&& 1 = 1 then
      Pure.pure (-(value >>> 1 : Nat) - 1 : Int) else Pure.pure (value >>> 1 : Nat)) 0 := by
    split
    · exact pure _
    · exact pure _
  exact varint.bind rest

/-- A number of fixed width takes its width. -/
theorem fixed (width : Nat) : Takes (pbDecodeFixed width) width :=
  (pbRead width).bind fun _ => pure _

/-- A value of a scalar type takes a byte, apart from strings. -/
theorem number {type : PbType} (other : type ≠ .string) : Takes (pbDecodeScalar type) 1 := by
  cases type with
  | string => exact absurd rfl other
  | uInt32 => exact varint.bind fun _ => pure _
  | int32 | sInt32 => exact svarint.bind fun _ => pure _
  | float => exact ((fixed 4).bind fun _ => pure _).mono (by decide)
  | double => exact ((fixed 8).bind fun _ => pure _).mono (by decide)

end Takes

/-- The tag is a varint of 32 bits; a cut one ends the message. -/
theorem pbDecodeTag_eq (stream : IStream) :
    pbDecodeTag.run stream = match pbDecodeVarint32.run stream with
      | (.ok 0, after) => (.ok none, after)
      | (.ok temp, after) => (.ok (some (temp >>> 3)), after)
      | (.error stop, after) =>
          if stop = .refused ∧ after.bytesLeft = 0 then (.ok none, after)
          else (.error stop, after) := by
  unfold pbDecodeTag
  rw [PbStream.run_bind, PbStream.run_tryCatch, PbStream.run_map]
  rcases pbDecodeVarint32.run stream with ⟨stop | (_ | value), after⟩
  · dsimp only
    rw [PbStream.run_bind, PbStream.run_get]
    by_cases ended : stop = .refused ∧ after.bytesLeft = 0
    · simp only [if_pos ended]
      rfl
    · simp only [if_neg ended]
      rfl
  · rfl
  · rfl

/-- A tag takes a byte; where there is none, some bytes may have been taken. -/
theorem pbDecodeTag_run (stream : IStream) (ready : stream.Ready) :
    ∃ used, stream.state = used ++ (pbDecodeTag.run stream).2.state ∧
      used.length + (pbDecodeTag.run stream).2.bytesLeft = stream.bytesLeft ∧
        ((∃ tag, (pbDecodeTag.run stream).1 = .ok (some tag) ∧ 1 ≤ used.length) ∨
          ((pbDecodeTag.run stream).1 = .ok none ∧
            ((pbDecodeVarint32.run stream).1 = .ok 0 ∨
              (pbDecodeVarint32.run stream).1 = .error .refused ∧
                (pbDecodeTag.run stream).2.bytesLeft = 0)) ∨
          (pbDecodeTag.run stream).1 = .error .refused) := by
  obtain ⟨used, state, count, status⟩ := Takes.varint32 stream ready
  rw [pbDecodeTag_eq]
  generalize pbDecodeVarint32.run stream = result at state count status
  obtain ⟨outcome, after⟩ := result
  dsimp only at state count status
  refine ⟨used, ?_⟩
  rcases status with ⟨value, rfl, enough⟩ | rfl
  · cases value with
    | zero => exact ⟨state, count, .inr (.inl ⟨rfl, .inl rfl⟩)⟩
    | succ value => exact ⟨state, count, .inl ⟨_, rfl, enough⟩⟩
  · dsimp only
    split
    · next ended => exact ⟨state, count, .inr (.inl ⟨rfl, .inr ⟨rfl, ended.2⟩⟩)⟩
    · exact ⟨state, count, .inr (.inr rfl)⟩

/-- The depth of the message that a note is about. -/
def PbNote.depth? : PbNote → Option Nat
  | .turn depth _ | .ended depth _ | .cut depth => some depth
  | .closed .. | .text _ | .block _ | .created => none

/-- No message below a depth is ended by a zero tag that is not its last byte. -/
def Whole (depth : Nat) (notes : List PbNote) : Prop :=
  ∀ deeper left, .ended deeper left ∈ notes → depth < deeper → left = 0

/-- Behind every submessage the memory is read on where the submessage ends. -/
def Aligned (notes : List PbNote) : Prop :=
  ∀ size start next, .closed size start next ∈ notes → next = start.drop size

/-- How an operation may end: with a write outside a block if the length of a string wraps
around, and else without one. -/
structure Stops (status : Except Stop α) (notes : List PbNote) : Prop where
  fueled : status ≠ .error .outOfFuel
  running : status ≠ .error .aborted
  inside : status = .error .outOfBounds ↔ .text (2 ^ 32 - 1) ∈ notes

/-- An operation in a message at some depth: the stream has moved forward, exactly by the
bytes that are counted if everything is whole, and the notes are about messages that are not
above the floor. -/
structure Trail (depth floor allowance : Nat) (before after : WatchedStream)
    (status : Except Stop α) (notes : List PbNote) : Prop where
  noted : after.notes = before.notes ++ notes
  used : ∃ used, before.stream.state = used ++ after.stream.state ∧
    used.length + after.stream.bytesLeft ≤ before.stream.bytesLeft ∧
      ((∃ value, status = .ok value) → Whole depth notes →
        used.length + after.stream.bytesLeft = before.stream.bytesLeft)
  created : notes.count .created + 2 * after.stream.bytesLeft ≤
    allowance + 2 * before.stream.bytesLeft
  below : ∀ note ∈ notes, ∀ deeper, note.depth? = some deeper → floor ≤ deeper
  shallow : ∀ deeper stream, .turn deeper stream ∈ notes →
    deeper + stream.bytesLeft ≤ depth + before.stream.bytesLeft
  aligned : Whole depth notes ↔ Aligned notes
  stops : Stops status notes

/-- All submessages of two parts are whole if those of each part are. -/
theorem whole_append {depth : Nat} {notes more : List PbNote} :
    Whole depth (notes ++ more) ↔ Whole depth notes ∧ Whole depth more := by
  simp only [Whole, List.mem_append, or_imp, forall_and]

/-- All turns of two parts are aligned if those of each part are. -/
theorem aligned_append {notes more : List PbNote} :
    Aligned (notes ++ more) ↔ Aligned notes ∧ Aligned more := by
  simp only [Aligned, List.mem_append, or_imp, forall_and]

theorem whole_nil (depth : Nat) : Whole depth [] := fun _ _ member => absurd member List.not_mem_nil

theorem aligned_nil : Aligned [] := fun _ _ _ member => absurd member List.not_mem_nil

namespace Trail

variable {depth floor allowance : Nat} {before middle after : WatchedStream}
  {status : Except Stop α} {notes more : List PbNote}

theorem ready (trail : Trail depth floor allowance before after status notes)
    (ready : before.stream.Ready) : after.stream.Ready := by
  obtain ⟨used, state, count, -⟩ := trail.used
  exact ready.of_used state count

theorem left_le (trail : Trail depth floor allowance before after status notes) :
    after.stream.bytesLeft ≤ before.stream.bytesLeft := by
  obtain ⟨used, -, count, -⟩ := trail.used
  omega

/-- Two operations one after the other. -/
theorem trans {further : Nat} {value : α} {outcome : Except Stop β}
    (first : Trail depth floor allowance before middle (.ok value : Except Stop α) notes)
    (second : Trail depth floor further middle after outcome more) :
    Trail depth floor (allowance + further) before after outcome (notes ++ more) where
  noted := by rw [second.noted, first.noted, List.append_assoc]
  used := by
    obtain ⟨used, state, count, exact⟩ := first.used
    obtain ⟨used', state', count', exact'⟩ := second.used
    refine ⟨used ++ used', ?_, ?_, fun ok whole => ?_⟩
    · rw [state, state', List.append_assoc]
    · rw [List.length_append]
      omega
    · obtain ⟨here, there⟩ := whole_append.mp whole
      have whole := exact ⟨value, rfl⟩ here
      have whole' := exact' ok there
      rw [List.length_append]
      omega
  created := by
    have here := first.created
    have there := second.created
    rw [List.count_append]
    omega
  below note member := by
    rcases List.mem_append.mp member with here | there
    · exact first.below note here
    · exact second.below note there
  shallow deeper stream member := by
    have less := first.left_le
    rcases List.mem_append.mp member with here | there
    · exact first.shallow deeper stream here
    · have bound := second.shallow deeper stream there
      omega
  aligned := by rw [whole_append, aligned_append, first.aligned, second.aligned]
  stops := by
    refine ⟨second.stops.fueled, second.stops.running, ?_⟩
    have none : .text (2 ^ 32 - 1) ∉ notes := fun member =>
      absurd (first.stops.inside.mpr member) nofun
    rw [second.stops.inside, List.mem_append, or_iff_right none]

/-- What follows an operation that has not ended well does not run. -/
theorem stopped {stop : Stop}
    (trail : Trail depth floor allowance before after (.error stop : Except Stop α) notes)
    (further : Nat) :
    Trail depth floor (allowance + further) before after (.error stop : Except Stop β) notes where
  noted := trail.noted
  used := by
    obtain ⟨used, state, count, -⟩ := trail.used
    exact ⟨used, state, count, fun ok => absurd ok.choose_spec nofun⟩
  created := by
    have created := trail.created
    omega
  below := trail.below
  shallow := trail.shallow
  aligned := trail.aligned
  stops := by
    obtain ⟨fueled, running, inside⟩ := trail.stops
    refine ⟨fun same => fueled ?_, fun same => running ?_, inside.symm.trans ?_ |>.symm⟩
    · exact congrArg Except.error (Except.error.inj same)
    · exact congrArg Except.error (Except.error.inj same)
    · exact ⟨fun same => congrArg Except.error (Except.error.inj same),
        fun same => congrArg Except.error (Except.error.inj same)⟩

end Trail

/-- A source that is refused or follows a null pointer, if it does not end well. -/
def Declines (source : Except Stop α) : Prop :=
  ∀ stop, source = .error stop → stop = .refused ∨ stop = .nullDeref

namespace Declines

theorem ok (value : α) : Declines (.ok value) := fun _ same => by cases same

/-- Two steps decline the same way. -/
theorem bind {first : Except Stop α} {next : α → Except Stop β} (head : Declines first)
    (tail : ∀ value, Declines (next value)) : Declines (first >>= next) := by
  cases first with
  | ok value => exact tail value
  | error stop =>
      intro other same
      exact head other (congrArg Except.error (Except.error.inj same))

theorem deref (pointer : Option α) : Declines (deref pointer) := by
  cases pointer with
  | none => exact fun _ same => .inr (Except.error.inj same).symm
  | some value => exact ok value

/-- What is looked up may be no object. -/
theorem getObjectItem (object : Json) (key : CStr) : Declines (pcJSONGetObjectItem object key) := by
  unfold pcJSONGetObjectItem
  split
  · exact fun _ same => .inr (Except.error.inj same).symm
  · exact ok _

theorem memberText (proto : Json) (name : String) : Declines (pbMemberText proto name) :=
  (getObjectItem proto _).bind fun _ => (deref _).bind fun _ => deref _

theorem findMessage (gprotos messages : Json) (type : CStr) :
    Declines (pbFindMessage gprotos messages type) := by
  refine (getObjectItem messages type).bind fun found => ?_
  cases found with
  | none => exact getObjectItem gprotos _
  | some subMsg => exact ok _

theorem refused : Declines (throw .refused : Except Stop α) :=
  fun _ same => .inl (Except.error.inj same).symm

/-- A tag may belong to no field. -/
theorem findField (protos : Json) (tag : Nat) : Declines (pbFindField protos tag) := by
  refine (getObjectItem protos _).bind fun tags => ?_
  cases tags with
  | none => exact refused
  | some tags =>
      refine (getObjectItem tags _).bind fun member => ?_
      cases member with
      | none => exact refused
      | some member =>
          refine (deref _).bind fun name => (getObjectItem protos name).bind fun proto => ?_
          cases proto with
          | none => exact refused
          | some proto => exact ok _

/-- A value may have no place. -/
theorem addValue (result : Json) (key : Option CStr) (item : Json) :
    Declines (pbAddValue result key item) := by
  rw [pbAddValue]
  split
  · exact (deref key).bind fun _ => ok _
  · exact ok _

end Declines

/-- An operation that leaves a trail, on a stream with at most so many bytes left. -/
def Marks (limit depth floor allowance : Nat) (act : PbWatcher α) : Prop :=
  ∀ before : WatchedStream, before.stream.Ready → before.stream.bytesLeft ≤ limit →
    ∃ notes, Trail depth floor allowance before (act.run before).2 (act.run before).1 notes

theorem Stops.quiet {status : Except Stop α} (declines : Declines status) : Stops status [] where
  fueled same := absurd (declines _ same) (by decide)
  running same := absurd (declines _ same) (by decide)
  inside := by
    refine ⟨fun same => absurd (declines _ same) (by decide), fun member => ?_⟩
    exact absurd member List.not_mem_nil

/-- Some bytes have been read, and nothing is noted. -/
theorem Trail.moved {depth floor : Nat} {before : WatchedStream} {after : IStream} {used : Bytes}
    {status : Except Stop α} (state : before.stream.state = used ++ after.state)
    (count : used.length + after.bytesLeft = before.stream.bytesLeft)
    (declines : Declines status) : Trail depth floor 0 before ⟨after, before.notes⟩ status [] where
  noted := (List.append_nil _).symm
  used := ⟨used, state, Nat.le_of_eq count, fun _ _ => count⟩
  created := by
    rw [List.count_nil]
    dsimp only
    omega
  below _ member := absurd member List.not_mem_nil
  shallow _ _ member := absurd member List.not_mem_nil
  aligned := iff_of_true (whole_nil depth) aligned_nil
  stops := Stops.quiet declines

theorem Trail.still {depth floor : Nat} (watched : WatchedStream) {status : Except Stop α}
    (declines : Declines status) : Trail depth floor 0 watched watched status [] :=
  Trail.moved (List.nil_append _).symm (Nat.zero_add _) declines

/-- Something is noted, apart from the end of a submessage. -/
theorem Trail.note (note : PbNote) {depth floor : Nat} {before : WatchedStream}
    {status : Except Stop α} (declines : Declines status)
    (below : ∀ deeper, note.depth? = some deeper → floor ≤ deeper)
    (turn : ∀ deeper stream, note = .turn deeper stream →
      deeper + stream.bytesLeft ≤ depth + before.stream.bytesLeft)
    (ended : ∀ deeper left, note = .ended deeper left → deeper ≤ depth)
    (closed : ∀ size start next, note ≠ .closed size start next)
    (fits : note ≠ .text (2 ^ 32 - 1)) :
    Trail depth floor ([note].count .created) before
      ⟨before.stream, before.notes ++ [note]⟩ status [note] where
  noted := rfl
  used := ⟨[], rfl, Nat.le_of_eq (Nat.zero_add _), fun _ _ => Nat.zero_add _⟩
  created := Nat.le_refl _
  below other member := by
    obtain rfl := List.mem_singleton.mp member
    exact below
  shallow deeper stream member := turn deeper stream (List.mem_singleton.mp member).symm
  aligned := by
    refine iff_of_true (fun deeper left member deep => ?_) fun size start next member => ?_
    · have le := ended deeper left (List.mem_singleton.mp member).symm
      omega
    · exact absurd (List.mem_singleton.mp member).symm (closed size start next)
  stops := by
    obtain ⟨fueled, running, inside⟩ := Stops.quiet declines
    refine ⟨fueled, running, inside.trans ?_⟩
    exact iff_of_false List.not_mem_nil fun member => fits (List.mem_singleton.mp member).symm

namespace Marks

variable {limit depth floor allowance further : Nat}

/-- More bytes may be allowed for. -/
theorem mono {act : PbWatcher α} (keeps : Marks limit depth floor allowance act)
    (le : allowance ≤ further) : Marks limit depth floor further act := by
  intro before ready room
  obtain ⟨notes, trail⟩ := keeps before ready room
  have created := trail.created
  exact ⟨notes, { trail with created := by omega }⟩

theorem pure (value : α) : Marks limit depth floor 0 (pure value) :=
  fun before _ _ => ⟨[], Trail.still before (.ok value)⟩

theorem refused : Marks limit depth floor 0 (throw .refused : PbWatcher α) :=
  fun before _ _ => ⟨[], Trail.still before .refused⟩

/-- What is read from the schema marks nothing. -/
theorem liftM {source : Except Stop α} (declines : Declines source) :
    Marks limit depth floor 0 (liftM source : PbWatcher α) := by
  intro before _ _
  cases source with
  | ok value => exact ⟨[], Trail.still before declines⟩
  | error stop => exact ⟨[], Trail.still before declines⟩

/-- Two steps mark one after another. -/
theorem bind {first : PbWatcher α} {next : α → PbWatcher β}
    (head : Marks limit depth floor allowance first)
    (tail : ∀ value, Marks limit depth floor further (next value)) :
    Marks limit depth floor (allowance + further) (first >>= next) := by
  intro before ready room
  obtain ⟨notes, trail⟩ := head before ready room
  rw [PbStream.run_bind]
  generalize first.run before = result at trail
  obtain ⟨stop | value, middle⟩ := result
  · exact ⟨notes, trail.stopped further⟩
  · obtain ⟨more, second⟩ := tail value middle (trail.ready ready) (trail.left_le.trans room)
    exact ⟨notes ++ more, trail.trans second⟩

/-- What is read from the schema may be used. -/
theorem liftM_bind {source : Except Stop α} (declines : Declines source) {next : α → PbWatcher β}
    (tail : ∀ value, source = .ok value → Marks limit depth floor allowance (next value)) :
    Marks limit depth floor allowance (do next (← source)) := by
  cases source with
  | ok value => exact tail value rfl
  | error stop =>
      intro before ready room
      have trail : Trail depth floor (0 + allowance) before before
          (.error stop : Except Stop β) [] := (Trail.still before declines).stopped allowance
      rw [Nat.zero_add] at trail
      exact ⟨[], trail⟩

/-- A node is created. -/
theorem created : Marks limit depth floor 1 (PbWatcher.note .created) :=
  fun _ _ _ => ⟨[.created], Trail.note .created (.ok ()) nofun nofun nofun nofun nofun⟩

/-- The size of a string is noted that is small enough. -/
theorem text {strLen : Nat} (fits : strLen ≠ 2 ^ 32 - 1) :
    Marks limit depth floor 0 (PbWatcher.note (.text strLen)) :=
  fun _ _ _ => ⟨[.text strLen], Trail.note (.text strLen) (.ok ()) nofun nofun nofun nofun
    fun same => fits (PbNote.text.inj same)⟩

/-- The block of a string is noted. -/
theorem block (block : StringBlock) : Marks limit depth floor 0 (PbWatcher.note (.block block)) :=
  fun _ _ _ => ⟨[.block block], Trail.note (.block block) (.ok ()) nofun nofun nofun nofun nofun⟩

end Marks

/-- A reader that is not noted. -/
theorem Trail.read {act : PbReader α} {least : Nat} (takes : Takes act least) (depth floor : Nat)
    {before : WatchedStream} (ready : before.stream.Ready) :
    Trail depth floor 0 before ((PbWatcher.read act).run before).2
        ((PbWatcher.read act).run before).1 [] ∧
      ((∃ value, ((PbWatcher.read act).run before).1 = .ok value) →
        least + ((PbWatcher.read act).run before).2.stream.bytesLeft ≤
          before.stream.bytesLeft) := by
  obtain ⟨used, state, count, status⟩ := takes before.stream ready
  change _ ∧ ((∃ value, (act.run before.stream).1 = .ok value) →
    least + (act.run before.stream).2.bytesLeft ≤ before.stream.bytesLeft)
  have declines : Declines (act.run before.stream).1 := by
    rcases status with ⟨value, same, -⟩ | same
    · rw [same]
      exact .ok value
    · rw [same]
      exact .refused
  refine ⟨Trail.moved state count declines, ?_⟩
  rintro ⟨value, ok⟩
  rcases status with ⟨-, -, enough⟩ | same
  · omega
  · rw [same] at ok
    cases ok

namespace Marks

variable {limit depth floor allowance : Nat}

/-- The bytes that are read pay for what is created behind them. -/
theorem read_bind {act : PbReader α} {least : Nat} (takes : Takes act least)
    {next : α → PbWatcher β} (tail : ∀ value, (∃ stream, (act.run stream).1 = .ok value) →
      Marks limit depth floor (2 * least) (next value)) :
    Marks limit depth floor 0 (PbWatcher.read act >>= next) := by
  intro before ready room
  obtain ⟨first, least⟩ := Trail.read takes depth floor ready
  have same : ((PbWatcher.read act).run before).1 = (act.run before.stream).1 := rfl
  rw [PbStream.run_bind]
  generalize (PbWatcher.read act).run before = result at first least same
  obtain ⟨stop | value, middle⟩ := result
  · exact ⟨[], first.stopped 0⟩
  · obtain ⟨more, second⟩ :=
      tail value ⟨_, same.symm⟩ middle (first.ready ready) (first.left_le.trans room)
    have paid := least ⟨value, rfl⟩
    have created := second.created
    dsimp only at paid ⊢
    exact ⟨more, { first.trans second with created := by omega }⟩

/-- What is not watched marks nothing, and takes its bytes. -/
theorem read {act : PbReader α} {least : Nat} (takes : Takes act least) :
    Marks limit depth floor 0 (PbWatcher.read act) :=
  fun _ ready _ => ⟨[], (Trail.read takes depth floor ready).1⟩

/-- A string for which nothing is allocated. -/
theorem wrapped (block : StringBlock) : Marks limit depth floor 0
    (do PbWatcher.note (.text (2 ^ 32 - 1))
        PbWatcher.note (.block block)
        throw .outOfBounds : PbWatcher α) := by
  have only {note : PbNote} (member : note ∈ [PbNote.text (2 ^ 32 - 1), .block block]) :
      note = .text (2 ^ 32 - 1) ∨ note = .block block := by simpa using member
  intro before _ _
  refine ⟨[.text (2 ^ 32 - 1), .block block], ?_, ⟨[], rfl, Nat.le_of_eq (Nat.zero_add _),
    fun ok => absurd ok.choose_spec nofun⟩, ?_, fun note member deeper same => ?_,
    fun deeper stream member => ?_, ?_, nofun, nofun, ?_⟩
  · exact List.append_assoc before.notes [_] [_]
  · exact Nat.le_refl _
  · obtain rfl | rfl := only member <;> cases same
  · obtain same | same := only member <;> cases same
  · refine iff_of_true (fun deeper left member => ?_) fun size start next member => ?_
    · obtain same | same := only member <;> cases same
    · obtain same | same := only member <;> cases same
  · exact iff_of_true rfl (List.mem_cons_self ..)

end Marks

end Pomelo
