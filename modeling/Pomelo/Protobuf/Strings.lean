import Pomelo.Protobuf.Bounded

/-!
# The blocks of the strings

`pb_decode_proto` allocates one byte more than a string has, in 32 bits, and `pb_decode_string`
stores a zero behind the string whether or not its bytes could be read. Both fit the block for
every announced size but the largest (`strings_fit_iff`), and where one does not fit the decoder
leaves its block.
-/

namespace Pomelo

variable {α β : Type}

/-- Each block that is noted is that of a size which is noted, and each size is a `uint32_t`
and has a block. -/
structure StringsNoted (notes : List PbNote) : Prop where
  sized : ∀ block, .block block ∈ notes →
    ∃ strLen stream, .text strLen ∈ notes ∧ block = pbStringBlock strLen stream
  placed : ∀ strLen, .text strLen ∈ notes →
    strLen < 2 ^ 32 ∧ ∃ stream, .block (pbStringBlock strLen stream) ∈ notes

/-- The note is about a string. -/
def PbNote.ofString : PbNote → Bool
  | .text _ | .block _ => true
  | _ => false

/-- Notes about other things do not matter. -/
theorem StringsNoted.append {notes : List PbNote} (noted : StringsNoted notes) {note : PbNote}
    (other : note.ofString = false) : StringsNoted (notes ++ [note]) where
  sized block member := by
    rcases List.mem_append.mp member with before | last
    · obtain ⟨strLen, stream, size, same⟩ := noted.sized block before
      exact ⟨strLen, stream, List.mem_append_left _ size, same⟩
    · obtain rfl := List.mem_singleton.mp last
      cases other
  placed strLen member := by
    rcases List.mem_append.mp member with before | last
    · obtain ⟨bound, stream, found⟩ := noted.placed strLen before
      exact ⟨bound, stream, List.mem_append_left _ found⟩
    · obtain rfl := List.mem_singleton.mp last
      cases other

/-- A size and its block are noted together. -/
theorem StringsNoted.append_text {notes : List PbNote} (noted : StringsNoted notes) {strLen : Nat}
    (bound : strLen < 2 ^ 32) (stream : IStream) :
    StringsNoted (notes ++ [.text strLen] ++ [.block (pbStringBlock strLen stream)]) where
  sized other member := by
    simp only [List.mem_append, List.mem_singleton, or_false, reduceCtorEq,
      PbNote.block.injEq] at member ⊢
    rcases member with before | rfl
    · obtain ⟨size, start, found, same⟩ := noted.sized other before
      exact ⟨size, start, .inl found, same⟩
    · exact ⟨strLen, stream, .inr rfl, rfl⟩
  placed size member := by
    simp only [List.mem_append, List.mem_singleton, or_false, reduceCtorEq,
      PbNote.text.injEq] at member ⊢
    rcases member with before | rfl
    · obtain ⟨small, start, found⟩ := noted.placed size before
      exact ⟨small, start, .inl found⟩
    · exact ⟨bound, stream, .inr rfl⟩

/-- An operation that notes no size without its block, and no block without its size. -/
def Announces (act : PbWatcher α) : Prop :=
  ∀ watched, StringsNoted watched.notes → StringsNoted (act.run watched).2.notes

namespace Announces

theorem pure (value : α) : Announces (pure value) := fun _ noted => noted

theorem throw (stop : Stop) : Announces (throw stop : PbWatcher α) := fun _ noted => noted

/-- What is not watched announces nothing. -/
theorem read (act : PbReader α) : Announces (PbWatcher.read act) := fun _ noted => noted

/-- Two parts announce what each of them does. -/
theorem bind {first : PbWatcher α} {next : α → PbWatcher β} (head : Announces first)
    (tail : ∀ value, Announces (next value)) : Announces (first >>= next) := by
  intro watched noted
  have middle := head watched noted
  rw [PbStream.run_bind]
  generalize first.run watched = result at middle
  obtain ⟨stop | value, after⟩ := result
  · exact middle
  · exact tail value after middle

theorem liftM_bind {source : Except Stop α} {next : α → PbWatcher β}
    (tail : ∀ value, Announces (next value)) : Announces (do next (← source)) := by
  cases source with
  | error stop => exact fun _ noted => noted
  | ok value => exact tail value

theorem liftM (source : Except Stop α) : Announces (liftM source : PbWatcher α) := by
  cases source with
  | error stop => exact throw stop
  | ok value => exact pure value

theorem get_bind {next : WatchedStream → PbWatcher α}
    (tail : ∀ watched, Announces (next watched)) : Announces (do next (← get)) :=
  fun watched => tail watched watched

/-- Only the notes of a string are about strings. -/
theorem note {note : PbNote} (other : note.ofString = false) : Announces (PbWatcher.note note) :=
  fun _ noted => noted.append other

/-- The note of a string has its block beside its size. -/
theorem noteText : Announces PbWatcher.noteText := by
  intro watched noted
  rw [PbWatcher.noteText, PbStream.run_bind, PbStream.run_get]
  dsimp only
  cases size : pbDecodeVarint32.run watched.stream with
  | mk status stream =>
      cases status with
      | error stop => exact noted
      | ok strLen =>
          exact noted.append_text (pbDecodeVarint32_lt (congrArg Prod.fst size)) stream

theorem noteEnd (depth : Nat) (start : IStream) : Announces (PbWatcher.noteEnd depth start) := by
  rw [PbWatcher.noteEnd]
  split
  · exact get_bind fun watched => note rfl
  · exact note rfl

theorem tag (depth : Nat) : Announces (watchTag depth) := by
  refine get_bind fun start => (read _).bind fun tag => ?_
  cases tag with
  | some tag => exact pure _
  | none => exact (noteEnd depth start.stream).bind fun _ => pure none

/-- A submessage announces what its content does. -/
theorem submessage {decode : PbWatcher Json} (announces : Announces decode) :
    Announces (watchSubmessage decode) := by
  intro watched noted
  rw [watchSubmessage_run]
  have before := read pbDecodeVarint32 watched noted
  generalize (PbWatcher.read pbDecodeVarint32).run watched = result at before
  obtain ⟨stop | size, ⟨stream, notes⟩⟩ := result
  · exact before
  · dsimp only at before ⊢
    split
    · exact before
    · have inner := announces ⟨{ stream with bytesLeft := size }, notes⟩ before
      generalize decode.run ⟨{ stream with bytesLeft := size }, notes⟩ = result at inner
      obtain ⟨stop | dest, ⟨substream, more⟩⟩ := result
      · exact inner
      · exact inner.append rfl

/-- A scalar announces its text, if it is one. -/
theorem scalar (type : PbType) : Announces (watchScalar type) := by
  have noted : Announces (do
      let value ← PbWatcher.read (pbDecodeScalar type)
      PbWatcher.note .created
      return value) :=
    (read _).bind fun value => (note rfl).bind fun _ => pure value
  rw [watchScalar]
  split
  · exact noteText.bind fun _ => noted
  · exact noted

variable {decode : (protos result : Json) → PbWatcher Json} {gprotos protos proto : Json}

theorem value (announces : ∀ protos result, Announces (decode protos result))
    (key : Option CStr) (result : Json) :
    Announces (watchProto decode gprotos protos proto key result) := by
  refine liftM_bind fun typeText => liftM_bind fun messages => ?_
  cases pbGetType typeText with
  | some type => exact (scalar type).bind fun value => liftM _
  | none =>
      cases messages with
      | none => exact pure result
      | some messages =>
          refine liftM_bind fun found => ?_
          cases found with
          | none => exact throw _
          | some subMsg =>
              cases key with
              | none => exact submessage (announces _ _)
              | some key =>
                  exact (note rfl).bind fun _ =>
                    (submessage (announces _ _)).bind fun _ => pure _

theorem elements (announces : ∀ protos result, Announces (decode protos result)) (key : CStr)
    (size : Nat) (array : Json) :
    Announces (watchElements decode gprotos protos proto key size array) := by
  induction size generalizing array with
  | zero => exact pure array
  | succ size ih => exact (Announces.value announces (some key) array).bind ih

theorem array (announces : ∀ protos result, Announces (decode protos result)) (key : CStr)
    (result : Json) : Announces (watchArray decode gprotos protos proto key result) := by
  refine liftM_bind fun typeText => liftM_bind fun existing => ?_
  have branches (array : Json) (finish : Json → Json) : Announces
      (if pbIsPacked typeText then do
          let size ← PbWatcher.read pbDecodeVarint32
          let array ← watchElements decode gprotos protos proto key size array
          return finish array
        else if pbGetType typeText = some .string then do
          let array ← watchProto decode gprotos protos proto (some key) array
          return finish array
        else do
          PbWatcher.note .created
          let value ← watchProto decode gprotos protos proto none (.object [])
          return finish (pcJSONAddItemToArray array value)) := by
    split
    · exact (read _).bind fun size => (elements announces key size array).bind fun _ => pure _
    split
    · exact (Announces.value announces (some key) array).bind fun _ => pure _
    · exact (note rfl).bind fun _ => (Announces.value announces none _).bind fun _ => pure _
  cases existing with
  | none =>
      exact (note rfl).bind fun _ =>
        branches (.array []) fun array => pcJSONAddItemToObject result key array
  | some array => exact branches array fun array => result.modifyItem key fun _ => array

theorem field (announces : ∀ protos result, Announces (decode protos result)) (tag : Nat)
    (result : Json) : Announces (watchField decode gprotos protos tag result) := by
  refine liftM_bind fun found => liftM_bind fun optionText => ?_
  split
  · exact Announces.value announces _ _
  split
  · exact Announces.array announces _ _
  · exact pure _

end Announces

theorem watchDecode_announces (gprotos : Json) (fuel depth : Nat) (protos result : Json) :
    Announces (watchDecode gprotos fuel depth protos result) := by
  induction fuel generalizing depth protos result with
  | zero =>
      refine Announces.get_bind fun watched => (Announces.note rfl).bind fun _ =>
        Announces.get_bind fun watched => ?_
      split
      · exact Announces.pure _
      · exact Announces.throw _
  | succ fuel ih =>
      refine Announces.get_bind fun watched => (Announces.note rfl).bind fun _ =>
        Announces.get_bind fun watched => ?_
      split
      · exact Announces.pure _
      · refine (Announces.tag depth).bind fun tag => ?_
        cases tag with
        | none => exact Announces.pure result
        | some tag =>
            exact (Announces.field (fun protos result => ih (depth + 1) protos result) tag
              result).bind fun result => ih depth protos result

/-- In a run of the decoder the sizes and the blocks of the strings are noted together. -/
theorem watchPbDecode_noted (buf : Bytes) (len : Nat) (gprotos protos result : Json) :
    StringsNoted (watchPbDecode buf len gprotos protos result).2 :=
  watchDecode_announces gprotos len 0 protos result ⟨{ state := buf, bytesLeft := len }, []⟩
    { sized := fun _ member => absurd member List.not_mem_nil
      placed := fun _ member => absurd member List.not_mem_nil }

/-- Every string that the decoder meets fits its block. -/
def StringsFit (notes : List PbNote) : Prop := ∀ block, .block block ∈ notes → block.Fits

/-- The strings of a run fit their blocks exactly if none is announced with 2^32-1 bytes, and a
run leaves a block exactly if one of its strings does not fit. -/
theorem strings_fit_iff (buf rest : Bytes) (gprotos protos result : Json) :
    let run := watchPbDecode (buf ++ rest) buf.length gprotos protos result
    (StringsFit run.2 ↔ .text (2 ^ 32 - 1) ∉ run.2) ∧
      (run.1 = .error .outOfBounds ↔ ¬ StringsFit run.2) := by
  intro run
  have noted : StringsNoted run.2 := watchPbDecode_noted _ _ gprotos protos result
  have fit : StringsFit run.2 ↔ .text (2 ^ 32 - 1) ∉ run.2 := by
    constructor
    · intro fits member
      obtain ⟨-, stream, block⟩ := noted.placed _ member
      have room := (pbStringBlock_fits_iff _ stream).mp (fits _ block)
      omega
    · rintro absent block member
      obtain ⟨strLen, stream, size, rfl⟩ := noted.sized block member
      obtain ⟨bound, -⟩ := noted.placed strLen size
      have short : strLen ≠ 2 ^ 32 - 1 := by
        rintro rfl
        exact absent size
      rw [pbStringBlock_fits_iff]
      omega
  obtain ⟨after, loop⟩ := watchPbDecode_trail buf rest gprotos protos result
  exact ⟨fit, loop.stops.inside.trans (by rw [fit, not_not])⟩

/-- The name of 2^32-1 bytes is met, with nothing left of the stream. -/
theorem strings_fit_fails :
    ¬ StringsFit (watchPbDecode [0x12, 0xFF, 0xFF, 0xFF, 0xFF, 0x0F] 6 namesRoots namesSchema
      (.object [])).2 := by
  intro fits
  have met : .block ⟨0, 0, 2 ^ 32 - 1⟩ ∈ (watchPbDecode [0x12, 0xFF, 0xFF, 0xFF, 0xFF, 0x0F] 6
      namesRoots namesSchema (.object [])).2 := by
    decide +kernel
  exact absurd (fits _ met).2 (by decide)

end Pomelo
