import Pomelo.Protobuf.DecodeWire
import Pomelo.Protobuf.EncodeWire

/-!
# Integers are read back

The two integer formats are inverse to each other on all numbers of 64 bits, whatever follows
the number, and keep within ten bytes (`integers_inverse`). The decoder keeps within ten bytes
on any input, and its shifts stay below the width of the number.
-/

namespace Pomelo

variable {α : Type}

/-- The distances `bitpos` by which `pb_decode_varint` shifts the bytes it reads. -/
def pbVarintShifts : (passes bitpos : Nat) → IStream → List Nat
  | 0, _, _ => []
  | passes + 1, bitpos, stream =>
      if bitpos < 64 then
        match (pbRead 1).run stream with
        | (.ok byte, stream) =>
            bitpos :: if byte.headD 0 &&& 0x80 = 0 then []
              else pbVarintShifts passes (bitpos + 7) stream
        | (.error _, _) => []
      else []

/-- What the writer writes for a value, in at most ten bytes, the reader reads as the value. -/
structure RoundTrips (encode : PbWriter Unit) (decode : PbReader α) (value : α) : Prop where
  accepted : ∀ stream : OStream, stream.callback = true →
    stream.bytesWritten + 10 ≤ stream.maxSize → stream.maxSize < 2 ^ 64 →
      (encode.run stream).1 = .ok ()
  restored : ∀ stream after : OStream, stream.callback = true →
    encode.run stream = (.ok (), after) →
      ∃ output, after.state = stream.state ++ output ∧ output.length ≤ 10 ∧
        Reads decode output value

/-- A block that is written in one piece is read back when its bytes are. -/
theorem RoundTrips.of_block {encode : PbWriter Unit} {decode : PbReader α} {value : α}
    {bytes : Bytes} (same : encode = pbWrite bytes bytes.length) (short : bytes.length ≤ 10)
    (reads : Reads decode bytes value) : RoundTrips encode decode value where
  accepted stream writing room bound := by
    have fits : stream.bytesWritten + bytes.length ≤ stream.maxSize := by omega
    rw [same, (Emits.pbWrite bytes).writes stream writing fits bound]
  restored stream after writing run := by
    rw [same, pbWrite_run, if_pos writing] at run
    split at run
    · cases run
    · rw [if_neg (Nat.lt_irrefl _), List.take_length] at run
      cases run
      exact ⟨bytes, rfl, short, reads⟩

/-- Ten bytes are enough for 64 bits. -/
theorem length_leb128_le_ten {value : Nat} (bound : value < 2 ^ 64) :
    (Codec.leb128 value).length ≤ 10 := by
  have digits : value < 128 ^ (9 + 1) := Nat.lt_trans bound (by decide)
  exact Codec.length_leb128_le digits

/-- Every number of 64 bits is encoded and decoded again. -/
theorem pbVarint_roundTrips {value : Nat} (bound : value < 2 ^ 64) :
    RoundTrips (pbEncodeVarint value) pbDecodeVarint value :=
  .of_block (pbEncodeVarint_eq bound) (length_leb128_le_ten bound) (Reads.varint bound)

theorem pbSvarint_roundTrips {value : Int} (low : -2 ^ 63 ≤ value) (high : value < 2 ^ 63) :
    RoundTrips (pbEncodeSvarint value) pbDecodeSvarint value := by
  have bound := zigzag_lt low high
  refine .of_block ?_ (length_leb128_le_ten bound) (Reads.svarint low high)
  rw [pbEncodeSvarint_eq low high, pbEncodeVarint_eq bound]

/-- The bytes that the loop of the encoder has put into its buffer. -/
theorem length_pbVarintGroups_le {value : Nat} (bound : value < 2 ^ 64) :
    (pbVarintGroups 64 value).length ≤ 10 := by
  by_cases zero : value = 0
  · subst zero
    decide
  · obtain ⟨-, length⟩ := pbVarintGroups_eq zero bound
    rw [length]
    exact length_leb128_le_ten bound

/-- Whether a byte could be read or not, it is gone from the front of the stream or the
stream is as it was. -/
theorem pbRead_one_run (stream : IStream) :
    (∃ byte, (pbRead 1).run stream =
      (.ok [byte], ⟨stream.state.drop 1, stream.bytesLeft - 1⟩) ∧ 0 < stream.bytesLeft) ∨
    ∃ stop, (pbRead 1).run stream = (.error stop, stream) := by
  rw [pbRead, PbStream.run_bind, PbStream.run_get]
  dsimp only
  by_cases short : stream.bytesLeft < 1
  · rw [if_pos short]
    exact .inr ⟨_, rfl⟩
  · rw [if_neg short]
    obtain ⟨state, bytesLeft⟩ := stream
    cases state with
    | nil => exact .inr ⟨_, rfl⟩
    | cons byte state => exact .inl ⟨byte, rfl, by omega⟩

/-- Every byte that the loop reads is shifted once, each by seven more than the one before. -/
theorem pbDecodeVarintLoop_shifts (passes bitpos dest : Nat) (stream : IStream) :
    ∃ count, count ≤ passes ∧
      pbVarintShifts passes bitpos stream = List.range' bitpos count 7 ∧
      ((pbDecodeVarintLoop passes bitpos dest).run stream).2.bytesLeft + count =
        stream.bytesLeft ∧
      ((pbDecodeVarintLoop passes bitpos dest).run stream).2.state = stream.state.drop count := by
  induction passes generalizing bitpos dest stream with
  | zero => exact ⟨0, Nat.le_refl 0, rfl, rfl, rfl⟩
  | succ passes ih =>
      rw [pbDecodeVarintLoop, pbVarintShifts]
      by_cases more : bitpos < 64
      · rw [if_pos more, if_pos more, PbStream.run_bind]
        rcases pbRead_one_run stream with ⟨byte, run, left⟩ | ⟨stop, run⟩
        · rw [run]
          dsimp only
          by_cases last : [byte].headD 0 &&& 0x80 = 0
          · rw [if_pos last, if_pos last]
            refine ⟨1, by omega, rfl, ?_, rfl⟩
            change stream.bytesLeft - 1 + 1 = stream.bytesLeft
            omega
          · rw [if_neg last, if_neg last]
            obtain ⟨count, within, shifts, bytesLeft, state⟩ := ih (bitpos + 7)
              (dest ||| ([byte].headD 0 &&& 0x7F).toNat <<< bitpos % 2 ^ 64)
              ⟨stream.state.drop 1, stream.bytesLeft - 1⟩
            refine ⟨count + 1, by omega, ?_, ?_, ?_⟩
            · rw [shifts, List.range'_succ]
            · dsimp only at bytesLeft
              omega
            · rw [state, List.drop_drop, Nat.add_comm]
        · rw [run]
          exact ⟨0, Nat.zero_le _, rfl, rfl, rfl⟩
      · rw [if_neg more, if_neg more]
        exact ⟨0, Nat.zero_le _, rfl, rfl, rfl⟩

/-- **The integer formats are inverse to each other.** Every unsigned and every signed number
of 64 bits is read back from its encoding, exactly and whatever follows it. The encoder's
buffer of ten bytes is large enough. On any input the decoder reads at most ten bytes and
shifts each of them by less than 64. -/
theorem integers_inverse :
    (∀ value : UInt64, RoundTrips (pbEncodeVarint value.toNat) pbDecodeVarint value.toNat) ∧
    (∀ value : Int64, RoundTrips (pbEncodeSvarint value.toInt) pbDecodeSvarint value.toInt) ∧
    (∀ value : UInt64, (pbVarintGroups 64 value.toNat).length ≤ 10) ∧
    ∀ stream : IStream, ∃ count, count ≤ 10 ∧
      (pbDecodeVarint.run stream).2.bytesLeft + count = stream.bytesLeft ∧
      (pbDecodeVarint.run stream).2.state = stream.state.drop count ∧
      (pbVarintShifts 10 0 stream).length = count ∧
      ∀ shift ∈ pbVarintShifts 10 0 stream, shift < 64 := by
  refine ⟨fun value => pbVarint_roundTrips value.toNat_lt, fun value => ?_,
    fun value => length_pbVarintGroups_le value.toNat_lt, fun stream => ?_⟩
  · exact pbSvarint_roundTrips value.le_toInt value.toInt_lt
  · obtain ⟨count, within, shifts, bytesLeft, state⟩ := pbDecodeVarintLoop_shifts 10 0 0 stream
    refine ⟨count, within, bytesLeft, state, ?_, fun shift mem => ?_⟩
    · rw [shifts, List.length_range']
    · rw [shifts, List.mem_range'] at mem
      obtain ⟨pass, before, rfl⟩ := mem
      omega

end Pomelo
