import Pomelo.Package.Format
import Pomelo.Transition.Recorded
import Mathlib.Data.List.GetD

/-!
# The output of the TLS transport

From the memory BIO that the TLS library writes to, over `tls__write_to_tcp`, to one socket.
`uv_write` is given a pointer into the BIO, and the BIO is reset as soon as it has returned. A
reset of the transport resets the BIO too, and need not close the socket.
-/

namespace Pomelo

open Transition Recorded

/-- A memory BIO among the blocks of the heap: the block it has, and how many bytes of it are
pending. -/
structure MemBio where
  memory : Nat → Nat → UInt8
  block : Nat
  length : Nat

namespace MemBio

/-- Some bytes of a block. -/
def read (block start count : Nat) (bio : MemBio) : Bytes :=
  (List.range' start count).map (bio.memory block)

/-- What `BIO_get_mem_data` points to. -/
def pending (bio : MemBio) : Bytes := bio.read bio.block 0 bio.length

/-- The BIO gets a larger block, and anything may come to stand in the one that it had. -/
def realloc (block : Nat) (garbage : Nat → UInt8) (bio : MemBio) : MemBio :=
  { bio with
    memory := Function.update (Function.update bio.memory bio.block garbage) block
      (bio.memory bio.block)
    block }

/-- `BIO_write` in the block that the BIO has. -/
def write (data : Bytes) (bio : MemBio) : MemBio :=
  { bio with
    memory := Function.update bio.memory bio.block fun offset =>
      if offset < bio.length then bio.memory bio.block offset
      else data.getD (offset - bio.length) (bio.memory bio.block offset)
    length := bio.length + data.length }

/-- `BIO_reset` -/
def reset (bio : MemBio) : MemBio :=
  { bio with memory := Function.update bio.memory bio.block fun _ => 0, length := 0 }

@[simp] theorem length_pending (bio : MemBio) : bio.pending.length = bio.length := by
  rw [pending, read, List.length_map, List.length_range']

@[simp] theorem pending_realloc (block : Nat) (garbage : Nat → UInt8) (bio : MemBio) :
    (bio.realloc block garbage).pending = bio.pending := by
  rw [pending, read, realloc]
  dsimp only
  rw [Function.update_self]
  rfl

/-- What is written comes behind what is pending. -/
@[simp] theorem pending_write (data : Bytes) (bio : MemBio) :
    (bio.write data).pending = bio.pending ++ data := by
  have behind : ∀ offset ∈ List.range' bio.length data.length,
      (bio.write data).memory bio.block offset = data.getD (offset - bio.length) 0 := by
    intro offset member
    obtain ⟨low, high⟩ := List.mem_range'_1.mp member
    have inside : offset - bio.length < data.length := by omega
    rw [write]
    dsimp only
    rw [Function.update_self, if_neg (Nat.not_lt.mpr low), List.getD_eq_getElem _ _ inside,
      List.getD_eq_getElem _ _ inside]
  have before : ∀ offset ∈ List.range' 0 bio.length,
      (bio.write data).memory bio.block offset = bio.memory bio.block offset := by
    intro offset member
    have low : offset < bio.length := by
      have bound := (List.mem_range'_1.mp member).2
      omega
    rw [write]
    dsimp only
    rw [Function.update_self, if_pos low]
  have split : List.range' 0 (bio.length + data.length) =
      List.range' 0 bio.length ++ List.range' bio.length data.length := by
    rw [List.range'_append_1.symm, Nat.zero_add]
  change (List.range' 0 (bio.length + data.length)).map ((bio.write data).memory bio.block) = _
  rw [split, List.map_append, List.map_congr_left before, List.map_congr_left behind]
  refine congrArg _ (List.ext_getElem (by simp) fun index left right => ?_)
  simp [right]

/-- The first bytes that are pending. -/
theorem read_take (count : Nat) (bio : MemBio) :
    bio.read bio.block 0 (min count bio.length) = bio.pending.take count := by
  rw [pending, read, read, ← List.map_take]
  refine congrArg _ (List.ext_getElem (by simp) fun index left right => ?_)
  simp

end MemBio

/-- The write that libuv has under way: where its bytes are, and how many of them it has put
out. -/
structure UvWrite where
  block : Nat
  length : Nat
  done : Nat
  deriving DecidableEq

/-- The transport at one socket. The last four fields are a record: whether output has been
dropped that the socket, still open, has not seen, what the TLS library has written, what has been
given to `uv_write`, and what has reached the socket. -/
structure TlsOutput where
  bio : MemBio
  isWriting : Bool
  writing : Option UvWrite
  closed : Bool
  broken : Bool
  lost : Bool
  written : Bytes
  given : Bytes
  stream : Bytes

/-- What is noted: how many bytes `uv_write` puts out at once if it is called now, and that bytes
are put out when it has returned. -/
inductive TlsPoint where
  | write (taken : Nat)
  | late
  deriving DecidableEq

namespace TlsOutput

/-- The TLS library writes into the output BIO, which may have to grow. -/
def sslWrites (data : Bytes) (grow : Option (Nat × (Nat → UInt8))) (output : TlsOutput) :
    TlsOutput :=
  let bio := match grow with
    | none => output.bio
    | some (block, garbage) => output.bio.realloc block garbage
  { output with bio := bio.write data, written := output.written ++ data }

/-- `uv_write`, which puts out at once what the socket takes of it. It fails when the handle is
closed. Nothing gets through a connection that has failed. -/
def uvWrite (taken : Nat) (output : TlsOutput) : TlsOutput :=
  if output.closed then output
  else
    let done := if output.broken then 0 else min taken output.bio.length
    { output with
      isWriting := true
      writing := some { block := output.bio.block, length := output.bio.length, done }
      given := output.given ++ output.bio.pending
      stream := output.stream ++ output.bio.read output.bio.block 0 done }

/-- `tls__write_to_tcp` -/
def tlsWriteToTcp (taken : Nat) (output : TlsOutput) : TlsOutput :=
  if output.isWriting then output
  else if output.bio.length = 0 then output
  else
    let output := output.uvWrite taken
    { output with bio := output.bio.reset }

/-- `tls__write_done_cb` -/
def tlsWriteDoneCb (taken : Nat) (output : TlsOutput) : TlsOutput :=
  { output with isWriting := false, writing := none }.tlsWriteToTcp taken

/-- `tls__reset`: the TLS library writes its alert, the output that no write has taken is dropped,
and `tcp__reset` closes the socket, unless the client is INITED by then. -/
def tlsReset (alert : Bytes) (grow : Option (Nat × (Nat → UInt8))) (taken : Nat) (inited : Bool)
    (output : TlsOutput) : TlsOutput :=
  let output := (output.sslWrites alert grow).tlsWriteToTcp taken
  { output with
    bio := output.bio.reset
    closed := output.closed || !inited
    lost := output.lost || (inited && output.bio.length ≠ 0) }

/-- Nothing has been written. -/
def start (bio : MemBio) : TlsOutput where
  bio := { bio with length := 0 }
  isWriting := false
  writing := none
  closed := false
  broken := false
  lost := false
  written := []
  given := []
  stream := []

abbrev Run := Recorded TlsOutput TlsPoint

/-- One step of the TLS library, of the transport, or of libuv with the socket. -/
inductive Step : Run → Run → Prop where
  | ssl (run : Run) (data : Bytes) (grow : Option (Nat × (Nat → UInt8)))
      (fresh : ∀ block garbage, grow = some (block, garbage) → block ≠ run.state.bio.block) :
      Step run (run.change (sslWrites data grow))
  | writeToTcp (run : Run) (taken : Nat) :
      Step run ((run.note (.write taken)).change (tlsWriteToTcp taken))
  | later (run : Run) (write : UvWrite) (count : Nat) (some_left : 0 < count)
      (writing : run.state.writing = some write) (left : write.done + count ≤ write.length)
      (connected : run.state.closed = false ∧ run.state.broken = false) :
      Step run ((run.note .late).change fun output =>
        { output with
          writing := some { write with done := write.done + count }
          stream := output.stream ++ output.bio.read write.block write.done count })
  | done (run : Run) (write : UvWrite) (taken : Nat) (writing : run.state.writing = some write)
      (all : write.done = write.length) :
      Step run ((run.note (.write taken)).change (tlsWriteDoneCb taken))
  | failed (run : Run) (taken : Nat) (writing : run.state.writing.isSome) :
      Step run ((run.note (.write taken)).change fun output =>
        { output with broken := true }.tlsWriteDoneCb taken)
  | reset (run : Run) (alert : Bytes) (grow : Option (Nat × (Nat → UInt8)))
      (fresh : ∀ block garbage, grow = some (block, garbage) → block ≠ run.state.bio.block)
      (taken : Nat) (inited : Bool) :
      Step run ((run.note (.write taken)).change (tlsReset alert grow taken inited))

/-- What any order of the steps can lead to. -/
def Reachable (run : Run) : Prop :=
  ∃ bio, Relation.ReflTransGen Step ⟨start bio, []⟩ run

/-- All that a write puts out, it puts out before `uv_write` returns, and nothing is put out any
more when a reset has dropped output and left the socket open. -/
def Gapless (point : TlsPoint) (output : TlsOutput) : Prop :=
  match point with
  | .write taken => output.lost = true → taken = 0
  | .late => False

instance (point : TlsPoint) (output : TlsOutput) : Decidable (Gapless point output) :=
  match point with
  | .write taken => inferInstanceAs (Decidable (output.lost = true → taken = 0))
  | .late => inferInstanceAs (Decidable False)

/-- What every step keeps while nothing is put out late or behind a gap. -/
structure Inv (output : TlsOutput) : Prop where
  out : output.stream <+: output.written
  rest : output.closed = false → output.lost = false →
    output.written = output.given ++ output.bio.pending
  whole : output.closed = false → output.broken = false → output.lost = false →
    (∀ write, output.writing = some write → write.done = write.length) →
      output.stream = output.given
  idle : output.isWriting = false → output.writing = none

variable {output : TlsOutput} {first second : Run}

/-- At the start nothing has been written. -/
theorem inv_start (bio : MemBio) : (start bio).Inv where
  out := List.prefix_rfl
  rest := fun _ _ => rfl
  whole := fun _ _ _ _ => rfl
  idle := fun _ => rfl

namespace Inv

/-- What OpenSSL writes goes behind what waits. -/
theorem sslWrites (inv : output.Inv) (data : Bytes) (grow : Option (Nat × (Nat → UInt8))) :
    (output.sslWrites data grow).Inv where
  out := inv.out.trans (List.prefix_append _ _)
  rest := by
    intro opened kept
    have pending : (output.sslWrites data grow).bio.pending = output.bio.pending ++ data := by
      cases grow with
      | none => exact MemBio.pending_write ..
      | some grow =>
          obtain ⟨block, garbage⟩ := grow
          refine (MemBio.pending_write ..).trans ?_
          rw [MemBio.pending_realloc]
    change output.written ++ data = output.given ++ (output.sslWrites data grow).bio.pending
    rw [pending, inv.rest opened kept, List.append_assoc]
  whole := inv.whole
  idle := inv.idle

/-- What libuv takes is what waited, in order, if there is no gap. -/
theorem tlsWriteToTcp (inv : output.Inv) {taken : Nat} (gapless : Gapless (.write taken) output) :
    (output.tlsWriteToTcp taken).Inv := by
  rw [TlsOutput.tlsWriteToTcp]
  split
  · exact inv
  next free =>
    have none_left (write : UvWrite) (writing : output.writing = some write) :
        write.done = write.length := by
      rw [inv.idle (Bool.eq_false_iff.mpr free)] at writing
      exact absurd writing nofun
    split
    · exact inv
    · cases closed : output.closed with
      | true =>
          rw [uvWrite, if_pos closed]
          exact ⟨inv.out, fun opened => absurd (closed.symm.trans opened) nofun,
            fun opened => absurd (closed.symm.trans opened) nofun, inv.idle⟩
      | false =>
          rw [uvWrite, if_neg (by rw [closed]; exact Bool.false_ne_true)]
          refine ⟨?_, fun _ kept => ?_, fun _ sound kept all => ?_, nofun⟩
          · change output.stream ++ output.bio.read output.bio.block 0
              (if output.broken then 0 else min taken output.bio.length) <+: output.written
            cases broken : output.broken with
            | true =>
                rw [if_pos rfl]
                exact (List.append_nil output.stream).symm ▸ inv.out
            | false =>
                rw [if_neg Bool.false_ne_true, MemBio.read_take]
                cases lost : output.lost with
                | true =>
                    rw [gapless lost, List.take_zero, List.append_nil]
                    exact inv.out
                | false =>
                    rw [inv.whole closed broken lost none_left, inv.rest closed lost]
                    exact (List.prefix_append_right_inj _).mpr (List.take_prefix _ _)
          · exact (inv.rest closed kept).trans (List.append_nil _).symm
          · have all_out := all _ rfl
            change output.stream ++ output.bio.read output.bio.block 0
              (if output.broken then 0 else min taken output.bio.length) =
                output.given ++ output.bio.pending
            dsimp only at all_out
            rw [all_out, inv.whole closed sound kept none_left]
            rfl

/-- What is over has been written. -/
theorem tlsWriteDoneCb (inv : output.Inv) {taken : Nat} (gapless : Gapless (.write taken) output)
    (all : output.broken = false → ∀ write, output.writing = some write →
      write.done = write.length) : (output.tlsWriteDoneCb taken).Inv := by
  have returned : Inv { output with isWriting := false, writing := none } :=
    ⟨inv.out, inv.rest, fun closed broken kept _ => inv.whole closed broken kept (all broken),
      fun _ => rfl⟩
  exact returned.tlsWriteToTcp gapless

/-- A broken connection writes nothing more. -/
theorem fail (inv : output.Inv) : Inv { output with broken := true } :=
  ⟨inv.out, inv.rest, fun _ broken => absurd broken nofun, inv.idle⟩

/-- A reset drops what waits; the socket may stay open where nothing had been dropped. -/
theorem tlsReset (inv : output.Inv) (alert : Bytes) (grow : Option (Nat × (Nat → UInt8)))
    {taken : Nat} (gapless : Gapless (.write taken) output) (inited : Bool) :
    (output.tlsReset alert grow taken inited).Inv := by
  have shut := (inv.sslWrites alert grow).tlsWriteToTcp gapless
  rw [TlsOutput.tlsReset]
  generalize (output.sslWrites alert grow).tlsWriteToTcp taken = output at shut
  refine ⟨shut.out, fun opened kept => ?_, fun opened sound kept => ?_, shut.idle⟩
  · obtain ⟨opened, open_left⟩ := Bool.or_eq_false_iff.mp opened
    obtain ⟨kept, nothing⟩ := Bool.or_eq_false_iff.mp kept
    have stays : inited = true := by simpa using open_left
    have empty : output.bio.length = 0 := by simpa [stays] using nothing
    have pending : output.bio.pending = [] := List.eq_nil_of_length_eq_zero (by simp [empty])
    have rest := shut.rest opened kept
    rw [pending] at rest
    exact rest
  · exact shut.whole (Bool.or_eq_false_iff.mp opened).1 sound (Bool.or_eq_false_iff.mp kept).1

end Inv

/-- A call that may put bytes out is noted before it is made. -/
theorem keeps_write {taken : Nat} {act : TlsOutput → TlsOutput}
    (keeps : Gapless (.write taken) first.state → first.state.Inv → (act first.state).Inv) :
    Recorded.Keeps Gapless (fun run : Run => run.state.Inv) first
      ((first.note (.write taken)).change act) where
  keeps := List.suffix_cons _ _
  holds meets inv := keeps (meets_note.mp meets).1 inv

/-- Every step without a gap keeps the invariant. -/
theorem keeps_step (step : Step first second) :
    Recorded.Keeps Gapless (fun run : Run => run.state.Inv) first second := by
  cases step with
  | ssl data grow fresh => exact Leads.change fun _ inv => inv.sslWrites data grow
  | writeToTcp taken => exact keeps_write fun gapless inv => inv.tlsWriteToTcp gapless
  | later write count some_left writing left connected =>
      exact ⟨List.suffix_cons _ _, fun meets => (meets_note.mp meets).1.elim⟩
  | done write taken writing all =>
      refine keeps_write fun gapless inv => inv.tlsWriteDoneCb gapless fun _ other same => ?_
      cases Option.some.inj (writing.symm.trans same)
      exact all
  | failed taken writing =>
      exact keeps_write fun gapless inv =>
        inv.fail.tlsWriteDoneCb gapless fun broken => absurd broken nofun
  | reset alert grow fresh taken inited =>
      exact keeps_write fun gapless inv => inv.tlsReset alert grow gapless inited

/-- What reaches the socket is a prefix of what the TLS library has written, in every run in
which nothing is put out when `uv_write` has returned, and nothing behind output that a reset has
dropped with the socket left open. -/
theorem prefix_of_reachable {run : Run} (reached : Reachable run) (meets : run.Meets Gapless) :
    run.state.stream <+: run.state.written := by
  obtain ⟨bio, reached⟩ := reached
  have inv := @holds_of_reachable _ _ Gapless Step (fun run => run.state.Inv) ⟨start bio, []⟩
    (inv_start bio) keeps_step run reached meets
  exact inv.out

/-- Two bytes are given to `uv_write`, which puts some of them out at once. -/
def twoBytes (taken : Nat) : Run :=
  (((Recorded.mk (start ⟨fun _ _ => 0, 0, 0⟩) []).change (sslWrites [1, 2] none)).note
    (.write taken)).change (tlsWriteToTcp taken)

/-- The run exists. -/
theorem reachable_twoBytes (taken : Nat) : Reachable (twoBytes taken) :=
  ⟨⟨fun _ _ => 0, 0, 0⟩, .tail (.single (.ssl _ [1, 2] none nofun)) (.writeToTcp _ taken)⟩

/-- The transport is reset when the two bytes are out, for a client that is INITED: the alert
waits for the write, unless its callback has run before. -/
def resetOpen (called : Bool) : Run :=
  let run := twoBytes 2
  let run := if called then (run.note (.write 0)).change (tlsWriteDoneCb 0) else run
  (run.note (.write 1)).change (tlsReset [3] none 1 true)

theorem reachable_resetOpen (called : Bool) : Reachable (resetOpen called) := by
  obtain ⟨bio, reached⟩ := reachable_twoBytes 2
  have writing : (twoBytes 2).state.writing = some { block := 0, length := 2, done := 2 } := by
    decide
  cases called with
  | false => exact ⟨bio, reached.tail (.reset _ [3] none nofun 1 true)⟩
  | true =>
      have returned := reached.tail (.done _ _ 0 writing rfl)
      exact ⟨bio, returned.tail (.reset _ [3] none nofun 1 true)⟩

/-- The write that is under way returns, and the hello of the next handshake is put out. -/
def helloBehind (called : Bool) : Run :=
  let run := ((resetOpen called).note (.write 0)).change (tlsWriteDoneCb 0)
  ((run.change (sslWrites [4, 5] (some (1, fun _ => 9)))).note (.write 2)).change (tlsWriteToTcp 2)

theorem reachable_helloBehind (called : Bool) : Reachable (helloBehind called) := by
  obtain ⟨bio, reached⟩ := reachable_resetOpen called
  have writing : ∃ write, (resetOpen called).state.writing = some write ∧
      write.done = write.length := by
    cases called with
    | false => exact ⟨{ block := 0, length := 2, done := 2 }, by decide, rfl⟩
    | true => exact ⟨{ block := 0, length := 1, done := 1 }, by decide, rfl⟩
  obtain ⟨write, writing, all⟩ := writing
  have grown (block : Nat) (garbage : Nat → UInt8)
      (same : some (1, fun _ => 9) = some (block, garbage)) :
      block ≠ (((resetOpen called).note (.write 0)).change (tlsWriteDoneCb 0)).state.bio.block := by
    cases same
    cases called <;> decide
  exact ⟨bio, ((reached.tail (.done _ write 0 writing all)).tail (.ssl _ [4, 5] _ grown)).tail
    (.writeToTcp _ 2)⟩

/-- The alert is put out before the hello, and all five bytes reach the socket. -/
theorem prefix_helloBehind : (helloBehind true).state.stream = [1, 2, 3, 4, 5] ∧
    (helloBehind true).state.stream <+: (helloBehind true).state.written :=
  ⟨by decide, prefix_of_reachable (reachable_helloBehind true) (by decide)⟩

/-- The alert is dropped and the socket left open, so the hello is put out behind a gap. Nothing
is put out late. -/
theorem prefix_helloBehind_lost : (∀ entry ∈ (helloBehind false).notes, entry.1 ≠ .late) ∧
    ¬ (helloBehind false).state.stream <+: (helloBehind false).state.written := by
  have stream : (helloBehind false).state.stream = [1, 2, 4, 5] := by decide
  have written : (helloBehind false).state.written = [1, 2, 3, 4, 5] := by decide
  refine ⟨by decide, ?_⟩
  rw [stream, written]
  decide

/-- The second byte is put out when `uv_write` has returned. -/
def secondLate : Run :=
  ((twoBytes 1).note .late).change fun output =>
    { output with
      writing := some { block := 0, length := 2, done := 2 }
      stream := output.stream ++ output.bio.read 0 1 1 }

theorem reachable_secondLate : Reachable secondLate := by
  obtain ⟨bio, reached⟩ := reachable_twoBytes 1
  have writing : (twoBytes 1).state.writing = some { block := 0, length := 2, done := 1 } := by
    decide
  have connected : (twoBytes 1).state.closed = false ∧ (twoBytes 1).state.broken = false := by
    decide
  exact ⟨bio, reached.tail (.later _ _ 1 Nat.one_pos writing Nat.le.refl connected)⟩

/-- The socket gets a byte of the BIO that has been reset. -/
theorem prefix_fails : ¬ ∀ run : Run, Reachable run → run.state.stream <+: run.state.written := by
  intro claim
  have holds := claim secondLate reachable_secondLate
  have stream : secondLate.state.stream = [1, 0] := by decide
  have written : secondLate.state.written = [1, 2] := by decide
  rw [stream, written] at holds
  exact absurd holds (by decide)

end TlsOutput

end Pomelo
