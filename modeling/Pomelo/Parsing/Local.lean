import Mathlib.Data.List.Infix

/-!
# Readers of a memory

A reader moves a pointer through a memory that is given as the list of its cells from the
pointer on. It is local if what it does inside a text does not depend on the memory behind
the text: wherever it ends inside the text, it ends there in every memory that begins with the
text, unless it gets stuck in one.
-/

namespace Parsing

/-- An operation on a pointer, which can end in an error. -/
abbrev Reader (σ ε : Type) := StateT (List σ) (Except ε)

variable {σ ε α β : Type}

namespace Reader

/-- A step and what follows it. -/
theorem run_bind (first : Reader σ ε α) (next : α → Reader σ ε β) (memory : List σ) :
    (first >>= next).run memory =
      match first.run memory with
      | .ok (value, memory) => (next value).run memory
      | .error stop => .error stop := by
  rw [StateT.run_bind]
  rcases first.run memory with stop | ⟨value, memory⟩ <;> rfl

/-- A reader that ends has ended in its first part. -/
theorem bind_eq_ok {first : Reader σ ε α} {next : α → Reader σ ε β} {memory rest : List σ}
    {result : β} (ended : (first >>= next).run memory = .ok (result, rest)) :
    ∃ value middle, first.run memory = .ok (value, middle) ∧
      (next value).run middle = .ok (result, rest) := by
  rw [run_bind] at ended
  split at ended
  next value middle here => exact ⟨value, middle, here, ended⟩
  next stop _ => exact absurd ended nofun

/-- What follows a step that ended. -/
theorem run_of_ok {first : Reader σ ε α} {next : α → Reader σ ε β} {memory middle : List σ}
    {value : α} (here : first.run memory = .ok (value, middle)) :
    (first >>= next).run memory = (next value).run middle := by
  rw [run_bind, here]

/-- A step that stopped is the end. -/
theorem run_of_error {first : Reader σ ε α} {next : α → Reader σ ε β} {memory : List σ} {stop : ε}
    (here : first.run memory = .error stop) : (first >>= next).run memory = .error stop := by
  rw [run_bind, here]

theorem run_get (memory : List σ) :
    (get : Reader σ ε (List σ)).run memory = .ok (memory, memory) := rfl

theorem run_liftM (source : Except ε α) (memory : List σ) :
    (liftM source : Reader σ ε α).run memory = source.map fun value => (value, memory) := by
  cases source <;> rfl

/-- A source that is no reader reads nothing. -/
theorem liftM_ok {source : Except ε α} {memory rest : List σ} {value : α}
    (ended : (liftM source : Reader σ ε α).run memory = .ok (value, rest)) :
    source = .ok value ∧ memory = rest := by
  cases source with
  | error stop => exact absurd ended nofun
  | ok result => cases ended; exact ⟨rfl, rfl⟩

end Reader

open Reader

/-- Where a reader ends, the pointer has moved forward by a number of cells at least. -/
def Moves (least : Nat) (act : Reader σ ε α) : Prop :=
  ∀ ⦃memory value rest⦄, act.run memory = .ok (value, rest) →
    ∃ passed, memory = passed ++ rest ∧ least ≤ passed.length

namespace Moves

variable {least less : Nat}

/-- What moves far enough moves less far, too. -/
theorem mono {act : Reader σ ε α} (moves : Moves least act) (le : less ≤ least) :
    Moves less act := by
  intro memory value rest ended
  obtain ⟨passed, split, far⟩ := moves ended
  exact ⟨passed, split, Nat.le_trans le far⟩

theorem pure (value : α) : Moves 0 (pure value : Reader σ ε α) := by
  intro memory result rest ended
  cases ended
  exact ⟨[], rfl, Nat.le_refl 0⟩

/-- What stops moves as far as one likes. -/
theorem throw (stop : ε) : Moves least (throw stop : Reader σ ε α) :=
  fun _ _ _ ended => absurd ended nofun

theorem bind {first : Reader σ ε α} {next : α → Reader σ ε β} (head : Moves least first)
    (tail : ∀ value, Moves less (next value)) : Moves (least + less) (first >>= next) := by
  intro memory result rest ended
  obtain ⟨value, middle, here, there⟩ := bind_eq_ok ended
  obtain ⟨passed, rfl, far⟩ := head here
  obtain ⟨more, rfl, further⟩ := tail value there
  refine ⟨passed ++ more, (List.append_assoc ..).symm, ?_⟩
  rw [List.length_append]
  exact Nat.add_le_add far further

/-- Where the second part is all that is known to move. -/
theorem bind_right {first : Reader σ ε α} {next : α → Reader σ ε β} (head : Moves 0 first)
    (tail : ∀ value, Moves least (next value)) : Moves least (first >>= next) :=
  (head.bind tail).mono (Nat.le_add_left ..)

theorem bind_left {first : Reader σ ε α} {next : α → Reader σ ε β} (head : Moves least first)
    (tail : ∀ value, Moves 0 (next value)) : Moves least (first >>= next) :=
  (head.bind tail).mono (Nat.le_add_right ..)

theorem ite {cond : Prop} [Decidable cond] {first second : Reader σ ε α}
    (here : Moves least first) (there : Moves least second) :
    Moves least (if cond then first else second) := by
  split
  · exact here
  · exact there

/-- A reader that ends in front of the memory behind a text has stayed in the text. -/
theorem inside {act : Reader σ ε α} (moves : Moves least act) {text tail rest : List σ} {value : α}
    (ended : act.run (text ++ tail) = .ok (value, rest ++ tail)) :
    ∃ passed, text = passed ++ rest ∧ least ≤ passed.length := by
  obtain ⟨passed, split, far⟩ := moves ended
  rw [← List.append_assoc] at split
  exact ⟨passed, List.append_cancel_right split, far⟩

/-- A reader that moves the pointer and ends inside a text has started inside it. -/
theorem text_ne_nil {act : Reader σ ε α} (moves : Moves 1 act) {text tail rest : List σ} {value : α}
    (ended : act.run (text ++ tail) = .ok (value, rest ++ tail)) : text ≠ [] := by
  obtain ⟨passed, rfl, far⟩ := moves.inside ended
  exact List.append_ne_nil_of_left_ne_nil (List.length_pos_iff.mp far) rest

/-- Something was there to be passed where something is left. -/
theorem text_ne_nil_of_left {act : Reader σ ε α} (moves : Moves least act) {text tail rest : List σ}
    {value : α} (ended : act.run (text ++ tail) = .ok (value, rest ++ tail)) (left : rest ≠ []) :
    text ≠ [] := by
  obtain ⟨passed, rfl, -⟩ := moves.inside ended
  exact List.append_ne_nil_of_right_ne_nil passed left

/-- A reader that ends inside a text was inside it before its second part, too. -/
theorem middle {next : Reader σ ε α} (moves : Moves least next) {memory tail rest : List σ}
    {value : α} (ended : next.run memory = .ok (value, rest ++ tail)) :
    ∃ text, memory = text ++ tail ∧ rest.length + least ≤ text.length := by
  obtain ⟨passed, rfl, far⟩ := moves ended
  refine ⟨passed ++ rest, (List.append_assoc ..).symm, ?_⟩
  rw [List.length_append]
  omega

end Moves

/-- An outcome is one of the errors of a set. -/
def Stuck (stuck : ε → Prop) (outcome : Except ε α) : Prop := ∃ stop, stuck stop ∧ outcome = .error stop

/-- What one reader does inside a text another one does in front of other memory, unless it
gets stuck there. Nothing is said of it where what is left of the text is not `kept`. -/
def Local (stuck : ε → Prop) (tail tail' : List σ) (kept : List σ → Prop)
    (first second : Reader σ ε α) : Prop :=
  ∀ ⦃text value rest⦄, first.run (text ++ tail) = .ok (value, rest ++ tail) → kept rest →
    second.run (text ++ tail') = .ok (value, rest ++ tail') ∨
      Stuck stuck (second.run (text ++ tail'))

namespace Local

variable {stuck : ε → Prop} {tail tail' : List σ} {kept held : List σ → Prop} {least : Nat}

/-- What is kept may be weaker. -/
theorem mono {first second : Reader σ ε α} (here : Local stuck tail tail' held first second)
    (weaker : ∀ rest, kept rest → held rest) : Local stuck tail tail' kept first second :=
  fun _ _ _ ended keeps => here ended (weaker _ keeps)

/-- A value is the same in any surroundings. -/
theorem pure (value : α) :
    Local stuck tail tail' kept (pure value : Reader σ ε α) (Pure.pure value) := by
  intro text result rest ended _
  obtain ⟨rfl, same⟩ := Prod.mk.inj (Except.ok.inj ended)
  obtain rfl := List.append_cancel_right same
  exact .inl rfl

/-- A stop is the same in any surroundings. -/
theorem throw (stop : ε) (second : Reader σ ε α) :
    Local stuck tail tail' kept (throw stop : Reader σ ε α) second :=
  fun _ _ _ ended _ => absurd ended nofun

/-- Two readers one after the other, if the first one is local where the second one starts. -/
theorem bind {first second : Reader σ ε α} {next next' : α → Reader σ ε β}
    (head : Local stuck tail tail' held first second) (moves : ∀ value, Moves least (next value))
    (holds : ∀ value text result rest, (next value).run (text ++ tail) = .ok (result, rest ++ tail) →
      kept rest → held text)
    (after : ∀ value, Local stuck tail tail' kept (next value) (next' value)) :
    Local stuck tail tail' kept (first >>= next) (second >>= next') := by
  intro text result rest ended keeps
  obtain ⟨value, memory, here, there⟩ := bind_eq_ok ended
  obtain ⟨middle, rfl, -⟩ := (moves value).middle there
  rcases head here (holds value middle result rest there keeps) with same | ⟨stop, gets, error⟩
  · rw [run_of_ok same]
    exact after value there keeps
  · exact .inr ⟨stop, gets, run_of_error error⟩

/-- Two readers one after the other, where something is left of the text at the end. -/
theorem bind_of_left {first second : Reader σ ε α} {next next' : α → Reader σ ε β}
    (left : ∀ rest, kept rest → rest ≠ [])
    (head : Local stuck tail tail' (· ≠ []) first second) (moves : ∀ value, Moves 0 (next value))
    (after : ∀ value, Local stuck tail tail' kept (next value) (next' value)) :
    Local stuck tail tail' kept (first >>= next) (second >>= next') :=
  head.bind moves
    (fun value _ _ rest ended keeps => (moves value).text_ne_nil_of_left ended (left rest keeps)) after

/-- The same for readers of which nothing more is known. -/
theorem andThen {first second : Reader σ ε α} {next next' : α → Reader σ ε β}
    (head : Local stuck tail tail' (· ≠ []) first second) (moves : ∀ value, Moves 0 (next value))
    (after : ∀ value, Local stuck tail tail' (· ≠ []) (next value) (next' value)) :
    Local stuck tail tail' (· ≠ []) (first >>= next) (second >>= next') :=
  bind_of_left (fun _ left => left) head moves after

/-- Two readers one after the other, where the second one moves the pointer. -/
theorem bind_of_moves {first second : Reader σ ε α} {next next' : α → Reader σ ε β}
    (head : Local stuck tail tail' (· ≠ []) first second) (moves : ∀ value, Moves 1 (next value))
    (after : ∀ value, Local stuck tail tail' kept (next value) (next' value)) :
    Local stuck tail tail' kept (first >>= next) (second >>= next') :=
  head.bind moves (fun value _ _ _ ended _ => (moves value).text_ne_nil ended) after

/-- A reader is only looked at where it is taken. -/
theorem ite_of {cond : Prop} [Decidable cond] {first second first' second' : Reader σ ε α}
    (here : cond → Local stuck tail tail' kept first first')
    (there : Local stuck tail tail' kept second second') :
    Local stuck tail tail' kept (if cond then first else second)
      (if cond then first' else second') := by
  split
  next holds => exact here holds
  next => exact there

theorem ite {cond : Prop} [Decidable cond] {first second first' second' : Reader σ ε α}
    (here : Local stuck tail tail' kept first first')
    (there : Local stuck tail tail' kept second second') :
    Local stuck tail tail' kept (if cond then first else second)
      (if cond then first' else second') :=
  ite_of (fun _ => here) there

end Local

/-- On memory of a kind a reader ends in front of memory of that kind, or with one of the errors of
a set. -/
def Confined (kind : List σ → Prop) (allowed : ε → Prop) (act : Reader σ ε α) : Prop :=
  ∀ ⦃memory⦄, kind memory →
    (∃ value rest, act.run memory = .ok (value, rest) ∧ kind rest) ∨ Stuck allowed (act.run memory)

namespace Confined

variable {kind : List σ → Prop} {allowed : ε → Prop} {least bound : Nat}

theorem pure (value : α) : Confined kind allowed (pure value : Reader σ ε α) :=
  fun memory here => .inl ⟨value, memory, rfl, here⟩

/-- A stop that is allowed is confined. -/
theorem throw {stop : ε} (may : allowed stop) : Confined kind allowed (throw stop : Reader σ ε α) :=
  fun _ _ => .inr ⟨stop, may, rfl⟩

theorem bind {first : Reader σ ε α} {next : α → Reader σ ε β} (head : Confined kind allowed first)
    (after : ∀ value, Confined kind allowed (next value)) : Confined kind allowed (first >>= next) := by
  intro memory here
  rcases head here with ⟨value, rest, ended, there⟩ | ⟨stop, may, error⟩
  · rw [run_of_ok ended]
    exact after value there
  · exact .inr ⟨stop, may, run_of_error error⟩

theorem ite {cond : Prop} [Decidable cond] {first second : Reader σ ε α}
    (here : Confined kind allowed first) (there : Confined kind allowed second) :
    Confined kind allowed (if cond then first else second) := by
  split
  · exact here
  · exact there

/-- What is left of a memory is no longer than the memory. -/
theorem bounded {act : Reader σ ε α} (confined : Confined kind allowed act) (moves : Moves least act) :
    Confined (fun memory => kind memory ∧ memory.length < bound) allowed act := by
  rintro memory ⟨here, short⟩
  rcases confined here with ⟨value, rest, ended, there⟩ | stuck
  · obtain ⟨passed, split, -⟩ := moves ended
    have whole := congrArg List.length split
    rw [List.length_append] at whole
    exact .inl ⟨value, rest, ended, there, by omega⟩
  · exact .inr stuck

end Confined

/-- A reader does not end with an error. -/
def Never (stop : ε) (act : Reader σ ε α) : Prop := ∀ memory, act.run memory ≠ .error stop

namespace Never

variable {stop : ε}

theorem pure (value : α) : Never stop (pure value : Reader σ ε α) := fun _ => nofun

/-- Another stop is not this one. -/
theorem throw {other : ε} (differs : other ≠ stop) : Never stop (throw other : Reader σ ε α) :=
  fun _ same => differs (Except.error.inj same)

/-- Steps that never stop for a reason never do together. -/
theorem bind {first : Reader σ ε α} {next : α → Reader σ ε β} (head : Never stop first)
    (after : ∀ value, Never stop (next value)) : Never stop (first >>= next) := by
  intro memory ended
  rw [run_bind] at ended
  split at ended
  next value middle here => exact after value middle ended
  next other here => exact head memory (Except.error.inj ended ▸ here)

theorem ite {cond : Prop} [Decidable cond] {first second : Reader σ ε α}
    (here : Never stop first) (there : Never stop second) :
    Never stop (if cond then first else second) := by
  split
  · exact here
  · exact there

theorem liftM {source : Except ε α} (never : source ≠ .error stop) :
    Never stop (liftM source : Reader σ ε α) := by
  cases source with
  | ok value => exact fun _ => nofun
  | error other => exact throw fun same => never (congrArg Except.error same)

end Never

/-- On a memory of fewer cells than a bound, a reader does not end with an error. -/
def Avoids (stop : ε) (bound : Nat) (act : Reader σ ε α) : Prop :=
  ∀ ⦃memory⦄, memory.length < bound → act.run memory ≠ .error stop

namespace Avoids

variable {stop : ε} {bound fewer least : Nat}

theorem mono {act : Reader σ ε α} (avoids : Avoids stop bound act) (le : fewer ≤ bound) :
    Avoids stop fewer act :=
  fun _ short => avoids (Nat.lt_of_lt_of_le short le)

/-- What never stops for a reason avoids it within any bound. -/
theorem of_never {act : Reader σ ε α} (never : Never stop act) : Avoids stop bound act :=
  fun memory _ => never memory

/-- The second part starts on a memory that is shorter by what the first part has passed. -/
theorem bind {first : Reader σ ε α} {next : α → Reader σ ε β}
    (head : Avoids stop (fewer + least) first) (moves : Moves least first)
    (after : ∀ value, Avoids stop fewer (next value)) :
    Avoids stop (fewer + least) (first >>= next) := by
  intro memory short ended
  rw [run_bind] at ended
  split at ended
  next value middle here =>
    obtain ⟨passed, rfl, far⟩ := moves here
    rw [List.length_append] at short
    exact after value (by omega) ended
  next other here => exact head short (Except.error.inj ended ▸ here)

/-- Steps that move forward stay within the bound. -/
theorem andThen {first : Reader σ ε α} {next : α → Reader σ ε β}
    (head : Avoids stop bound first) (moves : Moves 0 first)
    (after : ∀ value, Avoids stop bound (next value)) : Avoids stop bound (first >>= next) :=
  bind head moves after

/-- The first part always ends in another way. -/
theorem never_bind {first : Reader σ ε α} {next : α → Reader σ ε β} (head : Never stop first)
    (moves : Moves 0 first) (after : ∀ value, Avoids stop bound (next value)) :
    Avoids stop bound (first >>= next) :=
  andThen (of_never head) moves after

theorem ite {cond : Prop} [Decidable cond] {first second : Reader σ ε α}
    (here : Avoids stop bound first) (there : Avoids stop bound second) :
    Avoids stop bound (if cond then first else second) := by
  split
  · exact here
  · exact there

end Avoids

end Parsing
