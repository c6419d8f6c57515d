import Pomelo.Json.Parse

/-!
# The steps of the JSON parser

The functions of the parser move the pointer forward only, and they need no more steps than
there are bytes.
-/

namespace Pomelo

open Parsing Reader

namespace JsonParser

theorem peek_run (char : UInt8) (ptr : Bytes) :
    peek.run (char :: ptr) = .ok (char, char :: ptr) := rfl

theorem advance_run {count : Nat} {ptr : Bytes} (room : count ≤ ptr.length) :
    (advance count).run ptr = .ok ((), ptr.drop count) := by
  rw [advance, run_of_ok (run_get ptr), if_pos room]
  rfl

/-- Passing letters that are not there runs over the end of the buffer. -/
theorem advance_error {count : Nat} {ptr : Bytes} (short : ptr.length < count) :
    (advance count).run ptr = .error .outOfBounds := by
  rw [advance, run_of_ok (run_get ptr), if_neg (Nat.not_le.mpr short)]
  rfl

/-- The letter that is asked for is passed. -/
theorem accept_self (char : UInt8) (ptr : Bytes) : (accept char).run (char :: ptr) = .ok (true, ptr) := by
  rw [accept, run_of_ok (peek_run char ptr), if_pos rfl,
    run_of_ok (advance_run (Nat.le_add_left 1 ptr.length))]
  rfl

theorem accept_other {char other : UInt8} (differs : other ≠ char) (ptr : Bytes) :
    (accept char).run (other :: ptr) = .ok (false, other :: ptr) := by
  rw [accept, run_of_ok (peek_run other ptr), if_neg differs]
  rfl

theorem expect_self (char : UInt8) (ptr : Bytes) : (expect char).run (char :: ptr) = .ok ((), ptr) := by
  rw [expect, run_of_ok (accept_self char ptr)]
  rfl

theorem expect_other {char other : UInt8} (differs : other ≠ char) (ptr : Bytes) :
    (expect char).run (other :: ptr) = .error .refused := by
  rw [expect, run_of_ok (accept_other differs ptr)]
  rfl

/-- White space is a prefix of the text. -/
theorem skipSpace_eq (ptr : Bytes) :
    skipSpace ptr =
      match ptr.dropWhile fun char => char ≠ 0 ∧ char ≤ 32 with
      | [] => .error .outOfBounds
      | char :: rest => .ok (char :: rest) := by
  induction ptr with
  | nil => rfl
  | cons char ptr ih =>
      rw [skipSpace, List.dropWhile_cons]
      by_cases space : char ≠ 0 ∧ char ≤ 32
      · rw [if_pos space, ih, if_pos (decide_eq_true space)]
      · rw [if_neg space, if_neg (by rwa [decide_eq_true_eq])]
        rfl

theorem skip_run (ptr : Bytes) :
    skip.run ptr = (skipSpace ptr).map fun rest => ((), rest) := by
  rw [skip, run_of_ok (run_get ptr), run_bind, run_liftM]
  cases skipSpace ptr <;> rfl

theorem takeDigits_eq (ptr : Bytes) :
    takeDigits ptr =
      match ptr.dropWhile isDigit with
      | [] => .error .outOfBounds
      | char :: rest => .ok (ptr.takeWhile isDigit, char :: rest) := by
  induction ptr with
  | nil => rfl
  | cons char ptr ih =>
      rw [takeDigits, List.dropWhile_cons, List.takeWhile_cons]
      by_cases digit : isDigit char
      · rw [if_pos digit, if_pos digit, if_pos digit, ih]
        cases ptr.dropWhile isDigit <;> rfl
      · rw [if_neg digit, if_neg digit, if_neg digit]
        rfl

theorem peek_moves : Moves 0 peek := by
  intro ptr char rest ended
  cases ptr with
  | nil => exact absurd ended nofun
  | cons first ptr => cases ended; exact ⟨[], rfl, Nat.le_refl 0⟩

theorem advance_moves (count : Nat) : Moves count (advance count) := by
  intro ptr _ rest ended
  by_cases room : count ≤ ptr.length
  · rw [advance_run room] at ended
    cases ended
    refine ⟨ptr.take count, (List.take_append_drop count ptr).symm, ?_⟩
    rw [List.length_take_of_le room]
  · rw [advance_error (Nat.not_le.mp room)] at ended
    exact absurd ended nofun

theorem accept_moves (char : UInt8) : Moves 0 (accept char) :=
  peek_moves.bind_left fun _ =>
    .ite ((advance_moves 1).mono (Nat.zero_le 1) |>.bind_left fun _ => .pure true) (.pure false)

/-- A letter that was expected has been passed. -/
theorem expect_moves (char : UInt8) : Moves 1 (expect char) := by
  intro ptr _ rest ended
  cases ptr with
  | nil => exact absurd ended nofun
  | cons first ptr =>
      by_cases same : first = char
      · rw [same, expect_self] at ended
        cases ended
        exact ⟨[first], rfl, Nat.le_refl 1⟩
      · rw [expect_other same] at ended
        exact absurd ended nofun

/-- A loop over the characters of a kind moves forward. -/
theorem dropWhile_moves {kind : UInt8 → Bool} {ptr rest : Bytes}
    (ended : ptr.dropWhile kind = rest) : ∃ passed, ptr = passed ++ rest ∧ 0 ≤ passed.length :=
  ⟨ptr.takeWhile kind, ended ▸ (List.takeWhile_append_dropWhile).symm, Nat.zero_le _⟩

theorem skip_moves : Moves 0 skip := by
  intro ptr _ rest ended
  rw [skip_run, skipSpace_eq] at ended
  split at ended
  next => exact absurd ended nofun
  next char behind split =>
    cases ended
    exact dropWhile_moves split

theorem digits_moves : Moves 0 digits := by
  intro ptr _ rest ended
  change takeDigits ptr = _ at ended
  rw [takeDigits_eq] at ended
  split at ended
  next => exact absurd ended nofun
  next char behind split =>
    cases ended
    exact dropWhile_moves split

theorem whole_moves : Moves 0 whole :=
  peek_moves.bind_left fun _ => peek_moves.bind_left fun _ => .ite digits_moves (.pure [])

theorem fraction_moves : Moves 0 fraction := by
  intro num places rest ended
  rw [fraction, run_of_ok (run_get num)] at ended
  obtain ⟨point, middle, here, ended⟩ := bind_eq_ok ended
  cases point with
  | false =>
      cases ended
      exact accept_moves 46 here
  | true =>
      obtain ⟨places, behind, more, ended⟩ := bind_eq_ok ended
      by_cases none : places = []
      · rw [if_pos none] at ended
        cases ended
        exact ⟨[], rfl, Nat.le_refl 0⟩
      · rw [if_neg none] at ended
        cases ended
        exact (accept_moves 46).bind_left (fun _ => digits_moves)
          (show (accept 46 >>= fun _ => digits).run num = _ by rw [run_of_ok here, more])

theorem exponentSign_moves : Moves 0 exponentSign :=
  (accept_moves 43).bind_left fun _ => .ite (.pure false) (accept_moves 45)

theorem exponent_moves : Moves 0 exponent :=
  peek_moves.bind_left fun _ => peek_moves.bind_left fun _ => .ite
    (((advance_moves 1).mono (Nat.zero_le 1)).bind_left fun _ =>
      exponentSign_moves.bind_left fun _ => digits_moves.bind_left fun _ => .pure _)
    (.pure _)

theorem parseNumber_moves (pow : Codec.Double → Codec.Double → Codec.Double) :
    Moves 0 (parseNumber pow) :=
  (accept_moves 45).bind_left fun _ => (accept_moves 48).bind_left fun _ =>
    whole_moves.bind_left fun _ => fraction_moves.bind_left fun _ =>
      exponent_moves.bind_left fun _ => .pure _

theorem unicodeEscape_moves : Moves 0 unicodeEscape := by
  intro ptr out rest ended
  rw [unicodeEscape, run_of_ok (run_get ptr)] at ended
  obtain ⟨⟨written, count⟩, middle, here, there⟩ := bind_eq_ok ended
  obtain ⟨-, rfl⟩ := liftM_ok here
  exact ((advance_moves count).mono (Nat.zero_le count)).bind_left (fun _ => .pure _) there

theorem escape_moves (char : UInt8) : Moves 0 (escape char) :=
  .ite (.pure _) <| .ite (.pure _) <| .ite (.pure _) <| .ite (.pure _) <| .ite (.pure _) <|
    .ite unicodeEscape_moves (.pure _)

/-- What follows a backslash. -/
theorem escaped_moves : Moves 0 (do let char ← peek; advance 1; escape char) :=
  peek_moves.bind_left fun char =>
    ((advance_moves 1).mono (Nat.zero_le 1)).bind_left fun _ => escape_moves char

/-- A piece of a string passes a letter at least. -/
theorem piece_moves : Moves 1 piece :=
  peek_moves.bind_right fun _ => (advance_moves 1).bind_left fun _ => .ite (.pure _) escaped_moves

theorem unescape_moves (passes : Nat) : Moves 0 (unescape passes) := by
  induction passes with
  | zero => exact .throw _
  | succ passes ih =>
      exact peek_moves.bind_left fun _ => peek_moves.bind_left fun _ => .ite (.pure _)
        ((piece_moves.mono (Nat.zero_le 1)).bind_left fun _ => ih.bind_left fun _ => .pure _)

/-- The body of a string is read forward. -/
theorem stringBody_moves : Moves 0 stringBody := by
  intro ptr text rest ended
  rw [stringBody, run_of_ok (run_get ptr)] at ended
  obtain ⟨len, middle, here, ended⟩ := bind_eq_ok ended
  obtain ⟨-, rfl⟩ := liftM_ok here
  rw [run_of_ok (run_get ptr)] at ended
  refine (unescape_moves _).bind_left (fun out => ?_) ended
  exact .ite ((accept_moves 34).bind_left fun _ => .pure _) (.throw _)

/-- A string passes a letter at least. -/
theorem parseString_moves : Moves 1 parseString :=
  (expect_moves 34).bind_left fun _ => stringBody_moves

section Containers

variable {parse : JsonParser Json} (moves : Moves 0 parse)

include moves

/-- Items are read forward if values are. -/
theorem parseItems_moves (passes : Nat) : Moves 0 (parseItems parse passes) := by
  induction passes with
  | zero => exact .throw _
  | succ passes ih =>
      exact (accept_moves 44).bind_left fun _ => .ite
        (skip_moves.bind_left fun _ => moves.bind_left fun _ => skip_moves.bind_left fun _ =>
          ih.bind_left fun _ => .pure _)
        (.pure _)

theorem parseArray_moves (passes : Nat) : Moves 1 (parseArray parse passes) :=
  (expect_moves 91).bind_left fun _ => skip_moves.bind_left fun _ =>
    (accept_moves 93).bind_left fun _ => .ite (.pure _) <|
      skip_moves.bind_left fun _ => moves.bind_left fun _ => skip_moves.bind_left fun _ =>
        (parseItems_moves moves passes).bind_left fun _ =>
          ((expect_moves 93).mono (Nat.zero_le 1)).bind_left fun _ => .pure _

theorem parseMember_moves : Moves 0 (parseMember parse) :=
  skip_moves.bind_left fun _ => (parseString_moves.mono (Nat.zero_le 1)).bind_left fun _ =>
    skip_moves.bind_left fun _ => ((expect_moves 58).mono (Nat.zero_le 1)).bind_left fun _ =>
      skip_moves.bind_left fun _ => moves.bind_left fun _ => skip_moves.bind_left fun _ => .pure _

theorem parseMembers_moves (passes : Nat) : Moves 0 (parseMembers parse passes) := by
  induction passes with
  | zero => exact .throw _
  | succ passes ih =>
      exact (accept_moves 44).bind_left fun _ => .ite
        ((parseMember_moves moves).bind_left fun _ => ih.bind_left fun _ => .pure _) (.pure _)

theorem parseObject_moves (passes : Nat) : Moves 1 (parseObject parse passes) :=
  (expect_moves 123).bind_left fun _ => skip_moves.bind_left fun _ =>
    (accept_moves 125).bind_left fun _ => .ite (.pure _) <|
      (parseMember_moves moves).bind_left fun _ =>
        (parseMembers_moves moves passes).bind_left fun _ =>
          ((expect_moves 125).mono (Nat.zero_le 1)).bind_left fun _ => .pure _

end Containers

theorem literal_self {word : String} {letters ptr : Bytes} (spelled : (CStr.ofString word).bytes = letters) :
    (literal word).run (letters ++ ptr) = .ok (true, ptr) := by
  have starts (text : Bytes) : startsWith text (text ++ ptr) = .ok true := by
    induction text with
    | nil => rfl
    | cons letter text ih => rw [List.cons_append, startsWith, if_pos rfl, ih]
  rw [literal, spelled, run_of_ok (run_get _), run_bind, run_liftM, starts]
  change (do if true then advance letters.length; return true else return false :
    JsonParser Bool).run (letters ++ ptr) = _
  rw [if_pos rfl, run_of_ok (advance_run (by rw [List.length_append]; omega)), List.drop_left]
  rfl

/-- A literal is there with its letters, or the pointer stays. -/
theorem literal_ok {word : String} {found : Bool} {ptr rest : Bytes}
    (ended : (literal word).run ptr = .ok (found, rest)) :
    ptr = (if found then (CStr.ofString word).bytes else []) ++ rest := by
  have starts (text : Bytes) : ∀ memory, startsWith text memory = .ok true →
      ∃ behind, memory = text ++ behind := by
    induction text with
    | nil => exact fun memory _ => ⟨memory, rfl⟩
    | cons letter text ih =>
        intro memory same
        cases memory with
        | nil => exact absurd same nofun
        | cons char memory =>
            rw [startsWith] at same
            split at same
            next equal =>
              obtain ⟨behind, rfl⟩ := ih memory same
              exact ⟨behind, by rw [equal, List.cons_append]⟩
            next => exact absurd same nofun
  rw [literal, run_of_ok (run_get ptr)] at ended
  obtain ⟨starting, middle, here, ended⟩ := bind_eq_ok ended
  obtain ⟨same, rfl⟩ := liftM_ok here
  cases starting with
  | false =>
      cases ended
      rfl
  | true =>
      obtain ⟨behind, rfl⟩ := starts _ ptr same
      rw [if_pos rfl, run_of_ok (advance_run (by rw [List.length_append]; omega)), List.drop_left]
        at ended
      cases ended
      rfl

/-- A text with another first letter is not the word. -/
theorem literal_other {word : String} {letter char : UInt8} {letters : Bytes}
    (spelled : (CStr.ofString word).bytes = letter :: letters) (differs : char ≠ letter) (ptr : Bytes) :
    (literal word).run (char :: ptr) = .ok (false, char :: ptr) := by
  rw [literal, spelled, run_of_ok (run_get _), run_bind, run_liftM, startsWith, if_neg differs]
  rfl

theorem null_other {char : UInt8} (differs : char ≠ 110) (ptr : Bytes) :
    (literal "null").run (char :: ptr) = .ok (false, char :: ptr) :=
  literal_other (show (CStr.ofString "null").bytes = 110 :: [117, 108, 108] by decide) differs ptr

theorem false_other {char : UInt8} (differs : char ≠ 102) (ptr : Bytes) :
    (literal "false").run (char :: ptr) = .ok (false, char :: ptr) :=
  literal_other (show (CStr.ofString "false").bytes = 102 :: [97, 108, 115, 101] by decide) differs ptr

theorem true_other {char : UInt8} (differs : char ≠ 116) (ptr : Bytes) :
    (literal "true").run (char :: ptr) = .ok (false, char :: ptr) :=
  literal_other (show (CStr.ofString "true").bytes = 116 :: [114, 117, 101] by decide) differs ptr

/-- A value that is a literal. -/
def word (text : String) (item : Json) : JsonParser Json := do
  if ← literal text then return item else throw .refused

/-- A literal whose first letter nothing else begins with. -/
theorem word_run {text : String} {item : Json} {next : JsonParser Json} {ptr : Bytes}
    (fails : next.run ptr = .error .refused) :
    (do if ← literal text then return item else next : JsonParser Json).run ptr =
      (word text item).run ptr := by
  rw [word, run_bind, run_bind]
  cases found : (literal text).run ptr with
  | error stop => rfl
  | ok result =>
      obtain ⟨starts, rest⟩ := result
      cases starts with
      | true => rfl
      | false =>
          obtain rfl : ptr = rest := literal_ok found
          exact fails

/-- The value that begins with a character. -/
def valueAt (pow : Codec.Double → Codec.Double → Codec.Double) (fuel : Nat) (char : UInt8) :
    JsonParser Json :=
  if char = 110 then word "null" .null
  else if char = 102 then word "false" .false
  else if char = 116 then word "true" .true
  else if char = 34 then do return .string (← parseString)
  else if char = 45 ∨ isDigit char then parseNumber pow
  else if char = 91 then parseArray (parseValue pow fuel) fuel
  else if char = 123 then parseObject (parseValue pow fuel) fuel
  else throw .refused

/-- A value that begins like a number is one. -/
theorem valueAt_number {pow : Codec.Double → Codec.Double → Codec.Double} {char : UInt8}
    (kind : char = 45 ∨ isDigit char = true) {fuel : Nat} :
    valueAt pow fuel char = parseNumber pow := by
  have other {letter : UInt8} (differs : letter ≠ 45) (nondigit : isDigit letter = false) :
      char ≠ letter := by
    rintro rfl
    exact kind.elim differs fun digit => Bool.false_ne_true (nondigit.symm.trans digit)
  rw [valueAt, if_neg (other (by decide) (by decide)), if_neg (other (by decide) (by decide)),
    if_neg (other (by decide) (by decide)), if_neg (other (by decide) (by decide)), if_pos kind]

/-- The first character says which value it is. -/
theorem parseValue_cons (pow : Codec.Double → Codec.Double → Codec.Double) (fuel : Nat)
    (char : UInt8) (ptr : Bytes) :
    (parseValue pow (fuel + 1)).run (char :: ptr) = (valueAt pow fuel char).run (char :: ptr) := by
  rw [parseValue, valueAt]
  by_cases null : char = 110
  · rw [if_pos null]
    refine word_run ?_
    rw [null, run_of_ok (false_other (by decide) ptr), if_neg Bool.false_ne_true,
      run_of_ok (true_other (by decide) ptr), if_neg Bool.false_ne_true,
      run_of_ok (peek_run 110 ptr)]
    rfl
  · rw [if_neg null, run_of_ok (null_other null ptr), if_neg Bool.false_ne_true]
    by_cases isFalse : char = 102
    · rw [if_pos isFalse]
      refine word_run ?_
      rw [isFalse, run_of_ok (true_other (by decide) ptr), if_neg Bool.false_ne_true,
        run_of_ok (peek_run 102 ptr)]
      rfl
    · rw [if_neg isFalse, run_of_ok (false_other isFalse ptr), if_neg Bool.false_ne_true]
      by_cases isTrue : char = 116
      · rw [if_pos isTrue]
        refine word_run ?_
        rw [isTrue, run_of_ok (peek_run 116 ptr)]
        rfl
      · rw [if_neg isTrue, run_of_ok (true_other isTrue ptr), if_neg Bool.false_ne_true,
          run_of_ok (peek_run char ptr)]

/-- An empty buffer is read over its end. -/
theorem parseValue_nil (pow : Codec.Double → Codec.Double → Codec.Double) (fuel : Nat) :
    (parseValue pow (fuel + 1)).run [] = .error .outOfBounds := by
  rw [parseValue, run_of_error (show (literal "null").run [] = .error .outOfBounds by decide)]

/-- A word passes a letter at least. -/
theorem word_moves {text : String} (spelled : (CStr.ofString text).bytes ≠ []) (item : Json) :
    Moves 1 (word text item) := by
  intro ptr value rest ended
  obtain ⟨found, middle, here, there⟩ := bind_eq_ok ended
  cases found with
  | false => exact absurd there nofun
  | true =>
      cases there
      exact ⟨_, literal_ok here, List.length_pos_iff.mpr spelled⟩

/-- A number begins with a sign or with a digit, which is read. -/
theorem parseNumber_reads {pow : Codec.Double → Codec.Double → Codec.Double} {char : UInt8}
    {ptr rest : Bytes} {value : Json} (begins : char = 45 ∨ isDigit char)
    (ended : (parseNumber pow).run (char :: ptr) = .ok (value, rest)) :
    ∃ passed, char :: ptr = passed ++ rest ∧ 1 ≤ passed.length := by
  have behind {α : Type} {next : JsonParser α} (moves : Moves 0 next) {value : α}
      (ended : next.run ptr = .ok (value, rest)) :
      ∃ passed, char :: ptr = passed ++ rest ∧ 1 ≤ passed.length := by
    obtain ⟨passed, rfl, -⟩ := moves ended
    exact ⟨char :: passed, rfl, Nat.le_add_left ..⟩
  rw [parseNumber] at ended
  by_cases minus : char = 45
  · rw [minus, run_of_ok (accept_self 45 ptr)] at ended
    refine behind ((accept_moves 48).bind_left fun _ => ?_) ended
    exact whole_moves.bind_left fun _ => fraction_moves.bind_left fun _ =>
      exponent_moves.bind_left fun _ => .pure _
  · have digit : isDigit char := begins.resolve_left minus
    rw [run_of_ok (accept_other minus ptr)] at ended
    by_cases zero : char = 48
    · rw [zero, run_of_ok (accept_self 48 ptr)] at ended
      refine behind (whole_moves.bind_left fun _ => ?_) ended
      exact fraction_moves.bind_left fun _ => exponent_moves.bind_left fun _ => .pure _
    · rw [run_of_ok (accept_other zero ptr)] at ended
      have large : char ≥ 49 := by
        simp only [isDigit, Bool.and_eq_true, decide_eq_true_eq, UInt8.le_iff_toNat_le] at digit
        have differs : char.toNat ≠ 48 := fun same => zero (UInt8.toNat_inj.mp same)
        exact UInt8.le_iff_toNat_le.mpr (by
          have bound : (48 : UInt8).toNat = 48 := rfl
          have least : (49 : UInt8).toNat = 49 := rfl
          omega)
      obtain ⟨figures, middle, here, there⟩ := bind_eq_ok ended
      rw [whole, run_of_ok (peek_run char ptr), run_of_ok (peek_run char ptr),
        if_pos ⟨large, digit⟩] at here
      change takeDigits (char :: ptr) = _ at here
      rw [takeDigits, if_pos digit] at here
      obtain ⟨⟨more, last⟩, reads, same⟩ := Stop.bind_eq_ok here
      cases same
      obtain ⟨passed, split, -⟩ := digits_moves (show digits.run ptr = _ from reads)
      obtain ⟨further, rfl, -⟩ := Moves.bind_left fraction_moves
        (fun _ => exponent_moves.bind_left fun _ => .pure _) there
      refine ⟨char :: (passed ++ further), ?_, Nat.le_add_left ..⟩
      rw [List.cons_append, List.append_assoc, ← split]

/-- A value passes a letter at least. -/
theorem parseValue_moves (pow : Codec.Double → Codec.Double → Codec.Double) (fuel : Nat) :
    Moves 1 (parseValue pow fuel) := by
  induction fuel with
  | zero => exact .throw _
  | succ fuel ih =>
      intro ptr value rest ended
      cases ptr with
      | nil =>
          rw [parseValue_nil] at ended
          exact absurd ended nofun
      | cons char ptr =>
          rw [parseValue_cons, valueAt] at ended
          split at ended
          next => exact word_moves (by decide) .null ended
          next =>
          split at ended
          next => exact word_moves (by decide) .false ended
          next =>
          split at ended
          next => exact word_moves (by decide) .true ended
          next =>
          split at ended
          next => exact parseString_moves.bind_left (fun _ => .pure _) ended
          next =>
          split at ended
          next begins => exact parseNumber_reads begins ended
          next =>
          split at ended
          next => exact parseArray_moves (ih.mono (Nat.zero_le 1)) fuel ended
          next =>
          split at ended
          next => exact parseObject_moves (ih.mono (Nat.zero_le 1)) fuel ended
          next => exact absurd ended nofun

/-- Two steps that do not stop for a reason do not stop for it together. -/
theorem bind_never {α β : Type} {stop : Stop} {source : Except Stop α} {next : α → Except Stop β}
    (head : source ≠ .error stop) (after : ∀ value, next value ≠ .error stop) :
    source >>= next ≠ .error stop := by
  cases source with
  | error other => exact fun same => head (congrArg Except.error (Except.error.inj same))
  | ok value => exact after value

theorem peek_never : Never .outOfFuel peek := by
  intro ptr
  cases ptr <;> exact nofun

theorem advance_never (count : Nat) : Never .outOfFuel (advance count) := by
  intro ptr
  by_cases room : count ≤ ptr.length
  · rw [advance_run room]
    exact nofun
  · rw [advance_error (Nat.not_le.mp room)]
    exact nofun

theorem accept_never (char : UInt8) : Never .outOfFuel (accept char) :=
  peek_never.bind fun _ => .ite ((advance_never 1).bind fun _ => .pure _) (.pure _)

theorem expect_never (char : UInt8) : Never .outOfFuel (expect char) :=
  (accept_never char).bind fun _ => .ite (.pure _) (.throw (by decide))

theorem skip_never : Never .outOfFuel skip := by
  intro ptr
  rw [skip_run, skipSpace_eq]
  split <;> exact nofun

theorem digits_never : Never .outOfFuel digits := by
  intro ptr
  change takeDigits ptr ≠ _
  rw [takeDigits_eq]
  split <;> exact nofun

/-- A number is read without running out of fuel. -/
theorem parseNumber_never (pow : Codec.Double → Codec.Double → Codec.Double) :
    Never .outOfFuel (parseNumber pow) := by
  have whole : Never .outOfFuel whole :=
    peek_never.bind fun _ => peek_never.bind fun _ => .ite digits_never (.pure _)
  have fraction : Never .outOfFuel fraction := by
    intro num
    rw [fraction, run_of_ok (run_get num)]
    refine (accept_never 46).bind (fun _ => .ite ?_ (.pure _)) num
    exact digits_never.bind fun _ => .ite (fun _ => nofun) (.pure _)
  have exponent : Never .outOfFuel exponent :=
    peek_never.bind fun _ => peek_never.bind fun _ => .ite
      ((advance_never 1).bind fun _ => Never.bind
        ((accept_never 43).bind fun _ => .ite (.pure _) (accept_never 45))
        fun _ => digits_never.bind fun _ => .pure _)
      (.pure _)
  exact (accept_never 45).bind fun _ => (accept_never 48).bind fun _ =>
    whole.bind fun _ => fraction.bind fun _ => exponent.bind fun _ => .pure _

/-- Hexadecimal figures are read without fuel. -/
theorem parseHex_never (digits h : Nat) (str : Bytes) : parseHex digits h str ≠ .error .outOfFuel := by
  induction digits generalizing h str with
  | zero => exact nofun
  | succ digits ih =>
      cases str with
      | nil => exact nofun
      | cons char str =>
          rw [parseHex]
          split
          · exact nofun
          · exact ih _ str

theorem atEscape_never (ptr : Bytes) : atEscape ptr ≠ .error .outOfFuel := by
  cases ptr with
  | nil => exact nofun
  | cons char ptr =>
      rw [atEscape.eq_def]
      dsimp only
      split
      · exact nofun
      · cases ptr <;> exact nofun

theorem unicode_never (str : Bytes) : unicode str ≠ .error .outOfFuel := by
  refine bind_never (parseHex_never 4 0 str) fun uc => ?_
  split
  · exact nofun
  split
  · refine bind_never (atEscape_never _) fun escaped => ?_
    split
    · refine bind_never (parseHex_never 4 0 _) fun uc2 => ?_
      split <;> exact nofun
    · exact nofun
  · exact nofun

theorem escape_never (char : UInt8) : Never .outOfFuel (escape char) := by
  refine .ite (.pure _) (.ite (.pure _) (.ite (.pure _) (.ite (.pure _) (.ite (.pure _) ?_))))
  refine .ite (fun ptr => ?_) (.pure _)
  rw [unicodeEscape, run_of_ok (run_get ptr)]
  exact (Never.liftM (unicode_never ptr)).bind
    (fun written => (advance_never _).bind fun _ => .pure _) ptr

theorem piece_never : Never .outOfFuel piece :=
  peek_never.bind fun _ => (advance_never 1).bind fun _ => .ite (.pure _) <|
    peek_never.bind fun char => (advance_never 1).bind fun _ => escape_never char

theorem countChars_never (ptr : Bytes) : countChars ptr ≠ .error .outOfFuel := by
  induction ptr using countChars.induct with
  | case1 => exact nofun
  | case2 char ptr ends =>
      rw [countChars.eq_def]
      dsimp only
      rw [if_pos ends]
      exact nofun
  | case3 ends => exact nofun
  | case4 char ptr ends ih => exact bind_never ih fun _ => nofun
  | case5 char ptr ends plain ih =>
      rw [countChars.eq_def]
      dsimp only
      rw [if_neg ends, if_neg plain]
      exact bind_never ih fun _ => nofun

/-- A plain letter is a piece. -/
theorem piece_plain {char : UInt8} (plain : char ≠ 92) (rest : Bytes) :
    piece.run (char :: rest) = .ok ([char], rest) := by
  rw [piece, run_of_ok (peek_run char rest), run_of_ok (advance_run (Nat.le_add_left 1 rest.length)),
    if_pos plain]
  rfl

theorem piece_escape (name : UInt8) (rest : Bytes) :
    piece.run (92 :: name :: rest) = (escape name).run rest := by
  rw [piece, run_of_ok (peek_run 92 _), run_of_ok (advance_run (Nat.le_add_left 1 _)), if_neg (by decide),
    List.drop_succ_cons, List.drop_zero, run_of_ok (peek_run name rest),
    run_of_ok (advance_run (Nat.le_add_left 1 rest.length))]
  rfl

/-- A plain letter counts for one. -/
theorem countChars_char {char : UInt8} {ptr : Bytes} {len : Nat} (inside : ¬ (char = 34 ∨ char = 0))
    (plain : char ≠ 92) (counted : countChars ptr = .ok len) :
    countChars (char :: ptr) = .ok (len + 1) := by
  rw [countChars.eq_def]
  dsimp only
  rw [if_neg inside, if_neg plain, counted]
  rfl

/-- An escape is counted as one character. -/
theorem countChars_escape {char : UInt8} {ptr : Bytes} {len : Nat}
    (counted : countChars ptr = .ok len) : countChars (92 :: char :: ptr) = .ok (len + 1) := by
  rw [countChars, if_neg (by decide), if_pos rfl, counted]
  rfl

/-- The count ends with the string. -/
theorem countChars_end {char : UInt8} (ends : char = 34 ∨ char = 0) (ptr : Bytes) :
    countChars (char :: ptr) = .ok 0 := by
  rw [countChars.eq_def]
  dsimp only
  rw [if_pos ends]
  rfl

/-- What has been counted and copied is closed. -/
theorem stringBody_copied {ptr behind out : Bytes} {len : Nat} (counted : countChars ptr = .ok len)
    (copied : (unescape (ptr.length + 1)).run ptr = .ok (out, behind))
    (room : out.length ≤ len ∧ len + 1 < 2 ^ 31) :
    stringBody.run ptr =
      (do let _ ← accept 34; return CStr.ofBytes out : JsonParser CStr).run behind := by
  rw [stringBody, run_of_ok (run_get ptr), run_bind, run_liftM, counted]
  dsimp only [Except.map]
  rw [run_of_ok (run_get ptr), run_of_ok copied, if_pos room]

/-- The pieces of a string need one pass for each letter. -/
theorem unescape_avoids (passes : Nat) : Avoids .outOfFuel passes (unescape passes) := by
  induction passes with
  | zero => exact fun _ short => absurd short (Nat.not_lt_zero _)
  | succ passes ih =>
      refine .never_bind peek_never peek_moves fun _ =>
        .never_bind peek_never peek_moves fun _ => .ite (.of_never (.pure _)) ?_
      exact (Avoids.of_never piece_never).bind piece_moves fun _ =>
        ih.andThen (unescape_moves passes) fun _ => .of_never (.pure _)

/-- The body of a string has passes enough. -/
theorem stringBody_never : Never .outOfFuel stringBody := by
  intro ptr ended
  rw [stringBody, run_of_ok (run_get ptr), run_bind, run_liftM] at ended
  cases counted : countChars ptr with
  | error stop =>
      rw [counted] at ended
      exact countChars_never ptr (counted.trans (congrArg Except.error (Except.error.inj ended)))
  | ok len =>
      rw [counted] at ended
      dsimp only [Except.map] at ended
      rw [run_of_ok (run_get ptr)] at ended
      refine Avoids.andThen (unescape_avoids (ptr.length + 1)) (unescape_moves _) (fun out => ?_)
        (Nat.lt_succ_self _) ended
      exact .ite (.of_never ((accept_never 34).bind fun _ => .pure _))
        (.of_never (.throw (by decide)))

theorem parseString_never : Never .outOfFuel parseString :=
  (expect_never 34).bind fun _ => stringBody_never

section Containers

variable {parse : JsonParser Json} {bound : Nat} (avoids : Avoids .outOfFuel bound parse)
  (moves : Moves 0 parse)

/-- A character that is there is passed. -/
theorem accept_avoids {α : Type} {char : UInt8} {here there : JsonParser α}
    (more : Avoids .outOfFuel bound here) (other : Avoids .outOfFuel (bound + 1) there) :
    Avoids .outOfFuel (bound + 1) (do if ← accept char then here else there) := by
  intro ptr short ended
  cases ptr with
  | nil => exact absurd ended nofun
  | cons first ptr =>
      by_cases same : first = char
      · rw [same, run_of_ok (accept_self char ptr), if_pos rfl] at ended
        exact more (Nat.lt_of_succ_lt_succ short) ended
      · rw [run_of_ok (accept_other same ptr), if_neg Bool.false_ne_true] at ended
        exact other short ended

include avoids moves

/-- The items of an array need one pass for each. -/
theorem parseItems_avoids {passes : Nat} (enough : passes ≤ bound) :
    Avoids .outOfFuel passes (parseItems parse passes) := by
  induction passes with
  | zero => exact fun _ short => absurd short (Nat.not_lt_zero _)
  | succ passes ih =>
      refine accept_avoids ?_ (.of_never (.pure _))
      refine .never_bind skip_never skip_moves fun _ =>
        Avoids.andThen (avoids.mono (Nat.le_of_succ_le enough)) moves fun _ =>
          .never_bind skip_never skip_moves fun _ => ?_
      exact Avoids.andThen (ih (Nat.le_of_succ_le enough)) (parseItems_moves moves passes) fun _ =>
        .of_never (.pure _)

/-- An array needs one level more than its items. -/
theorem parseArray_avoids : Avoids .outOfFuel (bound + 1) (parseArray parse bound) := by
  refine (Avoids.of_never (expect_never 91)).bind (expect_moves 91) fun _ =>
    .never_bind skip_never skip_moves fun _ => .never_bind (accept_never 93) (accept_moves 93)
      fun _ => .ite (.of_never (.pure _)) ?_
  refine .never_bind skip_never skip_moves fun _ => Avoids.andThen avoids moves fun _ =>
    .never_bind skip_never skip_moves fun _ => ?_
  exact Avoids.andThen (parseItems_avoids avoids moves (Nat.le_refl _)) (parseItems_moves moves _)
    fun _ => .of_never ((expect_never 93).bind fun _ => .pure _)

theorem parseMember_avoids : Avoids .outOfFuel bound (parseMember parse) := by
  refine .never_bind skip_never skip_moves fun _ =>
    .never_bind parseString_never (parseString_moves.mono (Nat.zero_le 1)) fun _ =>
      .never_bind skip_never skip_moves fun _ =>
        .never_bind (expect_never 58) ((expect_moves 58).mono (Nat.zero_le 1)) fun _ => ?_
  exact .never_bind skip_never skip_moves fun _ => Avoids.andThen avoids moves fun _ =>
    .of_never (skip_never.bind fun _ => .pure _)

/-- The members of an object need one pass for each. -/
theorem parseMembers_avoids {passes : Nat} (enough : passes ≤ bound) :
    Avoids .outOfFuel passes (parseMembers parse passes) := by
  induction passes with
  | zero => exact fun _ short => absurd short (Nat.not_lt_zero _)
  | succ passes ih =>
      have fewer := Nat.le_of_succ_le enough
      refine accept_avoids ?_ (.of_never (.pure _))
      exact Avoids.andThen ((parseMember_avoids avoids moves).mono fewer)
        (parseMember_moves moves) fun _ =>
          Avoids.andThen (ih fewer) (parseMembers_moves moves passes) fun _ => .of_never (.pure _)

/-- An object needs one level more than its members. -/
theorem parseObject_avoids : Avoids .outOfFuel (bound + 1) (parseObject parse bound) := by
  refine (Avoids.of_never (expect_never 123)).bind (expect_moves 123) fun _ =>
    .never_bind skip_never skip_moves fun _ => .never_bind (accept_never 125) (accept_moves 125)
      fun _ => .ite (.of_never (.pure _)) ?_
  exact Avoids.andThen (parseMember_avoids avoids moves) (parseMember_moves moves) fun _ =>
    Avoids.andThen (parseMembers_avoids avoids moves (Nat.le_refl _)) (parseMembers_moves moves _)
      fun _ => .of_never ((expect_never 125).bind fun _ => .pure _)

end Containers

theorem literal_never (text : String) : Never .outOfFuel (literal text) := by
  have starts (letters : Bytes) : ∀ ptr, startsWith letters ptr ≠ .error .outOfFuel := by
    induction letters with
    | nil => exact fun _ => nofun
    | cons letter letters ih =>
        intro ptr
        cases ptr with
        | nil => exact nofun
        | cons char ptr =>
            rw [startsWith]
            split
            · exact ih ptr
            · exact nofun
  intro ptr ended
  rw [literal, run_of_ok (run_get ptr)] at ended
  exact (Never.liftM (starts _ ptr)).bind
    (fun _ => .ite ((advance_never _).bind fun _ => .pure _) (.pure _)) ptr ended

/-- More steps than bytes are enough. -/
theorem parseValue_avoids (pow : Codec.Double → Codec.Double → Codec.Double) (fuel : Nat) :
    Avoids .outOfFuel fuel (parseValue pow fuel) := by
  induction fuel with
  | zero => exact fun _ short => absurd short (Nat.not_lt_zero _)
  | succ fuel ih =>
      intro ptr short ended
      have moves := (parseValue_moves pow fuel).mono (Nat.zero_le 1)
      have word (text : String) (item : Json) : Never .outOfFuel (word text item) :=
        (literal_never text).bind fun _ => .ite (.pure _) (.throw (by decide))
      cases ptr with
      | nil =>
          rw [parseValue_nil] at ended
          exact absurd ended nofun
      | cons char ptr =>
          rw [parseValue_cons] at ended
          have value : Avoids .outOfFuel (fuel + 1) (valueAt pow fuel char) :=
            .ite (.of_never (word "null" .null)) <| .ite (.of_never (word "false" .false)) <|
              .ite (.of_never (word "true" .true)) <|
              .ite (.of_never (parseString_never.bind fun _ => .pure _)) <|
                .ite (.of_never (parseNumber_never pow)) <|
                  .ite (parseArray_avoids ih moves) <| .ite (parseObject_avoids ih moves) <|
                    .of_never (.throw (by decide))
          exact value short ended

end JsonParser

open JsonParser

variable {pow : Codec.Double → Codec.Double → Codec.Double} {value rest : Bytes} {item : Json}

/-- The parser never runs for ever: more steps than bytes are enough. -/
theorem pcJSONParseText_ends (pow : Codec.Double → Codec.Double → Codec.Double) (value : Bytes) :
    pcJSONParseText pow value ≠ .error .outOfFuel :=
  Avoids.never_bind skip_never skip_moves (fun _ => parseValue_avoids pow _) (Nat.lt_succ_self _)

/-- The parser reads a part of the text from its start on, and not nothing. -/
theorem pcJSONParseText_moves (parsed : pcJSONParseText pow value = .ok (item, rest)) :
    ∃ passed, value = passed ++ rest ∧ 1 ≤ passed.length :=
  skip_moves.bind_right (fun _ => parseValue_moves pow _) parsed

/-- Whatever the memory holds, the parser comes to an end, and an item takes up a part of the
memory from its start on. -/
theorem pcJSONParseText_terminates (pow : Codec.Double → Codec.Double → Codec.Double)
    (value : Bytes) :
    pcJSONParseText pow value ≠ .error .outOfFuel ∧
      ∀ item rest, pcJSONParseText pow value = .ok (item, rest) →
        ∃ passed, value = passed ++ rest ∧ 1 ≤ passed.length :=
  ⟨pcJSONParseText_ends pow value, fun _ _ => pcJSONParseText_moves⟩

end Pomelo
