import Pomelo.Json.Steps

/-!
# The JSON parser on C strings

A pointer that steps over an escape does not look for the terminator: an escape that is cut off
takes it out of the text, into whatever memory follows. Where all escapes are whole the parser
stays in front of the terminator, and what it copies fits the block that it has counted out.
-/

namespace Pomelo

open Parsing Reader

namespace JsonParser

/-- The memory of a C string up to its terminator, with whole escapes only: a backslash stands in
front of a character, and `\u` in front of four hexadecimal digits. -/
inductive WholeText : Bytes → Prop where
  | terminator : WholeText [0]
  | char {char : UInt8} {rest : Bytes} (inside : char ≠ 0) (plain : char ≠ 92)
      (whole : WholeText rest) : WholeText (char :: rest)
  | escape {char : UInt8} {rest : Bytes} (inside : char ≠ 0) (short : char ≠ 117)
      (whole : WholeText rest) : WholeText (92 :: char :: rest)
  | unicode {figures rest : Bytes} (four : figures.length = 4)
      (hex : ∀ figure ∈ figures, (hexValue figure).isSome) (whole : WholeText rest) :
      WholeText (92 :: 117 :: (figures ++ rest))

/-- What may happen to a text besides being parsed. -/
def Refusal (stop : Stop) : Prop := stop = .refused ∨ stop = .outOfFuel

namespace WholeText

variable {char : UInt8} {ptr rest : Bytes}

theorem ne_nil (whole : WholeText ptr) : ptr ≠ [] := by
  rintro rfl
  cases whole

/-- A letter that is neither the terminator nor a backslash may be passed. -/
theorem tail (whole : WholeText (char :: rest)) (inside : char ≠ 0) (plain : char ≠ 92) :
    WholeText rest := by
  cases whole with
  | terminator => exact absurd rfl inside
  | char _ _ whole => exact whole
  | escape => exact absurd rfl plain
  | unicode => exact absurd rfl plain

/-- A loop over characters stops at the terminator and in front of an escape. -/
theorem dropWhile {kind : UInt8 → Bool} (inside : kind 0 = false) (plain : kind 92 = false)
    (whole : WholeText ptr) : WholeText (ptr.dropWhile kind) := by
  induction whole with
  | terminator =>
      rw [List.dropWhile_cons, if_neg (by simp [inside])]
      exact .terminator
  | char inside' plain' whole ih =>
      rw [List.dropWhile_cons]
      split
      · exact ih
      · exact .char inside' plain' whole
  | escape inside' short whole =>
      rw [List.dropWhile_cons, if_neg (by simp [plain])]
      exact .escape inside' short whole
  | unicode four hex whole =>
      rw [List.dropWhile_cons, if_neg (by simp [plain])]
      exact .unicode four hex whole

end WholeText

variable {ptr rest : Bytes}

/-- Looking at a letter passes nothing. -/
theorem peek_whole : Confined WholeText Refusal peek := by
  intro ptr whole
  cases ptr with
  | nil => exact absurd rfl whole.ne_nil
  | cons char ptr => exact .inl ⟨char, char :: ptr, rfl, whole⟩

/-- A letter that is accepted is neither the terminator nor a backslash. -/
theorem accept_whole {char : UInt8} (inside : char ≠ 0) (plain : char ≠ 92) :
    Confined WholeText Refusal (accept char) := by
  intro ptr whole
  cases ptr with
  | nil => exact absurd rfl whole.ne_nil
  | cons first ptr =>
      by_cases same : first = char
      · subst same
        exact .inl ⟨true, ptr, accept_self first ptr, whole.tail inside plain⟩
      · exact .inl ⟨false, first :: ptr, accept_other same ptr, whole⟩

theorem expect_whole {char : UInt8} (inside : char ≠ 0) (plain : char ≠ 92) :
    Confined WholeText Refusal (expect char) := by
  unfold expect
  apply (accept_whole inside plain).bind
  intro found
  exact .ite (.pure ()) (.throw (.inl rfl))

/-- White space is passed without the terminator. -/
theorem skip_whole : Confined WholeText Refusal skip := by
  intro ptr whole
  have behind : WholeText (ptr.dropWhile fun char => char ≠ 0 ∧ char ≤ 32) :=
    whole.dropWhile (by decide) (by decide)
  left
  rw [skip_run, skipSpace_eq]
  split
  next none => exact absurd none behind.ne_nil
  next char rest split =>
    rw [split] at behind
    exact ⟨(), char :: rest, rfl, behind⟩

theorem digits_whole : Confined WholeText Refusal digits := by
  intro ptr whole
  have behind : WholeText (ptr.dropWhile isDigit) := whole.dropWhile (by decide) (by decide)
  left
  change ∃ value rest, takeDigits ptr = .ok (value, rest) ∧ WholeText rest
  rw [takeDigits_eq]
  split
  next none => exact absurd none behind.ne_nil
  next char rest split =>
    rw [split] at behind
    exact ⟨_, char :: rest, rfl, behind⟩

theorem whole_whole : Confined WholeText Refusal whole :=
  peek_whole.bind fun _ => peek_whole.bind fun _ => .ite digits_whole (.pure [])

theorem fraction_whole : Confined WholeText Refusal fraction := by
  intro num whole
  rw [fraction, run_of_ok (run_get num)]
  refine ((accept_whole (by decide) (by decide)).bind fun point => ?_) whole
  apply Confined.ite
  · apply digits_whole.bind
    intro places ptr behind
    split
    · exact .inl ⟨places, num, rfl, whole⟩
    · exact .inl ⟨places, ptr, rfl, behind⟩
  · exact .pure []

theorem exponentSign_whole : Confined WholeText Refusal exponentSign :=
  (accept_whole (by decide) (by decide)).bind fun _ =>
    .ite (.pure false) (accept_whole (by decide) (by decide))

theorem exponent_whole : Confined WholeText Refusal exponent := by
  intro ptr whole
  cases ptr with
  | nil => exact absurd rfl whole.ne_nil
  | cons char ptr =>
      rw [exponent, run_of_ok (peek_run char ptr), run_of_ok (peek_run char ptr)]
      by_cases mark : char = 101 ∨ char = 69
      · rw [if_pos mark, run_of_ok (advance_run (Nat.le_add_left 1 ptr.length))]
        have behind : WholeText ptr := by
          rcases mark with rfl | rfl <;> exact whole.tail (by decide) (by decide)
        apply (exponentSign_whole.bind fun negative => ?_) behind
        exact digits_whole.bind fun figures => .pure _
      · rw [if_neg mark]
        exact .inl ⟨_, _, rfl, whole⟩

/-- A number is read within the text. -/
theorem parseNumber_whole (pow : Codec.Double → Codec.Double → Codec.Double) :
    Confined WholeText Refusal (parseNumber pow) :=
  (accept_whole (by decide) (by decide)).bind fun _ =>
    (accept_whole (by decide) (by decide)).bind fun _ => whole_whole.bind fun _ =>
      fraction_whole.bind fun _ => exponent_whole.bind fun _ => .pure _

/-- A code point takes four bytes at most. -/
theorem length_utf8 (uc : Nat) : (utf8 uc).length ≤ 4 := by
  unfold utf8
  split
  · simp
  split
  · simp
  split <;> simp

theorem parseHex_whole {figures : Bytes} (hex : ∀ figure ∈ figures, (hexValue figure).isSome)
    (h : Nat) (behind : Bytes) :
    ∃ uc, parseHex figures.length h (figures ++ behind) = .ok uc := by
  induction figures generalizing h with
  | nil => exact ⟨h, rfl⟩
  | cons figure figures ih =>
      obtain ⟨value, isHex⟩ := Option.isSome_iff_exists.mp (hex figure List.mem_cons_self)
      rw [List.length_cons, List.cons_append, parseHex, isHex]
      exact ih (fun figure member => hex figure (List.mem_cons_of_mem _ member)) _

theorem parseHex4_whole {figures : Bytes} (four : figures.length = 4)
    (hex : ∀ figure ∈ figures, (hexValue figure).isSome) (behind : Bytes) :
    ∃ uc, parseHex4 (figures ++ behind) = .ok uc := by
  rw [parseHex4, ← four]
  exact parseHex_whole hex 0 behind

/-- Hexadecimal digits are counted one by one. -/
theorem countChars_hex {figures : Bytes} (hex : ∀ figure ∈ figures, (hexValue figure).isSome)
    {behind : Bytes} {len : Nat} (counted : countChars behind = .ok len) :
    countChars (figures ++ behind) = .ok (len + figures.length) := by
  induction figures with
  | nil => exact counted
  | cons figure figures ih =>
      have isHex := hex figure List.mem_cons_self
      have plain {char : UInt8} (other : (hexValue char).isSome = false) : figure ≠ char := by
        rintro rfl
        exact absurd (isHex.symm.trans other) (by decide)
      rw [List.cons_append, List.length_cons, ← Nat.add_assoc]
      apply countChars_char (not_or.mpr ⟨plain (by decide), plain (by decide)⟩) (plain (by decide))
      exact ih fun figure member => hex figure (List.mem_cons_of_mem _ member)

/-- The second half of a character is a whole escape, or it is not there. -/
theorem atEscape_whole (whole : WholeText ptr) :
    atEscape ptr = .ok false ∨ ∃ figures rest, ptr = 92 :: 117 :: (figures ++ rest) ∧
      figures.length = 4 ∧ (∀ figure ∈ figures, (hexValue figure).isSome) ∧ WholeText rest ∧
      atEscape ptr = .ok true := by
  cases whole with
  | terminator => exact .inl rfl
  | char inside plain whole =>
      left
      rw [atEscape.eq_def]
      dsimp only
      rw [if_pos plain]
      rfl
  | @escape char rest inside short whole =>
      left
      change Except.ok (decide (char = 117)) = _
      rw [decide_eq_false short]
  | @unicode figures rest four hex whole => exact .inr ⟨figures, rest, rfl, four, hex, whole, rfl⟩

/-- An escape with the code of a character writes four bytes at most, for one escape or for two. -/
theorem unicode_whole {figures : Bytes} (four : figures.length = 4)
    (hex : ∀ figure ∈ figures, (hexValue figure).isSome) (whole : WholeText rest) :
    ∃ out : Bytes, out.length ≤ 4 ∧ (unicode (figures ++ rest) = .ok (out, 4) ∨
      ∃ figures' rest', rest = 92 :: 117 :: (figures' ++ rest') ∧ figures'.length = 4 ∧
        (∀ figure ∈ figures', (hexValue figure).isSome) ∧ WholeText rest' ∧
        unicode (figures ++ rest) = .ok (out, 10)) := by
  obtain ⟨uc, first⟩ := parseHex4_whole four hex rest
  have skipped : (figures ++ rest).drop 4 = rest := by rw [← four, List.drop_left]
  rw [unicode, first, Stop.ok_bind]
  split
  · exact ⟨[], Nat.zero_le 4, .inl rfl⟩
  split
  · rw [skipped]
    rcases atEscape_whole whole with other | ⟨figures', rest', rfl, four', hex', whole', escape⟩
    · rw [other]
      exact ⟨[], Nat.zero_le 4, .inl rfl⟩
    · obtain ⟨uc2, second⟩ := parseHex4_whole four' hex' rest'
      have behind : (figures ++ 92 :: 117 :: (figures' ++ rest')).drop 6 = figures' ++ rest' := by
        rw [show 6 = 4 + 2 from rfl, ← List.drop_drop, skipped]
        rfl
      rw [escape, Stop.ok_bind, if_pos rfl, behind, second, Stop.ok_bind]
      split
      · exact ⟨[], Nat.zero_le 4, .inr ⟨figures', rest', rfl, four', hex', whole', rfl⟩⟩
      · exact ⟨_, length_utf8 _, .inr ⟨figures', rest', rfl, four', hex', whole', rfl⟩⟩
  · exact ⟨_, length_utf8 uc, .inl rfl⟩

/-- What the two loops of `parse_string` make of a text: the block is large enough, and the pointer
stays in the text. -/
def Copied (passes : Nat) (ptr : Bytes) : Prop :=
  ∃ len out rest, countChars ptr = .ok len ∧ (unescape passes).run ptr = .ok (out, rest) ∧
    out.length ≤ len ∧ len < ptr.length ∧ WholeText rest

/-- One pass of the loop that copies. -/
theorem copied_piece (more : Nat) {passes : Nat} {char : UInt8} {out : Bytes}
    (inside : ¬ (char = 34 ∨ char = 0))
    (wrote : piece.run (char :: ptr) = .ok (out, rest))
    (counted : ∀ {len}, countChars rest = .ok len → countChars (char :: ptr) = .ok (len + more))
    (room : out.length ≤ more) (shorter : rest.length + more ≤ ptr.length + 1)
    (copied : Copied passes rest) : Copied (passes + 1) (char :: ptr) := by
  obtain ⟨len, behind, after, count, copy, fits, less, whole⟩ := copied
  refine ⟨len + more, out ++ behind, after, counted count, ?_, ?_, ?_, whole⟩
  · rw [unescape, run_of_ok (peek_run char ptr), run_of_ok (peek_run char ptr), if_neg inside,
      run_of_ok wrote, run_of_ok copy]
    rfl
  · rw [List.length_append]
    omega
  · rw [List.length_cons]
    omega

/-- A short escape writes one byte. -/
theorem escape_short {char : UInt8} (short : char ≠ 117) (ptr : Bytes) :
    ∃ letter, (escape char).run ptr = .ok ([letter], ptr) := by
  unfold escape
  split
  · exact ⟨8, rfl⟩
  split
  · exact ⟨12, rfl⟩
  split
  · exact ⟨10, rfl⟩
  split
  · exact ⟨13, rfl⟩
  split
  · exact ⟨9, rfl⟩
  exact ⟨char, rfl⟩

/-- An escaped code point is copied, and as many letters are passed as it is written with. -/
theorem escape_unicode {out : Bytes} {count : Nat} (code : unicode ptr = .ok (out, count))
    (room : count ≤ ptr.length) : (escape 117).run ptr = .ok (out, ptr.drop count) := by
  change unicodeEscape.run ptr = _
  rw [unicodeEscape, run_of_ok (run_get ptr), run_bind, run_liftM, code]
  change (do advance count; return out : JsonParser Bytes).run ptr = _
  rw [run_of_ok (advance_run room)]
  rfl

/-- The letters of a string are copied up to the quotation mark. -/
theorem copied_whole (passes : Nat) (whole : WholeText ptr) (enough : ptr.length ≤ passes) :
    Copied passes ptr := by
  induction passes generalizing ptr with
  | zero => exact absurd (List.length_eq_zero_iff.mp (Nat.le_zero.mp enough)) whole.ne_nil
  | succ passes ih =>
      cases whole with
      | terminator =>
          exact ⟨0, [], [0], rfl, rfl, Nat.le_refl 0, Nat.zero_lt_one, .terminator⟩
      | @char char rest inside plain whole =>
          rw [List.length_cons] at enough
          by_cases quote : char = 34
          · subst quote
            exact ⟨0, [], 34 :: rest, countChars_end (.inl rfl) rest, rfl, Nat.le_refl 0,
              Nat.succ_pos _, .char inside plain whole⟩
          · have other := not_or.mpr ⟨quote, inside⟩
            exact copied_piece 1 other (piece_plain plain rest)
              (fun counted => countChars_char other plain counted) (Nat.le_refl 1) (Nat.le_refl _)
              (ih whole (by omega))
      | @escape char rest inside short whole =>
          obtain ⟨letter, wrote⟩ := escape_short short rest
          simp only [List.length_cons] at enough
          exact copied_piece 1 (by decide) ((piece_escape _ _).trans wrote) countChars_escape
            (Nat.le_refl 1) (by simp) (ih whole (by omega))
      | @unicode figures rest four hex whole =>
          simp only [List.length_cons, List.length_append, four] at enough
          have counted {len : Nat} (count : countChars rest = .ok len) :
              countChars (92 :: 117 :: (figures ++ rest)) = .ok (len + 5) := by
            rw [countChars_escape (countChars_hex hex count), four]
          have skipped : (figures ++ rest).drop 4 = rest := by rw [← four, List.drop_left]
          obtain ⟨out, few, code | ⟨figures', rest', rfl, four', hex', whole', code⟩⟩ :=
            unicode_whole four hex whole
          · have wrote := escape_unicode code (by rw [List.length_append]; omega)
            rw [skipped] at wrote
            exact copied_piece 5 (by decide) ((piece_escape _ _).trans wrote) counted (by omega)
              (by simp [four]; omega) (ih whole (by omega))
          · have behind : (figures ++ 92 :: 117 :: (figures' ++ rest')).drop 10 = rest' := by
              rw [show 10 = 4 + 6 from rfl, ← List.drop_drop, skipped]
              simp [← four']
            have wrote := escape_unicode code (by simp [four, four']; omega)
            rw [behind] at wrote
            simp only [List.length_cons, List.length_append, four'] at enough
            refine copied_piece 10 (by decide) ((piece_escape _ _).trans wrote) (fun count => ?_)
              (by omega) (by simp [four, four']; omega) (ih whole' (by omega))
            rw [counted (countChars_escape (countChars_hex hex' count)), four']

/-- A C string with whole escapes, which an `int` is enough to count. -/
def ShortText (memory : Bytes) : Prop := WholeText memory ∧ memory.length < 2 ^ 31

/-- A string ends within a text that is short enough for its length. -/
theorem stringBody_short : Confined ShortText Refusal stringBody := by
  rintro ptr ⟨whole, short⟩
  obtain ⟨len, out, rest, counted, copied, fits, less, behind⟩ :=
    copied_whole (ptr.length + 1) whole (Nat.le_succ _)
  obtain ⟨passed, split, -⟩ := unescape_moves _ copied
  have shorter : rest.length < 2 ^ 31 := by
    rw [split, List.length_append] at short
    omega
  have closes : Confined ShortText Refusal (do let _ ← accept 34; return CStr.ofBytes out) :=
    ((accept_whole (by decide) (by decide)).bounded (accept_moves 34)).bind fun _ => .pure _
  rw [stringBody_copied counted copied ⟨fits, by omega⟩]
  exact closes ⟨behind, shorter⟩

theorem skip_short : Confined ShortText Refusal skip := skip_whole.bounded skip_moves

theorem accept_short {char : UInt8} (inside : char ≠ 0) (plain : char ≠ 92) :
    Confined ShortText Refusal (accept char) :=
  (accept_whole inside plain).bounded (accept_moves char)

theorem expect_short {char : UInt8} (inside : char ≠ 0) (plain : char ≠ 92) :
    Confined ShortText Refusal (expect char) :=
  (expect_whole inside plain).bounded (expect_moves char)

theorem parseString_short : Confined ShortText Refusal parseString :=
  (expect_short (by decide) (by decide)).bind fun _ => stringBody_short

section Containers

variable {parse : JsonParser Json} (confined : Confined ShortText Refusal parse)

include confined

/-- The items of an array are read within the text if the values are. -/
theorem parseItems_short (passes : Nat) : Confined ShortText Refusal (parseItems parse passes) := by
  induction passes with
  | zero => exact .throw (.inr rfl)
  | succ passes ih =>
      exact (accept_short (by decide) (by decide)).bind fun _ => .ite
        (skip_short.bind fun _ => confined.bind fun _ => skip_short.bind fun _ =>
          ih.bind fun _ => .pure _)
        (.pure _)

theorem parseArray_short (passes : Nat) : Confined ShortText Refusal (parseArray parse passes) :=
  (expect_short (by decide) (by decide)).bind fun _ => skip_short.bind fun _ =>
    (accept_short (by decide) (by decide)).bind fun _ => .ite (.pure _) <|
      skip_short.bind fun _ => confined.bind fun _ => skip_short.bind fun _ =>
        (parseItems_short confined passes).bind fun _ =>
          (expect_short (by decide) (by decide)).bind fun _ => .pure _

theorem parseMember_short : Confined ShortText Refusal (parseMember parse) :=
  skip_short.bind fun _ => parseString_short.bind fun _ => skip_short.bind fun _ =>
    (expect_short (by decide) (by decide)).bind fun _ => skip_short.bind fun _ =>
      confined.bind fun _ => skip_short.bind fun _ => .pure _

theorem parseMembers_short (passes : Nat) :
    Confined ShortText Refusal (parseMembers parse passes) := by
  induction passes with
  | zero => exact .throw (.inr rfl)
  | succ passes ih =>
      exact (accept_short (by decide) (by decide)).bind fun _ => .ite
        ((parseMember_short confined).bind fun _ => ih.bind fun _ => .pure _) (.pure _)

theorem parseObject_short (passes : Nat) : Confined ShortText Refusal (parseObject parse passes) :=
  (expect_short (by decide) (by decide)).bind fun _ => skip_short.bind fun _ =>
    (accept_short (by decide) (by decide)).bind fun _ => .ite (.pure _) <|
      (parseMember_short confined).bind fun _ => (parseMembers_short confined passes).bind fun _ =>
        (expect_short (by decide) (by decide)).bind fun _ => .pure _

end Containers

/-- The comparison with a literal ends at the terminator at the latest. -/
theorem startsWith_whole {letters : Bytes} (inside : ∀ letter ∈ letters, letter ≠ 0 ∧ letter ≠ 92)
    (whole : WholeText ptr) :
    startsWith letters ptr = .ok false ∨
      ∃ rest, ptr = letters ++ rest ∧ WholeText rest ∧ startsWith letters ptr = .ok true := by
  induction letters generalizing ptr with
  | nil => exact .inr ⟨ptr, rfl, whole, rfl⟩
  | cons letter letters ih =>
      cases ptr with
      | nil => exact absurd rfl whole.ne_nil
      | cons char ptr =>
          rw [startsWith]
          by_cases same : char = letter
          · subst same
            obtain ⟨nonzero, plain⟩ := inside char List.mem_cons_self
            rw [if_pos rfl]
            rcases ih (fun letter member => inside letter (List.mem_cons_of_mem _ member))
              (whole.tail nonzero plain) with other | ⟨rest, rfl, behind, same⟩
            · exact .inl other
            · exact .inr ⟨rest, rfl, behind, same⟩
          · rw [if_neg same]
            exact .inl rfl

/-- A word without the terminator is read within the text. -/
theorem word_whole {text : String} {letters : Bytes} (item : Json)
    (spelled : (CStr.ofString text).bytes = letters)
    (inside : ∀ letter ∈ letters, letter ≠ 0 ∧ letter ≠ 92) :
    Confined WholeText Refusal (word text item) := by
  refine Confined.bind (fun ptr whole => ?_) fun _ => .ite (.pure item) (.throw (.inl rfl))
  subst spelled
  rcases startsWith_whole inside whole with other | ⟨rest, rfl, behind, same⟩
  · left
    refine ⟨false, ptr, ?_, whole⟩
    rw [literal, run_of_ok (run_get ptr), run_bind, run_liftM, other]
    rfl
  · exact .inl ⟨true, rest, literal_self rfl, behind⟩

/-- A value is read within the text, however deep it is. -/
theorem parseValue_short (pow : Codec.Double → Codec.Double → Codec.Double) (fuel : Nat) :
    Confined ShortText Refusal (parseValue pow fuel) := by
  induction fuel with
  | zero => exact .throw (.inr rfl)
  | succ fuel ih =>
      intro ptr text
      cases ptr with
      | nil => exact absurd rfl text.1.ne_nil
      | cons char ptr =>
          have null := word_whole .null
            (show (CStr.ofString "null").bytes = [110, 117, 108, 108] by decide) (by simp)
          have isFalse := word_whole .false
            (show (CStr.ofString "false").bytes = [102, 97, 108, 115, 101] by decide) (by simp)
          have isTrue := word_whole .true
            (show (CStr.ofString "true").bytes = [116, 114, 117, 101] by decide) (by simp)
          have value : Confined ShortText Refusal (valueAt pow fuel char) :=
            .ite (null.bounded (word_moves (by decide) .null)) <|
            .ite (isFalse.bounded (word_moves (by decide) .false)) <|
            .ite (isTrue.bounded (word_moves (by decide) .true)) <|
            .ite (parseString_short.bind fun _ => .pure _) <|
            .ite ((parseNumber_whole pow).bounded (parseNumber_moves pow)) <|
            .ite (parseArray_short ih fuel) <| .ite (parseObject_short ih fuel) (.throw (.inl rfl))
          rw [parseValue_cons]
          exact value text

end JsonParser

open JsonParser

variable {pow : Codec.Double → Codec.Double → Codec.Double} {value : Bytes}

/-- **Memory safety.** A C string with whole escapes is refused, or read up to a place that is
still in front of its terminator or at it. -/
theorem pcJSONParseText_inside (whole : WholeText value) (short : value.length < 2 ^ 31) :
    pcJSONParseText pow value = .error .refused ∨
      ∃ item passed rest, pcJSONParseText pow value = .ok (item, rest) ∧ value = passed ++ rest ∧
        1 ≤ passed.length ∧ WholeText rest := by
  rcases (skip_short.bind fun _ => parseValue_short pow (value.length + 1)) ⟨whole, short⟩ with
    ⟨item, rest, parsed, behind, -⟩ | ⟨stop, refused | spent, error⟩
  · obtain ⟨passed, split, far⟩ := pcJSONParseText_moves parsed
    exact .inr ⟨item, passed, rest, parsed, split, far, behind⟩
  · exact .inl (refused ▸ error)
  · exact absurd (spent ▸ error) (pcJSONParseText_ends pow value)

/-- An array with an escape in it. -/
theorem pcJSONParseText_inside_escape :
    pcJSONParseText (fun base _ => base) [91, 34, 92, 117, 48, 48, 101, 57, 34, 93, 0] =
        .error .refused ∨
      ∃ item passed rest,
        pcJSONParseText (fun base _ => base) [91, 34, 92, 117, 48, 48, 101, 57, 34, 93, 0] =
          .ok (item, rest) ∧
        [91, 34, 92, 117, 48, 48, 101, 57, 34, 93, 0] = passed ++ rest ∧ 1 ≤ passed.length ∧
        WholeText rest :=
  pcJSONParseText_inside
    (.char (by decide) (by decide) <| .char (by decide) (by decide) <|
      @WholeText.unicode [48, 48, 101, 57] [34, 93, 0] rfl (by simp [hexValue]) <|
      .char (by decide) (by decide) <| .char (by decide) (by decide) .terminator)
    (by decide)

/-- An escape that is cut off takes the pointer behind the terminator. -/
example : pcJSONParseText (fun base _ => base) [34, 92, 0] = .error .outOfBounds := by rfl

/-- An escape that lacks digits takes it behind the closing quote: more is copied than counted. -/
example : pcJSONParseText (fun base _ => base) [34, 92, 117, 34, 97, 97, 97, 97, 97, 34, 0] =
    .error .outOfBounds := by rfl

end Pomelo
