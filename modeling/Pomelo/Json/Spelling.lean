import Pomelo.Json.CStrings
import Pomelo.Json.Inside

/-!
# The spellings of a string

A JSON text can write a character in several ways: as its UTF-8 bytes, as a backslash with a
letter, or by its code, which takes two escapes behind the basic plane. `parse_string` makes the
same bytes of all of them.
-/

namespace Pomelo

open Parsing Reader

namespace JsonParser

/-- The number that hexadecimal figures stand for. -/
def hexNumber (figures : Bytes) : Option Nat :=
  figures.foldlM (fun code figure => (hexValue figure).map (code * 16 + ·)) 0

/-- What stands behind a backslash, besides `u`, and the byte that is meant. -/
def shortEscapes : List (UInt8 × UInt8) :=
  [(34, 34), (92, 92), (47, 47), (98, 8), (102, 12), (110, 10), (114, 13), (116, 9)]

/-- A piece of a text that stands between quotes, and the bytes that it means. -/
inductive Spells : Bytes → Bytes → Prop where
  | plain {char : UInt8} (quote : char ≠ 34) (backslash : char ≠ 92) (inside : char ≠ 0) :
      Spells [char] [char]
  | short {name byte : UInt8} (means : (name, byte) ∈ shortEscapes) : Spells [92, name] [byte]
  | code {figures : Bytes} {uc : Nat} (four : figures.length = 4)
      (means : hexNumber figures = some uc) (inside : uc ≠ 0)
      (whole : ¬ (0xD800 ≤ uc ∧ uc ≤ 0xDFFF)) : Spells (92 :: 117 :: figures) (utf8 uc)
  | pair {figures figures' : Bytes} {high low : Nat} (four : figures.length = 4)
      (means : hexNumber figures = some (0xD800 + high)) (few : high < 0x400)
      (four' : figures'.length = 4) (means' : hexNumber figures' = some (0xDC00 + low))
      (few' : low < 0x400) :
      Spells (92 :: 117 :: (figures ++ 92 :: 117 :: figures')) (utf8 (0x10000 + high * 0x400 + low))

/-- A text that stands between quotes, and the bytes that it means. -/
inductive Spelled : Bytes → Bytes → Prop where
  | nil : Spelled [] []
  | append {piece out text bytes : Bytes} (first : Spells piece out) (rest : Spelled text bytes) :
      Spelled (piece ++ text) (out ++ bytes)

/-- Two spelled texts are spelled together. -/
theorem Spelled.join {text bytes text' bytes' : Bytes} (spelled : Spelled text bytes)
    (spelled' : Spelled text' bytes') : Spelled (text ++ text') (bytes ++ bytes') := by
  induction spelled with
  | nil => exact spelled'
  | append first rest ih =>
      rw [List.append_assoc, List.append_assoc]
      exact .append first ih

/-- What has a value is made of hexadecimal figures. -/
theorem isHex_of_hexNumber {figures : Bytes} {code uc : Nat}
    (means : figures.foldlM (fun code figure => (hexValue figure).map (code * 16 + ·)) code = some uc) :
    ∀ figure ∈ figures, (hexValue figure).isSome := by
  induction figures generalizing code with
  | nil => simp
  | cons figure figures ih =>
      rw [List.foldlM_cons, Option.bind_eq_bind, Option.bind_eq_some_iff] at means
      obtain ⟨next, read, means⟩ := means
      obtain ⟨value, isHex, -⟩ := Option.map_eq_some_iff.mp read
      exact List.forall_mem_cons.mpr ⟨Option.isSome_iff_exists.mpr ⟨value, isHex⟩, ih means⟩

/-- Figures are read as the number that they show. -/
theorem parseHex_number {figures : Bytes} {h uc : Nat}
    (means : figures.foldlM (fun code figure => (hexValue figure).map (code * 16 + ·)) h = some uc)
    (behind : Bytes) : parseHex figures.length h (figures ++ behind) = .ok uc := by
  induction figures generalizing h with
  | nil => exact congrArg Except.ok (Option.some.inj means)
  | cons figure figures ih =>
      rw [List.foldlM_cons, Option.bind_eq_bind, Option.bind_eq_some_iff] at means
      obtain ⟨next, read, means⟩ := means
      obtain ⟨value, isHex, rfl⟩ := Option.map_eq_some_iff.mp read
      rw [List.length_cons, List.cons_append, parseHex, isHex]
      dsimp only
      rw [Nat.shiftLeft_eq]
      exact ih means

theorem parseHex4_number {figures : Bytes} {uc : Nat} (four : figures.length = 4)
    (means : hexNumber figures = some uc) (behind : Bytes) :
    parseHex4 (figures ++ behind) = .ok uc := by
  rw [parseHex4, ← four]
  exact parseHex_number means behind

/-- A code point outside of the surrogates is spelled by itself. -/
theorem unicode_code {figures : Bytes} {uc : Nat} (four : figures.length = 4)
    (means : hexNumber figures = some uc) (inside : uc ≠ 0)
    (whole : ¬ (0xD800 ≤ uc ∧ uc ≤ 0xDFFF)) (behind : Bytes) :
    unicode (figures ++ behind) = .ok (utf8 uc, 4) := by
  rw [unicode, parseHex4_number four means, Stop.ok_bind, if_neg (by omega), if_neg (by omega)]
  rfl

/-- The halves of a pair are put together. -/
theorem pair_code {high low : Nat} (few : high < 0x400) (few' : low < 0x400) :
    0x10000 + (((0xD800 + high) &&& 0x3FF) <<< 10 ||| (0xDC00 + low) &&& 0x3FF) =
      0x10000 + high * 0x400 + low := by
  have mask (half base : Nat) (small : half < 0x400) : (base * 0x400 + half) &&& 0x3FF = half := by
    rw [show (0x3FF : Nat) = 2 ^ 10 - 1 from rfl, Nat.and_two_pow_sub_one_eq_mod]
    omega
  rw [show 0xD800 + high = 54 * 0x400 + high from rfl,
    show 0xDC00 + low = 55 * 0x400 + low from rfl, mask _ _ few, mask _ _ few',
    ← Nat.shiftLeft_add_eq_or_of_lt few', Nat.shiftLeft_eq]
  omega

/-- Two surrogates spell one code point. -/
theorem unicode_pair {figures figures' : Bytes} {high low : Nat} (four : figures.length = 4)
    (means : hexNumber figures = some (0xD800 + high)) (few : high < 0x400)
    (four' : figures'.length = 4) (means' : hexNumber figures' = some (0xDC00 + low))
    (few' : low < 0x400) (behind : Bytes) :
    unicode (figures ++ 92 :: 117 :: (figures' ++ behind)) =
      .ok (utf8 (0x10000 + high * 0x400 + low), 10) := by
  have skipped : (figures ++ 92 :: 117 :: (figures' ++ behind)).drop 4 =
      92 :: 117 :: (figures' ++ behind) := by rw [← four, List.drop_left]
  have more : (figures ++ 92 :: 117 :: (figures' ++ behind)).drop 6 = figures' ++ behind := by
    rw [show 6 = 4 + 2 from rfl, ← List.drop_drop, skipped]
    rfl
  have escape : atEscape (92 :: 117 :: (figures' ++ behind)) = .ok true := rfl
  rw [unicode, parseHex4_number four means, Stop.ok_bind, if_neg (by omega), if_pos (by omega),
    skipped, escape, Stop.ok_bind, if_pos rfl, more, parseHex4_number four' means', Stop.ok_bind,
    if_neg (by omega), pair_code few few']
  rfl

/-- A short escape spells one byte. -/
theorem escape_of_short {name byte : UInt8} (means : (name, byte) ∈ shortEscapes) :
    escape name = pure [byte] := by
  simp only [shortEscapes, List.mem_cons, Prod.mk.injEq, List.not_mem_nil, or_false] at means
  rcases means with ⟨rfl, rfl⟩ | ⟨rfl, rfl⟩ | ⟨rfl, rfl⟩ | ⟨rfl, rfl⟩ | ⟨rfl, rfl⟩ | ⟨rfl, rfl⟩ |
    ⟨rfl, rfl⟩ | ⟨rfl, rfl⟩ <;> rfl

variable {text bytes out rest : Bytes}

/-- The piece is read in one pass, whatever follows it. -/
theorem Spells.reads (spells : Spells text out) (behind : Bytes) :
    piece.run (text ++ behind) = .ok (out, behind) := by
  cases spells with
  | plain quote backslash inside => exact piece_plain backslash behind
  | @short name byte means =>
      refine (piece_escape name behind).trans ?_
      rw [escape_of_short means]
      rfl
  | @code figures uc four means inside whole =>
      refine (piece_escape 117 _).trans ?_
      change (escape 117).run (figures ++ behind) = _
      rw [escape_unicode (unicode_code four means inside whole behind)
        (by rw [List.length_append]; omega), ← four, List.drop_left]
  | @pair figures figures' high low four means few four' means' few' =>
      have whole : 92 :: 117 :: (figures ++ 92 :: 117 :: figures') ++ behind =
          92 :: 117 :: (figures ++ 92 :: 117 :: (figures' ++ behind)) := by simp
      have length : (figures ++ [92, 117] ++ figures').length = 10 := by simp [four, four']
      rw [whole]
      refine (piece_escape 117 _).trans ?_
      rw [escape_unicode (unicode_pair four means few four' means' few' behind)
        (by simp [four, four']; omega), ← length]
      have split : figures ++ 92 :: 117 :: (figures' ++ behind) =
          figures ++ [92, 117] ++ figures' ++ behind := by simp
      rw [split, List.drop_left]

/-- A piece does not begin like the end of a string. -/
theorem Spells.head (spells : Spells text out) :
    ∃ char behind, text = char :: behind ∧ ¬ (char = 34 ∨ char = 0) := by
  cases spells with
  | plain quote backslash inside => exact ⟨_, [], rfl, not_or.mpr ⟨quote, inside⟩⟩
  | short => exact ⟨92, _, rfl, by decide⟩
  | code => exact ⟨92, _, rfl, by decide⟩
  | pair => exact ⟨92, _, rfl, by decide⟩

/-- The characters that are counted for a piece are enough for its bytes. -/
theorem Spells.counts (spells : Spells text out) {behind : Bytes} {len : Nat}
    (counted : countChars behind = .ok len) :
    ∃ more, countChars (text ++ behind) = .ok (len + more) ∧ out.length ≤ more ∧
      more ≤ text.length := by
  have escape {figures behind : Bytes} {uc len : Nat} (four : figures.length = 4)
      (means : hexNumber figures = some uc) (counted : countChars behind = .ok len) :
      countChars (92 :: 117 :: (figures ++ behind)) = .ok (len + 5) := by
    rw [countChars_escape (countChars_hex (isHex_of_hexNumber means) counted), four]
  cases spells with
  | plain quote backslash inside =>
      exact ⟨1, countChars_char (not_or.mpr ⟨quote, inside⟩) backslash counted, Nat.le_refl 1,
        Nat.le_refl 1⟩
  | short => exact ⟨1, countChars_escape counted, Nat.le_refl 1, by simp⟩
  | @code figures uc four means inside whole =>
      have few := length_utf8 uc
      exact ⟨5, escape four means counted, by omega, by simp [four]⟩
  | @pair figures figures' high low four means few four' means' few' =>
      have fewBytes := length_utf8 (0x10000 + high * 0x400 + low)
      have whole : 92 :: 117 :: (figures ++ 92 :: 117 :: figures') ++ behind =
          92 :: 117 :: (figures ++ 92 :: 117 :: (figures' ++ behind)) := by simp
      rw [whole]
      exact ⟨10, escape four means (escape four' means' counted), by omega, by simp [four, four']⟩

theorem unescape_spelled (spelled : Spelled text bytes) (rest : Bytes) {passes : Nat}
    (enough : text.length < passes) :
    (unescape passes).run (text ++ 34 :: rest) = .ok (bytes, 34 :: rest) := by
  induction spelled generalizing passes with
  | nil =>
      obtain ⟨passes, rfl⟩ := Nat.exists_eq_add_of_lt enough
      rw [List.nil_append, unescape, run_of_ok (peek_run 34 rest), run_of_ok (peek_run 34 rest),
        if_pos (.inl rfl)]
      rfl
  | @append piece out text bytes first _ ih =>
      obtain ⟨passes, rfl⟩ := Nat.exists_eq_add_of_lt enough
      obtain ⟨char, behind, rfl, inside⟩ := first.head
      have read := first.reads (text ++ 34 :: rest)
      rw [List.append_assoc]
      have start : peek.run (char :: behind ++ (text ++ 34 :: rest)) =
          .ok (char, char :: behind ++ (text ++ 34 :: rest)) := rfl
      rw [unescape, run_of_ok start, run_of_ok start, if_neg inside, run_of_ok read,
        run_of_ok (ih (by rw [List.length_append, List.length_cons]; omega))]
      rfl

/-- The counted length has room for it. -/
theorem countChars_spelled (spelled : Spelled text bytes) (rest : Bytes) :
    ∃ len, countChars (text ++ 34 :: rest) = .ok len ∧ bytes.length ≤ len ∧ len ≤ text.length := by
  induction spelled with
  | nil => exact ⟨0, countChars_end (.inl rfl) rest, Nat.le_refl 0, Nat.le_refl 0⟩
  | append first _ ih =>
      obtain ⟨len, counted, least, most⟩ := ih
      obtain ⟨more, counts, fits, short⟩ := first.counts counted
      rw [List.append_assoc]
      refine ⟨len + more, counts, ?_, ?_⟩ <;> rw [List.length_append] <;> omega

/-- A string is read in any spelling, whatever follows it. -/
theorem parseString_spelled (spelled : Spelled text bytes) (short : text.length + 1 < 2 ^ 31)
    (rest : Bytes) :
    parseString.run (34 :: (text ++ 34 :: rest)) = .ok (.ofBytes bytes, rest) := by
  obtain ⟨len, count, least, most⟩ := countChars_spelled spelled rest
  have room : text.length < (text ++ 34 :: rest).length + 1 := by
    rw [List.length_append]
    omega
  rw [parseString, run_of_ok (expect_self 34 _),
    stringBody_run count (unescape_spelled spelled rest room) ⟨least, by omega⟩ (accept_self 34 rest)]

/-- A byte behind the first one of a character. -/
theorem follow_eq (uc : Nat) : (uc ||| 0x80) &&& 0xBF = uc % 0x40 + 0x80 := by
  have byte : ∀ low < 256, (low ||| 0x80) &&& 0xBF = low % 0x40 + 0x80 := by decide +kernel
  have small : (uc ||| 0x80) &&& 0xBF < 2 ^ 8 := Nat.lt_of_le_of_lt Nat.and_le_right (by decide)
  have low := byte (uc % 2 ^ 8) (Nat.mod_lt _ (by decide))
  rw [← Nat.mod_eq_of_lt small, Nat.and_mod_two_pow, Nat.or_mod_two_pow]
  change (uc % 2 ^ 8 ||| 0x80) &&& 0xBF = _
  rw [low]
  omega

/-- The first byte of a character, with its mark in front of the other bits. -/
theorem mark_eq {bits mark shift : Nat} (few : bits < 2 ^ shift) :
    bits ||| mark <<< shift = bits + mark * 2 ^ shift := by
  rw [Nat.or_comm, ← Nat.shiftLeft_add_eq_or_of_lt few, Nat.shiftLeft_eq, Nat.add_comm]

/-- `parse_string` encodes a code point as UTF-8 does. -/
theorem utf8_char (char : Char) : utf8 char.toNat = String.utf8EncodeChar char := by
  have bound : char.toNat < 0x110000 := by
    rcases char.valid with low | ⟨-, high⟩
    · exact Nat.lt_trans low (by decide)
    · exact high
  have same : char.val.toNat = char.toNat := rfl
  unfold utf8 String.utf8EncodeChar
  simp only [same, follow_eq, Nat.shiftRight_eq_div_pow]
  by_cases one : char.toNat < 0x80
  · rw [if_pos one, if_pos (show char.toNat ≤ 0x7f by omega)]
  rw [if_neg one, if_neg (show ¬ char.toNat ≤ 0x7f by omega)]
  by_cases two : char.toNat < 0x800
  · rw [if_pos two, if_pos (show char.toNat ≤ 0x7ff by omega),
      show (0xC0 : Nat) = 3 <<< 6 from rfl, mark_eq (by omega),
      Nat.mod_eq_of_lt (show char.toNat / 64 < 0x20 by omega)]
    rfl
  rw [if_neg two, if_neg (show ¬ char.toNat ≤ 0x7ff by omega)]
  by_cases three : char.toNat < 0x10000
  · rw [if_pos three, if_pos (show char.toNat ≤ 0xffff by omega),
      show (0xE0 : Nat) = 7 <<< 5 from rfl, mark_eq (by omega),
      Nat.mod_eq_of_lt (show char.toNat / 4096 < 0x10 by omega)]
    rfl
  · rw [if_neg three, if_neg (show ¬ char.toNat ≤ 0xffff by omega),
      show (0xF0 : Nat) = 15 <<< 4 from rfl, mark_eq (by omega),
      Nat.mod_eq_of_lt (show char.toNat / 262144 < 0x08 by omega)]
    rfl

/-- An ASCII character is one byte, and no byte of another character looks like one. -/
theorem bytes_utf8Char {char : Char} :
    ∀ byte ∈ String.utf8EncodeChar char, byte.toNat = char.toNat ∨ 128 ≤ byte.toNat := by
  have same : char.val.toNat = char.toNat := rfl
  unfold String.utf8EncodeChar
  simp only [same]
  intro byte member
  split at member
  next one =>
    left
    rw [List.mem_singleton.mp member, UInt8.toNat_ofNat']
    omega
  next =>
    right
    split at member
    · simp only [List.mem_cons, List.not_mem_nil, or_false] at member
      rcases member with rfl | rfl <;> rw [UInt8.toNat_ofNat'] <;> omega
    split at member
    · simp only [List.mem_cons, List.not_mem_nil, or_false] at member
      rcases member with rfl | rfl | rfl <;> rw [UInt8.toNat_ofNat'] <;> omega
    · simp only [List.mem_cons, List.not_mem_nil, or_false] at member
      rcases member with rfl | rfl | rfl | rfl <;> rw [UInt8.toNat_ofNat'] <;> omega

/-- A way to write a character between quotes. -/
inductive CharSpells (char : Char) : Bytes → Prop where
  | plain (quote : char.toNat ≠ 34) (backslash : char.toNat ≠ 92) (inside : char.toNat ≠ 0) :
      CharSpells char (String.utf8EncodeChar char)
  | short {name byte : UInt8} (means : (name, byte) ∈ shortEscapes)
      (same : byte.toNat = char.toNat) : CharSpells char [92, name]
  | code {figures : Bytes} (four : figures.length = 4)
      (means : hexNumber figures = some char.toNat) (inside : char.toNat ≠ 0) :
      CharSpells char (92 :: 117 :: figures)
  | pair {figures figures' : Bytes} {high low : Nat} (four : figures.length = 4)
      (means : hexNumber figures = some (0xD800 + high)) (few : high < 0x400)
      (four' : figures'.length = 4) (means' : hexNumber figures' = some (0xDC00 + low))
      (few' : low < 0x400) (same : 0x10000 + high * 0x400 + low = char.toNat) :
      CharSpells char (92 :: 117 :: (figures ++ 92 :: 117 :: figures'))

/-- A way to write some characters between quotes. -/
inductive Written : List Char → Bytes → Prop where
  | nil : Written [] []
  | cons {char : Char} {chars : List Char} {piece text : Bytes} (first : CharSpells char piece)
      (rest : Written chars text) : Written (char :: chars) (piece ++ text)

/-- One spelled piece is a spelled text. -/
theorem Spells.spelled (spells : Spells text out) : Spelled text out := by
  have alone := Spelled.append spells .nil
  rwa [List.append_nil, List.append_nil] at alone

/-- Letters that need no escape spell themselves. -/
theorem spelled_plain (plain : ∀ byte ∈ bytes, byte ≠ 34 ∧ byte ≠ 92 ∧ byte ≠ 0) :
    Spelled bytes bytes := by
  induction bytes with
  | nil => exact .nil
  | cons byte bytes ih =>
      obtain ⟨⟨quote, backslash, inside⟩, others⟩ := List.forall_mem_cons.mp plain
      exact .append (.plain quote backslash inside) (ih others)

variable {char : Char} {chars : List Char}

/-- A character is spelled by its bytes in UTF-8. -/
theorem CharSpells.spelled (spells : CharSpells char text) :
    Spelled text (String.utf8EncodeChar char) := by
  cases spells with
  | plain quote backslash inside =>
      apply spelled_plain
      intro byte member
      have value := bytes_utf8Char byte member
      refine ⟨?_, ?_, ?_⟩
      · rintro rfl
        exact value.elim (fun same => quote same.symm) (by decide)
      · rintro rfl
        exact value.elim (fun same => backslash same.symm) (by decide)
      · rintro rfl
        exact value.elim (fun same => inside same.symm) (by decide)
  | @short name byte means same =>
      have small : byte.toNat < 0x80 := by
        have all : ∀ pair ∈ shortEscapes, pair.2.toNat < 0x80 := by simp [shortEscapes]
        exact all _ means
      have alone : String.utf8EncodeChar char = [byte] := by
        rw [← utf8_char, utf8, if_pos (same ▸ small), ← same, UInt8.ofNat_toNat]
      rw [alone]
      exact Spells.spelled (.short means)
  | code four means inside =>
      have whole : ¬ (0xD800 ≤ char.toNat ∧ char.toNat ≤ 0xDFFF) := by
        have valid : char.toNat < 0xD800 ∨ 0xDFFF < char.toNat ∧ char.toNat < 0x110000 := char.valid
        omega
      rw [← utf8_char]
      exact Spells.spelled (.code four means inside whole)
  | pair four means few four' means' few' same =>
      rw [← utf8_char, ← same]
      exact Spells.spelled (.pair four means few four' means' few')

/-- No spelling is there for the terminator. -/
theorem CharSpells.inside (spells : CharSpells char text) : char.toNat ≠ 0 := by
  cases spells with
  | plain _ _ inside => exact inside
  | short means same =>
      have all : ∀ pair ∈ shortEscapes, pair.2.toNat ≠ 0 := by simp [shortEscapes]
      exact same ▸ all _ means
  | code _ _ inside => exact inside
  | pair _ _ _ _ _ _ same => omega

/-- What is written spells the bytes of its characters. -/
theorem Written.spelled (written : Written chars text) :
    Spelled text (chars.flatMap String.utf8EncodeChar) := by
  induction written with
  | nil => exact .nil
  | cons first _ ih => exact first.spelled.join ih

/-- A C string can hold the characters. -/
theorem Written.inside (written : Written chars text) :
    ∀ byte ∈ chars.flatMap String.utf8EncodeChar, byte ≠ 0 := by
  induction written with
  | nil => simp
  | cons first _ ih =>
      simp only [List.flatMap_cons, List.forall_mem_append]
      refine ⟨fun byte member => ?_, ih⟩
      rintro rfl
      exact (bytes_utf8Char 0 member).elim (fun same => first.inside same.symm) (by decide)

end JsonParser

open JsonParser

/-- **Spellings.** A string is read as the UTF-8 bytes of its characters, however they are
written. -/
theorem pcJSONParseText_written {pow : Codec.Double → Codec.Double → Codec.Double}
    {chars : List Char} {text : Bytes} (written : Written chars text)
    (short : text.length + 1 < 2 ^ 31) (rest : Bytes) :
    ∃ string : CStr, string.bytes = chars.flatMap String.utf8EncodeChar ∧
      pcJSONParseText pow (34 :: (text ++ 34 :: rest)) = .ok (.string string, rest) := by
  refine ⟨.ofBytes (chars.flatMap String.utf8EncodeChar), ?_, ?_⟩
  · apply List.takeWhile_eq_self_iff.mpr
    intro byte member
    exact decide_eq_true (written.inside byte member)
  · have read := parseString_spelled written.spelled short rest
    have start : skip.run (34 :: (text ++ 34 :: rest)) = .ok ((), 34 :: (text ++ 34 :: rest)) := by
      rw [skip_run, skipSpace, if_neg (by decide)]
      rfl
    rw [pcJSONParseText, run_of_ok start, parseValue_cons, valueAt, if_neg (by decide),
      if_neg (by decide), if_neg (by decide), if_pos rfl, run_of_ok read]
    rfl

/-- A letter by its code, a character of two escapes, an escaped quote and a plain letter. -/
theorem pcJSONParseText_written_sample :
    ∃ string : CStr, string.bytes = ['é', '😀', '"', 'a'].flatMap String.utf8EncodeChar ∧
      pcJSONParseText (fun base _ => base)
        [34, 92, 117, 48, 48, 69, 57, 92, 117, 100, 56, 51, 100, 92, 117, 68, 69, 48, 48, 92, 34,
          97, 34, 0] = .ok (.string string, [0]) :=
  pcJSONParseText_written
    (.cons (@CharSpells.code 'é' [48, 48, 69, 57] rfl (by decide) (by decide)) <|
      .cons (@CharSpells.pair '😀' [100, 56, 51, 100] [68, 69, 48, 48] 0x3D 0x200 rfl (by decide)
        (by decide) rfl (by decide) (by decide) (by decide)) <|
      .cons (.short (.head _) (by decide)) <|
      .cons (.plain (by decide) (by decide) (by decide)) .nil) (by decide) [0]

end Pomelo
