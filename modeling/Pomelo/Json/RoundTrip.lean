import Pomelo.Json.Numerals
import Pomelo.Json.Spelling

/-!
# The round trip of the JSON printer and parser

`pc_JSON_Parse` reads back what `pc_JSON_PrintUnformatted` has written, if all numbers are
integers of at most 53 bits: the same tree, with the bytes of its strings, the order of its
members and equal keys as they are, and the pointer is right behind the text.
-/

namespace Pomelo

open Codec (Double)
open Parsing Reader

/-- The bytes of a string as they are printed, without the quotes. -/
def printedBytes (bytes : Bytes) : Bytes := bytes.flatMap fun token => (printChar token).bytes

/-- A printed string is its printed letters within marks. -/
theorem bytes_printStringPtr (str : CStr) :
    (printStringPtr str).bytes = 34 :: (printedBytes str.bytes ++ [34]) := by
  have quote : (CStr.ofString "\"").bytes = [34] := by decide
  have letters (bytes : Bytes) : (bytes.foldr (fun token rest => (printChar token).append rest)
      (CStr.ofString "")).bytes = printedBytes bytes := by
    induction bytes with
    | nil => decide
    | cons token bytes ih =>
        rw [List.foldr_cons, CStr.bytes_append, ih]
        rfl
  rw [printStringPtr, CStr.bytes_append, CStr.bytes_append, quote, letters]
  rfl

theorem CStr.bytes_single {byte : UInt8} (inside : byte ≠ 0) : (CStr.ofBytes [byte]).bytes = [byte] :=
  List.takeWhile_eq_self_iff.mpr fun other member => by
    rw [List.mem_singleton.mp member]
    exact decide_eq_true inside

namespace JsonParser

/-- A printed hexadecimal digit has its value. -/
theorem hexValue_hexDigit {digit : Nat} (small : digit < 16) :
    hexValue (printChar.hexDigit (.ofNat digit)) = some digit := by
  have all : ∀ digit < 16, hexValue (printChar.hexDigit (.ofNat digit)) = some digit := by decide
  exact all digit small

/-- The code of a control is a spelling of it. -/
theorem spells_code {token : UInt8} (letter : token ≠ 0) (small : token.toNat < 32) :
    Spells [92, 117, 48, 48, printChar.hexDigit (.ofNat (token.toNat / 16)),
      printChar.hexDigit (.ofNat (token.toNat % 16))] [token] := by
  have zero : hexValue 48 = some 0 := by decide
  have inside : token.toNat ≠ 0 := fun same => letter (UInt8.toNat_inj.mp same)
  have means : hexNumber [48, 48, printChar.hexDigit (.ofNat (token.toNat / 16)),
      printChar.hexDigit (.ofNat (token.toNat % 16))] = some token.toNat := by
    simp only [hexNumber, List.foldlM_cons, List.foldlM_nil, zero, Option.map_some, Option.pure_def,
      Option.bind_eq_bind, Option.bind_some, hexValue_hexDigit (show token.toNat / 16 < 16 by omega),
      hexValue_hexDigit (show token.toNat % 16 < 16 by omega), Option.some.injEq]
    omega
  have written : utf8 token.toNat = [token] := by
    rw [utf8, if_pos (by omega), UInt8.ofNat_toNat]
  rw [← written]
  exact .code rfl means inside (by omega)

/-- A character is printed as itself, by a letter behind a backslash, or by its code. -/
theorem spells_printChar {token : UInt8} (letter : token ≠ 0) :
    Spells (printChar token).bytes [token] := by
  have named {name byte : UInt8} {text : CStr} (spelled : text.bytes = [92, name])
      (means : (name, byte) ∈ shortEscapes) : Spells text.bytes [byte] :=
    spelled ▸ .short means
  rw [printChar]
  by_cases plain : token > 31 ∧ token ≠ 34 ∧ token ≠ 92
  · rw [if_pos plain]
    rw [CStr.bytes_single letter]
    exact .plain plain.2.1 plain.2.2 letter
  rw [if_neg plain]
  by_cases backslash : token = 92
  · rw [if_pos backslash, backslash]
    exact named (show _ = [92, 92] by decide) (by simp [shortEscapes])
  rw [if_neg backslash]
  by_cases quote : token = 34
  · rw [if_pos quote, quote]
    exact named (show _ = [92, 34] by decide) (by simp [shortEscapes])
  rw [if_neg quote]
  by_cases back : token = 8
  · rw [if_pos back, back]
    exact named (show _ = [92, 98] by decide) (by simp [shortEscapes])
  rw [if_neg back]
  by_cases feed : token = 12
  · rw [if_pos feed, feed]
    exact named (show _ = [92, 102] by decide) (by simp [shortEscapes])
  rw [if_neg feed]
  by_cases line : token = 10
  · rw [if_pos line, line]
    exact named (show _ = [92, 110] by decide) (by simp [shortEscapes])
  rw [if_neg line]
  by_cases carriage : token = 13
  · rw [if_pos carriage, carriage]
    exact named (show _ = [92, 114] by decide) (by simp [shortEscapes])
  rw [if_neg carriage]
  by_cases tab : token = 9
  · rw [if_pos tab, tab]
    exact named (show _ = [92, 116] by decide) (by simp [shortEscapes])
  rw [if_neg tab]
  have small : token.toNat < 32 := by
    by_contra large
    refine plain ⟨UInt8.lt_iff_toNat_lt.mpr ?_, quote, backslash⟩
    have bound : (31 : UInt8).toNat = 31 := rfl
    omega
  have digit : ∀ value < 16, printChar.hexDigit (.ofNat value) ≠ 0 := by decide
  have high : token / 16 = .ofNat (token.toNat / 16) := by
    refine UInt8.toNat_inj.mp ?_
    rw [UInt8.toNat_div, UInt8.toNat_ofNat']
    exact (Nat.mod_eq_of_lt (show token.toNat / 16 < 2 ^ 8 by omega)).symm
  have low : token % 16 = .ofNat (token.toNat % 16) := by
    refine UInt8.toNat_inj.mp ?_
    rw [UInt8.toNat_mod, UInt8.toNat_ofNat']
    exact (Nat.mod_eq_of_lt (show token.toNat % 16 < 2 ^ 8 by omega)).symm
  have start : (CStr.ofString "\\u00").bytes = [92, 117, 48, 48] := by decide
  rw [CStr.bytes_append, CStr.bytes_append, start, high, low,
    CStr.bytes_single (digit _ (by omega)), CStr.bytes_single (digit _ (by omega))]
  exact spells_code letter small

/-- The printed letters of a string spell it. -/
theorem spelled_printed {bytes : Bytes} (letters : 0 ∉ bytes) : Spelled (printedBytes bytes) bytes := by
  induction bytes with
  | nil => exact .nil
  | cons token bytes ih =>
      rw [List.mem_cons, not_or] at letters
      rw [printedBytes, List.flatMap_cons]
      exact .append (spells_printChar (Ne.symm letters.1)) (ih letters.2)

/-- A string is read back, whatever follows it. -/
theorem parseString_printed {str : CStr} (short : (printStringPtr str).length < 2 ^ 31)
    (rest : Bytes) :
    parseString.run ((printStringPtr str).bytes ++ rest) = .ok (str, rest) := by
  rw [CStr.length, bytes_printStringPtr, List.length_cons, List.length_append,
    List.length_singleton] at short
  rw [bytes_printStringPtr, List.cons_append, List.append_assoc]
  refine (parseString_spelled (spelled_printed str.noZero) (by omega) rest).trans ?_
  rw [CStr.ofBytes_bytes]

end JsonParser

open JsonParser

mutual

/-- All numbers are integers of at most 53 bits. -/
def Json.whole : Json → Bool
  | .number valuedouble => valuedouble.isWhole
  | .array items => itemsWhole items
  | .object fields => fieldsWhole fields
  | _ => Bool.true
termination_by structural json => json

def itemsWhole : List Json → Bool
  | [] => true
  | item :: items => item.whole && itemsWhole items
termination_by structural items => items

def fieldsWhole : List (CStr × Json) → Bool
  | [] => true
  | field :: fields => fieldWhole field && fieldsWhole fields
termination_by structural fields => fields

def fieldWhole : CStr × Json → Bool
  | (_, value) => value.whole
termination_by structural field => field

end

/-- An array is whole if its items are. -/
theorem itemsWhole_iff {items : List Json} :
    itemsWhole items = true ↔ ∀ item ∈ items, item.whole = true := by
  induction items with
  | nil => simp [itemsWhole]
  | cons item items ih => rw [itemsWhole, Bool.and_eq_true, ih, List.forall_mem_cons]

/-- An object is whole if the values of its fields are. -/
theorem fieldsWhole_iff {fields : List (CStr × Json)} :
    fieldsWhole fields = true ↔ ∀ field ∈ fields, field.2.whole = true := by
  induction fields with
  | nil => simp [fieldsWhole]
  | cons field fields ih =>
      obtain ⟨key, value⟩ := field
      rw [fieldsWhole, fieldWhole, Bool.and_eq_true, ih, List.forall_mem_cons]

/-- What follows a value lets the parser find its end: behind a number there is a byte that does
not go on with it. -/
def Json.endsAt : Json → Bytes → Bool
  | .number _, [] => Bool.false
  | .number _, char :: _ => endsNumeral char
  | _, _ => Bool.true

/-- A byte that is neither white space nor the end of an array. -/
def visible (char : UInt8) : Bool := 32 < char && char ≠ 93

variable {pow : Double → Double → Double}

/-- The parser reads a value back from its text, if an `int` counts its bytes, and with more fuel
than the text has bytes. -/
def ReadBack (pow : Double → Double → Double) (json : Json) : Prop :=
  ∀ ⦃fuel : Nat⦄ ⦃rest : Bytes⦄, (printValue json).length < fuel →
    (printValue json).length < 2 ^ 31 → json.endsAt rest = true →
      (parseValue pow fuel).run ((printValue json).bytes ++ rest) = .ok (json, rest)

/-- A text begins with a byte that is not skipped. -/
def BeginsVisibly (text : CStr) : Prop := ∃ char behind, text.bytes = char :: behind ∧ visible char

/-- The text of an integer begins with its sign or with a digit. -/
theorem signedDecimal_cons (value : Int) :
    ∃ char behind, (CStr.signedDecimal value).bytes = char :: behind ∧
      (char = 45 ∨ isDigit char = true) := by
  rw [CStr.signedDecimal]
  by_cases negative : value < 0
  · have minus : (CStr.ofString "-").bytes = [45] := by decide
    refine ⟨45, (CStr.decimal value.natAbs).bytes, ?_, .inl rfl⟩
    rw [CStr.bytes_append, if_pos negative, minus]
    rfl
  · have none : (CStr.ofString "").bytes = [] := by decide
    obtain ⟨figure, figures, starts, -⟩ := CStr.decimal_cons value.natAbs
    have digit := CStr.isDigit_decimal value.natAbs figure (by rw [starts]; exact List.mem_cons_self ..)
    refine ⟨figure, figures, ?_, .inr digit⟩
    rw [CStr.bytes_append, if_neg negative, none, starts]
    rfl

/-- The digits are among the characters from 48 to 57. -/
theorem isDigit_iff {char : UInt8} : isDigit char = true ↔ 48 ≤ char.toNat ∧ char.toNat ≤ 57 := by
  rw [isDigit, Bool.and_eq_true, decide_eq_true_eq, decide_eq_true_eq]
  exact and_congr UInt8.le_iff_toNat_le UInt8.le_iff_toNat_le

/-- A number begins with a letter that is no white space. -/
theorem beginsVisibly_signedDecimal (value : Int) : BeginsVisibly (.signedDecimal value) := by
  obtain ⟨char, behind, starts, kind⟩ := signedDecimal_cons value
  refine ⟨char, behind, starts, ?_⟩
  rcases kind with rfl | digit
  · decide
  · rw [isDigit_iff] at digit
    rw [visible, Bool.and_eq_true, decide_eq_true_eq, decide_eq_true_eq, UInt8.lt_iff_toNat_lt]
    refine ⟨Nat.lt_of_lt_of_le (by decide) digit.1, ?_⟩
    rintro rfl
    exact absurd digit.2 (by decide)

/-- So does the text of every value. -/
theorem beginsVisibly_printValue {json : Json} (whole : json.whole = true) :
    BeginsVisibly (printValue json) := by
  cases json with
  | null => exact ⟨110, [117, 108, 108], by decide, by decide⟩
  | false => exact ⟨102, [97, 108, 115, 101], by decide, by decide⟩
  | true => exact ⟨116, [114, 117, 101], by decide, by decide⟩
  | number valuedouble =>
      obtain ⟨value, bound, rfl⟩ := Double.isWhole_iff.mp whole
      have printed : printValue (.number (.ofInt value)) = printNumber (.ofInt value) := rfl
      rw [printed, printNumber_ofInt bound]
      exact beginsVisibly_signedDecimal value
  | string text =>
      have printed : printValue (.string text) = printStringPtr text := rfl
      rw [printed]
      exact ⟨34, _, bytes_printStringPtr text, by decide⟩
  | array items =>
      have opening : (CStr.ofString "[").bytes = [91] := by decide
      refine ⟨91, ((printItems (.ofString "") items).append (.ofString "]")).bytes, ?_, by decide⟩
      rw [printValue, CStr.bytes_append, opening, List.singleton_append]
  | object fields =>
      have opening : (CStr.ofString "\x7b").bytes = [123] := by decide
      refine ⟨123, ((printFields (.ofString "") fields).append (.ofString "\x7d")).bytes, ?_,
        by decide⟩
      rw [printValue, CStr.bytes_append, opening, List.singleton_append]

/-- Nothing is skipped in front of such a byte. -/
theorem skip_visible {char : UInt8} (seen : visible char = true ∨ char = 93) (rest : Bytes) :
    skip.run (char :: rest) = .ok ((), char :: rest) := by
  have large : ¬ (char ≠ 0 ∧ char ≤ 32) := by
    rintro ⟨-, small⟩
    rcases seen with seen | rfl
    · rw [visible, Bool.and_eq_true, decide_eq_true_eq] at seen
      exact absurd seen.1 (UInt8.not_lt.mpr small)
    · exact absurd small (by decide)
  rw [skip_run, skipSpace, if_neg large]
  rfl

theorem skip_text {text : CStr} (begins : BeginsVisibly text) (rest : Bytes) :
    skip.run (text.bytes ++ rest) = .ok ((), text.bytes ++ rest) := by
  obtain ⟨char, behind, starts, seen⟩ := begins
  rw [starts, List.cons_append]
  exact skip_visible (.inl seen) _

/-- What ends a numeral ends any value. -/
theorem endsAt_of_endsNumeral (json : Json) {char : UInt8} (ends : endsNumeral char = true)
    (rest : Bytes) : json.endsAt (char :: rest) = true := by
  cases json <;> first | rfl | exact ends

/-- A further item stands behind a comma. -/
theorem bytes_printItems (item : Json) (items : List Json) :
    (printItems (.ofString ",") (item :: items)).bytes =
      44 :: ((printValue item).bytes ++ (printItems (.ofString ",") items).bytes) := by
  have comma : (CStr.ofString ",").bytes = [44] := by decide
  rw [printItems, CStr.bytes_append, CStr.bytes_append, comma]
  rfl

/-- Behind an item there is a comma or the end of the array. -/
theorem follows_printItems (items : List Json) (rest : Bytes) :
    ∃ char behind, (printItems (.ofString ",") items).bytes ++ 93 :: rest = char :: behind ∧
      (visible char = true ∨ char = 93) ∧ endsNumeral char = true := by
  cases items with
  | nil =>
      have none : (printItems (.ofString ",") []).bytes = [] := by decide
      exact ⟨93, rest, by rw [none, List.nil_append], .inr rfl, by decide⟩
  | cons item items =>
      rw [bytes_printItems]
      exact ⟨44, _, rfl, .inl (by decide), by decide⟩

/-- One item, with what the loop skips behind it. -/
theorem readItem {json : Json} (reads : ReadBack pow json) {fuel : Nat}
    (fits : (printValue json).length < fuel) (short : (printValue json).length < 2 ^ 31)
    (items : List Json) (rest : Bytes) {α : Type}
    (next : Json → JsonParser α) :
    (do let item ← parseValue pow fuel; skip; next item : JsonParser α).run
        ((printValue json).bytes ++ ((printItems (.ofString ",") items).bytes ++ 93 :: rest)) =
      (next json).run ((printItems (.ofString ",") items).bytes ++ 93 :: rest) := by
  obtain ⟨char, behind, follows, seen, ends⟩ := follows_printItems items rest
  rw [follows, run_of_ok (reads fits short (endsAt_of_endsNumeral json ends behind)),
    run_of_ok (skip_visible seen behind)]

/-- The items that were printed behind the first one are read back. -/
theorem parseItems_printed {items : List Json} (whole : itemsWhole items = true)
    (reads : ∀ item ∈ items, ReadBack pow item) {fuel passes : Nat}
    (fits : (printItems (.ofString ",") items).length < fuel)
    (short : (printItems (.ofString ",") items).length < 2 ^ 31) (enough : items.length < passes)
    (rest : Bytes) :
    (parseItems (parseValue pow fuel) passes).run
        ((printItems (.ofString ",") items).bytes ++ 93 :: rest) = .ok (items, 93 :: rest) := by
  induction items generalizing passes with
  | nil =>
      obtain ⟨passes, rfl⟩ := Nat.exists_eq_add_of_lt enough
      have none : (printItems (.ofString ",") []).bytes = [] := by decide
      rw [none, List.nil_append, parseItems, run_of_ok (accept_other (by decide) rest),
        if_neg Bool.false_ne_true]
      rfl
  | cons item items ih =>
      rw [itemsWhole, Bool.and_eq_true] at whole
      obtain ⟨here, there⟩ := List.forall_mem_cons.mp reads
      obtain ⟨passes, rfl⟩ := Nat.exists_eq_add_of_lt enough
      rw [length_printItems_cons] at fits short
      rw [bytes_printItems, List.cons_append, List.append_assoc, parseItems,
        run_of_ok (accept_self 44 _), if_pos rfl,
        run_of_ok (skip_text (beginsVisibly_printValue whole.1) _),
        readItem here (by omega) (by omega), run_of_ok (ih whole.2 there (by omega) (by omega) (by
          rw [List.length_cons]
          omega))]
      rfl

/-- There are no more items than letters. -/
theorem length_le_printItems (items : List Json) :
    items.length ≤ (printItems (.ofString ",") items).length := by
  induction items with
  | nil => exact Nat.zero_le _
  | cons item items ih =>
      rw [length_printItems_cons, List.length_cons]
      omega

/-- An array is read back if its items are. -/
theorem readBack_array {items : List Json} (whole : itemsWhole items = true)
    (reads : ∀ item ∈ items, ReadBack pow item) : ReadBack pow (.array items) := by
  intro fuel rest fits short _
  obtain ⟨fuel, rfl⟩ := Nat.exists_eq_add_of_lt fits
  rw [length_printValue_array] at *
  have opening : (CStr.ofString "[").bytes = [91] := by decide
  have closing : (CStr.ofString "]").bytes = [93] := by decide
  have text : (printValue (.array items)).bytes ++ rest =
      91 :: ((printItems (.ofString "") items).bytes ++ 93 :: rest) := by
    rw [printValue, CStr.bytes_append, CStr.bytes_append, opening, closing, List.append_assoc,
      List.append_assoc]
    rfl
  rw [text, parseValue_cons]
  change (parseArray (parseValue pow _) _).run _ = _
  rw [parseArray, run_of_ok (expect_self 91 _)]
  cases items with
  | nil =>
      have none : (printItems (.ofString "") []).bytes = [] := by decide
      rw [none, List.nil_append, run_of_ok (skip_visible (.inr rfl) rest),
        run_of_ok (accept_self 93 rest), if_pos rfl]
      rfl
  | cons item items =>
      have none : (CStr.ofString "").bytes = [] := by decide
      have entries : (printItems (.ofString "") (item :: items)).bytes ++ 93 :: rest =
          (printValue item).bytes ++ ((printItems (.ofString ",") items).bytes ++ 93 :: rest) := by
        rw [printItems, CStr.bytes_append, CStr.bytes_append, none, List.nil_append,
          List.append_assoc]
      have size : (printItems (.ofString "") (item :: items)).length =
          (printValue item).length + (printItems (.ofString ",") items).length := by
        rw [printItems, CStr.length_append, CStr.length_append]
        exact Nat.zero_add _
      rw [itemsWhole, Bool.and_eq_true] at whole
      obtain ⟨here, there⟩ := List.forall_mem_cons.mp reads
      obtain ⟨char, behind, starts, seen⟩ := beginsVisibly_printValue whole.1
      have other : char ≠ 93 := by
        rintro rfl
        exact absurd seen (by decide)
      have few := length_le_printItems items
      rw [entries, run_of_ok (skip_text (beginsVisibly_printValue whole.1) _), starts,
        List.cons_append, run_of_ok (accept_other other _), if_neg Bool.false_ne_true,
        ← List.cons_append, ← starts, run_of_ok (skip_text (beginsVisibly_printValue whole.1) _),
        readItem here (by omega) (by omega),
        run_of_ok (parseItems_printed whole.2 there (by omega) (by omega) (by omega) rest),
        run_of_ok (expect_self 93 rest)]
      rfl

/-- A further field stands behind a comma. -/
theorem bytes_printFields (field : CStr × Json) (fields : List (CStr × Json)) :
    (printFields (.ofString ",") (field :: fields)).bytes =
      44 :: ((printField field).bytes ++ (printFields (.ofString ",") fields).bytes) := by
  have comma : (CStr.ofString ",").bytes = [44] := by decide
  rw [printFields, CStr.bytes_append, CStr.bytes_append, comma]
  rfl

/-- Behind a value another field follows, or the brace. -/
theorem follows_printFields (fields : List (CStr × Json)) (rest : Bytes) :
    ∃ char behind, (printFields (.ofString ",") fields).bytes ++ 125 :: rest = char :: behind ∧
      visible char = true ∧ endsNumeral char = true := by
  cases fields with
  | nil =>
      have none : (printFields (.ofString ",") []).bytes = [] := by decide
      exact ⟨125, rest, by rw [none, List.nil_append], by decide, by decide⟩
  | cons field fields =>
      rw [bytes_printFields]
      exact ⟨44, _, rfl, by decide, by decide⟩

/-- A member is read back, in front of the next one or the end of the object. -/
theorem parseMember_printed {field : CStr × Json} (whole : field.2.whole = true)
    (reads : ReadBack pow field.2) {fuel : Nat} (fits : (printField field).length < fuel)
    (short : (printField field).length < 2 ^ 31) {char : UInt8} (seen : visible char = true)
    (ends : endsNumeral char = true) (behind : Bytes) :
    (parseMember (parseValue pow fuel)).run ((printField field).bytes ++ char :: behind) =
      .ok (field, char :: behind) := by
  obtain ⟨key, value⟩ := field
  rw [length_printField] at fits short
  have colon : (CStr.ofString ":").bytes = [58] := by decide
  have text : (printField (key, value)).bytes ++ char :: behind =
      (printStringPtr key).bytes ++ (58 :: ((printValue value).bytes ++ char :: behind)) := by
    rw [printField, CStr.bytes_append, CStr.bytes_append, colon, List.append_assoc]
    rfl
  have quoted : BeginsVisibly (printStringPtr key) := ⟨34, _, bytes_printStringPtr key, by decide⟩
  rw [text, parseMember, run_of_ok (skip_text quoted _),
    run_of_ok (parseString_printed (by omega) _), run_of_ok (skip_visible (.inl (by decide)) _),
    run_of_ok (expect_self 58 _), run_of_ok (skip_text (beginsVisibly_printValue whole) _),
    run_of_ok (reads (show (printValue value).length < fuel by omega)
      (show (printValue value).length < 2 ^ 31 by omega) (endsAt_of_endsNumeral value ends behind)),
    run_of_ok (skip_visible (.inl seen) behind)]
  rfl

/-- The fields that were printed behind the first one are read back. -/
theorem parseMembers_printed {fields : List (CStr × Json)} (whole : fieldsWhole fields = true)
    (reads : ∀ field ∈ fields, ReadBack pow field.2) {fuel passes : Nat}
    (fits : (printFields (.ofString ",") fields).length < fuel)
    (short : (printFields (.ofString ",") fields).length < 2 ^ 31) (enough : fields.length < passes)
    (rest : Bytes) :
    (parseMembers (parseValue pow fuel) passes).run
        ((printFields (.ofString ",") fields).bytes ++ 125 :: rest) = .ok (fields, 125 :: rest) := by
  induction fields generalizing passes with
  | nil =>
      obtain ⟨passes, rfl⟩ := Nat.exists_eq_add_of_lt enough
      have none : (printFields (.ofString ",") []).bytes = [] := by decide
      rw [none, List.nil_append, parseMembers, run_of_ok (accept_other (by decide) rest),
        if_neg Bool.false_ne_true]
      rfl
  | cons field fields ih =>
      have first := fieldsWhole_iff.mp whole field (List.mem_cons_self ..)
      rw [fieldsWhole, Bool.and_eq_true] at whole
      obtain ⟨here, there⟩ := List.forall_mem_cons.mp reads
      obtain ⟨passes, rfl⟩ := Nat.exists_eq_add_of_lt enough
      obtain ⟨char, behind, follows, seen, ends⟩ := follows_printFields fields rest
      rw [length_printFields_cons] at fits short
      have again := ih whole.2 there (by omega) (by omega) (show fields.length <
        (field :: fields).length + passes by
          rw [List.length_cons]
          omega)
      rw [follows] at again
      rw [bytes_printFields, List.cons_append, List.append_assoc, follows, parseMembers,
        run_of_ok (accept_self 44 _), if_pos rfl,
        run_of_ok (parseMember_printed first here (by omega) (by omega) seen ends behind),
        run_of_ok again]
      rfl

/-- A member begins with the quote of its key. -/
theorem printField_cons (field : CStr × Json) :
    ∃ behind, (printField field).bytes = 34 :: behind := by
  obtain ⟨key, value⟩ := field
  refine ⟨printedBytes key.bytes ++ [34] ++ ((CStr.ofString ":").append (printValue value)).bytes, ?_⟩
  rw [printField, CStr.bytes_append, bytes_printStringPtr, List.cons_append]

/-- There are no more fields than letters. -/
theorem length_le_printFields (fields : List (CStr × Json)) :
    fields.length ≤ (printFields (.ofString ",") fields).length := by
  induction fields with
  | nil => exact Nat.zero_le _
  | cons field fields ih =>
      rw [length_printFields_cons, List.length_cons]
      omega

/-- An object is read back if the values of its fields are. -/
theorem readBack_object {fields : List (CStr × Json)} (whole : fieldsWhole fields = true)
    (reads : ∀ field ∈ fields, ReadBack pow field.2) : ReadBack pow (.object fields) := by
  intro fuel rest fits short _
  obtain ⟨fuel, rfl⟩ := Nat.exists_eq_add_of_lt fits
  rw [length_printValue_object] at *
  have opening : (CStr.ofString "\x7b").bytes = [123] := by decide
  have closing : (CStr.ofString "\x7d").bytes = [125] := by decide
  have text : (printValue (.object fields)).bytes ++ rest =
      123 :: ((printFields (.ofString "") fields).bytes ++ 125 :: rest) := by
    rw [printValue, CStr.bytes_append, CStr.bytes_append, opening, closing, List.append_assoc,
      List.append_assoc]
    rfl
  rw [text, parseValue_cons]
  change (parseObject (parseValue pow _) _).run _ = _
  rw [parseObject, run_of_ok (expect_self 123 _)]
  cases fields with
  | nil =>
      have none : (printFields (.ofString "") []).bytes = [] := by decide
      rw [none, List.nil_append, run_of_ok (skip_visible (.inl (by decide)) rest),
        run_of_ok (accept_self 125 rest), if_pos rfl]
      rfl
  | cons field fields =>
      have none : (CStr.ofString "").bytes = [] := by decide
      have entries : (printFields (.ofString "") (field :: fields)).bytes ++ 125 :: rest =
          (printField field).bytes ++ ((printFields (.ofString ",") fields).bytes ++ 125 :: rest) := by
        rw [printFields, CStr.bytes_append, CStr.bytes_append, none, List.nil_append,
          List.append_assoc]
      have size : (printFields (.ofString "") (field :: fields)).length =
          (printField field).length + (printFields (.ofString ",") fields).length := by
        rw [printFields, CStr.length_append, CStr.length_append]
        exact Nat.zero_add _
      have first := fieldsWhole_iff.mp whole field (List.mem_cons_self ..)
      rw [fieldsWhole, Bool.and_eq_true] at whole
      obtain ⟨here, there⟩ := List.forall_mem_cons.mp reads
      obtain ⟨char, behind, follows, seen, ends⟩ := follows_printFields fields rest
      obtain ⟨inside, starts⟩ := printField_cons field
      have few := length_le_printFields fields
      have members := @parseMembers_printed pow fields whole.2 there _ _
        (show (printFields (.ofString ",") fields).length <
          (printFields (.ofString "") (field :: fields)).length + 2 + fuel by omega) (by omega)
        (show fields.length < (printFields (.ofString "") (field :: fields)).length + 2 + fuel by omega)
        rest
      rw [follows] at members
      rw [entries, follows, starts, List.cons_append, run_of_ok (skip_visible (.inl (by decide)) _),
        run_of_ok (accept_other (by decide) _), if_neg Bool.false_ne_true, ← List.cons_append,
        ← starts, run_of_ok (parseMember_printed first here (by omega) (by omega) seen ends behind),
        run_of_ok members, run_of_ok (expect_self 125 rest)]
      rfl

theorem word_self {text : String} {letters : Bytes} (spelled : (CStr.ofString text).bytes = letters)
    (item : Json) (rest : Bytes) : (word text item).run (letters ++ rest) = .ok (item, rest) := by
  rw [word, run_of_ok (literal_self spelled), if_pos rfl]
  rfl

/-- A whole number is read back, as `pow` gives one for the exponent zero. -/
theorem readBack_number (unit : pow (.ofInt 10) (.ofInt 0) = .ofInt 1) {valuedouble : Double}
    (whole : valuedouble.isWhole = true) : ReadBack pow (.number valuedouble) := by
  intro fuel rest fits _ ends
  obtain ⟨fuel, rfl⟩ := Nat.exists_eq_add_of_lt fits
  obtain ⟨value, bound, rfl⟩ := Double.isWhole_iff.mp whole
  have printed : printValue (.number (.ofInt value)) = .signedDecimal value := printNumber_ofInt bound
  cases rest with
  | nil => cases ends
  | cons char rest =>
      have number := parseNumber_signedDecimal ends rest unit bound
      obtain ⟨first, behind, starts, kind⟩ := signedDecimal_cons value
      rw [starts, List.cons_append] at number
      rw [printed, starts, List.cons_append, parseValue_cons, valueAt_number kind, number]

theorem readBack_of_whole (unit : pow (.ofInt 10) (.ofInt 0) = .ofInt 1) {json : Json}
    (whole : json.whole = true) : ReadBack pow json := by
  induction json using Json.induct with
  | null =>
      intro fuel rest fits _ _
      obtain ⟨fuel, rfl⟩ := Nat.exists_eq_add_of_lt fits
      have text : (printValue .null).bytes = [110, 117, 108, 108] := by decide
      rw [text, List.cons_append, parseValue_cons]
      exact word_self (show (CStr.ofString "null").bytes = [110, 117, 108, 108] by decide)
        .null rest
  | false =>
      intro fuel rest fits _ _
      obtain ⟨fuel, rfl⟩ := Nat.exists_eq_add_of_lt fits
      have text : (printValue .false).bytes = [102, 97, 108, 115, 101] := by decide
      rw [text, List.cons_append, parseValue_cons]
      exact word_self (show (CStr.ofString "false").bytes = [102, 97, 108, 115, 101] by decide)
        .false rest
  | true =>
      intro fuel rest fits _ _
      obtain ⟨fuel, rfl⟩ := Nat.exists_eq_add_of_lt fits
      have text : (printValue .true).bytes = [116, 114, 117, 101] := by decide
      rw [text, List.cons_append, parseValue_cons]
      exact word_self (show (CStr.ofString "true").bytes = [116, 114, 117, 101] by decide)
        .true rest
  | number value => exact readBack_number unit whole
  | string text =>
      intro fuel rest fits short _
      obtain ⟨fuel, rfl⟩ := Nat.exists_eq_add_of_lt fits
      have printed : printValue (.string text) = printStringPtr text := rfl
      have read := @parseString_printed text short rest
      rw [bytes_printStringPtr, List.cons_append] at read
      rw [printed, bytes_printStringPtr, List.cons_append, parseValue_cons]
      change (do return Json.string (← parseString) : JsonParser Json).run _ = _
      rw [run_of_ok read]
      rfl
  | array items each =>
      have all : itemsWhole items = true := whole
      exact readBack_array all fun item member =>
        each item member (itemsWhole_iff.mp all item member)
  | object fields each =>
      have all : fieldsWhole fields = true := whole
      exact readBack_object all fun field member =>
        each field member (fieldsWhole_iff.mp all field member)

/-- A printed text is read from its first character on, with as many steps as it has bytes. -/
theorem readBack_text (unit : pow (.ofInt 10) (.ofInt 0) = .ofInt 1) {json : Json}
    (whole : json.whole = true) (short : (printValue json).length < 2 ^ 31) {rest : Bytes}
    (ends : json.endsAt rest = true) :
    pcJSONParseText pow ((printValue json).bytes ++ rest) = .ok (json, rest) := by
  have room : (printValue json).length < ((printValue json).bytes ++ rest).length + 1 := by
    rw [List.length_append]
    exact Nat.lt_succ_of_le (Nat.le_add_right ..)
  rw [pcJSONParseText, run_of_ok (skip_text (beginsVisibly_printValue whole) rest)]
  exact readBack_of_whole unit whole room short ends

/-- The parser gives back the tree that was printed, and the memory behind its text. -/
theorem pcJSONParseText_printValue (unit : pow (.ofInt 10) (.ofInt 0) = .ofInt 1) {json : Json}
    (whole : json.whole = true) (short : (printValue json).length < 2 ^ 31) {rest : Bytes}
    (ends : json.endsAt rest = true) :
    pcJSONParseText pow ((printValue json).bytes ++ rest) = .ok (json, rest) :=
  readBack_text unit whole short ends

/-- A message with a text of its own kind of letters, a control, a number and two equal keys. -/
def printedSample : Json :=
  .object [(.ofString "a\"b", .string (.ofBytes [195, 169, 1, 10])),
    (.ofString "n", .array [.number (.ofInt (-4294967297)), .array [], .null]),
    (.ofString "n", .true)]

/-- An object with a number, a text, an array and a word. -/
theorem pcJSONParseText_printValue_sample :
    pcJSONParseText (fun base exponent => if exponent = .ofInt 0 then .ofInt 1 else base)
      ((printValue printedSample).bytes ++ [0]) = .ok (printedSample, [0]) :=
  pcJSONParseText_printValue (by decide) (by decide +kernel) (by decide +kernel) rfl

end Pomelo
