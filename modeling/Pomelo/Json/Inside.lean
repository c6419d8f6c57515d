import Pomelo.Json.Steps

/-!
# What the JSON parser reads

Inside a text the functions of the parser do not depend on the memory behind it, with two
exceptions: a number looks at the character behind a point, and an escape at the two behind it.
-/

namespace Pomelo

open Parsing Reader

/-- The ends that a parser does not come back from: it has left the memory, or its steps are
used up. -/
def Stop.Lost (stop : Stop) : Prop := stop = .outOfBounds ∨ stop = .outOfFuel

namespace JsonParser

variable {tail tail' text rest : Bytes} {kept : Bytes → Prop}

/-- Looking at a letter does not depend on what follows it. -/
theorem peek_local : Local Stop.Lost tail tail' (· ≠ []) peek peek := by
  intro text char rest ended left
  cases text with
  | nil =>
      obtain ⟨passed, split, -⟩ := peek_moves.inside ended
      exact absurd (List.append_eq_nil_iff.mp split.symm).2 left
  | cons first text =>
      obtain ⟨rfl, same⟩ := Prod.mk.inj (Except.ok.inj ended)
      obtain rfl : first :: text = rest := List.append_cancel_right same
      exact .inl rfl

theorem advance_local (count : Nat) :
    Local Stop.Lost tail tail' kept (advance count) (advance count) := by
  intro text _ rest ended _
  obtain ⟨passed, rfl, far⟩ := (advance_moves count).inside ended
  have room (behind : Bytes) : count ≤ (passed ++ rest ++ behind).length := by
    rw [List.append_assoc, List.length_append]
    omega
  have drop (behind : Bytes) : (passed ++ rest ++ behind).drop count =
      (passed ++ rest).drop count ++ behind :=
    List.drop_append_of_le_length (by rw [List.length_append]; omega)
  rw [advance_run (room tail), drop tail] at ended
  have same := List.append_cancel_right (congrArg Prod.snd (Except.ok.inj ended))
  rw [advance_run (room tail'), drop tail', same]
  exact .inl rfl

theorem accept_local (char : UInt8) :
    Local Stop.Lost tail tail' (· ≠ []) (accept char) (accept char) :=
  peek_local.andThen
    (fun _ => .ite (((advance_moves 1).mono (Nat.zero_le 1)).bind_left fun _ => .pure _) (.pure _))
    fun _ => .ite ((advance_local 1).andThen (fun _ => .pure _) fun _ => .pure _) (.pure _)

/-- A letter that is expected is there. -/
theorem expect_local (char : UInt8) :
    Local Stop.Lost tail tail' kept (expect char) (expect char) := by
  intro text _ rest ended _
  cases text with
  | nil =>
      obtain ⟨passed, split, far⟩ := (expect_moves char).inside ended
      rw [(List.append_eq_nil_iff.mp split.symm).1] at far
      exact absurd far (by decide)
  | cons first text =>
      by_cases same : first = char
      · rw [List.cons_append, same, expect_self] at ended
        have same' := congrArg Prod.snd (Except.ok.inj ended)
        obtain rfl : text = rest := List.append_cancel_right same'
        rw [List.cons_append, same, expect_self]
        exact .inl rfl
      · rw [List.cons_append, expect_other same] at ended
        exact absurd ended nofun

/-- A loop over the characters of a kind that ends inside a text ends there in front of any
memory. -/
theorem dropWhile_inside {kind : UInt8 → Bool} (left : rest ≠ [])
    (ended : (text ++ tail).dropWhile kind = rest ++ tail) (behind : Bytes) :
    (text ++ behind).dropWhile kind = rest ++ behind ∧
      (text ++ behind).takeWhile kind = text.takeWhile kind := by
  rw [List.dropWhile_append] at ended
  by_cases none : (text.dropWhile kind).isEmpty
  · rw [if_pos none] at ended
    have short := congrArg List.length ended
    rw [List.length_append] at short
    have less := List.length_dropWhile_le kind tail
    exact absurd (List.length_eq_zero_iff.mp (by omega)) left
  · rw [if_neg none] at ended
    have same : text.dropWhile kind = rest := List.append_cancel_right ended
    refine ⟨by rw [List.dropWhile_append, if_neg none, same], ?_⟩
    rw [List.takeWhile_append, if_neg]
    intro all
    have whole := List.takeWhile_append_dropWhile (p := kind) (l := text)
    have count := congrArg List.length whole
    rw [List.length_append, all] at count
    exact none (List.isEmpty_iff.mpr (List.length_eq_zero_iff.mp (by omega)))

/-- White space ends within the text, where something else follows. -/
theorem skip_local : Local Stop.Lost tail tail' (· ≠ []) skip skip := by
  intro text _ rest ended left
  rw [skip_run, skipSpace_eq] at ended
  split at ended
  next => exact absurd ended nofun
  next char behind split =>
    have same := congrArg Prod.snd (Except.ok.inj ended)
    dsimp only at same
    rw [same] at split
    rw [skip_run, skipSpace_eq, (dropWhile_inside left split tail').1]
    cases rest with
    | nil => exact absurd rfl left
    | cons first rest => exact .inl rfl

theorem digits_local : Local Stop.Lost tail tail' (· ≠ []) digits digits := by
  intro text figures rest ended left
  change takeDigits (text ++ tail) = _ at ended
  rw [takeDigits_eq] at ended
  split at ended
  next => exact absurd ended nofun
  next char behind split =>
    obtain ⟨rfl, same⟩ := Prod.mk.inj (Except.ok.inj ended)
    rw [same] at split
    refine .inl ?_
    change takeDigits (text ++ tail') = _
    rw [takeDigits_eq, (dropWhile_inside left split tail').1, (dropWhile_inside left split tail').2,
      (dropWhile_inside left split tail).2]
    cases rest with
    | nil => exact absurd rfl left
    | cons first rest => rfl

theorem whole_local : Local Stop.Lost tail tail' (· ≠ []) whole whole :=
  peek_local.andThen (fun _ => peek_moves.bind_left fun _ => .ite digits_moves (.pure _)) fun _ =>
    peek_local.andThen (fun _ => .ite digits_moves (.pure _)) fun _ => .ite digits_local (.pure _)

/-- The place where a number can end. -/
def NoPoint (rest : Bytes) : Prop := rest ≠ [] ∧ rest ≠ [46]

/-- A point is only passed if a digit follows it. -/
theorem fraction_local : Local Stop.Lost tail tail' NoPoint fraction fraction := by
  intro num places rest ended ⟨left, point⟩
  cases num with
  | nil =>
      obtain ⟨passed, split, -⟩ := fraction_moves.inside ended
      exact absurd (List.append_eq_nil_iff.mp split.symm).2 left
  | cons char num =>
      rw [fraction, List.cons_append, run_of_ok (run_get _)] at ended ⊢
      by_cases same : char = 46
      · rw [same, run_of_ok (accept_self 46 _), if_pos rfl] at ended ⊢
        obtain ⟨figures, middle, here, there⟩ := bind_eq_ok ended
        by_cases none : figures = []
        · rw [if_pos none] at there
          obtain ⟨rfl, split⟩ := Prod.mk.inj (Except.ok.inj there)
          obtain rfl : 46 :: num = rest := List.append_cancel_right split
          have other : num ≠ [] := fun empty => point (by rw [empty])
          obtain ⟨passed, split, -⟩ := digits_moves here
          have stays : middle = num ++ tail := by
            change takeDigits (num ++ tail) = _ at here
            rw [takeDigits_eq] at here
            split at here
            next => cases here
            next first behind whole =>
              obtain ⟨none', rfl⟩ := Prod.mk.inj (Except.ok.inj here)
              rw [← whole]
              have parts := List.takeWhile_append_dropWhile (p := isDigit) (l := num ++ tail)
              rw [none', none] at parts
              exact parts
          rw [stays] at here
          rcases digits_local here other with again | ⟨stop, lost, error⟩
          · rw [run_of_ok again, if_pos none]
            exact .inl rfl
          · exact .inr ⟨stop, lost, run_of_error error⟩
        · rw [if_neg none] at there
          obtain ⟨rfl, rfl⟩ := Prod.mk.inj (Except.ok.inj there)
          rcases digits_local here left with again | ⟨stop, lost, error⟩
          · rw [run_of_ok again, if_neg none]
            exact .inl rfl
          · exact .inr ⟨stop, lost, run_of_error error⟩
      · rw [run_of_ok (accept_other same _), if_neg Bool.false_ne_true] at ended ⊢
        obtain ⟨rfl, split⟩ := Prod.mk.inj (Except.ok.inj ended)
        obtain rfl : char :: num = rest := List.append_cancel_right split
        exact .inl rfl

/-- An exponent does not depend on the text behind it. -/
theorem exponent_local : Local Stop.Lost tail tail' (· ≠ []) exponent exponent := by
  have sign : Local Stop.Lost tail tail' (· ≠ []) exponentSign exponentSign :=
    (accept_local 43).andThen (fun _ => .ite (.pure _) (accept_moves 45)) fun _ =>
      .ite (.pure _) (accept_local 45)
  have figures (negative : Bool) : Moves 0 (do return (negative, ← digits)) :=
    digits_moves.bind_left fun _ => .pure _
  have behind : Moves 0 (do let negative ← exponentSign; return (negative, ← digits)) :=
    exponentSign_moves.bind_left figures
  have read : Moves 0 (do advance 1; let negative ← exponentSign; return (negative, ← digits)) :=
    ((advance_moves 1).mono (Nat.zero_le 1)).bind_left fun _ => behind
  refine peek_local.andThen (fun _ => peek_moves.bind_left fun _ => .ite read (.pure _)) fun _ =>
    peek_local.andThen (fun _ => .ite read (.pure _)) fun _ => .ite ?_ (.pure _)
  exact (advance_local 1).andThen (fun _ => behind) fun _ => sign.andThen figures fun _ =>
    digits_local.andThen (fun _ => .pure _) fun _ => .pure _

theorem parseNumber_local (pow : Codec.Double → Codec.Double → Codec.Double) :
    Local Stop.Lost tail tail' NoPoint (parseNumber pow) (parseNumber pow) := by
  have left : ∀ rest, NoPoint rest → rest ≠ [] := fun _ place => place.1
  have last (finish : Bool × Bytes → Json) :
      Moves 0 (do return finish (← exponent) : JsonParser Json) :=
    exponent_moves.bind_left fun _ => .pure _
  have parts (finish : Bytes → Bool × Bytes → Json) :
      Moves 0 (do let places ← fraction; return finish places (← exponent) : JsonParser Json) :=
    fraction_moves.bind_left fun _ => last _
  refine (accept_local 45).bind_of_left left (fun _ => (accept_moves 48).bind_left fun _ =>
    whole_moves.bind_left fun _ => parts _) fun negative => ?_
  refine (accept_local 48).bind_of_left left (fun _ => whole_moves.bind_left fun _ => parts _)
    fun _ => ?_
  refine whole_local.bind_of_left left (fun _ => parts _) fun figures => ?_
  -- What is left behind a point that is not passed has no exponent.
  refine fraction_local.bind (fun _ => last _) (fun places text result rest ended place => ?_)
    fun places => exponent_local.bind_of_left left (fun _ => .pure _) fun _ => .pure _
  obtain ⟨passed, split, -⟩ := (last _).inside ended
  refine ⟨fun empty => place.1 (List.append_eq_nil_iff.mp (split.symm.trans empty)).2, ?_⟩
  intro point
  rw [point, List.cons_append, List.nil_append] at ended
  obtain ⟨value, middle, here, there⟩ := bind_eq_ok ended
  rw [exponent, run_of_ok (peek_run 46 tail), run_of_ok (peek_run 46 tail), if_neg (by decide)] at here
  cases here
  obtain ⟨-, same⟩ := Prod.mk.inj (Except.ok.inj there)
  have again : [46] ++ tail = rest ++ tail := same
  exact place.2 (List.append_cancel_right again).symm

/-- Hexadecimal figures do not depend on what follows them. -/
theorem parseHex_append {digits : Nat} (h : Nat) {str : Bytes} (room : digits ≤ str.length)
    (behind : Bytes) : parseHex digits h (str ++ behind) = parseHex digits h str := by
  induction digits generalizing h str with
  | zero => rfl
  | succ digits ih =>
      cases str with
      | nil => exact absurd room (Nat.not_succ_le_zero _)
      | cons char str =>
          rw [List.cons_append, parseHex, parseHex]
          split
          · rfl
          · exact ih _ (Nat.le_of_succ_le_succ room)

/-- The place where an escape can end: not where the first half of a pair might go on. -/
def NoEscape (rest : Bytes) : Prop := rest ≠ [] ∧ rest ≠ [92]

/-- An escape is recognized by its two letters. -/
theorem atEscape_append {ptr : Bytes} (place : NoEscape ptr) (behind : Bytes) :
    atEscape (ptr ++ behind) = atEscape ptr := by
  match ptr with
  | [] => exact absurd rfl place.1
  | [char] =>
      have other : char ≠ 92 := fun same => place.2 (by rw [same])
      rw [List.cons_append, atEscape.eq_def, atEscape.eq_def]
      dsimp only
      rw [if_pos other, if_pos other]
  | first :: second :: ptr => rfl

/-- An escape passes one code, or two. -/
theorem unicode_count {str out : Bytes} {count : Nat} (ended : unicode str = .ok (out, count)) :
    count = 4 ∨ count = 10 := by
  obtain ⟨uc, -, ended⟩ := Stop.bind_eq_ok ended
  split at ended
  · exact .inl (Prod.mk.inj (Except.ok.inj ended)).2.symm
  split at ended
  · obtain ⟨escaped, -, ended⟩ := Stop.bind_eq_ok ended
    split at ended
    · obtain ⟨uc2, -, ended⟩ := Stop.bind_eq_ok ended
      split at ended <;> exact .inr (Prod.mk.inj (Except.ok.inj ended)).2.symm
    · exact .inl (Prod.mk.inj (Except.ok.inj ended)).2.symm
  · exact .inl (Prod.mk.inj (Except.ok.inj ended)).2.symm

/-- An escape that ends inside a text is the same in front of any memory, unless the text ends
where a second half might begin. -/
theorem unicode_append {str out : Bytes} {count : Nat} (room : count ≤ str.length)
    (place : NoEscape (str.drop count))
    (ended : unicode (str ++ tail) = .ok (out, count)) :
    unicode (str ++ tail') = .ok (out, count) := by
  have least : 4 ≤ str.length := by
    rcases unicode_count ended with four | ten <;> omega
  have drop (behind : Bytes) : (str ++ behind).drop 4 = str.drop 4 ++ behind :=
    List.drop_append_of_le_length least
  rw [unicode, parseHex4, parseHex_append 0 least] at ended ⊢
  obtain ⟨uc, code, ended⟩ := Stop.bind_eq_ok ended
  rw [code, Stop.ok_bind]
  split at ended
  next control => rw [if_pos control]; exact ended
  next control =>
  rw [if_neg control]
  split at ended
  next first =>
    rw [if_pos first]
    rw [drop] at ended ⊢
    obtain ⟨escaped, follows, ended⟩ := Stop.bind_eq_ok ended
    have here : NoEscape (str.drop 4) := by
      cases escaped with
      | false =>
          rw [if_neg Bool.false_ne_true] at ended
          obtain ⟨-, rfl⟩ := Prod.mk.inj (Except.ok.inj ended)
          exact place
      | true =>
          have ten : count = 10 := by
            rw [if_pos rfl] at ended
            obtain ⟨uc2, -, ended⟩ := Stop.bind_eq_ok ended
            split at ended <;> exact (Prod.mk.inj (Except.ok.inj ended)).2.symm
          have long : (str.drop 4).length = str.length - 4 := List.length_drop
          refine ⟨fun empty => ?_, fun single => ?_⟩
          · rw [empty, List.length_nil] at long
            omega
          · rw [single, List.length_singleton] at long
            omega
    rw [atEscape_append here] at follows ⊢
    rw [follows, Stop.ok_bind]
    cases escaped with
    | false => exact ended
    | true =>
        rw [if_pos rfl] at ended ⊢
        have ten : 10 ≤ str.length := by
          obtain ⟨uc2, -, ended⟩ := Stop.bind_eq_ok ended
          split at ended
          · exact (Prod.mk.inj (Except.ok.inj ended)).2 ▸ room
          · exact (Prod.mk.inj (Except.ok.inj ended)).2 ▸ room
        have six (behind : Bytes) : (str ++ behind).drop 6 = str.drop 6 ++ behind :=
          List.drop_append_of_le_length (by omega)
        rw [six, parseHex4, parseHex_append 0 (by rw [List.length_drop]; omega)] at ended ⊢
        exact ended
  next first => rw [if_neg first]; exact ended

/-- An escaped code point does not depend on what follows the pair of surrogates. -/
theorem unicodeEscape_local : Local Stop.Lost tail tail' NoEscape unicodeEscape unicodeEscape := by
  intro text out rest ended place
  rw [unicodeEscape, run_of_ok (run_get _)] at ended ⊢
  obtain ⟨⟨written, count⟩, middle, here, there⟩ := bind_eq_ok ended
  obtain ⟨code, rfl⟩ := liftM_ok here
  obtain ⟨_, middle, moved, there⟩ := bind_eq_ok there
  cases there
  obtain ⟨passed, rfl, far⟩ := (advance_moves count).inside moved
  have room : count ≤ (passed ++ rest).length := by
    rw [List.length_append]
    omega
  have drop (behind : Bytes) :
      (advance count).run (passed ++ rest ++ behind) = .ok ((), (passed ++ rest).drop count ++ behind) := by
    rw [advance_run (by rw [List.length_append]; omega), List.drop_append_of_le_length room]
  have split : (passed ++ rest).drop count = rest := by
    rw [drop] at moved
    exact List.append_cancel_right (congrArg Prod.snd (Except.ok.inj moved))
  have code' : unicode (passed ++ rest ++ tail') = .ok (out, count) :=
    unicode_append room (by rw [split]; exact place) code
  refine .inl ?_
  rw [run_bind, run_liftM, code']
  dsimp only [Except.map]
  rw [run_of_ok (drop tail'), split]
  rfl

theorem escape_local (char : UInt8) : Local Stop.Lost tail tail' NoEscape (escape char) (escape char) :=
  .ite (.pure _) <| .ite (.pure _) <| .ite (.pure _) <| .ite (.pure _) <| .ite (.pure _) <|
    .ite unicodeEscape_local (.pure _)

/-- A piece of a string depends on itself only. -/
theorem piece_local : Local Stop.Lost tail tail' NoEscape piece piece := by
  have left : ∀ rest, NoEscape rest → rest ≠ [] := fun _ place => place.1
  have one : Moves 0 (advance 1) := (advance_moves 1).mono (Nat.zero_le 1)
  have behind (char : UInt8) : Moves 0 (do
      advance 1
      if char ≠ 92 then return [char]
      let char ← peek
      advance 1
      escape char) :=
    one.bind_left fun _ => .ite (.pure _) escaped_moves
  refine peek_local.bind_of_left left behind fun char => ?_
  refine (advance_local 1).bind_of_left left (fun _ => .ite (.pure _) escaped_moves) fun _ => ?_
  refine .ite (.pure _) ?_
  exact peek_local.bind_of_left left (fun char => one.bind_left fun _ => escape_moves char)
    fun char => (advance_local 1).bind_of_left left (fun _ => escape_moves char) fun _ =>
      escape_local char

/-- A backslash is not passed alone. -/
theorem piece_backslash {ptr rest out : Bytes} (ended : piece.run (92 :: ptr) = .ok (out, rest)) :
    rest.length < ptr.length := by
  rw [piece, run_of_ok (peek_run 92 ptr), run_of_ok (advance_run (Nat.le_add_left 1 _)),
    if_neg (by decide)] at ended
  obtain ⟨passed, split, far⟩ := peek_moves.bind_right (fun char =>
    (advance_moves 1).bind_left fun _ => escape_moves char) ended
  have count := congrArg List.length split
  rw [List.length_append] at count
  change ptr.length = _ at count
  omega

theorem unescape_local (passes passes' : Nat) :
    Local Stop.Lost tail tail' (· ≠ []) (unescape passes) (unescape passes') := by
  induction passes generalizing passes' with
  | zero => exact .throw _ _
  | succ passes ih =>
      intro text out rest ended left
      cases passes' with
      | zero => exact .inr ⟨.outOfFuel, .inr rfl, rfl⟩
      | succ passes' =>
          have more (out : Bytes) : Moves 0 (do return out ++ (← unescape passes)) :=
            (unescape_moves passes).bind_left fun _ => .pure _
          have copy : Moves 0 (do let out ← piece; return out ++ (← unescape passes)) :=
            (piece_moves.mono (Nat.zero_le 1)).bind_left more
          refine (peek_local.andThen (fun _ => peek_moves.bind_left fun _ => .ite (.pure _) copy)
            fun first => peek_local.andThen (fun _ => .ite (.pure _) copy) fun second =>
              .ite (.pure _) ?_) ended left
          refine piece_local.bind more (fun written text out rest ended left => ?_)
            fun written => (ih passes').andThen (fun _ => .pure _) fun _ => .pure _
          obtain ⟨passed, split, -⟩ := (more written).inside ended
          refine ⟨fun empty => left (List.append_eq_nil_iff.mp (split.symm.trans empty)).2, ?_⟩
          -- A backslash at the end of the text takes a character behind it.
          intro backslash
          rw [backslash] at ended
          obtain ⟨rewritten, middle, copied, there⟩ := bind_eq_ok ended
          cases there
          cases passes with
          | zero => exact absurd copied nofun
          | succ passes =>
              rw [unescape, List.cons_append, List.nil_append, run_of_ok (peek_run 92 tail),
                run_of_ok (peek_run 92 tail), if_neg (by decide)] at copied
              obtain ⟨last, behind, here, there⟩ := bind_eq_ok copied
              have short := piece_backslash here
              obtain ⟨further, rfl, -⟩ := (unescape_moves passes).bind_left (fun _ => .pure _) there
              rw [List.length_append, List.length_append] at short
              omega

/-- The two loops of a string. The count only says whether there is room for the text. -/
theorem stringBody_ok {ptr rest : Bytes} {string : CStr}
    (ended : stringBody.run ptr = .ok (string, rest)) :
    ∃ len out behind closed, countChars ptr = .ok len ∧
      (unescape (ptr.length + 1)).run ptr = .ok (out, behind) ∧
        (out.length ≤ len ∧ len + 1 < 2 ^ 31) ∧ (accept 34).run behind = .ok (closed, rest) ∧
          string = .ofBytes out := by
  rw [stringBody, run_of_ok (run_get ptr)] at ended
  obtain ⟨len, middle, here, ended⟩ := bind_eq_ok ended
  obtain ⟨counted, rfl⟩ := liftM_ok here
  rw [run_of_ok (run_get ptr)] at ended
  obtain ⟨out, behind, copied, ended⟩ := bind_eq_ok ended
  split at ended
  next room =>
    obtain ⟨closed, last, accepted, there⟩ := bind_eq_ok ended
    cases there
    exact ⟨len, out, behind, closed, counted, copied, room, accepted, rfl⟩
  next => cases ended

/-- The body of a string is what was copied, if the counted length has room for it. -/
theorem stringBody_run {ptr rest behind out : Bytes} {len : Nat} {closed : Bool}
    (counted : countChars ptr = .ok len)
    (copied : (unescape (ptr.length + 1)).run ptr = .ok (out, behind))
    (room : out.length ≤ len ∧ len + 1 < 2 ^ 31)
    (accepted : (accept 34).run behind = .ok (closed, rest)) :
    stringBody.run ptr = .ok (.ofBytes out, rest) := by
  rw [stringBody_copied counted copied room, run_of_ok accepted]
  rfl

/-- The loop that counts is lost, or it has an answer. -/
theorem countChars_cases (ptr : Bytes) :
    (∃ len, countChars ptr = .ok len) ∨ countChars ptr = .error .outOfBounds := by
  have counted {count : Except Stop Nat}
      (ends : (∃ len, count = .ok len) ∨ count = .error .outOfBounds) :
      (∃ len, (do return (← count) + 1 : Except Stop Nat) = .ok len) ∨
        (do return (← count) + 1 : Except Stop Nat) = .error .outOfBounds := by
    rcases ends with ⟨len, rfl⟩ | rfl
    · exact .inl ⟨len + 1, rfl⟩
    · exact .inr rfl
  induction ptr using countChars.induct with
  | case1 => exact .inr rfl
  | case2 char ptr ends =>
      rw [countChars.eq_def]
      dsimp only
      rw [if_pos ends]
      exact .inl ⟨0, rfl⟩
  | case3 ends => exact .inr rfl
  | case4 char ptr ends ih => exact counted ih
  | case5 char ptr ends plain ih =>
      rw [countChars.eq_def]
      dsimp only
      rw [if_neg ends, if_neg plain]
      exact counted ih

/-- The body of a string does not depend on what follows the closing mark. -/
theorem stringBody_local : Local Stop.Lost tail tail' (· ≠ []) stringBody stringBody := by
  intro text string rest ended left
  obtain ⟨len, out, behind, closed, -, copied, -, accepted, rfl⟩ := stringBody_ok ended
  obtain ⟨passed, rfl, -⟩ := accept_moves 34 accepted
  rw [← List.append_assoc] at copied accepted
  have inside : passed ++ rest ≠ [] := fun empty => left (List.append_eq_nil_iff.mp empty).2
  have lost {stop : Stop} (lost : stop.Lost) {outcome : Except Stop (CStr × Bytes)}
      (error : outcome = .error stop) : Stuck Stop.Lost outcome := ⟨stop, lost, error⟩
  rcases countChars_cases (text ++ tail') with ⟨len', counted⟩ | counted
  · have begun : stringBody.run (text ++ tail') = (do
        let out ← unescape ((text ++ tail').length + 1)
        if out.length ≤ len' ∧ len' + 1 < 2 ^ 31 then
          let _ ← accept 34
          return .ofBytes out
        else throw .outOfBounds : JsonParser CStr).run (text ++ tail') := by
      rw [stringBody, run_of_ok (run_get _), run_bind, run_liftM, counted]
      rfl
    rw [begun]
    rcases unescape_local _ ((text ++ tail').length + 1) copied inside with again | ⟨stop, gets, error⟩
    · rw [run_of_ok again]
      split
      · rcases accept_local 34 accepted left with closing | ⟨stop, gets, error⟩
        · rw [run_of_ok closing]
          exact .inl rfl
        · exact .inr (lost gets (run_of_error error))
      · exact .inr (lost (.inl rfl) rfl)
    · exact .inr (lost gets (run_of_error error))
  · refine .inr (lost (.inl rfl) ?_)
    rw [stringBody, run_of_ok (run_get _), run_bind, run_liftM, counted]
    rfl

theorem parseString_local : Local Stop.Lost tail tail' (· ≠ []) parseString parseString :=
  (expect_local 34).andThen (fun _ => stringBody_moves) fun _ => stringBody_local

/-- Something else than a point is left. -/
def Closing (rest : Bytes) : Prop := ∃ char behind, rest = char :: behind ∧ char ≠ 46

theorem Closing.left {rest : Bytes} (closing : Closing rest) : rest ≠ [] := by
  obtain ⟨char, behind, rfl, -⟩ := closing
  exact nofun

/-- What closes a value is no decimal point. -/
theorem Closing.not_point {rest : Bytes} (closing : Closing (46 :: rest)) : False := by
  obtain ⟨char, behind, same, other⟩ := closing
  exact other (List.cons.inj same).1.symm

/-- A decimal point is no white space. -/
theorem skip_point (ptr : Bytes) : skip.run (46 :: ptr) = .ok ((), 46 :: ptr) := by
  rw [skip_run, skipSpace, if_neg (by decide)]
  rfl

/-- The loops over a container stay in front of a point. -/
theorem loop_point {α : Type} {passes : Nat} {loop : Nat → JsonParser α} {none : α}
    (zero : loop 0 = throw .outOfFuel)
    (succ : ∀ passes, ∃ more, loop (passes + 1) = (do if ← accept 44 then more else return none))
    {ptr rest : Bytes} {value : α} (ended : (loop passes).run (46 :: ptr) = .ok (value, rest)) :
    rest = 46 :: ptr := by
  cases passes with
  | zero =>
      rw [zero] at ended
      exact absurd ended nofun
  | succ passes =>
      obtain ⟨more, same⟩ := succ passes
      rw [same, run_of_ok (accept_other (by decide) ptr)] at ended
      exact (Prod.mk.inj (Except.ok.inj ended)).2.symm

/-- A character that has to be there is looked for inside the text. -/
theorem expect_anywhere (char : UInt8) :
    Local Stop.Lost tail tail' (fun _ => True) (expect char) (expect char) :=
  expect_local char

/-- The end of a container: its loop, and the bracket that closes it. -/
theorem close_local {α β : Type} {bracket : UInt8} {loop loop' : JsonParser α} (finish : α → β)
    (other : bracket ≠ 46) (inside : Local Stop.Lost tail tail' Closing loop loop') :
    Local Stop.Lost tail tail' kept (do let items ← loop; expect bracket; return finish items)
      (do let items ← loop'; expect bracket; return finish items) := by
  refine inside.bind (fun items => (expect_moves bracket).bind_left fun _ => .pure _)
    (fun items text result rest ended _ => ?_)
    fun items => (expect_anywhere bracket).bind (fun _ => .pure _) (fun _ _ _ _ _ _ => trivial)
      fun _ => .pure _
  cases text with
  | nil => exact absurd rfl (((expect_moves bracket).bind_left fun _ => .pure _).text_ne_nil ended)
  | cons char text =>
      refine ⟨char, text, rfl, fun point => ?_⟩
      rw [point, List.cons_append, run_of_error (expect_other other.symm _)] at ended
      exact absurd ended nofun

/-- A character is passed if it is there, and otherwise something else is. -/
theorem accept_or_moves {α : Type} {char : UInt8} {value : α} {next : JsonParser α}
    (moves : Moves 1 next) : Moves 1 (do if ← accept char then return value else next) := by
  intro ptr result rest ended
  cases ptr with
  | nil => exact absurd ended nofun
  | cons first ptr =>
      by_cases same : first = char
      · rw [same, run_of_ok (accept_self char ptr), if_pos rfl] at ended
        cases ended
        exact ⟨[first], rfl, Nat.le_refl 1⟩
      · rw [run_of_ok (accept_other same ptr), if_neg Bool.false_ne_true] at ended
        exact moves ended

/-- A letter decides whether the rest is read, and the rest moves past it. -/
theorem accept_or_local {α : Type} {char : UInt8} {value : α} {next next' : JsonParser α}
    (moves : Moves 1 next) (inside : Local Stop.Lost tail tail' kept next next') :
    Local Stop.Lost tail tail' kept (do if ← accept char then return value else next)
      (do if ← accept char then return value else next') := by
  intro text result rest ended keeps
  cases text with
  | nil => exact absurd rfl ((accept_or_moves moves).text_ne_nil ended)
  | cons first text =>
      rw [List.cons_append] at ended ⊢
      by_cases same : first = char
      · rw [same, run_of_ok (accept_self char _), if_pos rfl] at ended ⊢
        obtain ⟨rfl, split⟩ := Prod.mk.inj (Except.ok.inj ended)
        obtain rfl : text = rest := List.append_cancel_right split
        exact .inl rfl
      · rw [run_of_ok (accept_other same _), if_neg Bool.false_ne_true] at ended ⊢
        exact @inside (first :: text) result rest ended keeps

section Containers

variable {parse parse' : JsonParser Json} (moves : Moves 0 parse)
  (inside : Local Stop.Lost tail tail' NoPoint parse parse')

/-- Items are not read into a decimal point. -/
theorem parseItems_point {passes : Nat} {ptr rest : Bytes} {items : List Json}
    (ended : (parseItems parse passes).run (46 :: ptr) = .ok (items, rest)) : rest = 46 :: ptr :=
  loop_point rfl (fun _ => ⟨_, rfl⟩) ended

theorem parseMembers_point {passes : Nat} {ptr rest : Bytes} {members : List (CStr × Json)}
    (ended : (parseMembers parse passes).run (46 :: ptr) = .ok (members, rest)) : rest = 46 :: ptr :=
  loop_point rfl (fun _ => ⟨_, rfl⟩) ended

include inside

/-- A value with the space behind it, where something else than a point follows. -/
theorem value_local {α : Type} {next next' : Json → JsonParser α} (forward : ∀ item, Moves 0 (next item))
    (left : ∀ item text result rest, (next item).run (text ++ tail) = .ok (result, rest ++ tail) →
      kept rest → text ≠ [])
    (closes : ∀ item result rest, (next item).run (46 :: tail) = .ok (result, rest ++ tail) →
      ¬ kept rest)
    (after : ∀ item, Local Stop.Lost tail tail' kept (next item) (next' item)) :
    Local Stop.Lost tail tail' kept (do let item ← parse; skip; next item)
      (do let item ← parse'; skip; next' item) := by
  have behind (item : Json) : Moves 0 (do skip; next item) :=
    skip_moves.bind_left fun _ => forward item
  refine inside.bind behind (fun item text result rest ended keeps => ?_)
    fun item => skip_local.bind (fun _ => forward item)
      (fun _ text result rest ended keeps => left item text result rest ended keeps) fun _ => after item
  obtain ⟨_, middle, skipped, there⟩ := bind_eq_ok ended
  obtain ⟨passed, rfl, -⟩ := (forward item) there
  rw [← List.append_assoc] at there skipped
  have inside := left item _ result rest there keeps
  refine ⟨skip_moves.text_ne_nil_of_left skipped inside, ?_⟩
  intro point
  rw [point, List.cons_append, List.nil_append, run_of_ok (skip_point tail)] at ended
  exact closes item result rest ended keeps

include moves

/-- The items of an array do not depend on what follows the bracket. -/
theorem parseItems_local (passes passes' : Nat) :
    Local Stop.Lost tail tail' Closing (parseItems parse passes) (parseItems parse' passes') := by
  induction passes generalizing passes' with
  | zero => exact .throw _ _
  | succ passes ih =>
      intro text items rest ended closing
      cases passes' with
      | zero => exact .inr ⟨.outOfFuel, .inr rfl, rfl⟩
      | succ passes' =>
          have left : ∀ rest, Closing rest → rest ≠ [] := fun _ closing => closing.left
          have more (item : Json) : Moves 0 (do return item :: (← parseItems parse passes)) :=
            (parseItems_moves moves passes).bind_left fun _ => .pure _
          have value : Moves 0 (do
              let item ← parse
              skip
              return item :: (← parseItems parse passes)) :=
            moves.bind_left fun _ => skip_moves.bind_left fun _ => more _
          refine (accept_local 44).bind_of_left left
            (fun _ => .ite (skip_moves.bind_left fun _ => value) (.pure _))
            (fun _ => .ite ?_ (.pure _)) ended closing
          refine skip_local.bind_of_left left (fun _ => value) fun _ => ?_
          refine value_local inside more
            (fun item _ _ _ ended closing => (more item).text_ne_nil_of_left ended closing.left)
            (fun item result rest ended closing => ?_)
            fun item => (ih passes').bind (fun _ => .pure _)
              (fun items text result rest ended closing => ?_) fun _ => .pure _
          · obtain ⟨items, middle, here, there⟩ := bind_eq_ok ended
            cases there
            have same : rest ++ tail = [46] ++ tail := parseItems_point here
            rw [List.append_cancel_right same] at closing
            exact closing.not_point
          · obtain ⟨-, same⟩ := Prod.mk.inj (Except.ok.inj ended)
            rwa [List.append_cancel_right same]

theorem parseArray_local (passes passes' : Nat) :
    Local Stop.Lost tail tail' kept (parseArray parse passes) (parseArray parse' passes') := by
  have more (item : Json) : Moves 1 (do
      let items ← parseItems parse passes
      expect 93
      return Json.array (item :: items)) :=
    (parseItems_moves moves passes).bind_right fun _ => (expect_moves 93).bind_left fun _ => .pure _
  have first : Moves 1 (do
      let item ← parse
      skip
      let items ← parseItems parse passes
      expect 93
      return Json.array (item :: items)) :=
    moves.bind_right fun item => skip_moves.bind_right fun _ => more item
  have behind : Moves 1 (do
      if ← accept 93 then return Json.array []
      skip
      let item ← parse
      skip
      let items ← parseItems parse passes
      expect 93
      return Json.array (item :: items)) :=
    accept_or_moves (skip_moves.bind_right fun _ => first)
  refine (expect_anywhere 91).bind (fun _ => skip_moves.bind_right fun _ => behind)
    (fun _ _ _ _ _ _ => trivial) fun _ => skip_local.bind_of_moves (fun _ => behind) fun _ => ?_
  refine accept_or_local (skip_moves.bind_right fun _ => first)
    (skip_local.bind_of_moves (fun _ => first) fun _ => ?_)
  refine value_local inside (fun item => (more item).mono (Nat.zero_le 1))
    (fun item _ _ _ ended _ => (more item).text_ne_nil ended) (fun item result rest ended _ => ?_)
    fun item => close_local (fun items => Json.array (item :: items)) (by decide)
      (parseItems_local moves inside passes passes')
  obtain ⟨items, middle, here, there⟩ := bind_eq_ok ended
  rw [parseItems_point here, run_of_error (expect_other (by decide) tail)] at there
  exact absurd there nofun

/-- A member does not depend on what follows its value. -/
theorem parseMember_local :
    Local Stop.Lost tail tail' Closing (parseMember parse) (parseMember parse') := by
  have left : ∀ rest, Closing rest → rest ≠ [] := fun _ closing => closing.left
  have value (string : CStr) : Moves 0 (do let item ← parse; skip; return (string, item)) :=
    moves.bind_left fun _ => skip_moves.bind_left fun _ => .pure _
  have colon (string : CStr) : Moves 1 (do
      expect 58
      skip
      let item ← parse
      skip
      return (string, item)) :=
    (expect_moves 58).bind_left fun _ => skip_moves.bind_left fun _ => value string
  have named : Moves 1 (do
      let string ← parseString
      skip
      expect 58
      skip
      let item ← parse
      skip
      return (string, item)) :=
    parseString_moves.bind_left fun string => skip_moves.bind_left fun _ =>
      (colon string).mono (Nat.zero_le 1)
  refine skip_local.bind_of_left left (fun _ => named.mono (Nat.zero_le 1)) fun _ => ?_
  refine parseString_local.bind_of_left left
    (fun string => skip_moves.bind_left fun _ => (colon string).mono (Nat.zero_le 1)) fun string => ?_
  refine skip_local.bind_of_left left (fun _ => (colon string).mono (Nat.zero_le 1)) fun _ => ?_
  refine (expect_local 58).bind_of_left left (fun _ => skip_moves.bind_left fun _ => value string)
    fun _ => skip_local.bind_of_left left (fun _ => value string) fun _ => ?_
  refine value_local inside (fun _ => .pure _) (fun item text result rest ended closing => ?_)
    (fun item result rest ended closing => ?_) fun _ => .pure _
  · exact (Moves.pure (string, item)).text_ne_nil_of_left ended closing.left
  · obtain ⟨-, same⟩ := Prod.mk.inj (Except.ok.inj ended)
    have point : [46] ++ tail = rest ++ tail := same
    rw [← List.append_cancel_right point] at closing
    exact closing.not_point

theorem parseMembers_local (passes passes' : Nat) :
    Local Stop.Lost tail tail' Closing (parseMembers parse passes) (parseMembers parse' passes') := by
  induction passes generalizing passes' with
  | zero => exact .throw _ _
  | succ passes ih =>
      intro text members rest ended closing
      cases passes' with
      | zero => exact .inr ⟨.outOfFuel, .inr rfl, rfl⟩
      | succ passes' =>
          have left : ∀ rest, Closing rest → rest ≠ [] := fun _ closing => closing.left
          have more (member : CStr × Json) :
              Moves 0 (do return member :: (← parseMembers parse passes)) :=
            (parseMembers_moves moves passes).bind_left fun _ => .pure _
          have value : Moves 0 (do
              let member ← parseMember parse
              return member :: (← parseMembers parse passes)) :=
            (parseMember_moves moves).bind_left more
          refine (accept_local 44).bind_of_left left (fun _ => .ite value (.pure _))
            (fun _ => .ite ?_ (.pure _)) ended closing
          refine (parseMember_local moves inside).bind more
            (fun member text result rest ended closing => ?_)
            fun member => (ih passes').bind (fun _ => .pure _)
              (fun members text result rest ended closing => ?_) fun _ => .pure _
          · cases text with
            | nil => exact absurd rfl ((more member).text_ne_nil_of_left ended closing.left)
            | cons char text =>
                refine ⟨char, text, rfl, fun point => ?_⟩
                rw [point, List.cons_append] at ended
                obtain ⟨items, middle, here, there⟩ := bind_eq_ok ended
                cases there
                have same : rest ++ tail = 46 :: text ++ tail := parseMembers_point here
                rw [List.append_cancel_right same] at closing
                exact closing.not_point
          · obtain ⟨-, same⟩ := Prod.mk.inj (Except.ok.inj ended)
            rwa [List.append_cancel_right same]

theorem parseObject_local (passes passes' : Nat) :
    Local Stop.Lost tail tail' kept (parseObject parse passes) (parseObject parse' passes') := by
  have more (member : CStr × Json) : Moves 1 (do
      let members ← parseMembers parse passes
      expect 125
      return Json.object (member :: members)) :=
    (parseMembers_moves moves passes).bind_right fun _ => (expect_moves 125).bind_left fun _ => .pure _
  have first : Moves 1 (do
      let member ← parseMember parse
      let members ← parseMembers parse passes
      expect 125
      return Json.object (member :: members)) :=
    (parseMember_moves moves).bind_right more
  have behind : Moves 1 (do
      if ← accept 125 then return Json.object []
      let member ← parseMember parse
      let members ← parseMembers parse passes
      expect 125
      return Json.object (member :: members)) :=
    accept_or_moves first
  refine (expect_anywhere 123).bind (fun _ => skip_moves.bind_right fun _ => behind)
    (fun _ _ _ _ _ _ => trivial) fun _ => skip_local.bind_of_moves (fun _ => behind) fun _ => ?_
  refine accept_or_local first ((parseMember_local moves inside).bind more
    (fun member text result rest ended _ => ?_)
    fun member => close_local (fun members => Json.object (member :: members)) (by decide)
      (parseMembers_local moves inside passes passes'))
  cases text with
  | nil => exact absurd rfl ((more member).text_ne_nil ended)
  | cons char text =>
      refine ⟨char, text, rfl, fun point => ?_⟩
      rw [point, List.cons_append] at ended
      obtain ⟨items, middle, here, there⟩ := bind_eq_ok ended
      rw [parseMembers_point here, run_of_error (expect_other (by decide) _)] at there
      exact absurd there nofun

end Containers

/-- A word depends on its letters only. -/
theorem word_local {word : String} {item : Json} :
    Local Stop.Lost tail tail' kept (JsonParser.word word item) (JsonParser.word word item) := by
  intro text value rest ended _
  obtain ⟨found, middle, here, there⟩ := bind_eq_ok ended
  cases found with
  | false => exact absurd there nofun
  | true =>
      cases there
      have split := literal_ok here
      rw [if_pos rfl, ← List.append_assoc] at split
      rw [List.append_cancel_right split, List.append_assoc, JsonParser.word,
        run_of_ok (literal_self rfl)]
      exact .inl rfl

/-- The value that begins with a character, wherever it ends. -/
theorem valueAt_local {pow : Codec.Double → Codec.Double → Codec.Double} {fuel fuel' : Nat}
    {char : UInt8} {kept : Bytes → Prop}
    (inside : Local Stop.Lost tail tail' NoPoint (parseValue pow fuel) (parseValue pow fuel'))
    (string : char = 34 → Local Stop.Lost tail tail' kept parseString parseString)
    (number : char = 45 ∨ isDigit char = true →
      Local Stop.Lost tail tail' kept (parseNumber pow) (parseNumber pow)) :
    Local Stop.Lost tail tail' kept (valueAt pow fuel char) (valueAt pow fuel' char) := by
  have moves := (parseValue_moves pow fuel).mono (Nat.zero_le 1)
  refine .ite word_local <| .ite word_local <| .ite word_local <| .ite_of (fun quote => ?_) <|
    .ite_of number <| .ite (parseArray_local moves inside _ _) <|
    .ite (parseObject_local moves inside _ _) (.throw _ _)
  refine (string quote).bind (fun _ => .pure _) (fun text item rest result ended keeps => ?_)
    fun _ => .pure _
  obtain ⟨-, same⟩ := Prod.mk.inj (Except.ok.inj ended)
  rwa [List.append_cancel_right same]

/-- A value does not depend on what follows it, as long as no decimal point does. -/
theorem parseValue_local (pow : Codec.Double → Codec.Double → Codec.Double) (fuel fuel' : Nat) :
    Local Stop.Lost tail tail' NoPoint (parseValue pow fuel) (parseValue pow fuel') := by
  induction fuel generalizing fuel' with
  | zero => exact .throw _ _
  | succ fuel ih =>
      intro text value rest ended place
      cases fuel' with
      | zero => exact .inr ⟨.outOfFuel, .inr rfl, rfl⟩
      | succ fuel' =>
          cases text with
          | nil => exact absurd rfl ((parseValue_moves pow _).text_ne_nil ended)
          | cons char text =>
              rw [List.cons_append, parseValue_cons] at ended ⊢
              exact @valueAt_local _ _ pow fuel fuel' char NoPoint (ih fuel')
                (fun _ => parseString_local.mono fun _ place => place.1)
                (fun _ => parseNumber_local pow) (char :: text) value rest ended place

end JsonParser

open JsonParser

variable {pow : Codec.Double → Codec.Double → Codec.Double} {text rest tail : Bytes} {item : Json}

/-- The items whose end is only seen at the character behind it: a number, and a string, which a
NUL ends as well as a quote. -/
def Json.openEnded (item : Json) : Bool :=
  match item with
  | .number _ | .string _ => Bool.true
  | _ => Bool.false

/-- What `parse_number` reads is a number. -/
theorem parseNumber_ok {pow : Codec.Double → Codec.Double → Codec.Double}
    (ended : (parseNumber pow).run text = .ok (item, rest)) : ∃ number, item = .number number := by
  obtain ⟨negative, _, -, ended⟩ := bind_eq_ok ended
  obtain ⟨zero, _, -, ended⟩ := bind_eq_ok ended
  obtain ⟨whole, _, -, ended⟩ := bind_eq_ok ended
  obtain ⟨fraction, _, -, ended⟩ := bind_eq_ok ended
  obtain ⟨exponent, _, -, ended⟩ := bind_eq_ok ended
  obtain ⟨rfl, -⟩ := Prod.mk.inj (Except.ok.inj ended)
  exact ⟨_, rfl⟩

/-- A value that ends by itself does not look behind its end. -/
theorem parseValue_closed (pow : Codec.Double → Codec.Double → Codec.Double) (fuel fuel' : Nat)
    (ended : (parseValue pow fuel).run (text ++ tail) = .ok (item, rest ++ tail))
    (closed : item.openEnded = false) :
    (parseValue pow fuel').run (text ++ tail') = .ok (item, rest ++ tail') ∨
      Stuck Stop.Lost ((parseValue pow fuel').run (text ++ tail')) := by
  cases fuel with
  | zero => exact absurd ended (by rintro ⟨⟩)
  | succ fuel =>
      cases fuel' with
      | zero => exact .inr ⟨.outOfFuel, .inr rfl, rfl⟩
      | succ fuel' =>
          cases text with
          | nil => exact absurd rfl ((parseValue_moves pow _).text_ne_nil ended)
          | cons char text =>
              rw [List.cons_append, parseValue_cons] at ended ⊢
              have string (quote : char = 34) : item.openEnded = true := by
                subst quote
                obtain ⟨string, middle, -, there⟩ := bind_eq_ok ended
                obtain ⟨rfl, -⟩ := Prod.mk.inj (Except.ok.inj there)
                rfl
              have number (kind : char = 45 ∨ isDigit char = true) : item.openEnded = true := by
                rw [valueAt_number kind] at ended
                obtain ⟨number, rfl⟩ := parseNumber_ok ended
                rfl
              have other {holds : Prop} (isOpen : item.openEnded = true) : holds :=
                absurd (closed.symm.trans isOpen) Bool.false_ne_true
              exact @valueAt_local _ _ pow fuel fuel' char (fun _ => True)
                (parseValue_local pow fuel fuel') (fun quote => other (string quote))
                (fun kind => other (number kind)) (char :: text) item rest ended trivial

/-- **Memory behind a text.** Where the parser ends inside a text, and with a number or a string
neither at its end nor in front of a last point, it ends there with the same item whatever memory
follows, unless it leaves the memory. -/
theorem pcJSONParseText_local (parsed : pcJSONParseText pow (text ++ tail) = .ok (item, rest ++ tail))
    (place : item.openEnded = true → NoPoint rest) (tail' : Bytes) :
    pcJSONParseText pow (text ++ tail') = .ok (item, rest ++ tail') ∨
      pcJSONParseText pow (text ++ tail') = .error .outOfBounds := by
  obtain ⟨skipped, memory, here, there⟩ := bind_eq_ok parsed
  obtain ⟨middle, rfl, far⟩ := (parseValue_moves pow _).middle there
  have left : middle ≠ [] := by
    rintro rfl
    exact absurd far (by simp)
  have value : (parseValue pow ((text ++ tail').length + 1)).run (middle ++ tail') =
      .ok (item, rest ++ tail') ∨
      Stuck Stop.Lost ((parseValue pow ((text ++ tail').length + 1)).run (middle ++ tail')) := by
    cases kind : item.openEnded with
    | true => exact parseValue_local pow _ _ there (place kind)
    | false => exact parseValue_closed pow _ _ there kind
  have never := pcJSONParseText_ends pow (text ++ tail')
  rcases skip_local here left with same | ⟨stop, lost | lost, error⟩
  · rcases value with value | ⟨stop, lost | lost, error⟩
    · exact .inl ((run_of_ok same).trans value)
    · exact .inr ((run_of_ok same).trans (lost ▸ error))
    · exact absurd ((run_of_ok same).trans (lost ▸ error)) never
  · exact .inr (run_of_error (lost ▸ error))
  · exact absurd (run_of_error (lost ▸ error)) never

/-- An array that is closed by the last byte of a text, in front of a NUL and of other memory. -/
theorem pcJSONParseText_local_closed :
    pcJSONParseText (fun base _ => base) [91, 93, 44, 49] = .ok (.array [], [44, 49]) ∨
      pcJSONParseText (fun base _ => base) [91, 93, 44, 49] = .error .outOfBounds :=
  @pcJSONParseText_local (fun base _ => base) [91, 93] [] [0] (.array []) (by rfl) (by rintro ⟨⟩)
    [44, 49]

end Pomelo
