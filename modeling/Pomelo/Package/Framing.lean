import Mathlib.Logic.Relation
import Pomelo.Package.Format

/-!
# Framing under any chunking

What the package format means, apart from the parser: `deframe` splits a byte
string into the packages it holds completely and the bytes that are left. The
parser is then read against it. A parser `Holds` the bytes of an unfinished
package, and feeding it a chunk delivers what `deframe` finds in those bytes
followed by the chunk (`pcPkgParserFeed_holds`). How a byte string is cut into
chunks is therefore invisible to the handler.
-/

namespace Pomelo

/-- A package: its type byte and its body. -/
structure Package where
  type : UInt8
  body : Bytes
  deriving DecidableEq, Repr

namespace Package

/-- The body fits the three length bytes of the head. -/
def Fits (package : Package) : Prop := package.body.length < pcPkgMaxBodyBytes

instance (package : Package) : Decidable package.Fits := inferInstanceAs (Decidable (_ < _))

/-- The four head bytes. -/
def head (package : Package) : Bytes :=
  package.type :: Codec.beBytes pcPkgBodyLenBytes package.body.length

/-- The bytes of a package. -/
def encode (package : Package) : Bytes := package.head ++ package.body

/-- The pointer a handler is given for a body; no memory is allocated for an
empty one. -/
def pointer (package : Package) : Option Bytes :=
  if package.body = [] then none else some package.body

@[simp] theorem length_head (package : Package) : package.head.length = pcPkgHeadBytes := by
  rw [head, List.length_cons, Codec.length_beBytes]
  rfl

@[simp] theorem length_encode (package : Package) :
    package.encode.length = pcPkgHeadBytes + package.body.length := by
  rw [encode, List.length_append, length_head]

end Package

/-- `pc_pkg_encode` writes the bytes of the package. -/
theorem pcPkgEncode_eq_encode (platform : Platform) (package : Package) (fits : package.Fits) :
    pcPkgEncode platform package.type (some package.body) package.body.length =
      { base := some package.encode, len := package.encode.length } := by
  have small : ¬ package.body.length > pcPkgMaxBodyBytes - 1 := by
    simp only [Package.Fits, pcPkgMaxBodyBytes] at fits ⊢
    omega
  rw [pcPkgEncode, if_neg small, Package.length_encode, Package.encode, Package.head,
    Option.getD_some, List.take_length]

/-- The body length announced by the first four bytes. -/
def announced (bytes : Bytes) : Nat :=
  Codec.beValue ((bytes.drop 1).take pcPkgBodyLenBytes)

/-- Only the head bytes announce anything. -/
theorem announced_eq (bytes : Bytes) :
    announced bytes = Codec.beValue ((bytes.take pcPkgHeadBytes).drop 1) := by
  rw [announced, List.drop_take]
  rfl

/-- Three bytes announce fewer than 2^24 body bytes. -/
theorem announced_lt (bytes : Bytes) : announced bytes < pcPkgMaxBodyBytes :=
  Nat.lt_of_lt_of_le (Codec.beValue_lt _)
    (Nat.pow_le_pow_right (by decide) (List.length_take_le ..))

/-- The packages that lie completely in a byte string, and the bytes left. -/
def deframe (bytes : Bytes) : List Package × Bytes :=
  if bytes.length < pcPkgHeadBytes + announced bytes then ([], bytes)
  else
    let rest := deframe (bytes.drop (pcPkgHeadBytes + announced bytes))
    ({ type := bytes.headD 0, body := (bytes.drop pcPkgHeadBytes).take (announced bytes) } :: rest.1,
      rest.2)
termination_by bytes.length
decreasing_by
  simp only [List.length_drop, pcPkgHeadBytes] at *
  omega

/-- An unfinished package is left as it is. -/
theorem deframe_of_lt {bytes : Bytes}
    (unfinished : bytes.length < pcPkgHeadBytes + announced bytes) : deframe bytes = ([], bytes) := by
  rw [deframe, if_pos unfinished]

@[simp] theorem deframe_nil : deframe [] = ([], []) := deframe_of_lt (by decide)

/-- The head announces the length of the body. -/
theorem announced_head_append (package : Package) (fits : package.Fits) (bytes : Bytes) :
    announced (package.head ++ bytes) = package.body.length := by
  have width : (Codec.beBytes pcPkgBodyLenBytes package.body.length).length = pcPkgBodyLenBytes :=
    Codec.length_beBytes _ _
  rw [announced, Package.head, List.cons_append, List.drop_succ_cons, List.drop_zero,
    List.take_append_of_le_length (Nat.le_of_eq width.symm),
    List.take_of_length_le (Nat.le_of_eq width)]
  exact Codec.beValue_beBytes_of_lt fits

/-- A whole package at the front is split off. -/
theorem deframe_encode_append (package : Package) (fits : package.Fits) (bytes : Bytes) :
    deframe (package.encode ++ bytes) = (package :: (deframe bytes).1, (deframe bytes).2) := by
  have size : announced (package.encode ++ bytes) = package.body.length := by
    rw [Package.encode, List.append_assoc, announced_head_append package fits]
  have whole : ¬ (package.encode ++ bytes).length < pcPkgHeadBytes + package.body.length := by
    rw [List.length_append, Package.length_encode]
    omega
  have tail : (package.encode ++ bytes).drop (pcPkgHeadBytes + package.body.length) = bytes := by
    rw [← Package.length_encode, List.drop_left]
  have body : ((package.encode ++ bytes).drop pcPkgHeadBytes).take package.body.length =
      package.body := by
    rw [Package.encode, List.append_assoc, ← package.length_head, List.drop_left, List.take_left]
  rw [deframe, size, if_neg whole, tail, body]
  rfl

/-- Concatenated packages followed by an unfinished one split as expected. -/
theorem deframe_encodings (packages : List Package) (fits : ∀ package ∈ packages, package.Fits)
    (rest : Bytes) :
    deframe ((packages.map Package.encode).flatten ++ rest) =
      (packages ++ (deframe rest).1, (deframe rest).2) := by
  induction packages with
  | nil => rfl
  | cons package packages ih =>
      rw [List.map_cons, List.flatten_cons, List.append_assoc,
        deframe_encode_append package (fits package (List.mem_cons_self ..)),
        ih fun other member => fits other (List.mem_cons_of_mem _ member)]
      rfl

/-- A handler that leaves the parser alone, delivering packages to the state. -/
def deliverTo {σ : Type} (deliver : UInt8 → Option Bytes → Nat → σ → σ) : OnPkgHandler σ :=
  fun type data len state => (state.1, deliver type data len state.2)

/-- The state after the delivery of packages in order, each once. -/
def deliverAll {σ : Type} (deliver : UInt8 → Option Bytes → Nat → σ → σ)
    (packages : List Package) (world : σ) : σ :=
  packages.foldl
    (fun world package => deliver package.type package.pointer package.body.length world) world

/-- A handler that does no more to the parser than reset it, which is done after the
handler anyway. -/
def OnPkgHandler.Tame {σ : Type} (handler : OnPkgHandler σ) : Prop :=
  ∀ type data len state, pcPkgParserReset (handler type data len state).1 = pcPkgParserReset state.1

/-- The handler is called for some packages in order, once for each. -/
inductive HandledAll {σ : Type} (handler : OnPkgHandler σ) : List Package → σ → σ → Prop where
  | nil (world : σ) : HandledAll handler [] world world
  | cons {package : Package} {packages : List Package} {world last : σ} (parser : PkgParser)
      (rest : HandledAll handler packages
        (handler package.type package.pointer package.body.length (parser, world)).2 last) :
      HandledAll handler (package :: packages) world last

/-- Packages that were handled one by one were delivered in their order. -/
theorem HandledAll.eq_deliverAll {σ : Type} {deliver : UInt8 → Option Bytes → Nat → σ → σ}
    {packages : List Package} {world last : σ}
    (handled : HandledAll (deliverTo deliver) packages world last) :
    last = deliverAll deliver packages world := by
  induction handled with
  | nil world => rfl
  | cons parser rest ih => exact ih

/-- The head bytes of an unfinished package are `bytes`, and no body is open. -/
structure PkgParser.HoldsHead (parser : PkgParser) (bytes : Bytes) : Prop where
  state : parser.state = .head
  size : parser.headSize = pcPkgHeadBytes
  unfinished : bytes.length < pcPkgHeadBytes
  offset : parser.headOffset = bytes.length
  capacity : parser.headBuf.length = pcPkgHeadBytes
  read : parser.headBuf.take bytes.length = bytes
  buffer : parser.pkgBuf = none

/-- The head is complete and the body bytes read so far are those of `bytes`
behind it; the body may be complete too, between the two halves of a pass. -/
structure PkgParser.HoldsBody (parser : PkgParser) (bytes : Bytes) : Prop where
  state : parser.state = .body
  size : parser.headSize = pcPkgHeadBytes
  complete : pcPkgHeadBytes ≤ bytes.length
  head : parser.headBuf = bytes.take pcPkgHeadBytes
  announced : parser.pkgSize = announced bytes
  offset : pcPkgHeadBytes + parser.pkgOffset = bytes.length
  within : parser.pkgOffset ≤ parser.pkgSize
  buffer : (parser.pkgSize = 0 ∧ parser.pkgBuf = none) ∨
    ∃ block, parser.pkgSize ≠ 0 ∧ parser.pkgBuf = some block ∧
      block.length = parser.pkgSize ∧ block.take parser.pkgOffset = bytes.drop pcPkgHeadBytes

/-- The parser represents exactly the bytes of an unfinished package. -/
inductive PkgParser.Holds (parser : PkgParser) (bytes : Bytes) : Prop where
  | head (holds : parser.HoldsHead bytes)
  | body (holds : parser.HoldsBody bytes) (unfinished : parser.pkgOffset < parser.pkgSize)

/-- What a parser holds contains no whole package. -/
theorem PkgParser.Holds.deframe_eq {parser : PkgParser} {bytes : Bytes}
    (holds : parser.Holds bytes) : deframe bytes = ([], bytes) := by
  apply deframe_of_lt
  cases holds with
  | head holds =>
      have short := holds.unfinished
      omega
  | body holds unfinished =>
      have offset := holds.offset
      have size := holds.announced
      omega

/-- A freshly initialised parser holds nothing. -/
theorem pcPkgParserInit_holds : (pcPkgParserInit PkgParser.zeroed).Holds [] :=
  .head ⟨rfl, rfl, by decide, rfl, rfl, rfl, rfl⟩

/-- A reset parser holds nothing. -/
theorem pcPkgParserReset_holds {parser : PkgParser} (size : parser.headSize = pcPkgHeadBytes)
    (capacity : parser.headBuf.length = pcPkgHeadBytes) : (pcPkgParserReset parser).Holds [] :=
  .head ⟨rfl, size, by decide, rfl, capacity, rfl, rfl⟩

/-- A copy within a block leaves its length. -/
theorem length_memcpyAt {block : Bytes} {offset : Nat} {source : Bytes}
    (room : offset + source.length ≤ block.length) :
    (memcpyAt block offset source).length = block.length := by
  simp only [memcpyAt, List.length_append, List.length_take, List.length_drop]
  omega

/-- Up to the end of the copy, a block holds its old bytes and the copied ones. -/
theorem take_memcpyAt {block : Bytes} {offset count : Nat} {source : Bytes}
    (room : offset ≤ block.length) (stop : count = offset + source.length) :
    (memcpyAt block offset source).take count = block.take offset ++ source := by
  subst stop
  apply List.take_left'
  simp only [List.length_append, List.length_take]
  omega

section Pass

variable {parser : PkgParser} {bytes : Bytes} (data : Bytes) (offset : Nat)

/-- The bytes a pass copies: what is missing, or what is there. -/
private theorem length_take_drop (need : Nat) :
    ((data.drop offset).take (min need (data.length - offset))).length =
      min need (data.length - offset) := by
  rw [List.length_take, List.length_drop]
  omega

/-- Reading head bytes extends what the parser holds; a complete head opens the
body it announces. -/
theorem pcParsePkgHead_holds (holds : parser.HoldsHead bytes) :
    let len := min (pcPkgHeadBytes - bytes.length) (data.length - offset)
    let next := pcParsePkgHead parser data offset
    let got := bytes ++ (data.drop offset).take len
    next.2 = offset + len ∧
      (bytes.length + len < pcPkgHeadBytes ∧ next.1.HoldsHead got ∨
        bytes.length + len = pcPkgHeadBytes ∧ next.1.HoldsBody got) := by
  intro len next got
  have copied : ((data.drop offset).take len).length = len := length_take_drop data offset _
  have gotLength : got.length = bytes.length + len := by
    rw [List.length_append, copied]
  have short := holds.unfinished
  have room : parser.headOffset + ((data.drop offset).take len).length ≤ parser.headBuf.length := by
    rw [copied, holds.offset, holds.capacity]
    omega
  have capacity := length_memcpyAt room
  have read : (memcpyAt parser.headBuf parser.headOffset ((data.drop offset).take len)).take
      got.length = got := by
    rw [take_memcpyAt (by omega) (by rw [gotLength, copied, holds.offset]), holds.offset, holds.read]
  have needs : min (parser.headSize - parser.headOffset) (data.length - offset) = len := by
    rw [holds.size, holds.offset]
  by_cases complete : bytes.length + len = pcPkgHeadBytes
  · have whole : got.take pcPkgHeadBytes = got := List.take_of_length_le (by omega)
    have buf : memcpyAt parser.headBuf parser.headOffset ((data.drop offset).take len) = got :=
      (List.take_of_length_le (by rw [capacity, holds.capacity]; omega)).symm.trans read
    have stop : parser.headOffset + len = parser.headSize := by
      rw [holds.offset, holds.size, complete]
    simp only [next, pcParsePkgHead, needs, buf, stop, ↓reduceIte, true_and]
    refine Or.inr ⟨complete, ?_⟩
    constructor
    · rfl
    · exact holds.size
    · omega
    · exact whole.symm
    · rfl
    · change pcPkgHeadBytes + 0 = got.length
      omega
    · exact Nat.zero_le _
    · simp only [holds.buffer]
      by_cases empty : Codec.beValue ((got.drop 1).take (pcPkgHeadBytes - 1)) = 0
      · exact Or.inl ⟨empty, by simp only [empty, Nat.lt_irrefl, gt_iff_lt, ↓reduceIte]⟩
      · have positive := Nat.pos_of_ne_zero empty
        refine Or.inr ⟨_, empty, if_pos positive, List.length_replicate, ?_⟩
        rw [List.take_zero, List.drop_of_length_le (by omega)]
  · have stop : ¬ parser.headOffset + len = parser.headSize := by
      rw [holds.offset, holds.size]
      exact complete
    simp only [next, pcParsePkgHead, needs, stop, ↓reduceIte, true_and]
    refine Or.inl ⟨by omega, ?_⟩
    constructor
    · exact holds.state
    · exact holds.size
    · omega
    · rw [gotLength, holds.offset]
    · rw [capacity, holds.capacity]
    · exact read
    · exact holds.buffer

/-- The package a complete body belongs to. -/
private theorem encode_of_complete (bytes : Bytes) (complete : bytes.length = pcPkgHeadBytes + announced bytes) :
    ∃ package : Package, package.Fits ∧ package.encode = bytes ∧
      package.type = (bytes.take pcPkgHeadBytes).headD 0 ∧
        package.body = bytes.drop pcPkgHeadBytes := by
  match bytes, complete with
  | type :: rest, complete =>
      have digits : (rest.take pcPkgBodyLenBytes).length = pcPkgBodyLenBytes := by
        simp only [List.length_cons, pcPkgHeadBytes, announced] at complete
        rw [List.length_take]
        simp only [pcPkgBodyLenBytes]
        omega
      have size : (rest.drop pcPkgBodyLenBytes).length =
          Codec.beValue (rest.take pcPkgBodyLenBytes) := by
        change rest.length + 1 = 3 + 1 + Codec.beValue (rest.take 3) at complete
        simp only [List.length_drop, pcPkgBodyLenBytes]
        omega
      refine ⟨⟨type, rest.drop pcPkgBodyLenBytes⟩, ?_, ?_, rfl, rfl⟩
      · have bound := Codec.beValue_lt (rest.take pcPkgBodyLenBytes)
        rw [digits, ← size] at bound
        exact bound
      · have head : Codec.beBytes pcPkgBodyLenBytes (rest.drop pcPkgBodyLenBytes).length =
            rest.take pcPkgBodyLenBytes := by
          have spelled := Codec.beBytes_beValue (rest.take pcPkgBodyLenBytes)
          rwa [digits, ← size] at spelled
        simp only [Package.encode, Package.head, head, List.cons_append, List.take_append_drop]

/-- Reading body bytes extends what the parser holds; a complete body is
delivered, and the parser then holds nothing. -/
theorem pcParsePkgBody_holds {handler : OnPkgHandler σ} (tame : handler.Tame) (world : σ)
    (holds : parser.HoldsBody bytes) :
    let len := min (parser.pkgSize - parser.pkgOffset) (data.length - offset)
    let next := pcParsePkgBody handler parser world data offset
    let got := bytes ++ (data.drop offset).take len
    next.2 = offset + len ∧
      ((next.1.1.Holds got ∧ next.1.2 = world) ∨
        ∃ package : Package, package.Fits ∧ package.encode = got ∧ next.1.1.Holds [] ∧
          HandledAll handler [package] world next.1.2) := by
  intro len next got
  have copied : ((data.drop offset).take len).length = len := length_take_drop data offset _
  have gotLength : got.length = bytes.length + len := by
    rw [List.length_append, copied]
  have within := holds.within
  have shift := holds.offset
  have front : got.take pcPkgHeadBytes = bytes.take pcPkgHeadBytes :=
    List.take_append_of_le_length holds.complete
  have size : announced got = parser.pkgSize := by
    rw [holds.announced, announced_eq, announced_eq, front]
  have tail : got.drop pcPkgHeadBytes =
      bytes.drop pcPkgHeadBytes ++ (data.drop offset).take len :=
    List.drop_append_of_le_length holds.complete
  have headLength : (bytes.take pcPkgHeadBytes).length = pcPkgHeadBytes := by
    rw [List.length_take]
    exact Nat.min_eq_left holds.complete
  -- The block after the copy, when there is one.
  have filled : (parser.pkgSize = 0 ∧ parser.pkgBuf.map
          (fun block => memcpyAt block parser.pkgOffset ((data.drop offset).take len)) = none) ∨
      ∃ block, parser.pkgSize ≠ 0 ∧ parser.pkgBuf.map
          (fun block => memcpyAt block parser.pkgOffset ((data.drop offset).take len)) = some block ∧
        block.length = parser.pkgSize ∧
          block.take (parser.pkgOffset + len) = got.drop pcPkgHeadBytes := by
    rcases holds.buffer with ⟨empty, buffer⟩ | ⟨block, nonempty, buffer, capacity, read⟩
    · exact Or.inl ⟨empty, by rw [buffer, Option.map_none]⟩
    · refine Or.inr ⟨memcpyAt block parser.pkgOffset ((data.drop offset).take len), nonempty, ?_, ?_,
        ?_⟩
      · rw [buffer, Option.map_some]
      · rw [length_memcpyAt (by rw [copied]; omega), capacity]
      · rw [take_memcpyAt (by omega) (by rw [copied]), read, tail]
  by_cases complete : parser.pkgOffset + len = parser.pkgSize
  · obtain ⟨package, fits, encodes, type, body⟩ :=
      encode_of_complete got (by rw [size]; omega)
    have bodyLength : package.body.length = parser.pkgSize := by
      rw [body, List.length_drop]
      omega
    have pointer : parser.pkgBuf.map
        (fun block => memcpyAt block parser.pkgOffset ((data.drop offset).take len)) =
          package.pointer := by
      rcases filled with ⟨empty, buffer⟩ | ⟨block, nonempty, buffer, capacity, read⟩
      · have nil : package.body = [] := List.length_eq_zero_iff.mp (bodyLength.trans empty)
        rw [buffer, Package.pointer, if_pos nil]
      · have cons : ¬ package.body = [] := fun nil => nonempty (by
          rw [← bodyLength, nil, List.length_nil])
        have block_eq : block = package.body := by
          rw [body, ← read, List.take_of_length_le (by omega)]
        rw [buffer, block_eq, Package.pointer, if_neg cons]
    simp only [next, pcParsePkgBody, complete, ↓reduceIte, len, true_and]
    refine Or.inr ⟨package, fits, encodes, ?_, ?_⟩
    · rw [tame]
      exact pcPkgParserReset_holds holds.size (by simp only [holds.head, headLength])
    · rw [holds.head, ← front, ← type, pointer, ← bodyLength]
      exact .cons _ (.nil _)
  · simp only [next, pcParsePkgBody, complete, ↓reduceIte, len, true_and]
    refine Or.inl ⟨.body ⟨holds.state, holds.size, ?_, ?_, size.symm, ?_, ?_, filled⟩ ?_, trivial⟩
    · have whole := holds.complete
      omega
    · exact holds.head.trans front.symm
    · change pcPkgHeadBytes + (parser.pkgOffset + len) = got.length
      omega
    · change parser.pkgOffset + len ≤ parser.pkgSize
      omega
    · change parser.pkgOffset + len < parser.pkgSize
      omega

/-- In a body the pass goes on with the body. -/
theorem pcPkgParserFeedPass_of_body (handler : OnPkgHandler σ) (world : σ)
    (state : parser.state = .body) :
    pcPkgParserFeedPass handler data offset parser world =
      pcParsePkgBody handler parser world data offset := by
  have notHead : parser.state ≠ .head := by rw [state]; decide
  simp only [pcPkgParserFeedPass, if_neg notHead, if_pos state]

/-- In a head the pass completes the head, and goes on with the body where nothing is to be
read. -/
theorem pcPkgParserFeedPass_of_head (handler : OnPkgHandler σ) (world : σ)
    (state : parser.state = .head) :
    pcPkgParserFeedPass handler data offset parser world =
      let head := pcParsePkgHead parser data offset
      if head.1.state = .body then pcParsePkgBody handler head.1 world data head.2
      else ((head.1, world), head.2) := by
  simp only [pcPkgParserFeedPass, if_pos state]

/-- A pass consumes at least one byte and either extends what the parser holds
or completes exactly one package. -/
theorem pcPkgParserFeedPass_holds {handler : OnPkgHandler σ} (tame : handler.Tame) (world : σ)
    (holds : parser.Holds bytes) (more : offset < data.length) :
    let next := pcPkgParserFeedPass handler data offset parser world
    ∃ len, 0 < len ∧ offset + len ≤ data.length ∧ next.2 = offset + len ∧
      ((next.1.1.Holds (bytes ++ (data.drop offset).take len) ∧ next.1.2 = world) ∨
        ∃ package : Package, package.Fits ∧
          package.encode = bytes ++ (data.drop offset).take len ∧ next.1.1.Holds [] ∧
            HandledAll handler [package] world next.1.2) := by
  intro next
  cases holds with
  | body holds unfinished =>
      refine ⟨min (parser.pkgSize - parser.pkgOffset) (data.length - offset), by omega, by omega, ?_⟩
      simp only [next, pcPkgParserFeedPass_of_body data offset _ world holds.state]
      exact pcParsePkgBody_holds data offset tame world holds
  | head holds =>
      have short := holds.unfinished
      have pass := pcPkgParserFeedPass_of_head data offset handler world holds.state
      obtain ⟨behind, ⟨_, opened⟩ | ⟨complete, opened⟩⟩ :=
        pcParsePkgHead_holds data offset holds
      · refine ⟨min (pcPkgHeadBytes - bytes.length) (data.length - offset), by omega, by omega, ?_⟩
        have notBody : (pcParsePkgHead parser data offset).1.state ≠ .body := by
          rw [opened.state]
          decide
        simp only [next, pass, if_neg notBody]
        exact ⟨behind, Or.inl ⟨.head opened, trivial⟩⟩
      · -- The body is read in the same pass, from behind the head.
        have result := pcParsePkgBody_holds data (pcParsePkgHead parser data offset).2 tame world
          opened
        rw [behind] at result
        generalize lenEq : min ((pcParsePkgHead parser data offset).1.pkgSize -
          (pcParsePkgHead parser data offset).1.pkgOffset)
            (data.length - (offset + min (pcPkgHeadBytes - bytes.length) (data.length - offset))) =
              len at result
        refine ⟨min (pcPkgHeadBytes - bytes.length) (data.length - offset) + len, by omega, by omega,
          ?_⟩
        simp only [next, pass, if_pos opened.state, behind]
        rw [List.take_add, ← List.append_assoc, List.drop_drop, ← Nat.add_assoc]
        exact result

end Pass

variable (deliver : UInt8 → Option Bytes → Nat → σ → σ)

/-- Two lists of packages are delivered one after the other. -/
theorem deliverAll_append (first second : List Package) (world : σ) :
    deliverAll deliver (first ++ second) world =
      deliverAll deliver second (deliverAll deliver first world) :=
  List.foldl_append

/-- The loop handles what the held bytes and the rest of the chunk contain, and holds
what is left of them. -/
theorem pcPkgParserFeedLoop_holds {handler : OnPkgHandler σ} (tame : handler.Tame) {data : Bytes}
    {passes offset : Nat} {parser : PkgParser} {bytes : Bytes} (world : σ)
    (holds : parser.Holds bytes) (within : offset ≤ data.length)
    (enough : data.length ≤ offset + passes) :
    let next := pcPkgParserFeedLoop handler data passes offset (parser, world)
    next.1.Holds (deframe (bytes ++ data.drop offset)).2 ∧
      HandledAll handler (deframe (bytes ++ data.drop offset)).1 world next.2 := by
  induction passes generalizing offset parser bytes world with
  | zero =>
      have done : data.drop offset = [] := List.drop_of_length_le (by omega)
      rw [done, List.append_nil, holds.deframe_eq]
      exact ⟨holds, .nil world⟩
  | succ passes ih =>
      by_cases more : offset < data.length
      · obtain ⟨len, progress, bound, behind, step⟩ :=
          pcPkgParserFeedPass_holds data offset tame world holds more
        -- What is held and unread before the pass, cut at the end of the pass.
        have cut : bytes ++ data.drop offset =
            (bytes ++ (data.drop offset).take len) ++ data.drop (offset + len) := by
          rw [List.append_assoc, ← List.drop_drop, List.take_append_drop]
        simp only [pcPkgParserFeedLoop, if_pos more]
        generalize pcPkgParserFeedPass handler data offset parser world = next at *
        obtain ⟨⟨after, handled⟩, stop⟩ := next
        obtain rfl : stop = offset + len := behind
        rcases step with ⟨extended, rfl⟩ | ⟨package, fits, encodes, emptied, called⟩
        · rw [cut]
          exact ih handled extended bound (by omega)
        · rw [cut, ← encodes, deframe_encode_append package fits]
          obtain ⟨held, rest⟩ := ih handled emptied bound (by omega)
          rw [List.nil_append] at held rest
          cases called with
          | cons parser last =>
              cases last
              exact ⟨held, .cons parser rest⟩
      · have done : data.drop offset = [] := List.drop_of_length_le (by omega)
        simp only [pcPkgParserFeedLoop, if_neg more, done, List.append_nil, holds.deframe_eq]
        exact ⟨holds, .nil world⟩

/-- Feeding a chunk handles what the held bytes and the chunk contain, and holds what is
left of them. -/
theorem pcPkgParserFeed_handledAll {handler : OnPkgHandler σ} (tame : handler.Tame)
    {parser : PkgParser} {bytes : Bytes} (world : σ) (chunk : Bytes) (holds : parser.Holds bytes) :
    let next := pcPkgParserFeed handler chunk (parser, world)
    next.1.Holds (deframe (bytes ++ chunk)).2 ∧
      HandledAll handler (deframe (bytes ++ chunk)).1 world next.2 :=
  pcPkgParserFeedLoop_holds tame world holds (Nat.zero_le _) (Nat.le_of_eq (Nat.zero_add _).symm)

/-- Feeding a chunk delivers what the held bytes and the chunk contain, and
holds what is left of them. -/
theorem pcPkgParserFeed_holds {parser : PkgParser} {bytes : Bytes} (world : σ) (chunk : Bytes)
    (holds : parser.Holds bytes) :
    let next := pcPkgParserFeed (deliverTo deliver) chunk (parser, world)
    next.1.Holds (deframe (bytes ++ chunk)).2 ∧
      next.2 = deliverAll deliver (deframe (bytes ++ chunk)).1 world := by
  obtain ⟨held, handled⟩ :=
    pcPkgParserFeed_handledAll (show (deliverTo deliver).Tame from fun _ _ _ _ => rfl) world chunk
      holds
  exact ⟨held, handled.eq_deliverAll⟩

/-- One call of a handler. -/
def OnPkgHandler.Calls (handler : OnPkgHandler σ) (world next : σ) : Prop :=
  ∃ type data len parser, next = (handler type data len (parser, world)).2

/-- A body that is completed calls the handler once. -/
theorem pcParsePkgBody_calls (handler : OnPkgHandler σ) (parser : PkgParser) (world : σ)
    (chunk : Bytes) (offset : Nat) :
    Relation.ReflTransGen handler.Calls world
      (pcParsePkgBody handler parser world chunk offset).1.2 := by
  simp only [pcParsePkgBody]
  split
  · exact .single ⟨_, _, _, _, rfl⟩
  · exact .refl

/-- Whatever the parser holds, feeding it does nothing but call the handler. -/
theorem pcPkgParserFeed_calls (handler : OnPkgHandler σ) (chunk : Bytes) (state : PkgParser × σ) :
    Relation.ReflTransGen handler.Calls state.2 (pcPkgParserFeed handler chunk state).2 := by
  rw [pcPkgParserFeed]
  generalize chunk.length = passes
  generalize (0 : Nat) = offset
  induction passes generalizing offset state with
  | zero => exact .refl
  | succ passes ih =>
      rw [pcPkgParserFeedLoop]
      split
      · refine Relation.ReflTransGen.trans ?_ (ih _ _)
        simp only [pcPkgParserFeedPass]
        generalize (if state.1.state = .head then pcParsePkgHead state.1 chunk offset
          else (state.1, offset)) = head
        split
        · exact pcParsePkgBody_calls ..
        · exact .refl
      · exact .refl

/-- A byte string that is long enough starts with a whole package. -/
theorem exists_encode_append (bytes : Bytes)
    (whole : ¬ bytes.length < pcPkgHeadBytes + announced bytes) :
    ∃ package : Package, package.Fits ∧
      bytes = package.encode ++ bytes.drop (pcPkgHeadBytes + announced bytes) := by
  have front : announced (bytes.take (pcPkgHeadBytes + announced bytes)) = announced bytes := by
    rw [announced_eq, List.take_take, Nat.min_eq_left (Nat.le_add_right _ _), ← announced_eq]
  obtain ⟨package, fits, encodes, -, -⟩ :=
    encode_of_complete (bytes.take (pcPkgHeadBytes + announced bytes)) (by
      rw [front, List.length_take]
      omega)
  refine ⟨package, fits, ?_⟩
  rw [encodes, List.take_append_drop]

/-- Splitting a byte string is splitting a first part of it, and then what that
part leaves over together with the rest. -/
theorem deframe_append (bytes more : Bytes) :
    deframe (bytes ++ more) =
      ((deframe bytes).1 ++ (deframe ((deframe bytes).2 ++ more)).1,
        (deframe ((deframe bytes).2 ++ more)).2) := by
  induction bytes using deframe.induct with
  | case1 bytes unfinished =>
      rw [deframe_of_lt unfinished]
      rfl
  | case2 bytes whole ih =>
      obtain ⟨package, fits, split⟩ := exists_encode_append _ whole
      rw [split, List.append_assoc, deframe_encode_append package fits,
        deframe_encode_append package fits, ih]
      rfl

/-- The parser after some chunks, fed one after another. -/
def feedChunks (handler : OnPkgHandler σ) (chunks : List Bytes) (state : PkgParser × σ) :
    PkgParser × σ :=
  chunks.foldl (fun state chunk => pcPkgParserFeed handler chunk state) state

/-- Feeding chunks delivers what the held bytes and all chunks together contain,
wherever the cuts are. -/
theorem feedChunks_holds {parser : PkgParser} {bytes : Bytes} (world : σ) (chunks : List Bytes)
    (holds : parser.Holds bytes) :
    let next := feedChunks (deliverTo deliver) chunks (parser, world)
    next.1.Holds (deframe (bytes ++ chunks.flatten)).2 ∧
      next.2 = deliverAll deliver (deframe (bytes ++ chunks.flatten)).1 world := by
  induction chunks generalizing parser bytes world with
  | nil =>
      rw [List.flatten_nil, List.append_nil, holds.deframe_eq]
      exact ⟨holds, rfl⟩
  | cons chunk chunks ih =>
      obtain ⟨held, delivered⟩ := pcPkgParserFeed_holds deliver world chunk holds
      have rest := ih (pcPkgParserFeed (deliverTo deliver) chunk (parser, world)).2 held
      rw [List.flatten_cons, ← List.append_assoc, deframe_append, deliverAll_append, ← delivered]
      exact rest

/-- The outputs of `pc_pkg_encode` for some packages, one after another. -/
def pcPkgEncodeAll (platform : Platform) (packages : List Package) : Bytes :=
  (packages.map fun package =>
    (pcPkgEncode platform package.type (some package.body) package.body.length).base.getD []).flatten

/-- Encoded packages follow each other without a gap. -/
theorem pcPkgEncodeAll_eq (platform : Platform) {packages : List Package}
    (fits : ∀ package ∈ packages, package.Fits) :
    pcPkgEncodeAll platform packages = (packages.map Package.encode).flatten := by
  refine congrArg List.flatten (List.map_congr_left fun package member => ?_)
  rw [pcPkgEncode_eq_encode platform package (fits package member), Option.getD_some]

/-- The packages wholly contained in the first `count` bytes of their
concatenation. -/
def wholePackages : List Package → (count : Nat) → List Package
  | [], _ => []
  | package :: packages, count =>
      if package.encode.length ≤ count then
        package :: wholePackages packages (count - package.encode.length)
      else []

/-- Whole packages are packages that were encoded. -/
theorem wholePackages_subset {packages : List Package} {count : Nat} :
    ∀ package ∈ wholePackages packages count, package ∈ packages := by
  intro package member
  induction packages generalizing count with
  | nil => exact member
  | cons first packages ih =>
      by_cases whole : first.encode.length ≤ count
      · rw [wholePackages, if_pos whole, List.mem_cons] at member
        rcases member with rfl | member
        · exact List.mem_cons_self ..
        · exact List.mem_cons_of_mem _ (ih member)
      · rw [wholePackages, if_neg whole] at member
        exact absurd member List.not_mem_nil

/-- A part of a package that stops before its end is unfinished. -/
theorem deframe_take_encode (package : Package) (fits : package.Fits) {count : Nat}
    (short : count < package.encode.length) (rest : Bytes) :
    deframe ((package.encode ++ rest).take count) = ([], (package.encode ++ rest).take count) := by
  apply deframe_of_lt
  have length : ((package.encode ++ rest).take count).length = count := by
    rw [List.length_take, List.length_append]
    omega
  rw [length]
  by_cases headed : pcPkgHeadBytes ≤ count
  · rw [announced_eq, List.take_take, Nat.min_eq_left headed, ← announced_eq, Package.encode,
      List.append_assoc, announced_head_append package fits]
    rwa [Package.length_encode] at short
  · omega

/-- The first bytes of some packages split into the packages wholly contained in
them and the bytes behind these. -/
theorem deframe_take_encodings {packages : List Package}
    (fits : ∀ package ∈ packages, package.Fits) (count : Nat) :
    deframe ((packages.map Package.encode).flatten.take count) =
      (wholePackages packages count,
        ((packages.map Package.encode).flatten.take count).drop
          ((wholePackages packages count).map Package.encode).flatten.length) := by
  induction packages generalizing count with
  | nil => simp only [List.map_nil, List.flatten_nil, List.take_nil, List.drop_nil, deframe_nil,
      wholePackages]
  | cons package packages ih =>
      have first := fits package (List.mem_cons_self ..)
      rw [List.map_cons, List.flatten_cons, wholePackages]
      by_cases whole : package.encode.length ≤ count
      · have front : (package.encode ++ (packages.map Package.encode).flatten).take count =
            package.encode ++
              (packages.map Package.encode).flatten.take (count - package.encode.length) := by
          rw [List.take_append, List.take_of_length_le whole]
        rw [front, if_pos whole, deframe_encode_append package first,
          ih (fun other member => fits other (List.mem_cons_of_mem _ member)), List.map_cons,
          List.flatten_cons, List.length_append, List.drop_append]
        simp only [Nat.add_sub_cancel_left, Nat.le_add_right, List.drop_of_length_le,
          List.nil_append]
      · rw [if_neg whole, deframe_take_encode package first (Nat.lt_of_not_le whole), List.map_nil,
          List.flatten_nil, List.length_nil, List.drop_zero]

/-- An unfinished package can be completed: zeros are a body like any other. -/
theorem exists_encode_of_unfinished {bytes : Bytes}
    (unfinished : bytes.length < pcPkgHeadBytes + announced bytes) :
    ∃ package : Package, package.Fits ∧ bytes <+: package.encode := by
  let padded := bytes ++ List.replicate (pcPkgHeadBytes + pcPkgMaxBodyBytes) 0
  have length : padded.length = bytes.length + (pcPkgHeadBytes + pcPkgMaxBodyBytes) := by
    rw [List.length_append, List.length_replicate]
  have announces : announced padded < pcPkgMaxBodyBytes := announced_lt padded
  obtain ⟨package, fits, split⟩ :=
    exists_encode_append padded (by rw [length]; omega)
  have size : package.encode.length = pcPkgHeadBytes + announced padded := by
    have lengths : padded.length =
        package.encode.length + (padded.length - (pcPkgHeadBytes + announced padded)) := by
      rw [← List.length_drop, ← List.length_append, ← split]
    omega
  have covers : bytes.length ≤ package.encode.length := by
    rw [size]
    by_cases headed : pcPkgHeadBytes ≤ bytes.length
    · have same : announced padded = announced bytes := by
        rw [announced_eq, List.take_append_of_le_length headed, ← announced_eq]
      omega
    · omega
  exact ⟨package, fits, List.prefix_of_prefix_length_le (List.prefix_append _ _)
    (split ▸ List.prefix_append _ _) covers⟩

/-- Every byte string is the beginning of some encoded packages. -/
theorem exists_packages_prefix (platform : Platform) (bytes : Bytes) :
    ∃ packages : List Package, (∀ package ∈ packages, package.Fits) ∧
      bytes <+: pcPkgEncodeAll platform packages := by
  induction bytes using deframe.induct with
  | case1 bytes unfinished =>
      obtain ⟨package, fits, start⟩ := exists_encode_of_unfinished unfinished
      have single : ∀ other ∈ [package], other.Fits := by
        intro other member
        rwa [List.mem_singleton.mp member]
      refine ⟨[package], single, ?_⟩
      rw [pcPkgEncodeAll_eq platform single, List.map_singleton, List.flatten_singleton]
      exact start
  | case2 bytes whole ih =>
      obtain ⟨package, fits, split⟩ := exists_encode_append _ whole
      obtain ⟨packages, others, tail⟩ := ih
      have all : ∀ other ∈ package :: packages, other.Fits := List.forall_mem_cons.mpr ⟨fits, others⟩
      refine ⟨package :: packages, all, ?_⟩
      rw [pcPkgEncodeAll_eq platform others] at tail
      rw [pcPkgEncodeAll_eq platform all, List.map_cons, List.flatten_cons, split]
      exact (List.prefix_append_right_inj _).mpr tail

/-- The parser and its handler under any chunking: for the first `count` bytes
of encoded packages, cut into chunks in any way, the handler is called for the
packages wholly contained in them, in order, and the parser holds the bytes
behind these; the rest of the bytes later delivers the rest of the packages. -/
theorem feedChunks_pcPkgEncodeAll (platform : Platform) (world : σ) (packages : List Package)
    (fits : ∀ package ∈ packages, package.Fits) (count : Nat) (chunks : List Bytes)
    (cut : chunks.flatten = (pcPkgEncodeAll platform packages).take count) :
    let fed := feedChunks (deliverTo deliver) chunks (pcPkgParserInit PkgParser.zeroed, world)
    let contained := wholePackages packages count
    fed.2 = deliverAll deliver contained world ∧
      fed.1.Holds (chunks.flatten.drop (pcPkgEncodeAll platform contained).length) ∧
        ∀ later : List Bytes, later.flatten = (pcPkgEncodeAll platform packages).drop count →
          (feedChunks (deliverTo deliver) later fed).1.Holds [] ∧
            (feedChunks (deliverTo deliver) later fed).2 = deliverAll deliver packages world := by
  intro fed contained
  have encoded := pcPkgEncodeAll_eq platform fits
  have encodedContained : pcPkgEncodeAll platform contained =
      (contained.map Package.encode).flatten :=
    pcPkgEncodeAll_eq platform fun package member => fits package (wholePackages_subset _ member)
  have first := feedChunks_holds deliver world chunks pcPkgParserInit_holds
  rw [List.nil_append] at first
  have split : deframe chunks.flatten =
      (contained, chunks.flatten.drop (contained.map Package.encode).flatten.length) := by
    rw [cut, encoded, deframe_take_encodings fits]
  refine ⟨?_, ?_, ?_⟩
  · rw [first.2, split]
  · rw [split] at first
    rw [encodedContained]
    exact first.1
  · intro later rest
    have all := feedChunks_holds deliver world (chunks ++ later) pcPkgParserInit_holds
    have whole : [] ++ (chunks ++ later).flatten = (packages.map Package.encode).flatten ++ [] := by
      rw [List.nil_append, List.append_nil, List.flatten_append, cut, rest, List.take_append_drop,
        encoded]
    rw [whole, deframe_encodings packages fits, deframe_nil, List.append_nil] at all
    have twice : feedChunks (deliverTo deliver) later fed =
        feedChunks (deliverTo deliver) (chunks ++ later) (pcPkgParserInit PkgParser.zeroed, world) :=
      List.foldl_append.symm
    rw [twice]
    exact all

/-- A heartbeat and a two-byte data package, cut inside both heads and before
the last byte. -/
theorem feedChunks_pcPkgEncodeAll_heartbeat_data :
    let fed := feedChunks (deliverTo fun type data len seen => seen ++ [(type, data, len)])
      [[3, 0], [0, 0, 4, 0], [0, 2, 7]] (pcPkgParserInit PkgParser.zeroed, [])
    fed.2 = [(3, none, 0)] ∧ fed.1.Holds [4, 0, 0, 2, 7] ∧
      ∀ later : List Bytes, later.flatten = [9] →
        (feedChunks (deliverTo fun type data len seen => seen ++ [(type, data, len)]) later fed).2 =
          [(3, none, 0), (4, some [7, 9], 2)] := by
  intro fed
  obtain ⟨delivered, holds, resume⟩ :=
    feedChunks_pcPkgEncodeAll (fun type data len seen => seen ++ [(type, data, len)]) ⟨64, true⟩ []
      [⟨3, []⟩, ⟨4, [7, 9]⟩] (by decide) 9 [[3, 0], [0, 0, 4, 0], [0, 2, 7]] (by decide)
  exact ⟨delivered, holds, fun later rest => (resume later rest).2⟩

end Pomelo
