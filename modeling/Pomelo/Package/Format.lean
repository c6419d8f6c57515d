import Pomelo.Codec.BigEndian
import Mathlib.Algebra.Order.Group.Int

/-!
# The package format

The framing layer of `pr_pkg.c`: a four-byte head, one byte of type and three
big-endian bytes of body length, followed by the body. The parser keeps a
partly read head or body between calls and hands every complete package to its
handler. The handler is given the parser as well as its own state, because the
transport's handlers reset the parser they are called from.
-/

namespace Pomelo

/-- A block of memory, as far as it has been written. -/
abbrev Bytes := List UInt8

/-- What the code can see of the platform: the width of `uv_buf_t.len`, which is
`size_t` on Unix and a 32-bit `ULONG` on Windows, and the sign of `char`. -/
structure Platform where
  uvLenBits : Nat
  charSigned : Bool

/-- The value of `uv_buf_t.len` after the assignment of a signed integer. -/
def Platform.uvLen (platform : Platform) (value : Int) : Nat :=
  (value % 2 ^ platform.uvLenBits).toNat

/-- `uv_buf_t`. A null `base` is `none`. -/
structure UvBuf where
  base : Option Bytes
  len : Nat
  deriving DecidableEq, Repr

/-- `pc_pkg_type`, the types the protocol knows. -/
inductive PkgType where
  | handshake
  | handshakeAck
  | heartbeat
  | data
  | kick
  deriving DecidableEq, Repr

/-- The byte of a package type on the wire. -/
def PkgType.code : PkgType → UInt8
  | .handshake => 1
  | .handshakeAck => 2
  | .heartbeat => 3
  | .data => 4
  | .kick => 5

/-- The package type of a byte, if the protocol knows it. -/
def PkgType.ofCode? (code : UInt8) : Option PkgType :=
  [PkgType.handshake, .handshakeAck, .heartbeat, .data, .kick].find? (fun type => type.code = code)

/-- The code of a package that is known is the code of its type. -/
theorem PkgType.code_of_ofCode? {code : UInt8} {type : PkgType}
    (known : PkgType.ofCode? code = some type) : code = type.code := by
  have same := List.find?_some known
  exact (of_decide_eq_true same).symm

/-- `PC_PKG_BODY_LEN_BYTES` -/
def pcPkgBodyLenBytes : Nat := 3

/-- `PC_PKG_HEAD_BYTES` -/
def pcPkgHeadBytes : Nat := 4

/-- `PC_PKG_MAX_BODY_BYTES` -/
def pcPkgMaxBodyBytes : Nat := 2 ^ 24

/-- `pc_pkg_encode`: the package of `len` bytes at `data`, or the length `-1`
and no memory for a body that does not fit the three length bytes. -/
def pcPkgEncode (platform : Platform) (type : UInt8) (data : Option Bytes) (len : Nat) : UvBuf :=
  if len > pcPkgMaxBodyBytes - 1 then
    { base := none, len := platform.uvLen (-1) }
  else
    -- The length bytes are written from the last to the first; for an empty body
    -- they keep the zeros of the `memset`.
    { base := some (type :: Codec.beBytes pcPkgBodyLenBytes len ++ (data.getD []).take len)
      len := pcPkgHeadBytes + len }

/-- `pc_pkg_parser_state` -/
inductive PkgParserState where
  | head
  | body
  deriving DecidableEq, Repr

/-- `pc_pkg_parser_t`, without the handler and its data, which are arguments of
the functions that call it. -/
structure PkgParser where
  headBuf : Bytes
  headOffset : Nat
  headSize : Nat
  pkgBuf : Option Bytes
  pkgOffset : Nat
  pkgSize : Nat
  state : PkgParserState
  deriving DecidableEq, Repr

/-- A parser in the zeroed memory of `tr_uv_tcp_create`. -/
def PkgParser.zeroed : PkgParser where
  headBuf := List.replicate pcPkgHeadBytes 0
  headOffset := 0
  headSize := 0
  pkgBuf := none
  pkgOffset := 0
  pkgSize := 0
  state := .head

/-- `pc_pkg_parser_init` -/
def pcPkgParserInit (parser : PkgParser) : PkgParser :=
  { parser with
    headSize := pcPkgHeadBytes
    headOffset := 0
    pkgOffset := 0
    pkgSize := 0
    state := .head }

/-- `pc_pkg_parser_reset` -/
def pcPkgParserReset (parser : PkgParser) : PkgParser :=
  { parser with
    headOffset := 0
    pkgBuf := none
    pkgOffset := 0
    pkgSize := 0
    state := .head }

/-- `memcpy` into a block at an offset. -/
def memcpyAt (block : Bytes) (offset : Nat) (source : Bytes) : Bytes :=
  block.take offset ++ source ++ block.drop (offset + source.length)

/-- `pc__parse_pkg_head`: the parser after the head bytes found at `offset`, and
the offset behind them. -/
def pcParsePkgHead (parser : PkgParser) (data : Bytes) (offset : Nat) : PkgParser × Nat :=
  let needLen := parser.headSize - parser.headOffset
  let dataLen := data.length - offset
  let len := min needLen dataLen
  let parser := { parser with
    headBuf := memcpyAt parser.headBuf parser.headOffset ((data.drop offset).take len)
    headOffset := parser.headOffset + len }
  if parser.headOffset = parser.headSize then
    let pkgLen := Codec.beValue ((parser.headBuf.drop 1).take (pcPkgHeadBytes - 1))
    ({ parser with
        pkgBuf := if pkgLen > 0 then some (List.replicate pkgLen 0) else parser.pkgBuf
        pkgOffset := 0
        pkgSize := pkgLen
        state := .body }, offset + len)
  else
    (parser, offset + len)

/-- A package handler: the type byte, the body and its length, the parser the
handler is called from and the state it works on. -/
abbrev OnPkgHandler (σ : Type) :=
  UInt8 → Option Bytes → Nat → PkgParser × σ → PkgParser × σ

variable {σ : Type}

/-- `pc__parse_pkg_body`: copies the body bytes found at `offset`; a complete
body goes to the handler and resets the parser. -/
def pcParsePkgBody (handler : OnPkgHandler σ) (parser : PkgParser) (world : σ) (data : Bytes)
    (offset : Nat) : (PkgParser × σ) × Nat :=
  let needLen := parser.pkgSize - parser.pkgOffset
  let dataLen := data.length - offset
  let len := min needLen dataLen
  let parser := { parser with
    pkgBuf := parser.pkgBuf.map fun block =>
      memcpyAt block parser.pkgOffset ((data.drop offset).take len)
    pkgOffset := parser.pkgOffset + len }
  if parser.pkgOffset = parser.pkgSize then
    let handled := handler (parser.headBuf.headD 0) parser.pkgBuf parser.pkgSize (parser, world)
    ((pcPkgParserReset handled.1, handled.2), offset + len)
  else
    ((parser, world), offset + len)

/-- One pass through the loop of `pc_pkg_parser_feed`: a head that becomes
complete is followed by its body at once. -/
def pcPkgParserFeedPass (handler : OnPkgHandler σ) (data : Bytes) (offset : Nat)
    (parser : PkgParser) (world : σ) : (PkgParser × σ) × Nat :=
  let (parser, offset) :=
    if parser.state = .head then pcParsePkgHead parser data offset else (parser, offset)
  if parser.state = .body then
    pcParsePkgBody handler parser world data offset
  else
    ((parser, world), offset)

/-- The loop of `pc_pkg_parser_feed`. A pass that makes progress consumes a
byte, so a count of passes equal to the number of bytes never stops it early. -/
def pcPkgParserFeedLoop (handler : OnPkgHandler σ) (data : Bytes) :
    (passes : Nat) → (offset : Nat) → PkgParser × σ → PkgParser × σ
  | 0, _, state => state
  | passes + 1, offset, state =>
      if offset < data.length then
        let next := pcPkgParserFeedPass handler data offset state.1 state.2
        pcPkgParserFeedLoop handler data passes next.2 next.1
      else
        state

/-- `pc_pkg_parser_feed` -/
def pcPkgParserFeed (handler : OnPkgHandler σ) (data : Bytes) (state : PkgParser × σ) :
    PkgParser × σ :=
  pcPkgParserFeedLoop handler data data.length 0 state

end Pomelo
