/-
# UTF-8 and its two repairs

A byte string is cut into pieces: well-formed characters, and the longest byte runs that start
like a character and do not end like one.  What happens to a broken run is a separate choice:

* values are only shown, so each broken run becomes one `U+FFFD` (`decodeLossy`);
* key names go back to the server, so each broken byte `b` becomes the surrogate `U+DC00 + b`
  (`decodeEscaped`), which `encodeEscaped` turns into that byte again.

Surrogates outside `U+DC80 .. U+DCFF` have no bytes; `encodeEscaped` refuses them.
-/
import Keyscope.Text.Basic

namespace Keyscope

/-- A byte string. -/
abbrev Bytes := List UInt8

namespace Utf8

/-! ## 1. Cutting bytes into pieces -/

/-- Why bytes do not form a character. -/
inductive Fault where
  /-- No character starts with this byte. -/
  | badStart
  /-- The next byte does not continue the character. -/
  | badContinuation
  /-- The bytes end inside the character. -/
  | truncated
  deriving DecidableEq, Repr

/-- A character, or a run of bytes that is none. -/
inductive Piece where
  | char (c : CodePoint)
  | broken (fault : Fault) (bytes : Bytes)
  deriving DecidableEq, Repr

/-- A character of which some bytes have been read: how many are missing, the range of the next
one, the bits so far, and the bytes themselves. -/
structure Partial where
  missing : Nat
  low : Nat
  high : Nat
  value : Nat
  taken : Bytes
  deriving DecidableEq, Repr

/-- The first byte of a character: a whole character, the start of a longer one, or a fault.
The ranges of the second byte leave out overlong forms, surrogates, and everything beyond the
last code point. -/
def start (b : UInt8) : Piece ⊕ Partial :=
  let n := b.toNat
  if n < 0x80 then .inl (.char (.ofNat n))
  else if n < 0xC2 then .inl (.broken .badStart [b])
  else if n < 0xE0 then .inr ⟨1, 0x80, 0xBF, n - 0xC0, [b]⟩
  else if n < 0xF0 then
    .inr ⟨2, if n = 0xE0 then 0xA0 else 0x80, if n = 0xED then 0x9F else 0xBF, n - 0xE0, [b]⟩
  else if n < 0xF5 then
    .inr ⟨3, if n = 0xF0 then 0x90 else 0x80, if n = 0xF4 then 0x8F else 0xBF, n - 0xF0, [b]⟩
  else .inl (.broken .badStart [b])

/-- One more byte of a character: it is complete, still incomplete, or `none` when the byte does
not continue it. -/
def Partial.push (p : Partial) (b : UInt8) : Option (Piece ⊕ Partial) :=
  let n := b.toNat
  if p.low ≤ n ∧ n ≤ p.high then
    let value := p.value * 64 + (n - 0x80)
    if p.missing ≤ 1 then some (.inl (.char (.ofNat value)))
    else some (.inr ⟨p.missing - 1, 0x80, 0xBF, value, p.taken ++ [b]⟩)
  else none

/-- The pieces of the bytes that follow an unfinished character, if there is one. -/
def piecesFrom : Option Partial → Bytes → List Piece
  | none, [] => []
  | some p, [] => [.broken .truncated p.taken]
  | none, b :: bs =>
    match start b with
    | .inl piece => piece :: piecesFrom none bs
    | .inr p => piecesFrom (some p) bs
  | some p, b :: bs =>
    match p.push b with
    | some (.inl piece) => piece :: piecesFrom none bs
    | some (.inr q) => piecesFrom (some q) bs
    | none =>
      .broken .badContinuation p.taken ::
        match start b with
        | .inl piece => piece :: piecesFrom none bs
        | .inr q => piecesFrom (some q) bs

/-- The bytes, cut into characters and broken runs. -/
def pieces (bs : Bytes) : List Piece := piecesFrom none bs

/-! ## 2. Decoding -/

/-- The surrogate that stands for a byte. -/
def escape (b : UInt8) : CodePoint := .ofNat (0xDC00 + b.toNat)

/-- One replacement character for a broken run. -/
def Piece.lossy : Piece → Text
  | .char c => [c]
  | .broken _ _ => [.ofNat 0xFFFD]

/-- One surrogate for each byte of a broken run. -/
def Piece.escaped : Piece → Text
  | .char c => [c]
  | .broken _ bs => bs.map escape

/-- How many bytes the piece is long. -/
def Piece.size : Piece → Nat
  | .char c => if c.val < 0x80 then 1 else if c.val < 0x800 then 2 else if c.val < 0x10000 then 3 else 4
  | .broken _ bs => bs.length

/-- The text of the bytes, each broken run replaced. -/
def decodeLossy (bs : Bytes) : Text := (pieces bs).flatMap Piece.lossy

/-- The text of the bytes, each broken byte escaped. -/
def decodeEscaped (bs : Bytes) : Text := (pieces bs).flatMap Piece.escaped

/-- Where decoding that repairs nothing gives up. -/
structure DecodeError where
  fault : Fault
  position : Nat
  bytes : Bytes
  deriving DecidableEq, Repr

/-- The text of pieces that start at a position, if none of them is broken. -/
def strictFrom (position : Nat) : List Piece → Except DecodeError Text
  | [] => .ok []
  | .char c :: ps => (strictFrom (position + (Piece.char c).size) ps).map (c :: ·)
  | .broken fault bytes :: _ => .error ⟨fault, position, bytes⟩

/-- The text of the bytes, or the first broken run. -/
def decodeStrict (bs : Bytes) : Except DecodeError Text := strictFrom 0 (pieces bs)

/-! ## 3. Encoding -/

/-- The bytes of a code point, taken as a number below `0x110000`. -/
def encodePoint (c : CodePoint) : Bytes :=
  let n := c.val
  if n < 0x80 then [.ofNat n]
  else if n < 0x800 then [.ofNat (0xC0 + n / 0x40), .ofNat (0x80 + n % 0x40)]
  else if n < 0x10000 then
    [.ofNat (0xE0 + n / 0x1000), .ofNat (0x80 + n / 0x40 % 0x40), .ofNat (0x80 + n % 0x40)]
  else
    [.ofNat (0xF0 + n / 0x40000), .ofNat (0x80 + n / 0x1000 % 0x40),
      .ofNat (0x80 + n / 0x40 % 0x40), .ofNat (0x80 + n % 0x40)]

/-- The surrogates that stand for a byte of a broken run. -/
def isEscape (c : CodePoint) : Bool := 0xDC80 ≤ c.val && c.val ≤ 0xDCFF

/-- The surrogates that cannot be encoded: the first one, its position, and the position after
the surrogates that directly follow it. -/
structure EncodeError where
  first : CodePoint
  start : Nat
  stop : Nat
  deriving DecidableEq, Repr

/-- The bytes of a text that starts at a position. -/
def encodeFrom (position : Nat) : Text → Except EncodeError Bytes
  | [] => .ok []
  | c :: t =>
    if isEscape c then
      (encodeFrom (position + 1) t).map (.ofNat (c.val - 0xDC00) :: ·)
    else if c.isSurrogate then
      .error ⟨c, position, position + 1 + (t.takeWhile CodePoint.isSurrogate).length⟩
    else (encodeFrom (position + 1) t).map (encodePoint c ++ ·)

/-- The bytes of a text, escaped bytes turned back. -/
def encodeEscaped (t : Text) : Except EncodeError Bytes := encodeFrom 0 t

end Utf8

end Keyscope
