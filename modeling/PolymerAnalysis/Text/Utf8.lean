import PolymerAnalysis.Text.Numeral

namespace PolymerAnalysis.Text

def isEncodable (t : Text) : Bool := t.all (!·.isSurrogate)

def byteSize (t : Text) : Nat := t.foldr (fun c size ↦ c.utf8Size + size) 0

/-- The code points that begin within the first `n` bytes. -/
def takeBytes (n : Nat) : Text → Text
  | [] => []
  | c :: cs => if n = 0 then [] else c :: takeBytes (n - c.utf8Size) cs

def dropBytes (n : Nat) : Text → Text
  | [] => []
  | c :: cs => if n = 0 then c :: cs else dropBytes (n - c.utf8Size) cs

def sliceBytes (t : Text) (start stop : Nat) : Text :=
  takeBytes (stop - start) (dropBytes start t)

/-- Carriage returns, alone or before a newline, become newlines. -/
def normalizeNewlines : Text → Text
  | [] => []
  | [c] => [if c = '\r' then '\n' else c]
  | c :: d :: cs =>
    if c = '\r' then
      if d = '\n' then '\n' :: normalizeNewlines cs else '\n' :: normalizeNewlines (d :: cs)
    else c :: normalizeNewlines (d :: cs)

namespace Utf8

inductive Fault where
  | startByte
  | continuationByte
  | truncated
deriving DecidableEq

structure DecodeError where
  fault : Fault
  position : Nat
deriving DecidableEq

def Fault.reason : Fault → Text
  | .startByte => "invalid start byte"
  | .continuationByte => "invalid continuation byte"
  | .truncated => "unexpected end of data"

/-- How many bytes follow a first byte, the range of the one right after it, and the first byte's bits. -/
structure Lead where
  following : Nat
  low : Nat
  high : Nat
  bits : Nat

def lead? (b : Nat) : Option Lead :=
  if b < 0x80 then some ⟨0, 0, 0, b⟩
  else if b < 0xC2 then none
  else if b < 0xE0 then some ⟨1, 0x80, 0xBF, b - 0xC0⟩
  else if b = 0xE0 then some ⟨2, 0xA0, 0xBF, 0⟩
  else if b = 0xED then some ⟨2, 0x80, 0x9F, 0xD⟩
  else if b < 0xF0 then some ⟨2, 0x80, 0xBF, b - 0xE0⟩
  else if b = 0xF0 then some ⟨3, 0x90, 0xBF, 0⟩
  else if b < 0xF4 then some ⟨3, 0x80, 0xBF, b - 0xF0⟩
  else if b = 0xF4 then some ⟨3, 0x80, 0x8F, 4⟩
  else none

/-- A character whose last bytes are awaited: where it began, how many bytes it still needs, the range
of the next one and the bits so far. -/
structure Pending where
  start : Nat
  needed : Nat
  low : Nat
  high : Nat
  bits : Nat

def decodeFrom (position : Nat) (pending : Option Pending) : List UInt8 → Except DecodeError Text
  | [] =>
    match pending with
    | none => .ok []
    | some p => .error ⟨.truncated, p.start⟩
  | b :: bs =>
    match pending with
    | some p =>
      if p.low ≤ b.toNat ∧ b.toNat ≤ p.high then
        let bits := p.bits * 64 + (b.toNat - 0x80)
        if p.needed ≤ 1 then
          (((CodePoint.ofNat? bits).getD .replacement) :: ·) <$> decodeFrom (position + 1) none bs
        else decodeFrom (position + 1) (some ⟨p.start, p.needed - 1, 0x80, 0xBF, bits⟩) bs
      else .error ⟨.continuationByte, p.start⟩
    | none =>
      match lead? b.toNat with
      | none => .error ⟨.startByte, position⟩
      | some l =>
        if l.following = 0 then
          (((CodePoint.ofNat? l.bits).getD .replacement) :: ·) <$> decodeFrom (position + 1) none bs
        else decodeFrom (position + 1) (some ⟨position, l.following, l.low, l.high, l.bits⟩) bs

def decode (bytes : List UInt8) : Except DecodeError Text := decodeFrom 0 none bytes

def encodePoint (c : CodePoint) : List UInt8 :=
  let n := c.val
  let tail (shift : Nat) : UInt8 := UInt8.ofNat (0x80 + n >>> shift % 64)
  if n < 0x80 then [UInt8.ofNat n]
  else if n < 0x800 then [UInt8.ofNat (0xC0 + n / 64), tail 0]
  else if n < 0x10000 then [UInt8.ofNat (0xE0 + n / 4096), tail 6, tail 0]
  else [UInt8.ofNat (0xF0 + n / 262144), tail 12, tail 6, tail 0]

def encode (t : Text) : List UInt8 := t.flatMap encodePoint

end Utf8

end PolymerAnalysis.Text
