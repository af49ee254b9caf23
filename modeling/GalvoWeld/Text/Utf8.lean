/-!
# Reading UTF-8 that may be broken

Bytes become characters. A sequence that is no character becomes one replacement character: the
longest head of a character that stands there, or a single byte.
-/

namespace GalvoWeld.Text

/-- Stands for bytes that are no character. -/
def replacement : Char := '\ufffd'

/-- What the first byte of a character says: the bits it holds, how many bytes follow, and the
range of the next byte. -/
structure Lead where
  bits : Nat
  following : Nat
  low : Nat
  high : Nat

/-- The first byte of a character. -/
def Lead.ofByte? (b : Nat) : Option Lead :=
  if b < 0x80 then some ⟨b, 0, 0x80, 0xbf⟩
  else if b < 0xc2 then none
  else if b < 0xe0 then some ⟨b - 0xc0, 1, 0x80, 0xbf⟩
  else if b = 0xe0 then some ⟨0, 2, 0xa0, 0xbf⟩
  else if b = 0xed then some ⟨0xd, 2, 0x80, 0x9f⟩
  else if b < 0xf0 then some ⟨b - 0xe0, 2, 0x80, 0xbf⟩
  else if b = 0xf0 then some ⟨0, 3, 0x90, 0xbf⟩
  else if b < 0xf4 then some ⟨b - 0xf0, 3, 0x80, 0xbf⟩
  else if b = 0xf4 then some ⟨4, 3, 0x80, 0x8f⟩
  else none

/-- A character of which some bytes are still to come. -/
structure Pending where
  bits : Nat
  following : Nat
  low : Nat
  high : Nat

/-- Takes a byte where a character begins: the characters that are complete, and what is to come. -/
def beginChar (b : Nat) : List Char × Option Pending :=
  match Lead.ofByte? b with
  | none => ([replacement], none)
  | some l =>
    if l.following = 0 then ([Char.ofNat l.bits], none)
    else ([], some ⟨l.bits, l.following, l.low, l.high⟩)

def takeByte (pending : Option Pending) (b : Nat) : List Char × Option Pending :=
  match pending with
  | none => beginChar b
  | some p =>
    if p.low ≤ b ∧ b ≤ p.high then
      let bits := p.bits * 64 + (b - 0x80)
      if p.following = 1 then ([Char.ofNat bits], none)
      else ([], some ⟨bits, p.following - 1, 0x80, 0xbf⟩)
    else
      let (chars, pending) := beginChar b
      (replacement :: chars, pending)

/-- The characters of bytes, behind a character that may be incomplete. -/
def decodeAfter : Option Pending → List UInt8 → List Char
  | none, [] => []
  | some _, [] => [replacement]
  | pending, b :: rest =>
    let (chars, pending) := takeByte pending b.toNat
    chars ++ decodeAfter pending rest

def decodeLossy (bytes : List UInt8) : List Char := decodeAfter none bytes

end GalvoWeld.Text
