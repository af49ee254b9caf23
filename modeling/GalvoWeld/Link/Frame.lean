import GalvoWeld.Link.Checksum

/-!
# Frame of a file transfer

The bytes of a file are preceded by a header of eight bytes: a magic number, a version, and the
length and the checksum of the bytes, both with the most significant byte first.
-/

namespace GalvoWeld.Link

/-- The byte of `n` at a place, counted from the least significant one. -/
def byteAt (n place : Nat) : UInt8 := UInt8.ofNat (n / Nat.pow 256 place)

def frameHeader (payload : List UInt8) : List UInt8 :=
  let length := payload.length
  let check := (checksum payload).toNat
  [0xb7, 1, byteAt length 3, byteAt length 2, byteAt length 1, byteAt length 0,
    byteAt check 1, byteAt check 0]

end GalvoWeld.Link
