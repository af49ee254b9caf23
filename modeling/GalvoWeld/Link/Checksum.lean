/-!
# Checksum of a file transfer

The cyclic redundancy check with the polynomial `x^16 + x^12 + x^5 + 1`, most significant bit
first, beginning at 0.
-/

namespace GalvoWeld.Link

/-- The polynomial without its leading term. -/
def polynomial : UInt16 := 0x1021

/-- Shifts the register by one bit, less the polynomial where a bit falls out. -/
def shiftBit (register : UInt16) : UInt16 :=
  if register &&& 0x8000 = 0 then register <<< 1 else (register <<< 1) ^^^ polynomial

def takeByte (register : UInt16) (byte : UInt8) : UInt16 :=
  Nat.repeat shiftBit 8 (register ^^^ (byte.toUInt16 <<< 8))

def checksum (bytes : List UInt8) : UInt16 := bytes.foldl takeByte 0

end GalvoWeld.Link
