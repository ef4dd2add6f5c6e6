/-!
The cyclic checksum of 32 bits: polynomial `0xedb88320`, low bit first, inverted at both ends.
-/

namespace Brushwork.Checksum

/-- Takes one bit out of the remainder. -/
def shift (r : UInt32) : UInt32 := if r &&& 1 = 1 then (r >>> 1) ^^^ 0xedb88320 else r >>> 1

/-- Takes `n` bits out of the remainder. -/
def shiftTimes : Nat → UInt32 → UInt32
  | 0, r => r
  | n + 1, r => shiftTimes n (shift r)

/-- Takes in one byte. -/
def addByte (r : UInt32) (b : UInt8) : UInt32 := shiftTimes 8 (r ^^^ b.toUInt32)

/-- The checksum of bytes. -/
def ofBytes (bytes : List UInt8) : UInt32 := bytes.foldl addByte 0xffffffff ^^^ 0xffffffff

end Brushwork.Checksum
