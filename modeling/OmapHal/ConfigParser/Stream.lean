import OmapHal.Core.Bits

/-!
# The bit stream of the configuration parsers

`mp4StreamType` and the four functions that read from it: a position in a buffer of bytes, and a
cached word of 32 bits with a position of its own.
-/

namespace OmapHal.ConfigParser

/-- A difference of `uint32` values. -/
def sub32 (a b : Nat) : Nat := (a + 2 ^ 32 - b) % 2 ^ 32

/-- `uint32` shifts. By 32 or more they are undefined; shifts by register give zero. -/
def shl32 (x k : Nat) : Nat := if k < 32 then x <<< k % 2 ^ 32 else 0

def shr32 (x k : Nat) : Nat := if k < 32 then x >>> k else 0

/-- `mask[n]`. -/
def mask (n : Nat) : Nat := 2 ^ n - 1

structure Mp4StreamType where
  /-- The memory from the buffer's first byte on. -/
  data : Nat → UInt8
  numBytes : Nat
  bytePos : Nat
  bitBuf : Nat
  dataBitPos : Nat
  bitPos : Nat
  /-- Which bytes have been read; the code keeps no such record. -/
  accessed : List Nat

/-- The stream that the parsers set up. -/
def Mp4StreamType.start (data : Nat → UInt8) (numBytes : Nat) : Mp4StreamType where
  data := data
  numBytes := numBytes
  bytePos := 0
  bitBuf := 0
  dataBitPos := 0
  bitPos := 32
  accessed := []

/-- `(bits[0] << 24) | (bits[1] << 16) | (bits[2] << 8) | bits[3]`. -/
def word (data : Nat → UInt8) (dataBytePos : Nat) : Nat :=
  (data dataBytePos).toNat <<< 24 ||| (data (dataBytePos + 1)).toNat <<< 16 |||
    (data (dataBytePos + 2)).toNat <<< 8 ||| (data (dataBytePos + 3)).toNat

/-- The loop over the last bytes: the cached word after `i` rounds. -/
def lastBytes (data : Nat → UInt8) (dataBytePos : Nat) : Nat → Nat
  | 0 => 0
  | i + 1 => shl32 (lastBytes data dataBytePos i ||| (data (dataBytePos + i)).toNat) 8

namespace Mp4StreamType

/-- The word at a byte position is cached. -/
def fill (pStream : Mp4StreamType) (dataBytePos : Nat) : Mp4StreamType :=
  { pStream with
    bitBuf := word pStream.data dataBytePos
    accessed := pStream.accessed ++ List.range' dataBytePos 4 }

/-- `uint32` bits of the buffer. -/
def limit (pStream : Mp4StreamType) : Nat := pStream.numBytes <<< 3 % 2 ^ 32

/-- The cached word when `ShowBits` needs more bits. -/
def showFill (pStream : Mp4StreamType) : Mp4StreamType :=
  let dataBytePos := pStream.dataBitPos >>> 3
  if dataBytePos > sub32 pStream.numBytes 4 then
    let left := sub32 pStream.numBytes dataBytePos
    { pStream with
      bitBuf := shl32 (lastBytes pStream.data dataBytePos left) (8 * sub32 3 left % 2 ^ 32)
      accessed := pStream.accessed ++ List.range' dataBytePos left
      bitPos := pStream.dataBitPos &&& 7 }
  else { pStream.fill dataBytePos with bitPos := pStream.dataBitPos &&& 7 }

end Mp4StreamType

open Mp4StreamType

/-- `ShowBits`: the stream and `*pulOutData`; the status is always 0. -/
def ShowBits (pStream : Mp4StreamType) (ucNBits : Nat) : Mp4StreamType × Nat :=
  let pStream :=
    if ucNBits > sub32 32 pStream.bitPos then pStream.showFill else pStream
  let bitPos := (pStream.bitPos + ucNBits) % 2 ^ 32
  (pStream, shr32 pStream.bitBuf (sub32 32 bitPos) &&& mask ucNBits)

/-- `FlushBits`: the stream and the status. -/
def FlushBits (pStream : Mp4StreamType) (ucNBits : Nat) : Mp4StreamType × Int :=
  let dataBitPos := (pStream.dataBitPos + ucNBits) % 2 ^ 32
  if dataBitPos > pStream.limit then (pStream, -2)
  else
    let bitPos := (pStream.bitPos + ucNBits) % 2 ^ 32
    if bitPos > 32 then
      ({ pStream.fill (dataBitPos >>> 3) with
        dataBitPos := dataBitPos, bitPos := dataBitPos &&& 7 }, 0)
    else ({ pStream with dataBitPos := dataBitPos, bitPos := bitPos }, 0)

/-- `ReadBits`: the stream, the status and `*pulOutData`. -/
def ReadBits (pStream : Mp4StreamType) (ucNBits : Nat) : Mp4StreamType × Int × Nat :=
  if (pStream.dataBitPos + ucNBits) % 2 ^ 32 > pStream.limit then (pStream, -2, 0)
  else
    let dataBitPos := pStream.dataBitPos
    let (pStream, bitPos) :=
      if ucNBits > sub32 32 pStream.bitPos then
        (pStream.fill (dataBitPos >>> 3), dataBitPos &&& 7)
      else (pStream, pStream.bitPos)
    let pStream := { pStream with
      dataBitPos := (dataBitPos + ucNBits) % 2 ^ 32
      bitPos := (bitPos + ucNBits) % 2 ^ 8 }
    (pStream, 0, shr32 pStream.bitBuf (sub32 32 pStream.bitPos) &&& mask ucNBits)

/-- `ByteAlign`: the stream and the status. -/
def ByteAlign (pStream : Mp4StreamType) : Mp4StreamType × Int :=
  let leftBits := 8 - (pStream.dataBitPos &&& 7)
  if leftBits = 8 ∧ (pStream.dataBitPos + 8) % 2 ^ 32 > pStream.limit then (pStream, -2)
  else
    let dataBitPos := (pStream.dataBitPos + leftBits) % 2 ^ 32
    let bitPos := (pStream.bitPos + leftBits) % 2 ^ 32
    -- the position in the cached word is not set again after the word is
    let pStream := if bitPos > 32 then pStream.fill (dataBitPos >>> 3) else pStream
    ({ pStream with dataBitPos := dataBitPos, bitPos := bitPos }, 0)

end OmapHal.ConfigParser
