/-
# Checksums of an image

The header carries a checksum of its own fields and one of the whole image.  The first counts
down from zero by each byte and one more; the second is the sum of all bytes but its own two.
-/
import Handheld.Cartridge.Header

namespace Handheld.Checksum

/-- The checksum of the header's fields, from the title to the version. -/
def header (image : ByteArray) : UInt8 :=
  (List.range 25).foldl (fun x i => x - Bytes.get image (0x134 + i) 0 - 1) 0

/-- The checksum of an image. -/
def rom (image : ByteArray) : UInt16 :=
  UInt16.ofNat
    (Bytes.sum image - (Bytes.get image 0x14E 0).toNat - (Bytes.get image 0x14F 0).toNat)

/-- Write both checksums into an image that is long enough to hold them; the checksum of the
header goes first, since the other covers it. -/
def fix? (image : ByteArray) : Option ByteArray :=
  if Header.size ≤ image.size then
    let image := Bytes.put image 0x14D (header image)
    let sum := rom image
    some (Bytes.put (Bytes.put image 0x14E (Word.high sum)) 0x14F (Word.low sum))
  else none

/-- The stored checksums of an image with those computed from it. -/
structure Report where
  headerStored : UInt8
  headerComputed : UInt8
  romStored : UInt16
  romComputed : UInt16
deriving DecidableEq

namespace Report

/-- The report on an image that is long enough to hold a header. -/
def ofImage? (image : ByteArray) : Option Report :=
  (Header.ofImage? image).map fun h => ⟨h.headerSum, header image, h.romSum, rom image⟩

def headerOk (r : Report) : Bool :=
  r.headerStored == r.headerComputed

def romOk (r : Report) : Bool :=
  r.romStored == r.romComputed

end Report

end Handheld.Checksum
