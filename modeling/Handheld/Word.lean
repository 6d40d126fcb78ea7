/-
# Bytes and words

The processor works on bytes and on 16-bit words made of two bytes.  This file joins two bytes
into a word, takes a word apart, and reads a byte as a signed offset.  All three are stated in
terms of the natural number behind a word, so that facts about them are facts of arithmetic.
-/

namespace Handheld

/-- A place in the 16-bit address space. -/
abbrev Address := UInt16

namespace Word

/-- The word with high byte `hi` and low byte `lo`. -/
def ofBytes (hi lo : UInt8) : UInt16 :=
  UInt16.ofNat (hi.toNat * 256 + lo.toNat)

/-- The high byte of a word. -/
def high (w : UInt16) : UInt8 :=
  UInt8.ofNat (w.toNat / 256)

/-- The low byte of a word. -/
def low (w : UInt16) : UInt8 :=
  UInt8.ofNat (w.toNat % 256)

/-- The two bytes of a word, low byte first. -/
def littleEndian (w : UInt16) : List UInt8 :=
  [low w, high w]

/-- The word congruent to the two's-complement value of `e`, for adding a signed offset. -/
def ofSigned (e : UInt8) : UInt16 :=
  UInt16.ofNat (if e.toNat < 128 then e.toNat else e.toNat + 0xFF00)

theorem toNat_ofBytes (hi lo : UInt8) : (ofBytes hi lo).toNat = hi.toNat * 256 + lo.toNat := by
  have h := hi.toNat_lt
  have l := lo.toNat_lt
  simp only [ofBytes, UInt16.toNat_ofNat']
  omega

@[simp] theorem high_ofBytes (hi lo : UInt8) : high (ofBytes hi lo) = hi := by
  have l := lo.toNat_lt
  apply UInt8.toNat.inj
  have h := hi.toNat_lt
  simp only [high, toNat_ofBytes, UInt8.toNat_ofNat']
  omega

@[simp] theorem low_ofBytes (hi lo : UInt8) : low (ofBytes hi lo) = lo := by
  have l := lo.toNat_lt
  apply UInt8.toNat.inj
  simp only [low, toNat_ofBytes, UInt8.toNat_ofNat']
  omega

@[simp] theorem ofBytes_high_low (w : UInt16) : ofBytes (high w) (low w) = w := by
  have h := w.toNat_lt
  apply UInt16.toNat.inj
  simp only [toNat_ofBytes, high, low, UInt8.toNat_ofNat']
  omega

theorem ofBytes_inj {hi lo hi' lo' : UInt8} :
    ofBytes hi lo = ofBytes hi' lo' ↔ hi = hi' ∧ lo = lo' := by
  constructor
  · intro h
    have hhigh := congrArg high h
    have hlow := congrArg low h
    rw [high_ofBytes, high_ofBytes] at hhigh
    rw [low_ofBytes, low_ofBytes] at hlow
    exact ⟨hhigh, hlow⟩
  · rintro ⟨rfl, rfl⟩
    rfl

end Word

/-- The two's-complement value of a byte. -/
def Byte.signed (e : UInt8) : Int :=
  if e.toNat < 128 then e.toNat else (e.toNat : Int) - 256

end Handheld
