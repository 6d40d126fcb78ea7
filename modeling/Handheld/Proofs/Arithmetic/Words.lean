/-
# Words by their bytes

The sums of words set their flags by masks of their own.  They are those of adding byte by byte:
`ADD HL,rr` does what `ADD` and `ADC` do to the low and the high bytes, but for the zero flag, and
a signed offset is added with the flags of adding its byte to the low byte
(`Datapath.words_by_bytes`).
-/
import Handheld.Proofs.Arithmetic.LongNumbers

namespace Handheld

namespace Word

lemma toNat_high (w : UInt16) : (high w).toNat = w.toNat / 256 := by
  have h := w.toNat_lt
  rw [high, UInt8.toNat_ofNat', Nat.mod_eq_of_lt (by omega)]

lemma toNat_low (w : UInt16) : (low w).toNat = w.toNat % 256 := by
  rw [low, UInt8.toNat_ofNat', Nat.mod_eq_of_lt (by omega)]

end Word

namespace Arithmetic

/-- **The sum of two words is that of their low bytes and, with its carry, of their high bytes.**
The zero flag stays. -/
theorem addWords_eq (v w : UInt16) (f : Flags) :
    addWords v w f =
      let low := add (Word.low v) (Word.low w) false
      let high := add (Word.high v) (Word.high w) low.flags.carry
      (Word.ofBytes high.value low.value, { high.flags with zero := f.zero }) := by
  have hv := v.toNat_lt
  have hw := w.toNat_lt
  have hlow := add_value (Word.low v) (Word.low w) false
  generalize hs : add (Word.low v) (Word.low w) false = low at hlow ⊢
  have hhigh := add_value (Word.high v) (Word.high w) low.flags.carry
  dsimp only
  rw [Word.toNat_low, Word.toNat_low, Bool.toNat_false] at hlow
  rw [Word.toNat_high, Word.toNat_high] at hhigh
  have hl := low.value.toNat_lt
  have hh := (add (Word.high v) (Word.high w) low.flags.carry).value.toNat_lt
  refine Prod.ext ?_ ?_
  · apply UInt16.toNat.inj
    rw [Word.toNat_ofBytes]
    change (v + w).toNat = _
    rw [UInt16.toNat_add]
    omega
  · simp only [addWords, add, Word.toNat_high, Flags.mk.injEq, true_and, decide_eq_decide]
    omega

/-- The sum of a word and a signed offset, and its flags. -/
theorem addOffset_eq (x : UInt16) (e : UInt8) :
    ((addOffset x e).1.toNat : ℤ) = (x.toNat + Byte.signed e) % 65536 ∧
      (addOffset x e).2 =
        { (add (Word.low x) e false).flags with zero := false, subtract := false } := by
  have hx := x.toNat_lt
  have he := e.toNat_lt
  refine ⟨?_, ?_⟩
  · simp only [addOffset, UInt16.toNat_add, Word.ofSigned, UInt16.toNat_ofNat', Byte.signed]
    split
    all_goals omega
  · simp only [addOffset, add, Word.toNat_low, Flags.mk.injEq, true_and, decide_eq_decide,
      Bool.toNat_false]
    omega

end Arithmetic

namespace Instruction

/-- `ADD A,(HL)`, which adds the byte in the latch. -/
def addLatched : Instruction :=
  ⟨.add, some (.reg .a), some (.indirect .hl)⟩

end Instruction

namespace Datapath

/-- Add a word to `HL` byte by byte: the low bytes, and the high bytes with the carry.  The zero
flag stays. -/
def addToHl (d : Datapath) (v : UInt16) : Datapath :=
  let low := d.onBytes [.addLatched] d.registers.l (Word.low v)
  let high := low.onBytes [.addCarryLatched] d.registers.h (Word.high v)
  { d with
    registers := { d.registers with
      h := high.registers.a
      l := low.registers.a
      flags := { high.registers.flags with zero := d.registers.flags.zero } } }

/-- Put the sum of `HL` and a word into `HL`. -/
lemma setPair_addWords (d : Datapath) (v : UInt16) :
    (d.setFlags (Arithmetic.addWords d.registers.hl v d.registers.flags).2).setPair
        (Arithmetic.addWords d.registers.hl v d.registers.flags).1 .hl = d.addToHl v := by
  have hhigh : Word.high d.registers.hl = d.registers.h := Word.high_ofBytes _ _
  have hlow : Word.low d.registers.hl = d.registers.l := Word.low_ofBytes _ _
  rw [Arithmetic.addWords_eq, hhigh, hlow]
  simp only [setPair, Registers.setPair, Word.high_ofBytes, Word.low_ofBytes]
  rfl

/-- **Sums of words are sums of their bytes.**  Adding any word to `HL` leaves in `HL`, in the
carries and in the subtraction flag what `ADD` leaves for the low bytes and then `ADC` for the high
ones, and changes nothing else.  A signed offset is added to the stack pointer modulo `2 ^ 16`,
with the carries of adding its byte to the low byte and the other flags clear; the sum goes to the
stack pointer or to `HL`, and nothing else changes. -/
theorem words_by_bytes (d : Datapath) :
    (∀ v, (d.setFlags (Arithmetic.addWords d.registers.hl v d.registers.flags).2).setPair
        (Arithmetic.addWords d.registers.hl v d.registers.flags).1 .hl = d.addToHl v) ∧
    (∀ p, Instruction.effect ⟨.add, some (.pair .hl), some (.pair p)⟩ d =
      d.addToHl (d.registers.getPair p)) ∧
    ∀ e : UInt8, ∃ (w : UInt16) (flags : Flags),
      Arithmetic.addOffset d.registers.sp e = (w, flags) ∧
        (w.toNat : ℤ) = (d.registers.sp.toNat + Byte.signed e) % 65536 ∧
        flags = { (d.onBytes [.addLatched] (Word.low d.registers.sp) e).registers.flags with
          zero := false, subtract := false } ∧
        Instruction.effect ⟨.add, some (.pair .sp), some (.rel8 e)⟩ { d with z := e } =
          { d with z := e, registers := { d.registers with sp := w, flags := flags } } ∧
        Instruction.effect ⟨.ld, some (.pair .hl), some (.spRel e)⟩ { d with z := e } =
          { d with
            z := e
            registers :=
              { d.registers with h := Word.high w, l := Word.low w, flags := flags } } := by
  refine ⟨d.setPair_addWords, fun p => d.setPair_addWords _, fun e => ?_⟩
  obtain ⟨hsum, hflags⟩ := Arithmetic.addOffset_eq d.registers.sp e
  exact ⟨_, _, rfl, hsum, hflags, rfl, rfl⟩

end Datapath

end Handheld
