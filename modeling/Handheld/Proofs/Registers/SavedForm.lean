/-
# Saved forms of the registers

Registers are saved as fourteen bytes, and read back from these they are what they were.  This rests
on the flag byte: whatever is done to registers, its low half stays clear, so that reading back has
nothing to cut off.  Bytes from elsewhere are refused if they are too many or too few or if one of
them names no state of the master enable; otherwise they stand for registers whose saved form
differs from them in the low half of the flag byte and in the spelling of the halted mark alone.
The main statement, `Registers.saved_form`, says all of this.
-/
import Handheld.Proofs.Interrupt
import Handheld.Registers.SavedState

namespace Handheld

lemma Flags.toByte_ofByte (b : UInt8) : (ofByte b).toByte = b &&& 0xF0 := by
  revert b
  exact Byte.forall_of_fin (by decide +kernel)

/-- The flag byte is made of the four flags' bits. -/
lemma Flags.toByte_eq_or (f : Flags) :
    f.toByte = (if f.zero then 0x80 else 0) ||| (if f.subtract then 0x40 else 0) |||
      (if f.halfCarry then 0x20 else 0) ||| (if f.carry then 0x10 else 0) := by
  obtain ⟨z, n, h, c⟩ := f
  revert z n h c
  decide

namespace MasterEnable

lemma ofByte_toByte (e : MasterEnable) : ofByte e.toByte = .ok e := by
  cases e <;> rfl

/-- A byte above two is no master enable, and every other one is the byte of one. -/
lemma ofByte_cases (b : UInt8) :
    2 < b ∧ ofByte b = .error (.masterEnable b) ∨ b ≤ 2 ∧ ∃ e, ofByte b = .ok e ∧ e.toByte = b := by
  by_cases hdisabled : b = 0
  · subst hdisabled
    exact .inr ⟨by decide, disabled, rfl, rfl⟩
  by_cases hrequested : b = 1
  · subst hrequested
    exact .inr ⟨by decide, requested, rfl, rfl⟩
  by_cases henabled : b = 2
  · subst henabled
    exact .inr ⟨by decide, enabled, rfl, rfl⟩
  · refine .inl ⟨?_, ?_⟩
    · simp only [← UInt8.toNat_inj, UInt8.reduceToNat] at hdisabled hrequested henabled
      simp only [UInt8.lt_iff_toNat_lt, UInt8.reduceToNat]
      omega
    · rw [ofByte, if_neg hdisabled, if_neg hrequested, if_neg henabled]

end MasterEnable

namespace Registers

/-! ## The flag byte -/

/-- What can be done to registers. -/
inductive Change where
  | register (v : UInt8) (x : Register)
  | pair (w : UInt16) (p : Pair)
  | flagByte (b : UInt8)
  /-- Set or clear the flags in a mask. -/
  | mask (m : UInt8) (on : Bool)
  | flags (f : Flags)
  | counter (a : Address)
  | enable (e : MasterEnable)
  | halted (h : Bool)

namespace Change

def apply (r : Registers) : Change → Registers
  | register v x => r.set v x
  | pair w p => r.setPair w p
  | flagByte b => r.setF b
  | mask m on => r.setFlag m on
  | flags f => { r with flags := f }
  | counter a => { r with pc := a }
  | enable e => { r with ime := e }
  | halted h => { r with halted := h }

/-- The flag byte after a change, as a byte of which the low half is cleared whenever it is
written. -/
def onFlagByte (f : UInt8) : Change → UInt8
  | pair w .af => Word.low w &&& 0xF0
  | flagByte b => b &&& 0xF0
  | mask m true => (f ||| m) &&& 0xF0
  | mask m false => f &&& ~~~m &&& 0xF0
  | flags x =>
    (if x.zero then 0x80 else 0) ||| (if x.subtract then 0x40 else 0) |||
      (if x.halfCarry then 0x20 else 0) ||| (if x.carry then 0x10 else 0)
  | _ => f

lemma f_apply (r : Registers) (c : Change) : (c.apply r).f = c.onFlagByte r.f := by
  cases c with
  | register v x => cases x <;> rfl
  | pair w p =>
    cases p with
    | af => exact Flags.toByte_ofByte (Word.low w)
    | bc | de | hl | sp => rfl
  | flagByte b => exact Flags.toByte_ofByte b
  | mask m on =>
    cases on with
    | true => exact Flags.toByte_ofByte (r.f ||| m)
    | false => exact Flags.toByte_ofByte (r.f &&& ~~~m)
  | flags x => exact x.toByte_eq_or
  | counter a => rfl
  | enable e => rfl
  | halted h => rfl

end Change

lemma f_foldl_apply (changes : List Change) (r : Registers) :
    (changes.foldl Change.apply r).f = changes.foldl Change.onFlagByte r.f := by
  induction changes generalizing r with
  | nil => rfl
  | cons c changes ih => rw [List.foldl_cons, List.foldl_cons, ih, Change.f_apply]

/-! ## Reading registers back -/

/-- Registers are read back from their saved form. -/
lemma ofBytes_toBytes (r : Registers) : ofBytes r.toBytes = .ok r := by
  have hhalted : ((if r.halted then 1 else 0 : UInt8) != 0) = r.halted := by
    cases r.halted <;> rfl
  change (do
    let ime ← MasterEnable.ofByte r.ime.toByte
    return { r with
      flags := Flags.ofByte r.flags.toByte
      sp := Word.ofBytes (Word.high r.sp) (Word.low r.sp)
      pc := Word.ofBytes (Word.high r.pc) (Word.low r.pc)
      ime := ime
      halted := (if r.halted then 1 else 0 : UInt8) != 0 } :
    Except SavedStateError Registers) = .ok r
  rw [MasterEnable.ofByte_toByte, hhalted, Flags.ofByte_toByte, Word.ofBytes_high_low,
    Word.ofBytes_high_low]
  rfl

/-- Bytes with the low half of the flag byte cleared, and the halted mark spelled as zero or one. -/
def canonical (bytes : List UInt8) : List UInt8 :=
  (bytes.modify 1 (· &&& 0xF0)).modify 13 fun b => if b = 0 then 0 else 1

variable {bytes : List UInt8}

lemma ofBytes_of_length_ne (h : bytes.length ≠ 14) :
    ofBytes bytes = .error (.length bytes.length) := by
  unfold ofBytes
  split
  · exact absurd rfl h
  · rfl

/-- Of fourteen bytes only the one of the master enable can be refused. -/
lemma ofBytes_of_length (h : bytes.length = 14) :
    ∃ ime, bytes[12]? = some ime ∧ ∃ read : MasterEnable → Registers,
      ofBytes bytes = (MasterEnable.ofByte ime).map read ∧
        ∀ e, e.toByte = ime → (read e).toBytes = canonical bytes := by
  unfold ofBytes
  split
  · rename_i ime halted
    refine ⟨ime, rfl, _, rfl, fun e he => ?_⟩
    have hhalted : (if (halted != 0) = true then 1 else 0 : UInt8) =
        if halted = 0 then 0 else 1 := by
      by_cases hzero : halted = 0 <;> simp [hzero]
    simp only [toBytes, Registers.f, Flags.toByte_ofByte, Word.littleEndian, Word.low_ofBytes,
      Word.high_ofBytes, he, hhalted]
    rfl
  · rename_i hother
    match bytes, h with
    | [_, _, _, _, _, _, _, _, _, _, _, _, _, _], _ =>
      exact absurd rfl (hother _ _ _ _ _ _ _ _ _ _ _ _ _ _)

/-- **What is saved is read back, and what is read is saved alike.**  Registers are read back from
their saved form; the flag byte of registers is that of a byte whose low half is cleared at each
change, and its low half is clear.  Bytes are refused with their number if there are not fourteen,
and with the thirteenth if that is more than two.  All others are registers, whose saved form is
these bytes but for the low half of the flag byte and for a halted mark that is neither zero nor
one. -/
theorem saved_form :
    (∀ r : Registers, ofBytes r.toBytes = .ok r) ∧
    (∀ (r : Registers) (changes : List Change),
      (changes.foldl Change.apply r).f = changes.foldl Change.onFlagByte r.f ∧
        (changes.foldl Change.apply r).f &&& 0x0F = 0) ∧
    ∀ bytes : List UInt8,
      (∀ n, ofBytes bytes = .error (.length n) ↔ bytes.length ≠ 14 ∧ n = bytes.length) ∧
      (∀ b, ofBytes bytes = .error (.masterEnable b) ↔
        bytes.length = 14 ∧ bytes[12]? = some b ∧ 2 < b) ∧
      ((∃ r, ofBytes bytes = .ok r ∧ r.toBytes = canonical bytes) ↔
        bytes.length = 14 ∧ ∃ b, bytes[12]? = some b ∧ b ≤ 2) := by
  refine ⟨ofBytes_toBytes, fun r changes =>
    ⟨f_foldl_apply changes r, Flags.toByte_and_low _⟩, fun bytes => ?_⟩
  by_cases hlength : bytes.length = 14
  · obtain ⟨ime, hime, read, heq, hread⟩ := ofBytes_of_length hlength
    rw [heq, hime]
    rcases MasterEnable.ofByte_cases ime with ⟨hgt, herror⟩ | ⟨hle, e, he, hbyte⟩
    · rw [herror]
      have hnot : ¬ ime ≤ 2 := UInt8.not_le.mpr hgt
      simp [Except.map, hlength, hgt, hnot]
    · rw [he]
      simp [Except.map, hlength, hle, hread e hbyte]
  · rw [ofBytes_of_length_ne hlength]
    simp [hlength, eq_comm]

end Registers

end Handheld
