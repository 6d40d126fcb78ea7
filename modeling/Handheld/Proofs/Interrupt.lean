/-
# Bits of the interrupt registers

Which source is pending, and what setting and clearing one source's bit does to the others'.
-/
import Mathlib.Data.Nat.Bitwise
import Mathlib.Tactic.Lemma
import Handheld.Interrupt

namespace Handheld

/-- A property of bytes holds of all of them if it holds of the 256 numbers behind them. -/
lemma Byte.forall_of_fin {p : UInt8 → Prop} (h : ∀ n : Fin 256, p (UInt8.ofNat n)) (v : UInt8) :
    p v := by
  have hv := h ⟨v.toNat, v.toNat_lt⟩
  rwa [UInt8.ofNat_toNat] at hv

namespace Interrupt

variable {f e : UInt8} {i : Interrupt}

lemma mem_all (i : Interrupt) : i ∈ all := by
  cases i <;> decide

/-- A source's place among all is the number of its bit. -/
lemma bit_getElem_all {n : Nat} (h : n < all.length) : all[n].bit = n := by
  match n, h with
  | 0, _ | 1, _ | 2, _ | 3, _ | 4, _ => rfl

lemma bit_lt_length_all (i : Interrupt) : i.bit < all.length := by
  cases i <;> decide

lemma getElem_all_bit (i : Interrupt) (h : i.bit < all.length) : all[i.bit] = i := by
  cases i <;> rfl

lemma toNat_mask (i : Interrupt) : i.mask.toNat = 2 ^ i.bit := by
  cases i <;> rfl

/-! ## Pending sources -/

/-- The pending source is the first whose bit is set in both registers. -/
lemma pending_eq_some_iff :
    pending f e = some i ↔
      f &&& e &&& i.mask ≠ 0 ∧ ∀ j : Interrupt, j.bit < i.bit → f &&& e &&& j.mask = 0 := by
  rw [pending, List.find?_eq_some_iff_getElem]
  simp only [bne_iff_ne, ne_eq, Bool.not_eq_true', bne_eq_false_iff_eq]
  refine and_congr_right fun _ => ⟨?_, fun hlow => ?_⟩
  · rintro ⟨n, hn, hat, hlow⟩ j hj
    rw [← hat, bit_getElem_all] at hj
    have hbefore := hlow j.bit hj
    rwa [getElem_all_bit] at hbefore
  · refine ⟨i.bit, bit_lt_length_all i, getElem_all_bit i _, fun n hn => hlow _ ?_⟩
    rwa [bit_getElem_all]

/-- There is a pending source unless all five bits are clear. -/
lemma exists_pending (h : f &&& e &&& 0x1F ≠ 0) : ∃ i, pending f e = some i := by
  refine Option.ne_none_iff_exists'.mp fun hnone => h ?_
  have hclear (i : Interrupt) : f &&& e &&& i.mask = 0 := by
    rw [pending, List.find?_eq_none] at hnone
    simpa using hnone i i.mem_all
  have hsources : (0x1F : UInt8) =
      vblank.mask ||| lcdStat.mask ||| timer.mask ||| serial.mask ||| joypad.mask := by
    decide
  have hdistrib (a b c : UInt8) : a &&& (b ||| c) = a &&& b ||| a &&& c :=
    UInt8.toBitVec_inj.mp BitVec.and_or_distrib_left
  rw [hsources]
  simp only [hdistrib, hclear]
  rfl

/-! ## One bit -/

lemma and_mask_ne_zero_iff : f &&& i.mask ≠ 0 ↔ f.toNat.testBit i.bit = true := by
  rw [ne_eq, ← UInt8.toNat_inj, UInt8.toNat_and, toNat_mask, Nat.and_two_pow]
  cases f.toNat.testBit i.bit <;> simp

lemma testBit_mask (i j : Interrupt) : i.mask.toNat.testBit j.bit = decide (j = i) := by
  cases i <;> cases j <;> decide

lemma testBit_not_mask (i j : Interrupt) : (~~~i.mask).toNat.testBit j.bit = decide (j ≠ i) := by
  cases i <;> cases j <;> decide

/-- Setting a source's bit sets no other. -/
lemma set_and_mask (f : UInt8) (i j : Interrupt) :
    (f ||| i.mask) &&& j.mask ≠ 0 ↔ j = i ∨ f &&& j.mask ≠ 0 := by
  rw [and_mask_ne_zero_iff, and_mask_ne_zero_iff, UInt8.toNat_or, Nat.testBit_or, testBit_mask,
    Bool.or_eq_true, decide_eq_true_eq, or_comm]

/-- Clearing a source's bit clears no other. -/
lemma clear_and_mask (f : UInt8) (i j : Interrupt) :
    (f &&& ~~~i.mask) &&& j.mask ≠ 0 ↔ j ≠ i ∧ f &&& j.mask ≠ 0 := by
  rw [and_mask_ne_zero_iff, and_mask_ne_zero_iff, UInt8.toNat_and, Nat.testBit_and,
    testBit_not_mask, Bool.and_eq_true, decide_eq_true_eq, and_comm]

/-! ## The two registers in memory -/

section

variable {M : Type} [Memory M] {m : M}

lemma poll_of_reads (hf : Memory.read m requestAddress = .ok f)
    (he : Memory.read m enableAddress = .ok e) : poll m = .ok (pending f e) := by
  rw [poll, hf, he]
  rfl

lemma request_of_read (hf : Memory.read m requestAddress = .ok f) (i : Interrupt) :
    i.request m = Memory.write m requestAddress (f ||| i.mask) := by
  rw [request, hf]

lemma acknowledge_of_read (hf : Memory.read m requestAddress = .ok f) (i : Interrupt) :
    i.acknowledge m = Memory.write m requestAddress (f &&& ~~~i.mask) := by
  rw [acknowledge, hf]

end

end Interrupt

end Handheld
