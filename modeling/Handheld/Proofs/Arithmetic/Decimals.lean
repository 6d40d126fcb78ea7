/-
# Numbers of many decimal digits

A byte of two decimal digits stands for a number below a hundred.  After a sum or a difference of
two such bytes `DAA` corrects the digits that have run over or borrowed, and leaves the decimal
carry (`Arithmetic.decimalAdd_value`, `Arithmetic.decimalSub_value`).  A loop over the bytes of two
decimal numbers therefore leaves the digits of their sum or difference
(`Datapath.decimal_arithmetic`).
-/
import Handheld.Proofs.Arithmetic.LongNumbers

namespace Handheld

namespace Byte

/-- Whether both halves of a byte are decimal digits. -/
def IsDecimal (b : UInt8) : Prop :=
  b.toNat / 16 < 10 ∧ b.toNat % 16 < 10

instance (b : UInt8) : Decidable (IsDecimal b) :=
  inferInstanceAs (Decidable (_ ∧ _))

/-- The number that the two digits of a byte stand for. -/
def decimal (b : UInt8) : Nat :=
  b.toNat / 16 * 10 + b.toNat % 16

lemma decimal_of_digits {b : UInt8} {tens ones : Nat} (h : b.toNat = tens * 16 + ones)
    (htens : tens < 10) (hones : ones < 10) : IsDecimal b ∧ decimal b = tens * 10 + ones := by
  unfold IsDecimal decimal
  omega

end Byte

/-- The number that bytes of two decimal digits stand for, the low byte first. -/
def Bytes.decimal (bytes : List UInt8) : Nat :=
  number 100 Byte.decimal bytes

namespace Arithmetic

/-! ## Digits -/

/-- The sum of two digits and a carry runs over, or it does not. -/
lemma digit_of_sum {n : Nat} {c : Bool} (hn : n < 20) (hc : c = decide (n > 9)) :
    10 * c.toNat ≤ n ∧ n < 10 + 10 * c.toNat := by
  by_cases h : n > 9
  · rw [hc, decide_eq_true h, Bool.toNat_true]
    omega
  · rw [hc, decide_eq_false h, Bool.toNat_false]
    omega

/-- The difference of a digit and another one with a borrow has to borrow, or it does not. -/
lemma digit_of_difference {m n : Nat} {c : Bool} (hm : m < 10) (hn : n ≤ 10)
    (hc : c = decide (m < n)) : n ≤ m + 10 * c.toNat ∧ m + 10 * c.toNat < n + 10 := by
  by_cases h : m < n
  · rw [hc, decide_eq_true h, Bool.toNat_true]
    omega
  · rw [hc, decide_eq_false h, Bool.toNat_false]
    omega

/-! ## Bytes -/

/-- After an addition each of the two digits is corrected or not.  The correction of the high digit
comes first, and leaves the low one as it is. -/
lemma decimalAdjust_of_sum {a : UInt8} {f : Flags} (h : f.subtract = false) {high low : Bool}
    (hhigh : (f.carry || decide (a.toNat > 0x99)) = high)
    (hlow : (f.halfCarry || decide (a.toNat % 16 > 9)) = low) :
    (decimalAdjust a f).value.toNat = (a.toNat + (0x60 * high.toNat + 6 * low.toNat)) % 256 ∧
      (decimalAdjust a f).flags.carry = high := by
  have ha := a.toNat_lt
  have hshift : (a + 0x60).toNat = (a.toNat + 0x60) % 256 := UInt8.toNat_add a 0x60
  have hnibble : (a + 0x60).toNat % 16 = a.toNat % 16 := by omega
  unfold decimalAdjust
  simp only [h, Bool.not_false, Bool.true_and, hhigh]
  cases high with
  | true =>
    simp only [if_true, Bool.false_eq_true, if_false, hnibble, hlow]
    cases low <;> simp [UInt8.toNat_add, Nat.add_assoc]
  | false =>
    simp only [Bool.false_eq_true, if_false, hlow]
    cases low <;> simp [UInt8.toNat_add]

/-- After a subtraction the digits that have borrowed are corrected. -/
lemma decimalAdjust_of_difference {a : UInt8} {f : Flags} (h : f.subtract = true) :
    (decimalAdjust a f).value.toNat =
        (a.toNat + 512 - (0x60 * f.carry.toNat + 6 * f.halfCarry.toNat)) % 256 ∧
      (decimalAdjust a f).flags.carry = f.carry := by
  have ha := a.toNat_lt
  unfold decimalAdjust
  simp only [h, Bool.not_true, Bool.false_and, Bool.or_false]
  cases f.carry with
  | true => cases f.halfCarry <;> simp [UInt8.toNat_sub] <;> omega
  | false => cases f.halfCarry <;> simp [UInt8.toNat_sub] <;> omega

/-- The decimal sum of two bytes: their sum, adjusted. -/
def decimalAdd (x y : UInt8) (c : Bool) : Result :=
  decimalAdjust (add x y c).value (add x y c).flags

/-- The decimal difference of two bytes: their difference, adjusted. -/
def decimalSub (x y : UInt8) (c : Bool) : Result :=
  decimalAdjust (sub x y c).value (sub x y c).flags

variable {x y : UInt8} (hx : Byte.IsDecimal x) (hy : Byte.IsDecimal y) (c : Bool)
include hx hy

/-- **The decimal sum of two bytes**, with its carry. -/
theorem decimalAdd_value :
    Byte.IsDecimal (decimalAdd x y c).value ∧
      Byte.decimal (decimalAdd x y c).value + 100 * (decimalAdd x y c).flags.carry.toNat =
        Byte.decimal x + Byte.decimal y + c.toNat := by
  obtain ⟨hx₁, hx₀⟩ := hx
  obtain ⟨hy₁, hy₀⟩ := hy
  have hc := c.toNat_le
  have hsum := toNat_add x y c
  -- the decimal carries out of the low and out of the high digit
  obtain ⟨low, hlow⟩ : ∃ low, low = decide (x.toNat % 16 + y.toNat % 16 + c.toNat > 9) := ⟨_, rfl⟩
  obtain ⟨high, hhigh⟩ :
    ∃ high, high = decide (x.toNat / 16 + y.toNat / 16 + low.toNat > 9) := ⟨_, rfl⟩
  have hl := low.toNat_le
  have hones := digit_of_sum (by omega) hlow
  have htens := digit_of_sum (by omega) hhigh
  have hlow' : ((add x y c).flags.halfCarry || decide ((add x y c).value.toNat % 16 > 9)) =
      low := by
    rw [hsum, hlow, Bool.eq_iff_iff]
    simp only [add, Bool.or_eq_true, decide_eq_true_eq]
    omega
  have hhigh' : ((add x y c).flags.carry || decide ((add x y c).value.toNat > 0x99)) = high := by
    rw [hsum, hhigh, Bool.eq_iff_iff]
    simp only [add, Bool.or_eq_true, decide_eq_true_eq]
    omega
  obtain ⟨hvalue, hcarry⟩ : (decimalAdd x y c).value.toNat = _ ∧
      (decimalAdd x y c).flags.carry = high :=
    decimalAdjust_of_sum rfl hhigh' hlow'
  rw [hsum, Nat.mod_add_mod] at hvalue
  have hdigits : (decimalAdd x y c).value.toNat =
      (x.toNat / 16 + y.toNat / 16 + low.toNat - 10 * high.toNat) * 16 +
        (x.toNat % 16 + y.toNat % 16 + c.toNat - 10 * low.toNat) := by
    omega
  obtain ⟨hdecimal, heq⟩ := Byte.decimal_of_digits hdigits (by omega) (by omega)
  refine ⟨hdecimal, ?_⟩
  rw [heq, hcarry]
  unfold Byte.decimal
  omega

/-- **The decimal difference of two bytes**, with its borrow. -/
theorem decimalSub_value :
    Byte.IsDecimal (decimalSub x y c).value ∧
      Byte.decimal (decimalSub x y c).value + (Byte.decimal y + c.toNat) =
        Byte.decimal x + 100 * (decimalSub x y c).flags.carry.toNat := by
  obtain ⟨hx₁, hx₀⟩ := hx
  obtain ⟨hy₁, hy₀⟩ := hy
  have hc := c.toNat_le
  have hdifference := toNat_sub x y c
  -- the borrows are the binary ones
  obtain ⟨low, hlow⟩ : ∃ low, low = (sub x y c).flags.halfCarry := ⟨_, rfl⟩
  obtain ⟨high, hhigh⟩ : ∃ high, high = (sub x y c).flags.carry := ⟨_, rfl⟩
  have hl := low.toNat_le
  have hones := digit_of_difference hx₀ (by omega) hlow
  have htens : y.toNat / 16 + low.toNat ≤ x.toNat / 16 + 10 * high.toNat ∧
      x.toNat / 16 + 10 * high.toNat < y.toNat / 16 + low.toNat + 10 := by
    refine digit_of_difference hx₁ (by omega) (hhigh.trans (decide_eq_decide.mpr ?_))
    omega
  obtain ⟨hvalue, hcarry⟩ : (decimalSub x y c).value.toNat = _ ∧
      (decimalSub x y c).flags.carry = (sub x y c).flags.carry :=
    decimalAdjust_of_difference rfl
  rw [← hlow, ← hhigh, hdifference] at hvalue
  have hdigits : (decimalSub x y c).value.toNat =
      (x.toNat / 16 + 10 * high.toNat - (y.toNat / 16 + low.toNat)) * 16 +
        (x.toNat % 16 + 10 * low.toNat - (y.toNat % 16 + c.toNat)) := by
    omega
  obtain ⟨hdecimal, heq⟩ := Byte.decimal_of_digits hdigits (by omega) (by omega)
  refine ⟨hdecimal, ?_⟩
  rw [heq, hcarry, ← hhigh]
  unfold Byte.decimal
  omega

end Arithmetic

/-! ## Numbers -/

namespace Instruction

/-- `DAA`. -/
def adjust : Instruction :=
  ⟨.daa, none, none⟩

end Instruction

namespace Datapath

lemma onDigits_decimalAdd :
    OnDigits [.addCarryLatched, .adjust] Byte.IsDecimal Byte.decimal 100 1 := by
  have hprogram (d : Datapath) (x y : UInt8) :
      d.onBytes [.addCarryLatched, .adjust] x y =
        ({ d with z := y } : Datapath).accumulate
          (Arithmetic.decimalAdd x y d.registers.flags.carry) := rfl
  refine .of_result hprogram fun x y c hx hy => ?_
  obtain ⟨hdecimal, hvalue⟩ := Arithmetic.decimalAdd_value hx hy c
  refine ⟨hdecimal, ?_⟩
  push_cast
  omega

lemma onDigits_decimalSub :
    OnDigits [.subCarryLatched, .adjust] Byte.IsDecimal Byte.decimal 100 (-1) := by
  have hprogram (d : Datapath) (x y : UInt8) :
      d.onBytes [.subCarryLatched, .adjust] x y =
        ({ d with z := y } : Datapath).accumulate
          (Arithmetic.decimalSub x y d.registers.flags.carry) := rfl
  refine .of_result hprogram fun x y c hx hy => ?_
  obtain ⟨hdecimal, hvalue⟩ := Arithmetic.decimalSub_value hx hy c
  refine ⟨hdecimal, ?_⟩
  push_cast
  omega

/-- **Arithmetic on numbers of many decimal digits.**  Adding two numbers of as many bytes of two
decimal digits with carry, the low bytes first and each sum adjusted, leaves decimal digits, which
are those of the sum, and its decimal carry; subtracting them leaves those of the difference and
its borrow. -/
theorem decimal_arithmetic (d : Datapath) {xs ys : List UInt8} (h : xs.length = ys.length)
    (hx : ∀ x ∈ xs, Byte.IsDecimal x) (hy : ∀ y ∈ ys, Byte.IsDecimal y) :
    ((d.chain [.addCarryLatched, .adjust] xs ys).1.length = xs.length ∧
      (∀ b ∈ (d.chain [.addCarryLatched, .adjust] xs ys).1, Byte.IsDecimal b) ∧
      Bytes.decimal (d.chain [.addCarryLatched, .adjust] xs ys).1 +
          100 ^ xs.length * (d.chain [.addCarryLatched, .adjust] xs ys).2.carry =
        Bytes.decimal xs + Bytes.decimal ys + d.carry) ∧
    (d.chain [.subCarryLatched, .adjust] xs ys).1.length = xs.length ∧
      (∀ b ∈ (d.chain [.subCarryLatched, .adjust] xs ys).1, Byte.IsDecimal b) ∧
      (Bytes.decimal (d.chain [.subCarryLatched, .adjust] xs ys).1 : ℤ) -
          100 ^ xs.length * (d.chain [.subCarryLatched, .adjust] xs ys).2.carry =
        Bytes.decimal xs - Bytes.decimal ys - d.carry := by
  obtain ⟨hsum, hsumDigits, hsums⟩ := onDigits_decimalAdd.chain d h hx hy
  obtain ⟨hdiff, hdiffDigits, hdiffs⟩ := onDigits_decimalSub.chain d h hx hy
  refine ⟨⟨hsum, hsumDigits, ?_⟩, hdiff, hdiffDigits, ?_⟩
  · rw [one_mul, one_mul, ← add_assoc] at hsums
    exact_mod_cast hsums
  · unfold Bytes.decimal
    push_cast at hdiffs
    linear_combination hdiffs

/-- A borrow goes all the way through zeros, and leaves nines. -/
theorem zeros_decimal_arithmetic :
    [(0x00 : UInt8), 0x00].length = [(0x00 : UInt8), 0x00].length ∧
      (∀ b ∈ [(0x00 : UInt8), 0x00], Byte.IsDecimal b) ∧
      (carrying.chain [.subCarryLatched, .adjust] [0x00, 0x00] [0x00, 0x00]).1 = [0x99, 0x99] ∧
      (carrying.chain [.subCarryLatched, .adjust] [0x00, 0x00] [0x00, 0x00]).2.carry = 1 ∧
      (Bytes.decimal [0x99, 0x99] : ℤ) - 100 ^ 2 * 1 =
        Bytes.decimal [0x00, 0x00] - Bytes.decimal [0x00, 0x00] - carrying.carry := by
  have hzeros : ∀ b ∈ [(0x00 : UInt8), 0x00], Byte.IsDecimal b := by
    intro b hb
    obtain rfl : b = 0x00 := by simpa using hb
    decide
  have hdifference := (decimal_arithmetic carrying rfl hzeros hzeros).2.2.2
  exact ⟨rfl, hzeros, by decide, by decide, hdifference⟩

end Datapath

end Handheld
