/-
# Numbers of many bytes

A loop over two numbers of as many bytes, the low bytes first, loads a byte of the first number
into the accumulator and lets instructions take effect on it and on the byte of the second.  All
that goes from one round to the next is the carry.  So what one round does to digits and carry the
loop does to numbers and carry (`Datapath.OnDigits.chain`), for sums and for differences, whatever
the base.  With bytes as the digits this gives the main statement, `Datapath.long_arithmetic`.
-/
import Mathlib.Data.Nat.Digits.Defs
import Mathlib.Tactic.LinearCombination
import Handheld.Processor.Effect

namespace Handheld

/-! ## Bytes -/

namespace Arithmetic

variable (x y : UInt8) (c : Bool)

lemma toNat_add : (add x y c).value.toNat = (x.toNat + y.toNat + c.toNat) % 256 := by
  simp [add]

lemma toNat_sub :
    (sub x y c).value.toNat = (x.toNat + 256 - (y.toNat + c.toNat)) % 256 := by
  simp [sub]

/-- A sum with its carry, also with a carry in and the largest byte. -/
lemma add_value :
    (add x y c).value.toNat + 256 * (add x y c).flags.carry.toNat =
      x.toNat + y.toNat + c.toNat := by
  have hx := x.toNat_lt
  have hy := y.toNat_lt
  have hc := c.toNat_le
  rw [toNat_add, show (add x y c).flags.carry = decide (x.toNat + y.toNat + c.toNat > 255) from rfl]
  by_cases h : x.toNat + y.toNat + c.toNat > 255
  · rw [decide_eq_true h, Bool.toNat_true]
    omega
  · rw [decide_eq_false h, Bool.toNat_false]
    omega

/-- A difference with its borrow. -/
lemma sub_value :
    (sub x y c).value.toNat + (y.toNat + c.toNat) =
      x.toNat + 256 * (sub x y c).flags.carry.toNat := by
  have hx := x.toNat_lt
  have hy := y.toNat_lt
  have hc := c.toNat_le
  rw [toNat_sub, show (sub x y c).flags.carry = decide (x.toNat < y.toNat + c.toNat) from rfl]
  by_cases h : x.toNat < y.toNat + c.toNat
  · rw [decide_eq_true h, Bool.toNat_true]
    omega
  · rw [decide_eq_false h, Bool.toNat_false]
    omega

end Arithmetic

namespace Bytes

/-- The number that bytes stand for as digits of a base, the low byte first. -/
def number (base : Nat) (digit : UInt8 → Nat) (bytes : List UInt8) : Nat :=
  Nat.ofDigits base (bytes.map digit)

/-- The number that bytes stand for, the low byte first. -/
def binary (bytes : List UInt8) : Nat :=
  number 256 UInt8.toNat bytes

@[simp] lemma number_nil (base : Nat) (digit : UInt8 → Nat) : number base digit [] = 0 := rfl

lemma number_cons (base : Nat) (digit : UInt8 → Nat) (b : UInt8) (bytes : List UInt8) :
    number base digit (b :: bytes) = digit b + base * number base digit bytes := by
  rw [number, List.map_cons, Nat.ofDigits_cons]
  rfl

end Bytes

/-! ## Loops -/

namespace Instruction

/-- `ADC A,(HL)`, whose source is the byte in the latch. -/
def addCarryLatched : Instruction :=
  ⟨.adc, some (.reg .a), some (.indirect .hl)⟩

/-- `SBC A,(HL)`. -/
def subCarryLatched : Instruction :=
  ⟨.sbc, some (.reg .a), some (.indirect .hl)⟩

end Instruction

namespace Datapath

/-- The datapath after some instructions have taken effect, one after the other, with `x` in the
accumulator and `y` in the latch. -/
def onBytes (d : Datapath) (program : List Instruction) (x y : UInt8) : Datapath :=
  program.foldl (fun d i => i.effect d) { d with registers.a := x, z := y }

/-- Let instructions take effect on the bytes of two numbers, one pair after the other; gives the
bytes that they leave in the accumulator, and the datapath in the end. -/
def chain (program : List Instruction) :
    Datapath → List UInt8 → List UInt8 → List UInt8 × Datapath
  | d, x :: xs, y :: ys =>
    let d := d.onBytes program x y
    let (bytes, last) := chain program d xs ys
    (d.registers.a :: bytes, last)
  | d, _, _ => ([], d)

/-- The carry, as a number. -/
def carry (d : Datapath) : Nat :=
  d.registers.flags.carry.toNat

/-- Whether instructions take bytes that are digits of a base to such a byte and a carry, which are
the sum of the two digits and the carry before, or with the sign `-1` their difference. -/
def OnDigits (program : List Instruction) (IsDigit : UInt8 → Prop) (digit : UInt8 → Nat)
    (base : Nat) (sign : ℤ) : Prop :=
  ∀ (d : Datapath) (x y : UInt8), IsDigit x → IsDigit y →
    IsDigit (d.onBytes program x y).registers.a ∧
    (digit (d.onBytes program x y).registers.a : ℤ) +
        sign * (base * (d.onBytes program x y).carry) =
      digit x + sign * (digit y + d.carry)

/-- Instructions that leave the result of an operation on the two bytes and the carry. -/
lemma OnDigits.of_result {program : List Instruction} {IsDigit : UInt8 → Prop}
    {digit : UInt8 → Nat} {base : Nat} {sign : ℤ} {op : UInt8 → UInt8 → Bool → Arithmetic.Result}
    (hprogram : ∀ (d : Datapath) (x y : UInt8), d.onBytes program x y =
      ({ d with z := y } : Datapath).accumulate (op x y d.registers.flags.carry))
    (hop : ∀ (x y : UInt8) (c : Bool), IsDigit x → IsDigit y → IsDigit (op x y c).value ∧
      (digit (op x y c).value : ℤ) + sign * (base * (op x y c).flags.carry.toNat) =
        digit x + sign * (digit y + c.toNat)) :
    OnDigits program IsDigit digit base sign := by
  intro d x y hx hy
  rw [carry, hprogram]
  exact hop x y _ hx hy

/-- **What instructions do to digits a loop does to numbers**: by induction on the bytes, with the
carry as all that a round leaves to the next. -/
theorem OnDigits.chain {program : List Instruction} {IsDigit : UInt8 → Prop}
    {digit : UInt8 → Nat} {base : Nat} {sign : ℤ}
    (h : OnDigits program IsDigit digit base sign) (d : Datapath) {xs ys : List UInt8}
    (hlength : xs.length = ys.length) (hx : ∀ x ∈ xs, IsDigit x) (hy : ∀ y ∈ ys, IsDigit y) :
    (d.chain program xs ys).1.length = xs.length ∧
      (∀ b ∈ (d.chain program xs ys).1, IsDigit b) ∧
      (Bytes.number base digit (d.chain program xs ys).1 : ℤ) +
          sign * (base ^ xs.length * (d.chain program xs ys).2.carry) =
        Bytes.number base digit xs + sign * (Bytes.number base digit ys + d.carry) := by
  induction xs generalizing d ys with
  | nil =>
    obtain rfl := List.length_eq_zero_iff.mp hlength.symm
    exact ⟨rfl, nofun, by simp [Datapath.chain]⟩
  | cons x xs ih =>
    cases ys with
    | nil => cases hlength
    | cons y ys =>
      obtain ⟨hdigit, hvalue⟩ := h d x y (hx x List.mem_cons_self) (hy y List.mem_cons_self)
      obtain ⟨hlength', hdigits, hvalues⟩ := ih (d.onBytes program x y) (Nat.succ.inj hlength)
        (fun x h => hx x (List.mem_cons_of_mem _ h)) (fun y h => hy y (List.mem_cons_of_mem _ h))
      refine ⟨congrArg Nat.succ hlength', List.forall_mem_cons.mpr ⟨hdigit, hdigits⟩, ?_⟩
      simp only [Datapath.chain, Bytes.number_cons, List.length_cons, pow_succ]
      push_cast
      linear_combination hvalue + base * hvalues

/-! ## Sums and differences of numbers -/

lemma onDigits_add : OnDigits [.addCarryLatched] (fun _ => True) UInt8.toNat 256 1 := by
  refine .of_result (fun _ _ _ => rfl) fun x y c _ _ => ⟨trivial, ?_⟩
  have hvalue := Arithmetic.add_value x y c
  push_cast
  omega

lemma onDigits_sub : OnDigits [.subCarryLatched] (fun _ => True) UInt8.toNat 256 (-1) := by
  refine .of_result (fun _ _ _ => rfl) fun x y c _ _ => ⟨trivial, ?_⟩
  have hvalue := Arithmetic.sub_value x y c
  push_cast
  omega

/-- **Arithmetic on numbers of many bytes.**  Adding two numbers of as many bytes with carry, the
low bytes first, leaves the bytes of the sum and its carry; subtracting them leaves those of the
difference and its borrow.  A comparison is a subtraction that leaves the accumulator alone, with
the same flags. -/
theorem long_arithmetic (d : Datapath) {xs ys : List UInt8} (h : xs.length = ys.length) :
    ((d.chain [.addCarryLatched] xs ys).1.length = xs.length ∧
      Bytes.binary (d.chain [.addCarryLatched] xs ys).1 +
          256 ^ xs.length * (d.chain [.addCarryLatched] xs ys).2.carry =
        Bytes.binary xs + Bytes.binary ys + d.carry) ∧
    ((d.chain [.subCarryLatched] xs ys).1.length = xs.length ∧
      (Bytes.binary (d.chain [.subCarryLatched] xs ys).1 : ℤ) -
          256 ^ xs.length * (d.chain [.subCarryLatched] xs ys).2.carry =
        Bytes.binary xs - Bytes.binary ys - d.carry) ∧
    ∀ source : Option Operand,
      Instruction.effect ⟨.cp, source, none⟩ d =
        d.setFlags (Instruction.effect ⟨.sub, source, none⟩ d).registers.flags := by
  obtain ⟨hsum, -, hsums⟩ := onDigits_add.chain d h (fun _ _ => trivial) (fun _ _ => trivial)
  obtain ⟨hdiff, -, hdiffs⟩ := onDigits_sub.chain d h (fun _ _ => trivial) (fun _ _ => trivial)
  refine ⟨⟨hsum, ?_⟩, ⟨hdiff, ?_⟩, fun source => rfl⟩
  · rw [one_mul, one_mul, ← add_assoc] at hsums
    exact_mod_cast hsums
  · unfold Bytes.binary
    push_cast at hdiffs
    linear_combination hdiffs

/-- A datapath with the carry set. -/
def carrying : Datapath :=
  ⟨{ flags := { carry := true } }, 0, 0⟩

/-- A carry goes all the way through where the largest byte is added to the largest byte. -/
theorem full_bytes_long_arithmetic :
    [(0xFF : UInt8), 0xFF].length = [(0xFF : UInt8), 0x00].length ∧
      (carrying.chain [.addCarryLatched] [0xFF, 0xFF] [0xFF, 0x00]).1 = [0xFF, 0x00] ∧
      (carrying.chain [.addCarryLatched] [0xFF, 0xFF] [0xFF, 0x00]).2.carry = 1 ∧
      Bytes.binary [0xFF, 0x00] + 256 ^ 2 * 1 =
        Bytes.binary [0xFF, 0xFF] + Bytes.binary [0xFF, 0x00] + carrying.carry := by
  have hlength : [(0xFF : UInt8), 0xFF].length = [(0xFF : UInt8), 0x00].length := rfl
  have hsum := (long_arithmetic carrying hlength).1.2
  exact ⟨hlength, by decide, by decide, hsum⟩

end Datapath

end Handheld
