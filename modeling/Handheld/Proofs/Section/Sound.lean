/-
# Sound sections

A section is sound if it admits every access and has something behind each of its addresses.  A
write keeps a section sound and where it is (`Section.Sound.write`), and an access to a sound
section stays inside what is behind it (`Section.Sound.inRange`).
-/
import Mathlib.Tactic.SplitIfs
import Handheld.Proofs.Cartridge.Storage
import Handheld.Section.Basic

namespace Handheld

/-! ## Registers and memory -/

namespace IoRegisters

@[simp] lemma size_setCell (r : IoRegisters) (a : Address) (v : UInt8) :
    (r.setCell a v).cells.size = r.cells.size :=
  Bytes.size_put _ _ _

@[simp] lemma size_initial (b : Bool) : (initial b).cells.size = length := by
  simp [initial]

@[simp] lemma size_write (r : IoRegisters) (latch : Bool) (a : Address) (v : UInt8) :
    (r.write latch a v).1.cells.size = r.cells.size := by
  unfold write
  split_ifs <;> simp

end IoRegisters

namespace Ram

@[simp] lemma size_put (r : Ram) (a : Address) (v : UInt8) :
    (r.put a v).bytes.size = r.bytes.size := by
  unfold put
  split
  · exact Bytes.size_put _ _ _
  · rfl

@[simp] lemma start_put (r : Ram) (a : Address) (v : UInt8) : (r.put a v).start = r.start := by
  unfold put
  split <;> rfl

@[simp] lemma access_put (r : Ram) (a : Address) (v : UInt8) : (r.put a v).access = r.access := by
  unfold put
  split <;> rfl

/-- Zeroed memory is as long as it is asked to be, if there is room for it. -/
lemma length_zeroed {name : String} {start : Address} {n : Nat} (hroom : start.toNat + n ≤ 0x10000)
    (hlong : n ≤ 0xFFFF) : (zeroed name start n).length = n := by
  rw [length, zeroed, bytes_ofBytes, ByteArray.size_extract, Bytes.size_fill, room]
  omega

end Ram

/-- Whether a board has a cartridge of whole banks. -/
def Board.Stored (b : Board) : Prop :=
  ∃ c, b.cartridge = some c ∧ c.Stored

namespace Section

/-- Whether an access at an address stays inside what is behind a section. -/
def InRange (board : Board) (a : Address) : Section → Prop
  | ram r => r.start ≤ a ∧ a.toNat - r.start.toNat < r.bytes.size
  | openBus .. => True
  | io r =>
    r.cells.size = IoRegisters.length ∧ IoRegisters.start ≤ a ∧ IoRegisters.offset a < r.cells.size
  | cartridgeRom | cartridgeRam => ∃ c, board.cartridge = some c ∧ c.InRange a
  | stitched _ low high => if low.accepts a then low.InRange board a else high.InRange board a
  | boot program inner =>
    inner.start ≤ a ∧
      (∀ v, shadow board program inner a = some v →
        a.toNat - inner.start.toNat < program.size) ∧
      inner.InRange board a

/-- Whether a section admits every access and has something behind all of its addresses, given a
cartridge. -/
def Sound : Section → Prop
  | ram r => r.access = .readWrite
  | io r => r.cells.size = IoRegisters.length
  | stitched _ low high => low.Sound ∧ high.Sound ∧ low.stop = high.start.toNat
  | boot _ inner => inner.Sound
  | _ => True

variable {s : Section} {board : Board} {a : Address} {v : UInt8}

/-! ## Writes -/

@[simp] lemma start_write (s : Section) (board : Board) (a : Address) (v : UInt8) :
    (s.write board a v).2.start = s.start := by
  induction s with
  | ram r => exact r.start_put a v
  | stitched n low high ihlow ihhigh =>
    unfold Section.write
    split
    · exact ihlow
    · rfl
  | boot program inner ih => exact ih
  | _ => rfl

@[simp] lemma length_write (s : Section) (board : Board) (a : Address) (v : UInt8) :
    (s.write board a v).2.length = s.length := by
  induction s with
  | ram r => exact r.size_put a v
  | stitched n low high ihlow ihhigh =>
    unfold Section.write
    split
    · exact congrArg (· + high.length) ihlow
    · exact congrArg (low.length + ·) ihhigh
  | boot program inner ih => exact ih
  | _ => rfl

@[simp] lemma stop_write (s : Section) (board : Board) (a : Address) (v : UInt8) :
    (s.write board a v).2.stop = s.stop := by
  simp [stop]

lemma Sound.write (h : s.Sound) (board : Board) (a : Address) (v : UInt8) :
    (s.write board a v).2.Sound := by
  induction s with
  | ram r => exact (r.access_put a v).trans h
  | io r => exact (r.size_write board.bootMapped a v).trans h
  | stitched n low high ihlow ihhigh =>
    -- the parts still meet, as a write moves neither of them
    obtain ⟨hlow, hhigh, hnext⟩ := h
    unfold Section.write
    split
    · exact ⟨ihlow hlow, hhigh, (stop_write low board a v).trans hnext⟩
    · refine ⟨hlow, ihhigh hhigh, ?_⟩
      rw [start_write, hnext]
  | boot program inner ih => exact ih h
  | _ => exact h

/-- Whatever section is written to, the cartridge keeps its banks. -/
lemma stored_write (s : Section) (h : board.Stored) (a : Address) (v : UInt8) :
    (s.write board a v).1.Stored := by
  have hcartridge : (write.writeCartridge a v board).Stored := by
    obtain ⟨cartridge, mapped⟩ := board
    obtain ⟨c, hc, hstored⟩ := h
    obtain rfl : cartridge = some c := hc
    exact ⟨_, rfl, hstored.write a v⟩
  induction s with
  | cartridgeRom | cartridgeRam => exact hcartridge
  | stitched n low high ihlow ihhigh =>
    unfold Section.write
    split
    · exact ihlow
    · exact ihhigh
  | boot program inner ih => exact ih
  | _ => exact h

/-! ## Accesses -/

lemma Sound.accessAt (h : s.Sound) (a : Address) : s.accessAt a = .readWrite := by
  induction s with
  | ram r => exact h
  | stitched n low high ihlow ihhigh =>
    unfold Section.accessAt
    split
    · exact ihlow h.1
    · exact ihhigh h.2.1
  | boot program inner ih => exact ih h
  | _ => rfl

lemma accepts_iff : s.accepts a = true ↔ s.start.toNat ≤ a.toNat ∧ a.toNat < s.stop := by
  rw [accepts, Bool.and_eq_true, decide_eq_true_eq, decide_eq_true_eq, UInt16.le_iff_toNat_le]

/-- **Accesses to a sound section stay inside what is behind it.** -/
theorem Sound.inRange (h : s.Sound) (hboard : board.Stored) (ha : s.accepts a = true) :
    s.InRange board a := by
  induction s with
  | ram r =>
    obtain ⟨hstart, hstop⟩ := accepts_iff.mp ha
    refine ⟨UInt16.le_iff_toNat_le.mpr hstart, ?_⟩
    change a.toNat < r.start.toNat + r.bytes.size at hstop
    change r.start.toNat ≤ a.toNat at hstart
    omega
  | openBus n start length => trivial
  | io r =>
    obtain ⟨hstart, hstop⟩ := accepts_iff.mp ha
    refine ⟨h, UInt16.le_iff_toNat_le.mpr hstart, ?_⟩
    rw [show r.cells.size = IoRegisters.length from h, IoRegisters.offset]
    change a.toNat < IoRegisters.start.toNat + IoRegisters.length at hstop
    change IoRegisters.start.toNat ≤ a.toNat at hstart
    omega
  | cartridgeRom | cartridgeRam =>
    obtain ⟨c, hc, hstored⟩ := hboard
    exact ⟨c, hc, hstored.inRange a⟩
  | stitched n low high ihlow ihhigh =>
    obtain ⟨hlow, hhigh, hnext⟩ := h
    unfold InRange
    split
    · exact ihlow hlow ‹_›
    · -- the parts lie end to end, so what is not in the low one is in the high one
      rename_i hnot
      refine ihhigh hhigh (accepts_iff.mpr ?_)
      obtain ⟨hstart, hstop⟩ := accepts_iff.mp ha
      rw [accepts_iff] at hnot
      change low.start.toNat ≤ a.toNat at hstart
      change a.toNat < low.start.toNat + (low.length + high.length) at hstop
      unfold stop at hnot hnext ⊢
      omega
  | boot program inner ih =>
    obtain ⟨hstart, -⟩ := accepts_iff.mp ha
    refine ⟨UInt16.le_iff_toNat_le.mpr hstart, ?_, ih h ha⟩
    intro v hv
    unfold shadow at hv
    dsimp only at hv
    split at hv
    · exact (getElem?_eq_some_iff.mp hv).1
    · cases hv

end Section

end Handheld
