/-
# Bytes that a section keeps

A section may be made of others, and the start-up program may hide a part of it.
`Section.visible` is the section that a program sees at an address.  `Section.Keeps` says that a
write at an address changes the byte there and nothing else; random-access memory that is visible
keeps what is written, and the register of requested interrupts keeps five bits of it
(`Section.Keeps.of_visible`).
-/
import Handheld.Proofs.Interrupt
import Handheld.Proofs.Section.Sound

namespace Handheld

/-! ## Random-access memory -/

namespace Ram

variable {r : Ram} {a b : Address} {v : UInt8}

@[simp] lemma name_put (r : Ram) (a : Address) (v : UInt8) : (r.put a v).name = r.name := by
  unfold put
  split <;> rfl

@[simp] lemma offset_put (r : Ram) (a b : Address) (v : UInt8) :
    (r.put a v).offset b = r.offset b := by
  rw [offset, offset, start_put, size_put]

lemma offset_eq_some_iff {i : Nat} :
    r.offset a = some i ↔
      r.start.toNat ≤ a.toNat ∧ i = a.toNat - r.start.toNat ∧ i < r.bytes.size := by
  unfold offset
  split
  · rename_i h
    rw [UInt16.le_iff_toNat_le] at h
    rw [Option.some.injEq]
    omega
  · rename_i h
    rw [UInt16.le_iff_toNat_le] at h
    simp only [reduceCtorEq, false_iff]
    omega

/-- A write changes the byte at its address alone. -/
lemma get_put_of_ne (r : Ram) (h : b ≠ a) (v : UInt8) : (r.put a v).get b = r.get b := by
  cases hb : r.offset b with
  | none => rw [get, get, offset_put, hb]
  | some j =>
    rw [get, get, offset_put, hb]
    unfold put
    cases ha : r.offset a with
    | none => rfl
    | some i =>
      obtain ⟨hstart, hi, -⟩ := offset_eq_some_iff.mp ha
      obtain ⟨hstart', hj, -⟩ := offset_eq_some_iff.mp hb
      dsimp only
      refine Bytes.get_put_of_ne _ ?_ v _
      rintro rfl
      exact h (UInt16.toNat.inj (by omega))

lemma get_put_self (h : (r.offset a).isSome) (v : UInt8) : (r.put a v).get a = v := by
  obtain ⟨i, hi⟩ := Option.isSome_iff_exists.mp h
  rw [get, offset_put, hi]
  unfold put
  rw [hi]
  dsimp only
  exact Bytes.get_put_self (offset_eq_some_iff.mp hi).2.2 v _

end Ram

/-! ## Registers -/

namespace IoRegisters

variable {r r' : IoRegisters} {a b : Address} {v : UInt8} {latch : Bool}

/-- Addresses of the register block stand for different cells. -/
lemma offset_injective (ha : start ≤ a) (hb : start ≤ b) (h : offset a = offset b) : a = b := by
  rw [UInt16.le_iff_toNat_le] at ha hb
  unfold offset at h
  exact UInt16.toNat.inj (by omega)

/-- An address below the block stands for its first cell. -/
lemma offset_ne (hb : start < b) (h : a ≠ b) : offset a ≠ offset b := by
  rw [UInt16.lt_iff_toNat_lt] at hb
  unfold offset
  intro heq
  exact h (UInt16.toNat.inj (by omega))

lemma cell_setCell_of_offset_ne (r : IoRegisters) (h : offset a ≠ offset b) (v : UInt8) :
    (r.setCell a v).cell b = r.cell b :=
  Bytes.get_put_of_ne _ h v _

lemma cell_setCell_of_ne (r : IoRegisters) (ha : start ≤ a) (hb : start ≤ b) (h : b ≠ a)
    (v : UInt8) : (r.setCell a v).cell b = r.cell b := by
  refine r.cell_setCell_of_offset_ne ?_ v
  intro hoffset
  exact h (offset_injective ha hb hoffset).symm

lemma cell_setCell_self (h : offset a < r.cells.size) (v : UInt8) :
    (r.setCell a v).cell a = v :=
  Bytes.get_put_self h v _

lemma read_congr (h : r'.cell a = r.cell a) : r'.read a = r.read a := by
  unfold read
  rw [h]

/-- A write to a register changes it alone, but that the display's control reaches its status and
its line. -/
lemma read_write_of_ne (r : IoRegisters) (latch : Bool) (ha : start ≤ a) (hb : start ≤ b)
    (h : b ≠ a) (hdisplay : a = displayControl → b ≠ displayStatus ∧ b ≠ displayLine) (v : UInt8) :
    (r.write latch a v).1.read b = r.read b := by
  refine read_congr ?_
  have hset (r : IoRegisters) (v : UInt8) : (r.setCell a v).cell b = r.cell b :=
    cell_setCell_of_ne r ha hb h v
  unfold write
  split_ifs with _ _ _ hcontrol
  · exact hset _ _
  · exact hset _ _
  · exact hset _ _
  · obtain ⟨hstatus, hline⟩ := hdisplay hcontrol
    rw [cell_setCell_of_ne _ (by decide) hb hstatus, cell_setCell_of_ne _ (by decide) hb hline]
    exact hset _ _
  · exact hset _ _
  · exact hset _ _
  · rfl
  · exact hset _ _
  · rfl
  · exact hset _ _

/-- The start-up program goes away by a write to its switch alone. -/
lemma latch_write (r : IoRegisters) (latch : Bool) (h : a ≠ bootSwitch) (v : UInt8) :
    (r.write latch a v).2 = latch := by
  unfold write
  split_ifs <;> rfl

lemma read_request (r : IoRegisters) :
    r.read Interrupt.requestAddress = r.cell Interrupt.requestAddress ||| 0xE0 :=
  rfl

end IoRegisters

namespace Section

variable {s low high : Section} {board board' : Board} {a b : Address} {f : UInt8 → UInt8}
  {n : String} {program : ByteArray}

/-! ## Accesses to sections made of others -/

lemma write_stitched_of_accepts (h : low.accepts a = true) (v : UInt8) :
    (stitched n low high).write board a v =
      ((low.write board a v).1, stitched n (low.write board a v).2 high) :=
  if_pos h

lemma write_stitched_of_not_accepts (h : ¬ low.accepts a = true) (v : UInt8) :
    (stitched n low high).write board a v =
      ((high.write board a v).1, stitched n low (high.write board a v).2) :=
  if_neg h

lemma write_boot (v : UInt8) :
    (boot program s).write board a v =
      ((s.write board a v).1, boot program (s.write board a v).2) :=
  rfl

lemma read_of_shadow_none (h : shadow board program s a = none) :
    (boot program s).read board a = s.read board a := by
  rw [read, h]

/-! ## What is visible at an address -/

/-- The section that a program sees at an address: of two sections side by side the one that the
address is in, and the section behind the start-up program where that does not hide it. -/
def visible (board : Board) (a : Address) : Section → Section
  | stitched _ low high => if low.accepts a then low.visible board a else high.visible board a
  | boot program inner =>
    if (shadow board program inner a).isSome then boot program inner else inner.visible board a
  | s => s

lemma read_visible (s : Section) (board : Board) (a : Address) :
    (s.visible board a).read board a = s.read board a := by
  induction s with
  | stitched n low high ihlow ihhigh =>
    unfold visible
    by_cases ha : low.accepts a = true
    · rw [if_pos ha, ihlow]
      exact (if_pos ha).symm
    · rw [if_neg ha, ihhigh]
      exact (if_neg ha).symm
  | boot program inner ih =>
    unfold visible
    by_cases ha : (shadow board program inner a).isSome = true
    · rw [if_pos ha]
    · rw [if_neg ha, ih]
      rw [Option.not_isSome_iff_eq_none] at ha
      exact (read_of_shadow_none ha).symm
  | _ => rfl

@[simp] lemma accepts_write (s : Section) (board : Board) (a b : Address) (v : UInt8) :
    (s.write board a v).2.accepts b = s.accepts b := by
  rw [accepts, accepts, start_write, stop_write]

@[simp] lemma name_write (s : Section) (board : Board) (a : Address) (v : UInt8) :
    (s.write board a v).2.name = s.name := by
  induction s with
  | ram r => exact r.name_put a v
  | stitched n low high ihlow ihhigh =>
    unfold Section.write
    split <;> rfl
  | boot program inner ih => exact ih
  | _ => rfl

lemma shadow_write (program : ByteArray) (s : Section) (board board' : Board) (a b : Address)
    (v : UInt8) : shadow board' program (s.write board a v).2 b = shadow board' program s b := by
  rw [shadow, shadow, start_write]

/-- Which accesses are admitted does not depend on what a section holds. -/
@[simp] lemma accessAt_write (s : Section) (board : Board) (a b : Address) (v : UInt8) :
    (s.write board a v).2.accessAt b = s.accessAt b := by
  induction s with
  | ram r => exact r.access_put a v
  | stitched n low high ihlow ihhigh =>
    unfold write
    split
    · simp only [accessAt, accepts_write, ihlow]
    · simp only [accessAt, ihhigh]
  | boot program inner ih => exact ih
  | _ => rfl

/-- The cartridge's windows do not depend on the latch. -/
lemma read_window_congr (hs : s = cartridgeRom ∨ s = cartridgeRam)
    (hcartridge : board'.cartridge.map (·.read a) = board.cartridge.map (·.read a)) :
    s.read board' a = s.read board a := by
  obtain ⟨cartridge, mapped⟩ := board
  obtain ⟨cartridge', mapped'⟩ := board'
  rcases hs with rfl | rfl
  all_goals
    cases cartridge <;> cases cartridge' <;> simp_all [Section.read]

/-- Sections whose boards agree at an address read the same there. -/
lemma read_congr (s : Section)
    (hcartridge : board'.cartridge.map (·.read a) = board.cartridge.map (·.read a))
    (hboot : board'.bootMapped = board.bootMapped) : s.read board' a = s.read board a := by
  induction s with
  | cartridgeRom => exact read_window_congr (.inl rfl) hcartridge
  | cartridgeRam => exact read_window_congr (.inr rfl) hcartridge
  | stitched n low high ihlow ihhigh =>
    unfold Section.read
    rw [ihlow, ihhigh]
  | boot program inner ih =>
    unfold Section.read shadow
    rw [hboot, ih]
  | _ => rfl

/-! ## Bytes that are kept -/

/-- Whether the byte `f v` is read at an address after `v` has been written there, and nothing
else changes. -/
structure Keeps (board : Board) (a : Address) (f : UInt8 → UInt8) (s : Section) : Prop where
  unmoved (v : UInt8) : (s.write board a v).1 = board
  same (v : UInt8) : (s.write board a v).2.read board a = f v
  other (v : UInt8) {b : Address} (h : b ≠ a) :
    (s.write board a v).2.read board b = s.read board b

lemma keeps_ram {r : Ram} (board : Board) (h : (r.offset a).isSome) : (ram r).Keeps board a id :=
  ⟨fun _ => rfl, fun v => r.get_put_self h v, fun v _ hb => r.get_put_of_ne hb v⟩

/-- The change of a byte that is written to the register of requested interrupts. -/
def requestByte (v : UInt8) : UInt8 :=
  (v &&& 0x1F) ||| 0xE0

lemma requestByte_and_mask (v : UInt8) (i : Interrupt) :
    requestByte v &&& i.mask = v &&& i.mask := by
  revert v
  cases i <;> exact Byte.forall_of_fin (by decide +kernel)

lemma keeps_request {r : IoRegisters} (board : Board) (h : r.cells.size = IoRegisters.length) :
    (io r).Keeps board Interrupt.requestAddress requestByte := by
  refine ⟨fun _ => rfl, ?_, ?_⟩
  · intro v
    have hcell := IoRegisters.cell_setCell_self (r := r) (a := Interrupt.requestAddress)
      (by rw [h]; decide) (v &&& 0x1F)
    exact (IoRegisters.read_request _).trans (congrArg (· ||| 0xE0) hcell)
  · intro v b hb
    have hne := IoRegisters.offset_ne (b := Interrupt.requestAddress) (by decide) hb
    exact IoRegisters.read_congr (r.cell_setCell_of_offset_ne hne.symm _)

/-- **A section keeps what the section that is visible in it keeps.** -/
theorem Keeps.of_visible (h : (s.visible board a).Keeps board a f) : s.Keeps board a f := by
  induction s with
  | stitched n low high ihlow ihhigh =>
    unfold visible at h
    by_cases ha : low.accepts a = true
    · rw [if_pos ha] at h
      have hlow := ihlow h
      refine ⟨fun v => ?_, fun v => ?_, fun v b hb => ?_⟩
      · rw [write_stitched_of_accepts ha, hlow.unmoved]
      · rw [write_stitched_of_accepts ha, Section.read, accepts_write, if_pos ha, hlow.same]
      · rw [write_stitched_of_accepts ha, Section.read, Section.read, accepts_write,
          hlow.other v hb]
    · rw [if_neg ha] at h
      have hhigh := ihhigh h
      refine ⟨fun v => ?_, fun v => ?_, fun v b hb => ?_⟩
      · rw [write_stitched_of_not_accepts ha, hhigh.unmoved]
      · rw [write_stitched_of_not_accepts ha, Section.read, if_neg ha, hhigh.same]
      · rw [write_stitched_of_not_accepts ha, Section.read, Section.read, hhigh.other v hb]
  | boot program inner ih =>
    unfold visible at h
    by_cases ha : (shadow board program inner a).isSome = true
    · rwa [if_pos ha] at h
    · rw [if_neg ha] at h
      have hinner := ih h
      rw [Option.not_isSome_iff_eq_none] at ha
      refine ⟨fun v => ?_, fun v => ?_, fun v b hb => ?_⟩
      · rw [write_boot, hinner.unmoved]
      · rw [write_boot, Section.read, shadow_write, ha]
        exact hinner.same v
      · rw [write_boot, Section.read, Section.read, shadow_write, hinner.other v hb]
  | _ => exact h

/-! ## Cells -/

/-- Whether a section has behind an address a byte of memory, or the register of requested
interrupts; it reads as `f v` after `v` has been written. -/
inductive Cell : Address → (UInt8 → UInt8) → Section → Prop
  | ram {r : Ram} {a : Address} (h : (r.offset a).isSome) : Cell a id (ram r)
  | request {r : IoRegisters} (h : r.cells.size = IoRegisters.length) :
      Cell Interrupt.requestAddress requestByte (io r)

lemma Cell.keeps (h : Cell a f s) (board : Board) : s.Keeps board a f := by
  cases h with
  | ram h => exact keeps_ram board h
  | request h => exact keeps_request board h

/-- A cell stays one, whatever is written to its section. -/
lemma Cell.write (h : Cell a f s) (board : Board) (b : Address) (v : UInt8) :
    Cell a f (s.write board b v).2 := by
  cases h with
  | ram h => exact .ram (by rwa [Ram.offset_put])
  | request h => exact .request ((IoRegisters.size_write _ _ _ _).trans h)

/-- A byte that has been read with some bits cleared is kept as it is. -/
lemma Cell.apply_clear (h : Cell a f s) (board : Board) (i : Interrupt) :
    f (s.read board a &&& ~~~i.mask) = s.read board a &&& ~~~i.mask := by
  cases h with
  | ram h => rfl
  | @request r h =>
    have hclear (c : UInt8) :
        requestByte ((c ||| 0xE0) &&& ~~~i.mask) = (c ||| 0xE0) &&& ~~~i.mask := by
      revert c
      cases i <;> exact Byte.forall_of_fin (by decide +kernel)
    exact hclear (r.cell Interrupt.requestAddress)

/-- What is visible at an address after a write to the section. -/
lemma visible_write (s : Section) (board : Board) (a b : Address) (v : UInt8) :
    (s.write board a v).2.visible board b = s.visible board b ∨
      (s.write board a v).2.visible board b = ((s.visible board b).write board a v).2 := by
  induction s with
  | stitched n low high ihlow ihhigh =>
    by_cases ha : low.accepts a = true
    · rw [write_stitched_of_accepts ha]
      unfold visible
      rw [accepts_write]
      by_cases hb : low.accepts b = true
      · rw [if_pos hb, if_pos hb]
        exact ihlow
      · rw [if_neg hb, if_neg hb]
        exact .inl rfl
    · rw [write_stitched_of_not_accepts ha]
      unfold visible
      by_cases hb : low.accepts b = true
      · rw [if_pos hb, if_pos hb]
        exact .inl rfl
      · rw [if_neg hb, if_neg hb]
        exact ihhigh
  | boot program inner ih =>
    rw [write_boot]
    unfold visible
    rw [shadow_write]
    by_cases hb : (shadow board program inner b).isSome = true
    · rw [if_pos hb, if_pos hb]
      exact .inr rfl
    · rw [if_neg hb, if_neg hb]
      exact ih
  | _ => exact .inr rfl

end Section

end Handheld
