/-
# Registers by what has been written

What the register block shows follows from the writes to it alone.  Most registers take some bits of
the last byte that was written to them and have a fixed value in the others; the display's status
also remembers whether the display has ever been switched off, and the switch of the start-up
program whether that has been taken away.  The main statement, `IoRegisters.follows_writes`, says so
of all registers after any writes.
-/
import Handheld.Proofs.Section.Started

namespace Handheld.IoRegisters

/-! ## Writes -/

/-- Whether an address is one of the block's. -/
def Covers (a : Address) : Prop :=
  start.toNat ≤ a.toNat ∧ a.toNat < start.toNat + length

instance (a : Address) : Decidable (Covers a) :=
  inferInstanceAs (Decidable (_ ∧ _))

/-- Writes to the block, the latest first. -/
abbrev Writes := List (Address × UInt8)

/-- The registers after writes, with the latch that keeps the start-up program in place. -/
def after (mapped : Bool) : Writes → IoRegisters × Bool
  | [] => (initial mapped, mapped)
  | (a, v) :: earlier => (after mapped earlier).1.write (after mapped earlier).2 a v

namespace Writes

/-- The last byte that was written to a register, or another one if there was none. -/
def last (ws : Writes) (a : Address) (otherwise : UInt8) : UInt8 :=
  ((ws.find? (·.1 = a)).map (·.2)).getD otherwise

/-- Whether the display has been switched off. -/
def displayOff (ws : Writes) : Bool :=
  ws.any fun w => w.1 = displayControl ∧ w.2 &&& 0x80 = 0

/-- Whether a byte but zero has been written to the switch of the start-up program. -/
def bootOff (ws : Writes) : Bool :=
  ws.any fun w => w.1 = bootSwitch ∧ w.2 ≠ 0

variable {ws : Writes} {a b : Address} {v d : UInt8}

lemma displayOff_cons :
    displayOff ((a, v) :: ws) = true ↔
      a = displayControl ∧ v &&& 0x80 = 0 ∨ ws.displayOff = true := by
  simp [displayOff]

lemma bootOff_cons :
    bootOff ((a, v) :: ws) = true ↔ a = bootSwitch ∧ v ≠ 0 ∨ ws.bootOff = true := by
  simp [bootOff]

lemma last_cons : last ((a, v) :: ws) b d = if a = b then v else ws.last b d := by
  unfold last
  by_cases h : a = b
  · simp [h]
  · simp [h]

end Writes

/-- A byte with the bits of a mask taken from another byte. -/
def replaceBits (mask base v : UInt8) : UInt8 :=
  (base &&& ~~~mask) ||| (v &&& mask)

variable {r : IoRegisters} {latch mapped : Bool} {ws : Writes} {a b : Address} {m f u v d : UInt8}

/-- Of bits that are replaced twice the later ones count. -/
lemma replaceBits_replaceBits : replaceBits m (replaceBits m f u) v = replaceBits m f v := by
  rw [← UInt8.toBitVec_inj]
  ext i hi
  simp only [replaceBits, UInt8.toBitVec_or, UInt8.toBitVec_and, UInt8.toBitVec_not,
    BitVec.getElem_or, BitVec.getElem_and, BitVec.getElem_not]
  cases m.toBitVec[i] <;> simp

/-- Where all bits are replaced, nothing is left of the byte. -/
lemma replaceBits_all (f v : UInt8) : replaceBits 0xFF f v = v := by
  have hbase : f &&& ~~~0xFF = 0 := by
    revert f
    exact Byte.forall_of_fin (by decide +kernel)
  have hmask : v &&& 0xFF = v := by
    revert v
    exact Byte.forall_of_fin (by decide +kernel)
  rw [replaceBits, hbase, hmask, UInt8.zero_or]

/-- Bits that always read as ones do not matter to what is replaced. -/
lemma replaceBits_or {m k ones c v : UInt8} (h : (c &&& k) ||| ones = (c ||| ones) &&& ~~~m) :
    ((c &&& k) ||| (v &&& m)) ||| ones = replaceBits m (c ||| ones) v := by
  rw [replaceBits, ← h, UInt8.or_assoc, UInt8.or_assoc, UInt8.or_comm ones]

/-! ## A register that is written to -/

lemma Covers.offset_lt (ha : Covers a) (hsize : r.cells.size = length) :
    offset a < r.cells.size := by
  obtain ⟨hstart, hstop⟩ := ha
  rw [hsize, offset]
  omega

lemma Covers.start_le (ha : Covers a) : start ≤ a :=
  UInt16.le_iff_toNat_le.mpr ha.1

/-- The bits of a register that a write replaces. -/
def writable (a : Address) : UInt8 :=
  if a = joypad then 0x30
  else if a = Interrupt.requestAddress then 0x1F
  else if a = displayStatus then 0x78
  else 0xFF

/-- Switching the display off resets its line and its mode. -/
lemma write_displayControl (r : IoRegisters) (latch : Bool) (v : UInt8) :
    (r.write latch displayControl v).1 =
      if v &&& 0x80 = 0 then
        ((r.setCell displayControl v).setCell displayLine 0).setCell displayStatus
          (r.cell displayStatus &&& 0xFC)
      else r.setCell displayControl v := by
  simp only [write, show displayControl ≠ joypad by decide, show displayControl ≠ divider by decide,
    show displayControl ≠ Interrupt.requestAddress by decide, if_false, if_true]
  split
  · rfl
  · rfl

/-- A write replaces the bits of a register that can be written, where it has no effect of its
own. -/
lemma read_write_self (hsize : r.cells.size = length) (ha : Covers a) (hdivider : a ≠ divider)
    (hline : a ≠ displayLine) (hswitch : a ≠ bootSwitch) :
    (r.write latch a v).1.read a = replaceBits (writable a) (r.read a) v := by
  have hcell (v : UInt8) : (r.setCell a v).cell a = v := cell_setCell_self (ha.offset_lt hsize) v
  by_cases hjoypad : a = joypad
  · subst hjoypad
    change (r.setCell joypad _).cell joypad ||| 0xC0 = replaceBits 0x30 (r.cell joypad ||| 0xC0) v
    rw [hcell, replaceBits_or]
    exact Byte.forall_of_fin (p := fun c => c &&& 0xCF ||| 0xC0 = (c ||| 0xC0) &&& ~~~0x30)
      (by decide +kernel) _
  by_cases hrequest : a = Interrupt.requestAddress
  · subst hrequest
    have hones (c : UInt8) : (c ||| 0xE0) &&& ~~~0x1F = 0xE0 := by
      revert c
      exact Byte.forall_of_fin (by decide +kernel)
    change (r.setCell Interrupt.requestAddress _).cell Interrupt.requestAddress ||| 0xE0 =
      replaceBits 0x1F (r.cell Interrupt.requestAddress ||| 0xE0) v
    rw [hcell, replaceBits, hones, UInt8.or_comm]
  by_cases hstatus : a = displayStatus
  · subst hstatus
    change (r.setCell displayStatus _).cell displayStatus ||| 0x80 =
      replaceBits 0x78 (r.cell displayStatus ||| 0x80) v
    rw [hcell, replaceBits_or]
    exact Byte.forall_of_fin (p := fun c => c &&& 0x07 ||| 0x80 = (c ||| 0x80) &&& ~~~0x78)
      (by decide +kernel) _
  · have hplain (r : IoRegisters) : r.read a = r.cell a := by
      simp only [read, hjoypad, hrequest, hstatus, hswitch, if_false]
    have hmask : writable a = 0xFF := by
      simp only [writable, hjoypad, hrequest, hstatus, if_false]
    rw [hplain, hmask, replaceBits_all]
    by_cases hcontrol : a = displayControl
    · subst hcontrol
      rw [write_displayControl]
      split
      · rw [cell_setCell_of_ne _ (by decide) (by decide) (by decide),
          cell_setCell_of_ne _ (by decide) (by decide) (by decide), hcell]
      · exact hcell v
    · simp only [write, hjoypad, hdivider, hrequest, hcontrol, hstatus, hline, hswitch, if_false,
        hcell]

/-- Switching the display off reaches its status. -/
lemma read_displayStatus_write_displayControl (hsize : r.cells.size = length) :
    (r.write latch displayControl v).1.read displayStatus =
      if v &&& 0x80 = 0 then r.read displayStatus &&& 0xFC else r.read displayStatus := by
  have hread (r : IoRegisters) : r.read displayStatus = r.cell displayStatus ||| 0x80 := rfl
  have hmode (c : UInt8) : (c &&& 0xFC) ||| 0x80 = (c ||| 0x80) &&& 0xFC := by
    revert c
    exact Byte.forall_of_fin (by decide +kernel)
  rw [write_displayControl]
  split
  · rw [hread, hread, cell_setCell_self _, hmode]
    rw [size_setCell, size_setCell, hsize]
    decide
  · rw [hread, hread, cell_setCell_of_ne r (by decide) (by decide) (by decide)]

/-- Switching the display off resets its line. -/
lemma read_displayLine_write_displayControl (hsize : r.cells.size = length) :
    (r.write latch displayControl v).1.read displayLine =
      if v &&& 0x80 = 0 then 0 else r.read displayLine := by
  have hread (r : IoRegisters) : r.read displayLine = r.cell displayLine := rfl
  rw [write_displayControl]
  split
  · rw [hread, cell_setCell_of_ne _ (by decide) (by decide) (by decide), cell_setCell_self]
    rw [size_setCell, hsize]
    decide
  · rw [hread, hread, cell_setCell_of_ne r (by decide) (by decide) (by decide)]

/-! ## What registers show -/

/-- The registers that do not simply show the last byte written to them. -/
def special : List Address :=
  [joypad, divider, Interrupt.requestAddress, displayControl, displayStatus, displayLine,
    bootSwitch]

/-- Whether registers and the latch are as writes leave those of a fresh block, with the start-up
program in place or not. -/
structure Follows (mapped : Bool) (ws : Writes) (r : IoRegisters) (latch : Bool) : Prop where
  joypad_eq : r.read joypad = replaceBits 0x30 0xCF (ws.last joypad 0)
  divider_eq : r.read divider = 0
  request_eq : r.read Interrupt.requestAddress =
    replaceBits 0x1F 0xE0 (ws.last Interrupt.requestAddress 0)
  displayControl_eq : r.read displayControl = ws.last displayControl 0x91
  /-- The lowest bit is lost when the display is switched off for the first time. -/
  displayStatus_eq : r.read displayStatus =
    replaceBits 0x78 (if ws.displayOff then 0x84 else 0x85) (ws.last displayStatus 0)
  displayLine_eq : r.read displayLine = 0
  bootSwitch_eq : r.read bootSwitch = if mapped = false ∨ ws.bootOff = true then 0xFF else 0xFE
  latch_iff : latch = true ↔ r.read bootSwitch = 0xFE
  others_eq : ∀ a, Covers a → a ∉ special → r.read a = ws.last a 0

lemma follows_initial (mapped : Bool) : Follows mapped [] (initial mapped) mapped := by
  refine ⟨?_, ?_, ?_, ?_, ?_, ?_, ?_, ?_, fun a ha hspecial => ?_⟩
  iterate 8 cases mapped <;> decide +kernel
  simp only [special, List.mem_cons, List.not_mem_nil, or_false, not_or] at hspecial
  obtain ⟨hjoypad, -, hrequest, hcontrol, hstatus, -, hswitch⟩ := hspecial
  have hstart := ha.start_le
  simp only [read, hjoypad, hrequest, hstatus, hswitch, if_false, initial]
  rw [cell_setCell_of_ne _ (by decide) hstart hswitch,
    cell_setCell_of_ne _ (by decide) hstart hstatus,
    cell_setCell_of_ne _ (by decide) hstart hcontrol,
    cell_setCell_of_ne _ (by decide) hstart hjoypad, cell, Bytes.get_fill]
  · rfl
  · obtain ⟨hle, hstop⟩ := ha
    rw [offset]
    omega

/-- A register that shows bits of the last write goes on to do so. -/
lemma read_write_of_replaceBits (hsize : r.cells.size = length) (ha : Covers a) (hb : Covers b)
    (hb' : b ∉ [divider, displayStatus, displayLine, bootSwitch])
    (h : r.read b = replaceBits (writable b) f (ws.last b d)) :
    (r.write latch a v).1.read b =
      replaceBits (writable b) f (Writes.last ((a, v) :: ws) b d) := by
  simp only [List.mem_cons, List.not_mem_nil, or_false, not_or] at hb'
  obtain ⟨hdivider, hstatus, hline, hswitch⟩ := hb'
  rw [Writes.last_cons]
  by_cases hab : a = b
  · subst hab
    rw [if_pos rfl, read_write_self hsize ha hdivider hline hswitch, h, replaceBits_replaceBits]
  · rw [if_neg hab, ← h]
    exact read_write_of_ne r latch ha.start_le hb.start_le (Ne.symm hab)
      (fun _ => ⟨hstatus, hline⟩) v

/-- A register that shows the last byte written to it goes on to do so. -/
lemma read_write_of_last (hsize : r.cells.size = length) (ha : Covers a) (hb : Covers b)
    (hb' : b ∉ [divider, displayStatus, displayLine, bootSwitch]) (hmask : writable b = 0xFF)
    (h : r.read b = ws.last b d) :
    (r.write latch a v).1.read b = Writes.last ((a, v) :: ws) b d := by
  rw [← replaceBits_all 0 (Writes.last _ b d), ← hmask]
  rw [← replaceBits_all 0 (Writes.last _ b d), ← hmask] at h
  exact read_write_of_replaceBits hsize ha hb hb' h

namespace Follows

variable (h : Follows mapped ws r latch) (hsize : r.cells.size = length) (ha : Covers a)
include h hsize ha

lemma divider_write (v : UInt8) : (r.write latch a v).1.read divider = 0 := by
  by_cases hdivider : a = divider
  · subst hdivider
    exact cell_setCell_self (ha.offset_lt hsize) 0
  · rw [read_write_of_ne r latch ha.start_le (by decide) (Ne.symm hdivider) (fun _ => by decide),
      h.divider_eq]

lemma displayStatus_write (v : UInt8) :
    (r.write latch a v).1.read displayStatus =
      replaceBits 0x78 (if Writes.displayOff ((a, v) :: ws) then 0x84 else 0x85)
        (Writes.last ((a, v) :: ws) displayStatus 0) := by
  -- without its two lowest bits the status is that of a display that has been switched off
  have hoff (base u : UInt8) (hbase : base = 0x84 ∨ base = 0x85) :
      replaceBits 0x78 base u &&& 0xFC = replaceBits 0x78 0x84 u := by
    revert u
    rcases hbase with rfl | rfl
    · exact Byte.forall_of_fin (by decide +kernel)
    · exact Byte.forall_of_fin (by decide +kernel)
  have hbase : (if ws.displayOff then 0x84 else 0x85 : UInt8) = 0x84 ∨
      (if ws.displayOff then 0x84 else 0x85 : UInt8) = 0x85 := by
    split
    · exact .inl rfl
    · exact .inr rfl
  simp only [Writes.displayOff_cons, Writes.last_cons]
  by_cases hcontrol : a = displayControl
  · subst hcontrol
    rw [read_displayStatus_write_displayControl hsize, h.displayStatus_eq,
      if_neg (show displayControl ≠ displayStatus by decide)]
    by_cases hv : v &&& 0x80 = 0
    · simp only [hv, if_true, true_and, true_or]
      exact hoff _ _ hbase
    · simp only [hv, if_false, and_false, false_or]
  · by_cases hstatus : a = displayStatus
    · subst hstatus
      rw [read_write_self hsize ha (by decide) (by decide) (by decide), h.displayStatus_eq]
      simp only [hcontrol, false_and, false_or, if_true]
      exact replaceBits_replaceBits
    · rw [read_write_of_ne r latch ha.start_le (by decide) (Ne.symm hstatus)
        (fun heq => absurd heq hcontrol), h.displayStatus_eq]
      simp only [hcontrol, hstatus, false_and, false_or, if_false]

lemma displayLine_write (v : UInt8) : (r.write latch a v).1.read displayLine = 0 := by
  by_cases hcontrol : a = displayControl
  · subst hcontrol
    rw [read_displayLine_write_displayControl hsize, h.displayLine_eq, ite_self]
  · by_cases hline : a = displayLine
    · subst hline
      exact h.displayLine_eq
    · rw [read_write_of_ne r latch ha.start_le (by decide) (Ne.symm hline)
        (fun heq => absurd heq hcontrol), h.displayLine_eq]

/-- The switch goes over once, when a byte but zero is written to it, and the latch with it. -/
lemma bootSwitch_write (v : UInt8) :
    (r.write latch a v).1.read bootSwitch =
        (if mapped = false ∨ Writes.bootOff ((a, v) :: ws) = true then 0xFF else 0xFE) ∧
      ((r.write latch a v).2 = true ↔ (r.write latch a v).1.read bootSwitch = 0xFE) := by
  have hread := h.bootSwitch_eq
  have hlatch := h.latch_iff
  simp only [Writes.bootOff_cons]
  by_cases hswitch : a = bootSwitch
  · subst hswitch
    rw [write_bootSwitch]
    by_cases hv : v ≠ 0 ∧ latch = true
    · have hcell : r.started.cell bootSwitch = 1 := cell_setCell_self (ha.offset_lt hsize) 1
      have hstarted : r.started.read bootSwitch = 0xFF := by
        change r.started.cell bootSwitch ||| 0xFE = 0xFF
        rw [hcell]
        rfl
      rw [if_pos hv, hstarted, if_pos (.inr (.inl ⟨rfl, hv.1⟩))]
      exact ⟨rfl, iff_of_false Bool.false_ne_true (by decide)⟩
    · rw [if_neg hv]
      refine ⟨?_, hlatch⟩
      by_cases hzero : v = 0
      · simpa [hzero] using hread
      · -- the latch has gone before, so the switch reads as it will from then on
        have hgone : r.read bootSwitch ≠ 0xFE := fun heq => hv ⟨hzero, hlatch.mpr heq⟩
        rw [if_pos (.inr (.inl ⟨rfl, hzero⟩))]
        split at hread
        · exact hread
        · exact absurd hread hgone
  · have hother : (r.write latch a v).1.read bootSwitch = r.read bootSwitch :=
      read_write_of_ne r latch ha.start_le (by decide) (Ne.symm hswitch) (fun _ => by decide) v
    rw [hother, latch_write r latch hswitch]
    refine ⟨?_, hlatch⟩
    simpa [hswitch] using hread

/-- A write is one more write. -/
lemma write (v : UInt8) :
    Follows mapped ((a, v) :: ws) (r.write latch a v).1 (r.write latch a v).2 := by
  refine ⟨?_, h.divider_write hsize ha v, ?_, ?_, h.displayStatus_write hsize ha v,
    h.displayLine_write hsize ha v, (h.bootSwitch_write hsize ha v).1,
    (h.bootSwitch_write hsize ha v).2, fun b hb hspecial => ?_⟩
  · exact read_write_of_replaceBits hsize ha (by decide) (by decide) h.joypad_eq
  · exact read_write_of_replaceBits hsize ha (by decide) (by decide) h.request_eq
  · exact read_write_of_last hsize ha (by decide) (by decide) rfl h.displayControl_eq
  · have hothers := h.others_eq b hb hspecial
    simp only [special, List.mem_cons, List.not_mem_nil, or_false, not_or] at hspecial
    obtain ⟨hjoypad, hdivider, hrequest, -, hstatus, hline, hswitch⟩ := hspecial
    have hmask : writable b = 0xFF := by
      simp only [writable, hjoypad, hrequest, hstatus, if_false]
    exact read_write_of_last hsize ha hb (by simp [hdivider, hstatus, hline, hswitch]) hmask hothers

end Follows

lemma size_after (mapped : Bool) (ws : Writes) : (after mapped ws).1.cells.size = length := by
  induction ws with
  | nil => exact size_initial mapped
  | cons w earlier ih =>
    rw [after, size_write]
    exact ih

/-- **After any writes to a fresh block the registers show what has been written:** the joypad bits
4 and 5 of its last byte, the interrupt request the five lowest, the display's status bits 3 to 6
and whether the display has ever been switched off, the switch of the start-up program whether that
has been taken away; the divider and the display's line are zero, and each other register shows the
last byte that was written to it.  The latch is on as long as the switch reads so. -/
theorem follows_writes (mapped : Bool) (ws : Writes) (hws : ∀ w ∈ ws, Covers w.1) :
    Follows mapped ws (after mapped ws).1 (after mapped ws).2 := by
  induction ws with
  | nil => exact follows_initial mapped
  | cons w earlier ih =>
    rw [List.forall_mem_cons] at hws
    exact (ih hws.2).write (size_after mapped earlier) hws.1 w.2

/-- A display that is switched off and a start-up program that is taken away. -/
theorem switches_follow_writes :
    let ws : Writes := [(bootSwitch, 1), (displayControl, 0x11), (displayStatus, 0xFF),
      (joypad, 0x20), (0xFF42, 7)]
    let r := (after true ws).1
    r.read joypad = 0xEF ∧ r.read displayControl = 0x11 ∧ r.read displayStatus = 0xFC ∧
      r.read bootSwitch = 0xFF ∧ r.read 0xFF42 = 7 ∧ ¬(after true ws).2 = true := by
  have hcovers : Covers bootSwitch ∧ Covers displayControl ∧ Covers displayStatus ∧
      Covers joypad ∧ Covers 0xFF42 := by
    decide
  have h := follows_writes true [(bootSwitch, 1), (displayControl, 0x11), (displayStatus, 0xFF),
    (joypad, 0x20), (0xFF42, 7)] (by simpa using hcovers)
  refine ⟨h.joypad_eq.trans rfl, h.displayControl_eq.trans rfl, h.displayStatus_eq.trans rfl,
    h.bootSwitch_eq.trans rfl, (h.others_eq 0xFF42 (by decide) (by decide)).trans rfl, ?_⟩
  rw [h.latch_iff, h.bootSwitch_eq]
  decide

end Handheld.IoRegisters
