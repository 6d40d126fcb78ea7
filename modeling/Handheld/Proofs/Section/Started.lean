/-
# Sections without the start-up program

`Section.started` is a section as it is once the start-up program has gone: nothing stands in front
of what was behind it, and its switch reads as it does from then on.  Writes do to the section
without the program what they do to the section with it (`Section.started_write`), and reads differ
where the program hides a byte, and at its switch, alone (`Section.read_started`).
-/
import Handheld.Proofs.Section.Kept

namespace Handheld

/-! ## Registers -/

namespace IoRegisters

variable {r : IoRegisters} {a b : Address} {v : UInt8} {latch : Bool}

/-- The registers once the start-up program has gone. -/
def started (r : IoRegisters) : IoRegisters :=
  r.setCell bootSwitch 1

lemma setCell_comm (r : IoRegisters) (h : offset a ≠ offset b) (u v : UInt8) :
    (r.setCell a u).setCell b v = (r.setCell b v).setCell a u := by
  refine congrArg IoRegisters.mk (ByteArray.ext ?_)
  unfold setCell
  rw [Bytes.data_put, Bytes.data_put, Bytes.data_put, Bytes.data_put]
  exact Array.setIfInBounds_comm u v h

@[simp] lemma setCell_setCell (r : IoRegisters) (a : Address) (u v : UInt8) :
    (r.setCell a u).setCell a v = r.setCell a v := by
  refine congrArg IoRegisters.mk (ByteArray.ext ?_)
  unfold setCell
  rw [Bytes.data_put, Bytes.data_put, Bytes.data_put]
  exact Array.setIfInBounds_setIfInBounds u

lemma offset_ne_bootSwitch (h : a ≠ bootSwitch) : offset a ≠ offset bootSwitch :=
  offset_ne (by decide) h

lemma cell_started (r : IoRegisters) (h : a ≠ bootSwitch) : r.started.cell a = r.cell a := by
  rw [started, cell_setCell_of_offset_ne]
  exact (offset_ne_bootSwitch h).symm

lemma started_setCell (r : IoRegisters) (h : a ≠ bootSwitch) (v : UInt8) :
    (r.setCell a v).started = r.started.setCell a v :=
  r.setCell_comm (offset_ne_bootSwitch h) v 1

lemma started_initial : (initial true).started = initial false := by
  simp [started, initial]

lemma write_bootSwitch (r : IoRegisters) (latch : Bool) (v : UInt8) :
    r.write latch bootSwitch v = if v ≠ 0 ∧ latch then (r.started, false) else (r, latch) :=
  rfl

/-- A write does to the registers without the start-up program what it does to those with it. -/
lemma started_write (r : IoRegisters) (latch : Bool) (a : Address) (v : UInt8) :
    r.started.write false a v = ((r.write latch a v).1.started, false) := by
  by_cases hswitch : a = bootSwitch
  · subst hswitch
    rw [write_bootSwitch, write_bootSwitch, if_neg (by simp)]
    split
    · simp [started]
    · rfl
  · have hcell {b : Address} (hb : b ≠ bootSwitch) : r.started.cell b = r.cell b :=
      r.cell_started hb
    unfold write
    split_ifs with hjoypad hdivider hrequest hcontrol
    all_goals
      subst_vars
      simp [started_setCell, hcell, hswitch, show displayStatus ≠ bootSwitch by decide,
        show displayLine ≠ bootSwitch by decide]

/-- Once the program has gone, the switch keeps its value. -/
lemma started_of_write (h : latch = false → r.started = r) (hlatch : (r.write latch a v).2 = false) :
    (r.write latch a v).1.started = (r.write latch a v).1 := by
  cases latch with
  | false =>
    have hwrite := r.started_write false a v
    rw [h rfl] at hwrite
    exact (congrArg Prod.fst hwrite).symm
  | true =>
    by_cases hswitch : a = bootSwitch
    · subst hswitch
      rw [write_bootSwitch] at hlatch ⊢
      split at hlatch
      · rename_i hv
        rw [if_pos hv]
        simp [started]
      · cases hlatch
    · rw [latch_write r true hswitch] at hlatch
      cases hlatch

end IoRegisters

/-! ## Sections -/

/-- The board once the start-up program has gone. -/
def Board.started (b : Board) : Board :=
  { b with bootMapped := false }

namespace Section

open IoRegisters (bootSwitch)

variable {s : Section} {board : Board} {a b : Address} {v : UInt8}

/-- A section once the start-up program has gone. -/
def started : Section → Section
  | io r => io r.started
  | stitched n low high => stitched n low.started high.started
  | boot _ inner => inner.started
  | s => s

@[simp] lemma start_started (s : Section) : s.started.start = s.start := by
  induction s with
  | stitched n low high ihlow ihhigh => exact ihlow
  | boot program inner ih => exact ih
  | _ => rfl

@[simp] lemma length_started (s : Section) : s.started.length = s.length := by
  induction s with
  | stitched n low high ihlow ihhigh => simp [started, length, ihlow, ihhigh]
  | boot program inner ih => exact ih
  | _ => rfl

@[simp] lemma accepts_started (s : Section) (a : Address) : s.started.accepts a = s.accepts a := by
  rw [accepts, accepts, stop, stop, start_started, length_started]

@[simp] lemma name_started (s : Section) : s.started.name = s.name := by
  induction s with
  | boot program inner ih => exact ih
  | _ => rfl

@[simp] lemma accessAt_started (s : Section) (a : Address) :
    s.started.accessAt a = s.accessAt a := by
  induction s with
  | stitched n low high ihlow ihhigh =>
    unfold started accessAt
    rw [accepts_started, ihlow, ihhigh]
  | boot program inner ih => exact ih
  | _ => rfl

/-- **A write does to a section without the start-up program what it does to the section with
it.** -/
theorem started_write (s : Section) (board : Board) (a : Address) (v : UInt8) :
    s.started.write board.started a v =
      ((s.write board a v).1.started, (s.write board a v).2.started) := by
  induction s with
  | io r =>
    have hwrite := r.started_write board.bootMapped a v
    simp only [started, write, Board.started, hwrite]
  | cartridgeRom | cartridgeRam =>
    obtain ⟨cartridge, mapped⟩ := board
    cases cartridge <;> rfl
  | stitched n low high ihlow ihhigh =>
    unfold started
    by_cases ha : low.accepts a = true
    · rw [write_stitched_of_accepts ha, write_stitched_of_accepts (by simpa using ha), ihlow]
    · rw [write_stitched_of_not_accepts ha, write_stitched_of_not_accepts (by simpa using ha),
        ihhigh]
  | boot program inner ih => exact ih
  | _ => rfl

/-- A section reads the same without the start-up program, where that does not hide it and away
from its switch. -/
lemma read_started (hswitch : a ≠ bootSwitch)
    (hvisible : ∀ program inner, s.visible board a ≠ boot program inner) :
    s.started.read board.started a = s.read board a := by
  induction s with
  | io r => exact IoRegisters.read_congr (r.cell_started hswitch)
  | stitched n low high ihlow ihhigh =>
    unfold started Section.read
    rw [accepts_started]
    unfold visible at hvisible
    by_cases ha : low.accepts a = true
    · rw [if_pos ha] at hvisible ⊢
      rw [if_pos ha, ihlow hvisible]
    · rw [if_neg ha] at hvisible ⊢
      rw [if_neg ha, ihhigh hvisible]
  | boot program inner ih =>
    unfold visible at hvisible
    by_cases ha : (shadow board program inner a).isSome = true
    · rw [if_pos ha] at hvisible
      exact absurd rfl (hvisible program inner)
    · rw [if_neg ha] at hvisible
      rw [Option.not_isSome_iff_eq_none] at ha
      exact (ih hvisible).trans (read_of_shadow_none ha).symm
  | _ => rfl

/-! ## Where the start-up program is -/

/-- Whether the start-up program stands in front of no part of a section. -/
def Bare : Section → Prop
  | stitched _ low high => low.Bare ∧ high.Bare
  | boot _ _ => False
  | _ => True

lemma Bare.write (h : s.Bare) (board : Board) (a : Address) (v : UInt8) :
    (s.write board a v).2.Bare := by
  induction s with
  | stitched n low high ihlow ihhigh =>
    obtain ⟨hlow, hhigh⟩ := h
    by_cases ha : low.accepts a = true
    · rw [write_stitched_of_accepts ha]
      exact ⟨ihlow hlow, hhigh⟩
    · rw [write_stitched_of_not_accepts ha]
      exact ⟨hlow, ihhigh hhigh⟩
  | boot program inner ih => exact h.elim
  | _ => trivial

lemma Bare.visible_ne (h : s.Bare) (program : ByteArray) (inner : Section) :
    s.visible board a ≠ boot program inner := by
  induction s with
  | stitched n low high ihlow ihhigh =>
    unfold visible
    split
    · exact ihlow h.1
    · exact ihhigh h.2
  | boot program' inner' ih => exact h.elim
  | _ =>
    intro heq
    cases heq

/-- The start-up program hides nothing once it has gone. -/
lemma visible_ne_of_latch (h : board.bootMapped = false) (program : ByteArray) (inner : Section) :
    s.visible board a ≠ boot program inner := by
  induction s with
  | stitched n low high ihlow ihhigh =>
    unfold visible
    split
    · exact ihlow
    · exact ihhigh
  | boot program' inner' ih =>
    have hshadow : shadow board program' inner' a = none := by
      simp [shadow, h]
    rw [visible, hshadow]
    exact ih
  | _ =>
    intro heq
    cases heq

/-- A write keeps the start-up program where it is, except for one to its switch. -/
lemma latch_write (s : Section) (board : Board) (h : a ≠ bootSwitch) (v : UInt8) :
    (s.write board a v).1.bootMapped = board.bootMapped := by
  induction s with
  | io r => exact r.latch_write board.bootMapped h v
  | cartridgeRom | cartridgeRam =>
    obtain ⟨cartridge, mapped⟩ := board
    cases cartridge <;> rfl
  | stitched n low high ihlow ihhigh =>
    by_cases ha : low.accepts a = true
    · rw [write_stitched_of_accepts ha]
      exact ihlow
    · rw [write_stitched_of_not_accepts ha]
      exact ihhigh
  | boot program inner ih => exact ih
  | _ => rfl

end Section

end Handheld
