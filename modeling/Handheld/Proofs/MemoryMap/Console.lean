/-
# The console's map answers

Around a cartridge that has been loaded the console's map sends every address to a section, and
each section has something behind all of its addresses.  Writes keep it so
(`MemoryMap.answers_sound`).
-/
import Handheld.MemoryMap.Console
import Handheld.Proofs.MemoryMap.Outline
import Handheld.Proofs.Processor.Answers

namespace Handheld

namespace MemoryMap

/-- Whether every access to a map is answered by something behind a section. -/
structure Sound (m : MemoryMap) : Prop where
  complete : Complete m.regions
  sections : SoundSections m.regions
  board : m.board.Stored

/-- Whether an access at an address stays inside what is behind the section that it leads to. -/
structure InRange (m : MemoryMap) (a : Address) : Prop where
  /-- A remap counts from its first address. -/
  remap : ∀ r, owner? m.regions a = some (.remap r) → r.start ≤ a
  section_ : ∃ s a', m.resolve a = some (s, a') ∧ s.accepts a' = true ∧ s.InRange m.board a'

variable {m : MemoryMap} {a : Address}

/-! ## Accesses -/

lemma Sound.exists_section (h : m.Sound) (a : Address) :
    ∃ s a', m.resolve a = some (s, a') ∧ s.Sound ∧ s.accepts a' = true := by
  obtain ⟨s, a', hs⟩ := h.complete a
  obtain ⟨hmem, howns⟩ := owner?_eq_some (owner?_of_follow hs)
  exact ⟨s, a', hs, h.sections s hmem, howns⟩

lemma Sound.inRange (h : m.Sound) (a : Address) : m.InRange a := by
  constructor
  · intro r hr
    exact UInt16.le_iff_toNat_le.mpr (Region.owns_iff.mp (owner?_eq_some hr).2).1
  · obtain ⟨s, a', hs, hsound, haccepts⟩ := h.exists_section a
    exact ⟨s, a', hs, haccepts, hsound.inRange h.board haccepts⟩

lemma Sound.write (h : m.Sound) (a : Address) (v : UInt8) :
    ∃ m', Memory.write m a v = (.ok (), m') ∧ m'.Sound := by
  obtain ⟨s, a', hs, hsound, -⟩ := h.exists_section a
  have htarget : m.writeTarget a = .granted a' := by
    unfold writeTarget
    rw [hs]
    dsimp only
    rw [hsound.accessAt]
    rfl
  obtain ⟨regions, board⟩ := m
  refine ⟨⟨(put board a' v regions).2, (put board a' v regions).1⟩, ?_, ?_⟩
  · dsimp only [Memory.write]
    rw [htarget]
  · exact ⟨h.complete.of_outline (outline_put board a' v regions),
      SoundSections.put h.sections board a' v, stored_put h.board a' v regions⟩

/-- **A sound map answers every access**, and stays sound. -/
theorem answers_sound : Memory.Answers Sound := by
  constructor
  · intro m h a
    obtain ⟨s, a', hs, hsound, -⟩ := h.exists_section a
    refine ⟨s.read m.board a', ?_⟩
    dsimp only [Memory.read]
    rw [hs]
    dsimp only
    rw [hsound.accessAt]
    rfl
  · intro m h a v
    exact h.write a v

/-! ## The console's map -/

/-- What is at the start of the console's map. -/
def front (bootProgram : Option ByteArray) : Section :=
  match bootProgram with
  | some program => Section.withBoot program .cartridgeRom
  | none => .cartridgeRom

lemma consoleRegions_eq (bootProgram : Option ByteArray) :
    consoleRegions bootProgram =
      [.backed (front bootProgram), .backed (.ram (.zeroed "vram" 0x8000 0x2000)),
        .backed .cartridgeRam,
        .backed (.stitched "wram" (.ram (.zeroed "wram0" 0xC000 0x1000))
          (.ram (.zeroed "wram1" 0xD000 0x1000))),
        .remap ⟨"echo", 0xE000, 0x1E00, 0xC000⟩,
        .backed (.ram (.zeroed "oam" 0xFE00 0xA0)),
        .backed (.openBus "unusable" 0xFEA0 0x60),
        .backed (.io (.initial bootProgram.isSome)),
        .backed (.ram (.zeroed "hram" 0xFF80 0x7F)), .backed (.ram (.zeroed "ie" 0xFFFF 1))] :=
  rfl

lemma start_front (bootProgram : Option ByteArray) : (front bootProgram).start = 0 := by
  cases bootProgram <;> rfl

lemma length_front (bootProgram : Option ByteArray) : (front bootProgram).length = 0x8000 := by
  cases bootProgram <;> rfl

lemma stop_backed (s : Section) : (Region.backed s).stop = s.stop := rfl

lemma gap_cons {n n' : Nat} {r : Region} {regions : List Region} (hstart : r.start.toNat = n)
    (hstop : r.stop = n') (h : gap? n' regions = none) : gap? n (r :: regions) = none := by
  rw [gap?, if_pos hstart, hstop, h]

lemma gap_cons_backed {n n' : Nat} {s : Section} {regions : List Region}
    (hstart : s.start.toNat = n) (hstop : s.stop = n') (h : gap? n' regions = none) :
    gap? n (.backed s :: regions) = none :=
  gap_cons hstart ((stop_backed s).trans hstop) h

lemma stop_zeroed {name : String} {start : Address} {n : Nat} (hroom : start.toNat + n ≤ 0x10000)
    (hlong : n ≤ 0xFFFF) : (Section.ram (.zeroed name start n)).stop = start.toNat + n :=
  congrArg (start.toNat + ·) (Ram.length_zeroed hroom hlong)

lemma stop_stitched_zeroed {name low high : String} {start next : Address} {n n' : Nat}
    (hroom : start.toNat + n ≤ 0x10000) (hlong : n ≤ 0xFFFF) (hroom' : next.toNat + n' ≤ 0x10000)
    (hlong' : n' ≤ 0xFFFF) :
    (Section.stitched name (.ram (.zeroed low start n)) (.ram (.zeroed high next n'))).stop =
      start.toNat + (n + n') := by
  have hlength : (Ram.zeroed low start n).length + (Ram.zeroed high next n').length = n + n' := by
    rw [Ram.length_zeroed hroom hlong, Ram.length_zeroed hroom' hlong']
  exact congrArg (start.toNat + ·) hlength

/-- The regions of the console's map leave no gap. -/
lemma gap_consoleRegions (bootProgram : Option ByteArray) :
    gap? 0 (consoleRegions bootProgram) = none := by
  have hfront : (front bootProgram).stop = 0x8000 := by
    rw [Section.stop, start_front, length_front]
    rfl
  rw [consoleRegions_eq]
  refine gap_cons_backed (congrArg UInt16.toNat (start_front bootProgram)) hfront ?_
  refine gap_cons_backed rfl (stop_zeroed (by decide) (by decide)) ?_
  refine gap_cons_backed rfl rfl ?_
  refine gap_cons_backed rfl
    (stop_stitched_zeroed (by decide) (by decide) (by decide) (by decide)) ?_
  refine gap_cons rfl rfl ?_
  refine gap_cons_backed rfl (stop_zeroed (by decide) (by decide)) ?_
  refine gap_cons_backed rfl rfl ?_
  refine gap_cons_backed rfl rfl ?_
  refine gap_cons_backed rfl (stop_zeroed (by decide) (by decide)) ?_
  exact gap_cons_backed rfl (stop_zeroed (by decide) (by decide)) rfl

/-- The one remap is the echo of the work memory, which is below it. -/
lemma remap_consoleRegions {bootProgram : Option ByteArray} {r : Remap}
    (h : .remap r ∈ consoleRegions bootProgram) : r = ⟨"echo", 0xE000, 0x1E00, 0xC000⟩ := by
  simpa [consoleRegions_eq] using h

/-- An echoed address is below the echo. -/
lemma translate_echo (h : (0xE000 : Address) ≤ a) (h' : a.toNat < 0xFE00) :
    (Remap.translate ⟨"echo", 0xE000, 0x1E00, 0xC000⟩ a).toNat < 0xE000 := by
  have hsub : (a - 0xE000).toNat = a.toNat - 0xE000 := UInt16.toNat_sub_of_le a _ h
  unfold Remap.translate
  rw [UInt16.toNat_add, hsub]
  have htarget : (0xC000 : UInt16).toNat = 0xC000 := rfl
  rw [htarget]
  omega

lemma complete_consoleRegions (bootProgram : Option ByteArray) :
    Complete (consoleRegions bootProgram) := by
  have hgap := gap_consoleRegions bootProgram
  have hlength : (consoleRegions bootProgram).length = 10 := rfl
  intro a
  rw [hlength]
  obtain ⟨r, hr⟩ := exists_owner_of_gap hgap (Nat.zero_le a.toNat)
  rw [follow, hr]
  cases r with
  | backed s => exact ⟨s, a, rfl⟩
  | remap r =>
    -- the search goes on below the echo, with one hop less
    obtain ⟨hmem, howns⟩ := owner?_eq_some hr
    obtain rfl := remap_consoleRegions hmem
    obtain ⟨hstart, hstop⟩ := Region.owns_iff.mp howns
    have hbelow := translate_echo (UInt16.le_iff_toNat_le.mpr hstart) hstop
    dsimp only
    generalize Remap.translate ⟨"echo", 0xE000, 0x1E00, 0xC000⟩ a = b at hbelow ⊢
    obtain ⟨r, hr⟩ := exists_owner_of_gap hgap (Nat.zero_le b.toNat)
    rw [follow, hr]
    cases r with
    | backed s => exact ⟨s, b, rfl⟩
    | remap r =>
      -- the echo does not own what is below it
      obtain ⟨hmem, howns⟩ := owner?_eq_some hr
      obtain rfl := remap_consoleRegions hmem
      exact absurd (Region.owns_iff.mp howns).1 (Nat.not_le_of_lt hbelow)

lemma sound_consoleRegions (bootProgram : Option ByteArray) :
    SoundSections (consoleRegions bootProgram) := by
  intro s hs
  have hfront : (front bootProgram).Sound := by
    cases bootProgram <;> trivial
  simp only [consoleRegions_eq, List.mem_cons, Region.backed.injEq, List.not_mem_nil,
    or_false, reduceCtorEq, false_or] at hs
  rcases hs with rfl | rfl | rfl | rfl | rfl | rfl | rfl | rfl | rfl
  · exact hfront
  · rfl
  · trivial
  · refine ⟨rfl, rfl, ?_⟩
    rw [stop_zeroed (by decide) (by decide)]
    rfl
  · rfl
  · trivial
  · exact IoRegisters.size_initial _
  · rfl
  · rfl

/-- **The console's map is sound** around a cartridge that has been loaded. -/
theorem sound_console {cartridge : Cartridge} (h : cartridge.Stored)
    (bootProgram : Option ByteArray) : (console cartridge bootProgram).Sound :=
  ⟨complete_consoleRegions bootProgram, sound_consoleRegions bootProgram, cartridge, rfl, h⟩

end MemoryMap

end Handheld
