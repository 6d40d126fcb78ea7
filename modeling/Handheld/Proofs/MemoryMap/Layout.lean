/-
# What is where in the console's map

However much has been written, the console's map has the same sections at the same places.  A
section is told apart from what it holds by `Section.blank`, which a write leaves as it is.  The
main statement, `MemoryMap.Layout.exists_behind`, says what stands behind each address.
-/
import Handheld.Proofs.MemoryMap.Build
import Handheld.Proofs.MemoryMap.Cells
import Handheld.Proofs.MemoryMap.Console

namespace Handheld

/-! ## Sections without what they hold -/

namespace Section

variable {s : Section} {board : Board} {a : Address} {v : UInt8}

/-- A section with zeros for what it holds. -/
def blank : Section → Section
  | ram r =>
    ram { r with
      bytes := Bytes.fill r.bytes.size 0
      size_le := (Bytes.size_fill _ _).trans_le r.size_le }
  | io r => io ⟨Bytes.fill r.cells.size 0⟩
  | stitched n low high => stitched n low.blank high.blank
  | boot program inner => boot program inner.blank
  | s => s

@[simp] lemma start_blank (s : Section) : s.blank.start = s.start := by
  induction s with
  | stitched n low high ihlow ihhigh => exact ihlow
  | boot program inner ih => exact ih
  | _ => rfl

@[simp] lemma length_blank (s : Section) : s.blank.length = s.length := by
  induction s with
  | ram r => exact Bytes.size_fill _ _
  | stitched n low high ihlow ihhigh => exact congrArg₂ (· + ·) ihlow ihhigh
  | boot program inner ih => exact ih
  | _ => rfl

@[simp] lemma blank_write (s : Section) (board : Board) (a : Address) (v : UInt8) :
    (s.write board a v).2.blank = s.blank := by
  induction s with
  | ram r =>
    unfold Section.write Ram.put
    dsimp only
    split
    · simp only [blank, Bytes.size_put]
    · rfl
  | io r =>
    unfold Section.write
    simp only [blank, IoRegisters.size_write]
  | stitched n low high ihlow ihhigh =>
    unfold Section.write
    split
    · simp only [blank, ihlow]
    · simp only [blank, ihhigh]
  | boot program inner ih => exact congrArg (boot program) ih
  | _ => rfl

/-! ### Sections with a given blank -/

lemma eq_ram_of_blank {r₀ : Ram} (h : s.blank = (ram r₀).blank) :
    ∃ r, s = ram r ∧ r.start = r₀.start ∧ r.bytes.size = r₀.bytes.size := by
  cases s with
  | ram r =>
    have hram := Section.ram.inj h
    have hstart := congrArg (fun r : Ram => r.start) hram
    have hsize := congrArg (fun r : Ram => r.bytes.size) hram
    simp only [Bytes.size_fill] at hsize
    exact ⟨r, rfl, hstart, hsize⟩
  | _ => cases h

lemma eq_io_of_blank {r₀ : IoRegisters} (h : s.blank = (io r₀).blank) :
    ∃ r, s = io r ∧ r.cells.size = r₀.cells.size := by
  cases s with
  | io r =>
    have hsize := congrArg (fun r : IoRegisters => r.cells.size) (Section.io.inj h)
    simp only [Bytes.size_fill] at hsize
    exact ⟨r, rfl, hsize⟩
  | _ => cases h

lemma eq_stitched_of_blank {n : String} {low₀ high₀ : Section}
    (h : s.blank = (stitched n low₀ high₀).blank) :
    ∃ low high, s = stitched n low high ∧ low.blank = low₀.blank ∧ high.blank = high₀.blank := by
  cases s with
  | stitched n' low high =>
    obtain ⟨rfl, hlow, hhigh⟩ := Section.stitched.inj h
    exact ⟨low, high, rfl, hlow, hhigh⟩
  | _ => cases h

lemma eq_openBus_of_blank {n : String} {start : Address} {length : Nat}
    (h : s.blank = (openBus n start length).blank) : s = openBus n start length := by
  cases s with
  | openBus n' start' length' => exact h
  | _ => cases h

lemma eq_cartridgeRam_of_blank (h : s.blank = cartridgeRam.blank) : s = cartridgeRam := by
  cases s with
  | cartridgeRam => rfl
  | _ => cases h

lemma eq_cartridgeRom_of_blank (h : s.blank = cartridgeRom.blank) : s = cartridgeRom := by
  cases s with
  | cartridgeRom => rfl
  | _ => cases h

lemma eq_front_of_blank {bootProgram : Option ByteArray}
    (h : s.blank = (MemoryMap.front bootProgram).blank) : s = MemoryMap.front bootProgram := by
  cases bootProgram with
  | none => exact eq_cartridgeRom_of_blank h
  | some program =>
    cases s with
    | boot program' inner =>
      obtain ⟨rfl, hinner⟩ := Section.boot.inj h
      rw [eq_cartridgeRom_of_blank hinner]
      rfl
    | _ => cases h

/-- The start-up program hides the first bytes of the cartridge's program, as many as it is long
and 256 at most. -/
lemma shadow_cartridgeRom (board : Board) (program : ByteArray) (a : Address) :
    shadow board (program.extract 0 0x100) cartridgeRom a =
      if board.bootMapped = true ∧ a.toNat < 0x100 then program[a.toNat]? else none := by
  have hstart : cartridgeRom.start.toNat = 0 := rfl
  have hle : cartridgeRom.start ≤ a := UInt16.le_iff_toNat_le.mpr (Nat.zero_le _)
  unfold shadow
  dsimp only
  rw [hstart, Nat.sub_zero]
  by_cases hmapped : board.bootMapped = true
  · rw [if_pos ⟨hle, hmapped⟩]
    by_cases ha : a.toNat < (program.extract 0 0x100).size
    · have hsize := ha
      rw [ByteArray.size_extract] at hsize
      rw [if_pos ⟨hmapped, by omega⟩, getElem?_pos (program.extract 0 0x100) a.toNat ha,
        getElem?_pos program a.toNat (by omega),
        ByteArray.getElem_extract]
      simp only [Nat.zero_add]
    · have hsize := ha
      rw [ByteArray.size_extract] at hsize
      rw [getElem?_neg (program.extract 0 0x100) a.toNat ha]
      split
      · rename_i h
        rw [getElem?_neg program a.toNat (by omega)]
      · rfl
  · rw [if_neg (fun h => hmapped h.2), if_neg (fun h => hmapped h.1)]

end Section

/-- A region with zeros for what it holds. -/
def Region.blank : Region → Region
  | backed s => .backed s.blank
  | remap r => .remap r

@[simp] lemma Region.owns_blank (r : Region) (a : Address) : r.blank.owns a = r.owns a := by
  cases r with
  | backed s =>
    change (decide (s.blank.start ≤ a) && decide (a.toNat < s.blank.start.toNat + s.blank.length)) =
      (decide (s.start ≤ a) && decide (a.toNat < s.start.toNat + s.length))
    rw [Section.start_blank, Section.length_blank]
  | remap r => rfl

namespace MemoryMap

variable {m : MemoryMap} {regions : List Region} {s : Section} {a : Address}
  {bootProgram : Option ByteArray}

lemma owner?_blank (regions : List Region) (a : Address) :
    owner? (regions.map Region.blank) a = (owner? regions a).map Region.blank :=
  owner?_map Region.owns_blank regions a

lemma blank_put (board : Board) (a : Address) (v : UInt8) (regions : List Region) :
    (put board a v regions).2.map Region.blank = regions.map Region.blank :=
  map_put (fun s board a v => by simp [Region.blank]) board a v regions

lemma outline_blank (r : Region) : r.blank.outline = r.outline := by
  cases r with
  | backed s => simp [Region.blank, Region.outline]
  | remap r => rfl

/-! ## Owners of addresses -/

/-- **The console's map is the one that is built from its regions.** -/
theorem build_consoleRegions (bootProgram : Option ByteArray) (board : Board) :
    build (consoleRegions bootProgram) board = .ok ⟨consoleRegions bootProgram, board⟩ := by
  have hgap := gap_consoleRegions bootProgram
  have hpairwise := (pairwise_of_gap hgap).2
  refine build_eq_ok_iff.mpr ⟨buildSparse_eq_ok_iff.mpr ?_, hgap⟩
  rw [sortRegions_of_pairwise hpairwise]
  exact ⟨hpairwise, rfl⟩

/-- The address that answers for an address of the console's map: the echo of the work memory is
answered by the work memory. -/
def wired (a : Address) : Address :=
  if 0xE000 ≤ a.toNat ∧ a.toNat < 0xFE00 then a - 0x2000 else a

lemma toNat_wired (a : Address) :
    (wired a).toNat =
      if 0xE000 ≤ a.toNat ∧ a.toNat < 0xFE00 then a.toNat - 0x2000 else a.toNat := by
  unfold wired
  split
  · rename_i h
    refine UInt16.toNat_sub_of_le a 0x2000 (UInt16.le_iff_toNat_le.mpr ?_)
    simp only [UInt16.reduceToNat]
    omega
  · rfl

lemma wired_eq_self (h : a.toNat < 0xE000 ∨ 0xFE00 ≤ a.toNat) : wired a = a := by
  rw [wired, if_neg (by omega)]

/-- An address that is not the work memory's answers for itself alone. -/
lemma eq_of_wired (h : (wired a).toNat < 0xC000 ∨ 0xE000 ≤ (wired a).toNat) : wired a = a := by
  rw [toNat_wired] at h
  refine wired_eq_self ?_
  split at h <;> omega

lemma translate_echo_eq (h : 0xE000 ≤ a.toNat ∧ a.toNat < 0xFE00) :
    Remap.translate ⟨"echo", 0xE000, 0x1E00, 0xC000⟩ a = wired a := by
  have hsub : (a - 0xE000).toNat = a.toNat - 0xE000 :=
    UInt16.toNat_sub_of_le a _ (UInt16.le_iff_toNat_le.mpr h.1)
  apply UInt16.toNat.inj
  rw [toNat_wired, if_pos h]
  unfold Remap.translate
  rw [UInt16.toNat_add, hsub]
  simp only [UInt16.reduceToNat]
  omega

lemma follow_consoleRegions (bootProgram : Option ByteArray) (a : Address) :
    ∃ s, follow (consoleRegions bootProgram) 11 a = some (s, wired a) := by
  have hgap := gap_consoleRegions bootProgram
  -- an address outside of the echo belongs to a section
  have hbacked (b : Address) (hb : ¬ (0xE000 ≤ b.toNat ∧ b.toNat < 0xFE00)) :
      ∃ s, owner? (consoleRegions bootProgram) b = some (.backed s) := by
    obtain ⟨r, hr⟩ := exists_owner_of_gap hgap (Nat.zero_le b.toNat)
    cases r with
    | backed s => exact ⟨s, hr⟩
    | remap r =>
      obtain ⟨hmem, howns⟩ := owner?_eq_some hr
      obtain rfl := remap_consoleRegions hmem
      exact absurd (Region.owns_iff.mp howns) hb
  by_cases ha : 0xE000 ≤ a.toNat ∧ a.toNat < 0xFE00
  · have howner : owner? (consoleRegions bootProgram) a =
        some (.remap ⟨"echo", 0xE000, 0x1E00, 0xC000⟩) := by
      refine (owner?_eq_some_iff (pairwise_of_gap hgap).2).mpr ⟨?_, Region.owns_iff.mpr ha⟩
      rw [consoleRegions_eq]
      simp
    obtain ⟨s, hs⟩ := hbacked (wired a) (by
      rw [toNat_wired, if_pos ha]
      omega)
    refine ⟨s, ?_⟩
    rw [follow, howner]
    dsimp only
    rw [translate_echo_eq ha, follow, hs]
  · obtain ⟨s, hs⟩ := hbacked a ha
    refine ⟨s, ?_⟩
    rw [follow, hs, wired, if_neg ha]

/-! ## The console's map, whatever it holds -/

/-- Whether a map is the console's, whatever it holds. -/
structure Layout (bootProgram : Option ByteArray) (m : MemoryMap) : Prop where
  sound : m.Sound
  blank : m.regions.map Region.blank = (consoleRegions bootProgram).map Region.blank

/-- Whether a section is memory at an address, whatever stands on the board. -/
structure Plain (a : Address) (s : Section) : Prop where
  keeps (board : Board) : s.Keeps board a id
  read (board board' : Board) : s.read board' a = s.read board a

/-- What stands behind an address of the console's map. -/
inductive Behind (bootProgram : Option ByteArray) : Section → Address → Prop
  /-- The program of the cartridge, and the control of its banks. -/
  | program {s : Section} {a : Address} (h : a.toNat < 0x8000) (hs : s = front bootProgram) :
      Behind bootProgram s a
  | cartridge {s : Section} {a : Address} (h : 0xA000 ≤ a.toNat ∧ a.toNat < 0xC000)
      (hs : s = .cartridgeRam) : Behind bootProgram s a
  /-- Memory of the console's own. -/
  | memory {s : Section} {a : Address}
      (h : 0x8000 ≤ a.toNat ∧ a.toNat < 0xA000 ∨ 0xC000 ≤ a.toNat ∧ a.toNat < 0xE000 ∨
        0xFE00 ≤ a.toNat ∧ a.toNat < 0xFEA0 ∨ 0xFF80 ≤ a.toNat)
      (hs : Plain a s) : Behind bootProgram s a
  | nothing {s : Section} {a : Address} {n : String} {start : Address} {length : Nat}
      (h : 0xFEA0 ≤ a.toNat ∧ a.toNat < 0xFF00) (hs : s = .openBus n start length) :
      Behind bootProgram s a
  | registers {s : Section} {a : Address} {r : IoRegisters}
      (h : 0xFF00 ≤ a.toNat ∧ a.toNat < 0xFF80) (hs : s = .io r)
      (hsize : r.cells.size = IoRegisters.length) : Behind bootProgram s a

lemma plain_of_blank {r₀ : Ram} (hblank : s.blank = (Section.ram r₀).blank)
    (ha : r₀.start.toNat ≤ a.toNat ∧ a.toNat < r₀.start.toNat + r₀.bytes.size) : Plain a s := by
  obtain ⟨r, rfl, hstart, hsize⟩ := Section.eq_ram_of_blank hblank
  have hoffset : (r.offset a).isSome := by
    refine Option.isSome_iff_exists.mpr ⟨_, Ram.offset_eq_some_iff.mpr ⟨?_, rfl, ?_⟩⟩
    · rw [hstart]
      exact ha.1
    · rw [hstart, hsize]
      omega
  exact ⟨fun board => Section.keeps_ram board hoffset, fun _ _ => rfl⟩

lemma plain_of_blank_zeroed {name : String} {start : Address} {n : Nat}
    (hblank : s.blank = (Section.ram (.zeroed name start n)).blank)
    (hroom : start.toNat + n ≤ 0x10000) (hlong : n ≤ 0xFFFF)
    (ha : start.toNat ≤ a.toNat ∧ a.toNat < start.toNat + n) : Plain a s := by
  refine plain_of_blank hblank ?_
  have hsize : (Ram.zeroed name start n).bytes.size = n := Ram.length_zeroed hroom hlong
  rw [hsize]
  exact ha

/-- Two stretches of memory side by side are memory. -/
lemma plain_of_blank_stitched {n low high : String}
    (hblank : s.blank = (Section.stitched n (.ram (.zeroed low 0xC000 0x1000))
      (.ram (.zeroed high 0xD000 0x1000))).blank)
    (ha : 0xC000 ≤ a.toNat ∧ a.toNat < 0xE000) : Plain a s := by
  obtain ⟨lowPart, highPart, rfl, hlow, hhigh⟩ := Section.eq_stitched_of_blank hblank
  have haccepts : lowPart.accepts a = true ↔ a.toNat < 0xD000 := by
    have hlength : lowPart.length = 0x1000 := by
      rw [← Section.length_blank, hlow, Section.length_blank]
      exact Ram.length_zeroed (by decide) (by decide)
    have hstart : lowPart.start.toNat = 0xC000 := by
      rw [← Section.start_blank, hlow, Section.start_blank]
      rfl
    rw [Section.accepts_iff, Section.stop, hlength, hstart]
    omega
  by_cases hin : a.toNat < 0xD000
  · have hplain : Plain a lowPart :=
      plain_of_blank_zeroed hlow (by decide) (by decide) ⟨ha.1, hin⟩
    obtain ⟨r, rfl, -, -⟩ := Section.eq_ram_of_blank hlow
    refine ⟨fun board => .of_visible ?_, fun board board' => ?_⟩
    · rw [Section.visible, if_pos (haccepts.mpr hin)]
      exact hplain.keeps board
    · exact (if_pos (haccepts.mpr hin)).trans (if_pos (haccepts.mpr hin)).symm
  · have hplain : Plain a highPart :=
      plain_of_blank_zeroed hhigh (by decide) (by decide) ⟨Nat.not_lt.mp hin, ha.2⟩
    obtain ⟨r, rfl, -, -⟩ := Section.eq_ram_of_blank hhigh
    refine ⟨fun board => .of_visible ?_, fun board board' => ?_⟩
    · rw [Section.visible, if_neg (mt haccepts.mp hin)]
      exact hplain.keeps board
    · exact (if_neg (mt haccepts.mp hin)).trans (if_neg (mt haccepts.mp hin)).symm

/-- The section that owns an address of the console's map. -/
lemma behind_of_owner {s₀ : Section}
    (howner : owner? (consoleRegions bootProgram) a = some (.backed s₀))
    (hblank : s.blank = s₀.blank) : Behind bootProgram s a := by
  obtain ⟨hmem, howns⟩ := owner?_eq_some howner
  obtain ⟨hstart, hstop⟩ := Region.owns_iff.mp howns
  rw [stop_backed] at hstop
  change s₀.start.toNat ≤ a.toNat at hstart
  -- a stretch of memory, by its first address and its length
  have hzeroed {name : String} {start : Address} {n : Nat} (hs : s₀ = .ram (.zeroed name start n))
      (hroom : start.toNat + n ≤ 0x10000) (hlong : n ≤ 0xFFFF) :
      (start.toNat ≤ a.toNat ∧ a.toNat < start.toNat + n) ∧ Plain a s := by
    rw [hs] at hstart hblank
    rw [hs, stop_zeroed hroom hlong] at hstop
    exact ⟨⟨hstart, hstop⟩, plain_of_blank_zeroed hblank hroom hlong ⟨hstart, hstop⟩⟩
  simp only [consoleRegions_eq, List.mem_cons, Region.backed.injEq, List.not_mem_nil, or_false,
    reduceCtorEq, false_or] at hmem
  rcases hmem with hs | hs | hs | hs | hs | hs | hs | hs | hs
  · rw [hs] at hblank hstop
    rw [Section.stop, start_front, length_front] at hstop
    exact .program (by simpa using hstop) (Section.eq_front_of_blank hblank)
  · obtain ⟨hin, hplain⟩ := hzeroed hs (by decide) (by decide)
    exact .memory (.inl hin) hplain
  · rw [hs] at hblank hstop hstart
    exact .cartridge ⟨hstart, hstop⟩ (Section.eq_cartridgeRam_of_blank hblank)
  · rw [hs] at hblank hstop hstart
    rw [stop_stitched_zeroed (by decide) (by decide) (by decide) (by decide)] at hstop
    exact .memory (.inr (.inl ⟨hstart, hstop⟩)) (plain_of_blank_stitched hblank ⟨hstart, hstop⟩)
  · obtain ⟨hin, hplain⟩ := hzeroed hs (by decide) (by decide)
    exact .memory (.inr (.inr (.inl hin))) hplain
  · rw [hs] at hblank hstop hstart
    exact .nothing ⟨hstart, hstop⟩ (Section.eq_openBus_of_blank hblank)
  · rw [hs] at hblank hstop hstart
    obtain ⟨r, rfl, hsize⟩ := Section.eq_io_of_blank hblank
    exact .registers ⟨hstart, hstop⟩ rfl (hsize.trans (IoRegisters.size_initial _))
  · obtain ⟨hin, hplain⟩ := hzeroed hs (by decide) (by decide)
    exact .memory (.inr (.inr (.inr hin.1))) hplain
  · obtain ⟨hin, hplain⟩ := hzeroed hs (by decide) (by decide)
    exact .memory (.inr (.inr (.inr (Nat.le_trans (by decide) hin.1)))) hplain

namespace Layout

/-- **Where an access to the console's map leads, and what stands there.** -/
theorem exists_behind (h : Layout bootProgram m) (a : Address) :
    ∃ s, m.resolve a = some (s, wired a) ∧ Behind bootProgram s (wired a) := by
  -- the outline says where it leads, and the blank regions what stands there
  have houtline : m.regions.map Region.outline =
      (consoleRegions bootProgram).map Region.outline := by
    have hmap := congrArg (List.map Region.outline) h.blank
    simpa only [List.map_map, Function.comp_def, outline_blank] using hmap
  have hlength : m.regions.length = 10 := by
    have hmap := congrArg List.length houtline
    rw [List.length_map, List.length_map] at hmap
    exact hmap
  obtain ⟨s₀, hs₀⟩ := follow_consoleRegions bootProgram a
  have hfollow := follow_outline m.regions 11 a
  rw [houtline, follow_outline, hs₀] at hfollow
  obtain ⟨⟨s, b⟩, hs, heq⟩ := Option.map_eq_some_iff.mp hfollow.symm
  obtain rfl : b = wired a := congrArg Prod.snd heq
  refine ⟨s, by rw [resolve, hlength]; exact hs, ?_⟩
  have howner := owner?_blank m.regions (wired a)
  rw [h.blank, owner?_blank, owner?_of_follow hs₀, owner?_of_follow hs] at howner
  exact behind_of_owner (owner?_of_follow hs₀) (Region.backed.inj (Option.some.inj howner)).symm

lemma start {cartridge : Cartridge} (h : cartridge.Stored) (bootProgram : Option ByteArray) :
    Layout bootProgram (console cartridge bootProgram) :=
  ⟨sound_console h bootProgram, rfl⟩

/-- A write succeeds and leaves the layout as it is. -/
lemma write (h : Layout bootProgram m) (a : Address) (v : UInt8) :
    Memory.write m a v = (.ok (), m.stored (wired a) v) ∧
      Layout bootProgram (m.stored (wired a) v) := by
  obtain ⟨s, hs, -⟩ := h.exists_behind a
  have hsound := h.sound.sections s (owner?_eq_some (owner?_of_follow hs)).1
  have hwrite := write_of_resolve hs (by rw [hsound.accessAt]; rfl) v
  obtain ⟨m', hm', hsound'⟩ := h.sound.write a v
  rw [hwrite] at hm'
  obtain rfl := congrArg Prod.snd hm'
  exact ⟨hwrite, hsound', (blank_put m.board (wired a) v m.regions).trans h.blank⟩

lemma read_eq (h : Layout bootProgram m) (hs : m.resolve a = some (s, wired a)) :
    Memory.read m a = .ok (s.read m.board (wired a)) := by
  have hsound := h.sound.sections s (owner?_eq_some (owner?_of_follow hs)).1
  rw [read_of_resolve hs, hsound.accessAt]
  rfl

end Layout

end MemoryMap

end Handheld
