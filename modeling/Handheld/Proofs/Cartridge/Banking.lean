/-
# Banks by what has been written

What a cartridge with a bank controller shows follows from the writes to it alone: of each range of
addresses that controls the banks the last value written counts, and a place of the memory has the
last value that was written to it while it showed.  The main statement, `Cartridge.read_after`, says
so of every read after any writes; so writes to different ranges commute.
-/
import Mathlib.Algebra.Group.Nat.Defs
import Handheld.Proofs.Cartridge.Storage

namespace Handheld.Cartridge

/-! ## Writes -/

/-- Writes to a cartridge, the latest first. -/
abbrev Writes := List (Address × UInt8)

/-- A cartridge after writes. -/
def after (c : Cartridge) : Writes → Cartridge
  | [] => c
  | (a, v) :: earlier => (c.after earlier).write a v

namespace Writes

/-- The last value written to the addresses from `first` on that are below `bound`. -/
def last? (ws : Writes) (first bound : Nat) : Option UInt8 :=
  (ws.find? fun w => first ≤ w.1.toNat ∧ w.1.toNat < bound).map (·.2)

/-- What a register holds that takes what it keeps of the last value written to a range. -/
def register {α : Type} (ws : Writes) (first bound : Nat) (initial : α) (keep : UInt8 → α) : α :=
  (ws.last? first bound).elim initial keep

/-- The low five bits of the program bank, where zero stands for one. -/
def low (ws : Writes) : Nat :=
  ws.register 0x2000 0x4000 1 fun v => if v.toNat % 32 = 0 then 1 else v.toNat % 32

/-- The two bits that are shared between the program bank and the memory bank. -/
def high (ws : Writes) : Nat :=
  ws.register 0x4000 0x6000 0 fun v => v.toNat % 4

/-- Whether, as a number, the two bits also pick the memory bank. -/
def mode (ws : Writes) : Nat :=
  ws.register 0x6000 0x8000 0 fun v => v.toNat % 2

/-- Whether the memory is enabled. -/
def enabled (ws : Writes) : Bool :=
  ws.register 0x0000 0x2000 false fun v => v.toNat % 16 = 0xA

/-- The program bank that shows, of so many. -/
def romBank (ws : Writes) (banks : Nat) : Nat :=
  (ws.high * 32 + ws.low) % banks

/-- The memory bank that shows, of so many. -/
def ramBank (ws : Writes) (banks : Nat) : Nat :=
  if ws.mode = 1 then ws.high % banks else 0

/-- The last value written to a place of a memory bank, while the memory was enabled and the bank
showed. -/
def stored? (banks bank offset : Nat) : Writes → Option UInt8
  | [] => none
  | (a, v) :: earlier =>
    if a.toNat = 0xA000 + offset ∧ enabled earlier ∧ ramBank earlier banks = bank then some v
    else stored? banks bank offset earlier

variable {a : Address} {v : UInt8} {ws : Writes}

lemma last?_cons (first bound : Nat) :
    last? ((a, v) :: ws) first bound =
      if first ≤ a.toNat ∧ a.toNat < bound then some v else ws.last? first bound := by
  unfold last?
  by_cases h : first ≤ a.toNat ∧ a.toNat < bound
  · simp [h]
  · rw [if_neg h, List.find?_cons_of_neg]
    simpa using h

lemma register_cons {α : Type} (first bound : Nat) (initial : α) (keep : UInt8 → α) :
    register ((a, v) :: ws) first bound initial keep =
      if first ≤ a.toNat ∧ a.toNat < bound then keep v
      else ws.register first bound initial keep := by
  rw [register, last?_cons]
  split
  · rfl
  · rfl

end Writes

variable {image : ByteArray} {notices : List Notice} {c d : Cartridge} {r : BankRegisters}
  {ws : Writes} {a b : Address} {u v : UInt8}

/-! ## The registers -/

/-- Each register answers to a range of addresses of its own. -/
lemma control_eq (r : BankRegisters) (a : Address) (v : UInt8) :
    control r a v =
      { low := if 0x2000 ≤ a.toNat ∧ a.toNat < 0x4000 then
            if v &&& 0x1F = 0 then 1 else v &&& 0x1F
          else r.low
        high := if 0x4000 ≤ a.toNat ∧ a.toNat < 0x6000 then v &&& 0x03 else r.high
        mode := if 0x6000 ≤ a.toNat ∧ a.toNat < 0x8000 then v &&& 0x01 else r.mode
        ramEnable := if 0x0000 ≤ a.toNat ∧ a.toNat < 0x2000 then decide (v &&& 0x0F = 0x0A)
          else r.ramEnable } := by
  simp only [control, UInt16.lt_iff_toNat_lt, UInt16.reduceToNat]
  by_cases henable : a.toNat < 0x2000
  · simp (disch := omega) only [if_pos, if_neg]
  · by_cases hlow : a.toNat < 0x4000
    · simp (disch := omega) only [if_pos, if_neg]
    · by_cases hhigh : a.toNat < 0x6000
      · simp (disch := omega) only [if_pos, if_neg]
      · by_cases hmode : a.toNat < 0x8000
        · simp (disch := omega) only [if_pos, if_neg]
        · simp (disch := omega) only [if_neg]

lemma toNat_and_of {m : UInt8} {k : Nat} (hm : m.toNat = 2 ^ k - 1) (v : UInt8) :
    (v &&& m).toNat = v.toNat % 2 ^ k := by
  rw [UInt8.toNat_and, hm, Nat.and_two_pow_sub_one_eq_mod]

/-- Whether registers hold what has been written to them. -/
structure RegistersAfter (ws : Writes) (r : BankRegisters) : Prop where
  low : r.low.toNat = ws.low
  high : r.high.toNat = ws.high
  mode : r.mode.toNat = ws.mode
  ramEnable : r.ramEnable = ws.enabled

lemma RegistersAfter.control (h : RegistersAfter ws r) (a : Address) (v : UInt8) :
    RegistersAfter ((a, v) :: ws) (control r a v) := by
  have hlow : (v &&& 0x1F).toNat = v.toNat % 32 := toNat_and_of (k := 5) rfl v
  have henable : (v &&& 0x0F).toNat = v.toNat % 16 := toNat_and_of (k := 4) rfl v
  have hhigh : (v &&& 0x03).toNat = v.toNat % 4 := toNat_and_of (k := 2) rfl v
  have hmode : (v &&& 0x01).toNat = v.toNat % 2 := toNat_and_of (k := 1) rfl v
  rw [control_eq]
  refine ⟨?_, ?_, ?_, ?_⟩
  · rw [Writes.low, Writes.register_cons, ← Writes.low, ← h.low, apply_ite UInt8.toNat]
    simp only [← hlow, ← UInt8.toNat_inj, apply_ite UInt8.toNat, UInt8.reduceToNat]
  · rw [Writes.high, Writes.register_cons, ← Writes.high, ← h.high, ← hhigh, apply_ite UInt8.toNat]
  · rw [Writes.mode, Writes.register_cons, ← Writes.mode, ← h.mode, ← hmode, apply_ite UInt8.toNat]
  · rw [Writes.enabled, Writes.register_cons, ← Writes.enabled, ← h.ramEnable]
    simp only [← henable, ← UInt8.toNat_inj, UInt8.reduceToNat]

/-- Writes to ranges of different registers commute. -/
lemma control_comm (hne : a.toNat / 0x2000 ≠ b.toNat / 0x2000) (r : BankRegisters) (u v : UInt8) :
    control (control r a u) b v = control (control r b v) a u := by
  simp only [control_eq, BankRegisters.mk.injEq]
  refine ⟨?_, ?_, ?_, ?_⟩
  · by_cases ha : 0x2000 ≤ a.toNat ∧ a.toNat < 0x4000
    · simp (disch := omega) only [if_pos, if_neg]
    · simp (disch := omega) only [if_neg]
  · by_cases ha : 0x4000 ≤ a.toNat ∧ a.toNat < 0x6000
    · simp (disch := omega) only [if_pos, if_neg]
    · simp (disch := omega) only [if_neg]
  · by_cases ha : 0x6000 ≤ a.toNat ∧ a.toNat < 0x8000
    · simp (disch := omega) only [if_pos, if_neg]
    · simp (disch := omega) only [if_neg]
  · by_cases ha : a.toNat < 0x2000
    · simp (disch := omega) only [if_pos, if_neg]
    · simp (disch := omega) only [if_neg]

/-! ## The cartridge after writes -/

/-- What writes to a cartridge with a bank controller leave of it. -/
structure Shows (c : Cartridge) (ws : Writes) (d : Cartridge) : Prop where
  stored : d.Stored
  rom : d.rom = c.rom
  romBanks : d.romBanks = c.romBanks
  ramBanks : d.ramBanks = c.ramBanks
  registers : ∃ r, d.controller = .mbc1 r ∧ RegistersAfter ws r
  memory : ∀ bank offset, bank < c.ramBanks → offset < 0x2000 →
    Bytes.get d.ram (bank * 0x2000 + offset) 0xFF = (ws.stored? c.ramBanks bank offset).getD 0

namespace Shows

/-- Nothing has been written to a cartridge that has just been loaded. -/
lemma start (h : LoadedFrom image c) (hmapper : c.mapper = .mbc1) : Shows c [] c := by
  refine ⟨h.stored, rfl, rfl, rfl, ⟨{}, ?_, rfl, rfl, rfl, rfl⟩,
    fun bank offset hbank hoffset => ?_⟩
  · rw [h.controller, hmapper]
  · rw [h.ram, ramBankSize, Bytes.get_fill _ _ (add_lt_of_bank hbank hoffset)]
    rfl

variable (h : Shows c ws d)
include h

lemma romBank_eq : d.romBank = ws.romBank c.romBanks := by
  obtain ⟨r, hcontroller, hr⟩ := h.registers
  simp only [romBank, hcontroller, h.romBanks, hr.low, hr.high, Writes.romBank]

lemma ramEnabled_iff : d.ramEnabled = true ↔ ws.enabled = true ∧ c.ramBanks ≠ 0 := by
  obtain ⟨r, hcontroller, hr⟩ := h.registers
  have hempty : d.ram.isEmpty = true ↔ c.ramBanks = 0 := by
    rw [h.stored.isEmpty_ram_iff, h.ramBanks]
  simp only [ramEnabled, hcontroller, hr.ramEnable, Bool.and_eq_true, Bool.not_eq_true',
    ← Bool.not_eq_true, hempty, ne_eq]

lemma ramBank_eq (hbanks : c.ramBanks ≠ 0) : d.ramBank = ws.ramBank c.ramBanks := by
  obtain ⟨r, hcontroller, hr⟩ := h.registers
  have hmode : r.mode = 1 ↔ ws.mode = 1 := by
    rw [← hr.mode]
    exact UInt8.toNat_inj.symm
  simp only [ramBank, hcontroller, h.ramBanks, hr.high, hmode, Nat.pos_of_ne_zero hbanks, and_true,
    Writes.ramBank]

lemma ramIndex_eq (hbanks : c.ramBanks ≠ 0) :
    d.ramIndex a = ws.ramBank c.ramBanks * 0x2000 + (a.toNat - 0xA000) := by
  unfold ramIndex ramBankSize
  rw [h.ramBank_eq hbanks]

/-- A write where the memory does not answer leaves the memory. -/
lemma stored?_cons_of_not {bank offset : Nat} (hbank : bank < c.ramBanks)
    (hoffset : offset < 0x2000)
    (hnot : ¬ (inRamWindow a = true ∧ d.ramEnabled = true)) :
    Writes.stored? c.ramBanks bank offset ((a, v) :: ws) = ws.stored? c.ramBanks bank offset := by
  rw [Writes.stored?, if_neg]
  rintro ⟨ha, henabled, -⟩
  exact hnot ⟨inRamWindow_iff.mpr (by omega), h.ramEnabled_iff.mpr ⟨henabled, by omega⟩⟩

/-- What a write leaves: the registers and the memory take the value, each on its own ranges. -/
lemma write (a : Address) (v : UInt8) : Shows c ((a, v) :: ws) (d.write a v) := by
  have hstored := h.stored.write a v
  obtain ⟨r, hcontroller, hr⟩ := h.registers
  have hr' := hr.control a v
  by_cases hwindow : inRamWindow a = true
  · have ha := inRamWindow_iff.mp hwindow
    -- the window of the memory is none of the ranges of the registers
    have hcontrol : Cartridge.control r a v = r := by
      rw [control_eq]
      simp (disch := omega) only [if_neg]
    rw [hcontrol] at hr'
    by_cases henabled : d.ramEnabled = true
    · have hbanks := (h.ramEnabled_iff.mp henabled).2
      rw [write_memory hwindow henabled] at hstored ⊢
      refine ⟨hstored, h.rom, h.romBanks, h.ramBanks, ⟨r, hcontroller, hr'⟩, ?_⟩
      intro bank offset hbank hoffset
      have hsize : bank * 0x2000 + offset < d.ram.size := by
        rw [h.stored.ram, h.ramBanks, ramBankSize]
        exact add_lt_of_bank hbank hoffset
      have hplace : d.ramIndex a = bank * 0x2000 + offset ↔
          a.toNat = 0xA000 + offset ∧ ws.ramBank c.ramBanks = bank := by
        rw [h.ramIndex_eq hbanks]
        omega
      rw [Bytes.get_put, Writes.stored?]
      by_cases hhit : a.toNat = 0xA000 + offset ∧ ws.ramBank c.ramBanks = bank
      · rw [if_pos ⟨hplace.mpr hhit, hsize⟩,
          if_pos ⟨hhit.1, (h.ramEnabled_iff.mp henabled).1, hhit.2⟩, Option.getD_some]
      · rw [if_neg (fun hin => hhit (hplace.mp hin.1)),
          if_neg (fun hin => hhit ⟨hin.1, hin.2.2⟩)]
        exact h.memory bank offset hbank hoffset
    · rw [Cartridge.write, if_pos hwindow, if_neg henabled] at hstored ⊢
      refine ⟨hstored, h.rom, h.romBanks, h.ramBanks, ⟨r, hcontroller, hr'⟩, ?_⟩
      intro bank offset hbank hoffset
      rw [h.stored?_cons_of_not hbank hoffset (fun hin => henabled hin.2)]
      exact h.memory bank offset hbank hoffset
  · rw [Cartridge.write, if_neg hwindow, hcontroller] at hstored ⊢
    refine ⟨hstored, h.rom, h.romBanks, h.ramBanks, ⟨_, rfl, hr'⟩, ?_⟩
    intro bank offset hbank hoffset
    rw [h.stored?_cons_of_not hbank hoffset (fun hin => hwindow hin.1)]
    exact h.memory bank offset hbank hoffset

end Shows

/-- What any writes leave, by one step for each of them. -/
lemma shows_after (h : LoadedFrom image c) (hmapper : c.mapper = .mbc1) (ws : Writes) :
    Shows c ws (c.after ws) := by
  induction ws with
  | nil => exact Shows.start h hmapper
  | cons w ws ih => exact ih.write w.1 w.2

/-- Writes to ranges of different registers commute. -/
lemma write_comm (c : Cartridge) (ha : a.toNat < 0x8000) (hb : b.toNat < 0x8000)
    (hne : a.toNat / 0x2000 ≠ b.toNat / 0x2000) (u v : UInt8) :
    (c.write a u).write b v = (c.write b v).write a u := by
  have ha' : ¬ inRamWindow a = true := by
    rw [inRamWindow_iff]
    omega
  have hb' : ¬ inRamWindow b = true := by
    rw [inRamWindow_iff]
    omega
  cases hcontroller : c.controller with
  | romOnly => simp only [write, if_neg ha', if_neg hb', hcontroller]
  | mbc1 r => simp only [write, if_neg ha', if_neg hb', hcontroller, control_comm hne]

lemma after_swap (c : Cartridge) (later earlier : Writes) (ha : a.toNat < 0x8000)
    (hb : b.toNat < 0x8000) (hne : a.toNat / 0x2000 ≠ b.toNat / 0x2000) :
    c.after (later ++ (a, u) :: (b, v) :: earlier) =
      c.after (later ++ (b, v) :: (a, u) :: earlier) := by
  induction later with
  | nil => exact (write_comm (c.after earlier) ha hb hne u v).symm
  | cons w later ih => simp only [List.cons_append, after, ih]

/-! ## Reading -/

lemma read_fixed (h : a.toNat < 0x4000) (c : Cartridge) :
    c.read a = Bytes.get c.rom a.toNat 0xFF := by
  simp only [read, UInt16.lt_iff_toNat_lt, UInt16.reduceToNat]
  rw [if_pos h]

lemma read_banked (hlow : 0x4000 ≤ a.toNat) (hhigh : a.toNat < 0x8000) (c : Cartridge) :
    c.read a = Bytes.get c.rom (c.romBank * 0x4000 + (a.toNat - 0x4000)) 0xFF := by
  unfold read romBankSize
  simp only [UInt16.lt_iff_toNat_lt, UInt16.reduceToNat]
  rw [if_neg (by omega), if_pos hhigh]

lemma read_silent (h : 0x8000 ≤ a.toNat) (hnot : ¬ (inRamWindow a = true ∧ c.ramEnabled = true)) :
    c.read a = 0xFF := by
  simp only [read, UInt16.lt_iff_toNat_lt, UInt16.reduceToNat, Bool.and_eq_true]
  rw [if_neg (by omega), if_neg (by omega), if_neg hnot]

/-- The bytes of an image in a storage of so many: cut, or filled up with `FF`. -/
def stock (image : ByteArray) (size : Nat) : List UInt8 :=
  (image.data.toList ++ List.replicate size 0xFF).take size

namespace Shows

lemma getElem?_stock (h : Shows c ws d) (hloaded : LoadedFrom image c) {i : Nat}
    (hi : i < d.rom.size) :
    (stock image (c.romBanks * 0x4000))[i]? = some (Bytes.get d.rom i 0xFF) := by
  rw [stock, ← Bytes.toList_resize, ← romBankSize, ← hloaded.rom, ← h.rom]
  exact Bytes.getElem?_toList d.rom hi 0xFF

/-- The memory shows the last value written to the place that its bank has at an address. -/
lemma read_window (h : Shows c ws d) (hlow : 0xA000 ≤ a.toNat) (hhigh : a.toNat < 0xC000) :
    d.read a =
      if ws.enabled = true ∧ c.ramBanks ≠ 0 then
        (ws.stored? c.ramBanks (ws.ramBank c.ramBanks) (a.toNat - 0xA000)).getD 0
      else 0xFF := by
  have hwindow := inRamWindow_iff.mpr ⟨hlow, hhigh⟩
  by_cases henabled : ws.enabled = true ∧ c.ramBanks ≠ 0
  · have henabled' := h.ramEnabled_iff.mpr henabled
    have hbank := h.stored.ramBank_lt henabled'
    rw [h.ramBank_eq henabled.2, h.ramBanks] at hbank
    rw [if_pos henabled, read_memory hwindow henabled', h.ramIndex_eq henabled.2]
    exact h.memory _ _ hbank (by omega)
  · rw [if_neg henabled]
    exact read_silent (by omega) fun hin => henabled (h.ramEnabled_iff.mp hin.2)

end Shows

/-- **What a cartridge shows follows from what has been written to it.**  The first window shows the
first bank of the image, the second the bank that the last writes to the registers pick.  The
memory shows the last value written to its place, if it is enabled.  No other address answers.
Writes to different registers commute. -/
theorem read_after (hload : load image = .ok (c, notices)) (hmapper : c.mapper = .mbc1)
    (ws : Writes) :
    (∀ a : Address, a.toNat < 0x4000 →
        (stock image (c.romBanks * 0x4000))[a.toNat]? = some ((c.after ws).read a)) ∧
      (∀ a : Address, 0x4000 ≤ a.toNat → a.toNat < 0x8000 →
        (stock image (c.romBanks * 0x4000))[ws.romBank c.romBanks * 0x4000 +
          (a.toNat - 0x4000)]? = some ((c.after ws).read a)) ∧
      (∀ a : Address, 0xA000 ≤ a.toNat → a.toNat < 0xC000 →
        (c.after ws).read a =
          if ws.enabled = true ∧ c.ramBanks ≠ 0 then
            (ws.stored? c.ramBanks (ws.ramBank c.ramBanks) (a.toNat - 0xA000)).getD 0
          else 0xFF) ∧
      (∀ a : Address, 0x8000 ≤ a.toNat → ¬ (0xA000 ≤ a.toNat ∧ a.toNat < 0xC000) →
        (c.after ws).read a = 0xFF) ∧
      ∀ (a b : Address) (u v : UInt8) (later : Writes), a.toNat < 0x8000 → b.toNat < 0x8000 →
        a.toNat / 0x2000 ≠ b.toNat / 0x2000 →
        c.after (later ++ (a, u) :: (b, v) :: ws) = c.after (later ++ (b, v) :: (a, u) :: ws) := by
  have hloaded := loadedFrom_of_load hload
  have h := shows_after hloaded hmapper ws
  refine ⟨fun a ha => ?_, fun a hlow hhigh => ?_, fun a => h.read_window, fun a ha hwindow => ?_,
    fun a b u v later => after_swap c later ws⟩
  · rw [read_fixed ha]
    exact h.getElem?_stock hloaded ((h.stored.inRange a).fixed (UInt16.lt_iff_toNat_lt.mpr ha))
  · rw [read_banked hlow hhigh, ← h.romBank_eq]
    exact h.getElem?_stock hloaded
      ((h.stored.inRange a).banked (UInt16.le_iff_toNat_le.mpr hlow)
        (UInt16.lt_iff_toNat_lt.mpr hhigh)).2
  · exact read_silent ha fun hin => hwindow (inRamWindow_iff.mp hin.1)

/-- The image of a cartridge with 64 program banks and four memory banks. -/
def largeImage : ByteArray :=
  Bytes.putAll (Bytes.fill 0x150 0) 0x147 [0x03, 0x05, 0x03]

lemma exists_load_large : ∃ c notices, load largeImage = .ok (c, notices) ∧ c.mapper = .mbc1 ∧
    c.romBanks = 64 ∧ c.ramBanks = 4 := by
  have hsize : Header.size ≤ largeImage.size := by
    decide +kernel
  have hmapper : (Header.mk largeImage).mapper? = some .mbc1 := by
    decide +kernel
  have hrom : (Header.mk largeImage).romBanks? = some 64 := by
    decide +kernel
  have hram : (Header.mk largeImage).ramBanks? = some 4 := by
    decide +kernel
  obtain ⟨c, notices, hload, hkind, hromBanks, hramBanks⟩ := exists_load hsize hmapper
  rw [hrom] at hromBanks
  rw [hram] at hramBanks
  exact ⟨c, notices, hload, hkind, hromBanks, hramBanks⟩

/-- A place of the third memory bank keeps its value while another bank shows; the program bank,
whose low bits were set to zero, is the one after a multiple of 32. -/
theorem large_read_after : ∃ c notices, load largeImage = .ok (c, notices) ∧ c.mapper = .mbc1 ∧
    ∃ ws : Writes,
      ws = [(0x4000, 0x02), (0x4000, 0x00), (0xA123, 0x55), (0x5FFF, 0xFE), (0x6000, 0x01),
        (0x0000, 0x1A), (0x2000, 0x60)] ∧
      (c.after ws).read 0xA123 = 0x55 ∧
      (stock largeImage (64 * 0x4000))[1 * 0x4000]? = some ((c.after ws).read 0x4000) := by
  obtain ⟨c, notices, hload, hmapper, hrom, hram⟩ := exists_load_large
  obtain ⟨-, hbanked, hmemory, -, -⟩ := read_after hload hmapper
    [(0x4000, 0x02), (0x4000, 0x00), (0xA123, 0x55), (0x5FFF, 0xFE), (0x6000, 0x01),
      (0x0000, 0x1A), (0x2000, 0x60)]
  refine ⟨c, notices, hload, hmapper, _, rfl, ?_, ?_⟩
  · rw [hmemory 0xA123 (by decide) (by decide), hram]
    decide
  · rw [← hbanked 0x4000 (by decide) (by decide), hrom]
    rfl

end Handheld.Cartridge
