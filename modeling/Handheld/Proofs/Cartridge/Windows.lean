/-
# The windows of a cartridge

A cartridge answers in three windows of the address space, and each of them shows one bank of the
program or of the memory.  The main statement, `Cartridge.keeps_to_banks`, says that the banks of a
cartridge that has been loaded are whole, whatever its header says and whatever is written to it;
that every access reaches a byte of them; and that no two addresses of a window reach the same one.
-/
import Handheld.Proofs.Cartridge.Banking

namespace Handheld

namespace Cartridge

/-- The windows in which a cartridge answers. -/
inductive Window where
  /-- `0000` to `3FFF`, the first program bank. -/
  | fixed
  /-- `4000` to `7FFF`, the program bank that is picked. -/
  | banked
  /-- `A000` to `BFFF`, the memory bank that is picked. -/
  | memory

namespace Window

def first : Window → Nat
  | fixed => 0x0000
  | banked => 0x4000
  | memory => 0xA000

/-- The size of a window, which is that of the banks it shows. -/
def size : Window → Nat
  | fixed => 0x4000
  | banked => 0x4000
  | memory => 0x2000

/-- Whether an address is in a window. -/
def Holds (w : Window) (a : Address) : Prop :=
  w.first ≤ a.toNat ∧ a.toNat < w.first + w.size

end Window

/-- The bytes of which a window shows a bank. -/
def store (c : Cartridge) : Window → ByteArray
  | .fixed => c.rom
  | .banked => c.rom
  | .memory => c.ram

/-- The bank that shows in a window. -/
def bank (c : Cartridge) : Window → Nat
  | .fixed => 0
  | .banked => c.romBank
  | .memory => c.ramBank

/-- Whether a cartridge answers in a window. -/
def Answers (c : Cartridge) : Window → Prop
  | .fixed => True
  | .banked => True
  | .memory => c.ramEnabled = true

/-- The place among the bytes of a window's store that an address of the window reaches. -/
def place (c : Cartridge) (w : Window) (a : Address) : Nat :=
  c.bank w * w.size + (a.toNat - w.first)

/-- Whether the banks of a cartridge are whole, and accesses keep to them. -/
structure KeepsToBanks (c : Cartridge) : Prop where
  romBanks : ∃ n, 1 ≤ n ∧ c.romBanks = 2 ^ n
  rom : c.rom.size = c.romBanks * 0x4000
  ram : c.ram.size = c.ramBanks * 0x2000
  /-- What is read is a byte of the store, and not one that stands for a missing byte. -/
  read : ∀ w a, w.Holds a → c.Answers w → (c.store w).data[c.place w a]? = some (c.read a)
  /-- What is written to the memory changes a byte of it. -/
  write : ∀ a v, Window.memory.Holds a → c.Answers .memory →
    ∃ h : c.place .memory a < c.ram.size,
      c.write a v = { c with ram := c.ram.set (c.place .memory a) v h }
  /-- Addresses of a window reach different bytes. -/
  apart : ∀ w a b, w.Holds a → w.Holds b → c.place w a = c.place w b → a = b
  /-- Both program windows show the same bytes where the first bank is picked, and only there. -/
  shared : ∀ a b, Window.fixed.Holds a → Window.banked.Holds b →
    (c.place .fixed a = c.place .banked b ↔ c.romBank = 0 ∧ b.toNat = 0x4000 + a.toNat)

variable {image : ByteArray} {notices : List Notice} {c : Cartridge} {w : Window} {a b : Address}

/-! ## Places -/

lemma place_injective (c : Cartridge) (ha : w.Holds a) (hb : w.Holds b)
    (h : c.place w a = c.place w b) : a = b := by
  obtain ⟨hlow, -⟩ := ha
  obtain ⟨hlow', -⟩ := hb
  unfold place at h
  exact UInt16.toNat.inj (by omega)

lemma place_fixed_eq_iff (c : Cartridge) (ha : Window.fixed.Holds a) (hb : Window.banked.Holds b) :
    c.place .fixed a = c.place .banked b ↔ c.romBank = 0 ∧ b.toNat = 0x4000 + a.toNat := by
  simp only [Window.Holds, Window.first, Window.size] at ha hb
  simp only [place, bank, Window.first, Window.size]
  omega

lemma Stored.place_lt (h : c.Stored) (ha : w.Holds a) (hanswers : c.Answers w) :
    c.place w a < (c.store w).size := by
  obtain ⟨hlow, hhigh⟩ := ha
  have hrange := h.inRange a
  cases w with
  | fixed =>
    rw [place, bank, Nat.zero_mul, Nat.zero_add]
    exact hrange.fixed (UInt16.lt_iff_toNat_lt.mpr hhigh)
  | banked =>
    exact (hrange.banked (UInt16.le_iff_toNat_le.mpr hlow) (UInt16.lt_iff_toNat_lt.mpr hhigh)).2
  | memory => exact (hrange.memory (inRamWindow_iff.mpr ⟨hlow, hhigh⟩) hanswers).2

/-! ## Accesses -/

lemma read_eq_get (ha : w.Holds a) (hanswers : c.Answers w) :
    c.read a = Bytes.get (c.store w) (c.place w a) 0xFF := by
  obtain ⟨hlow, hhigh⟩ := ha
  cases w with
  | fixed =>
    rw [read_fixed hhigh, place, bank, Nat.zero_mul, Nat.zero_add]
    rfl
  | banked => exact read_banked hlow hhigh c
  | memory => exact read_memory (inRamWindow_iff.mpr ⟨hlow, hhigh⟩) hanswers

namespace Stored

variable (h : c.Stored)
include h

lemma getElem?_store (ha : w.Holds a) (hanswers : c.Answers w) :
    (c.store w).data[c.place w a]? = some (c.read a) := by
  rw [read_eq_get ha hanswers, ← Array.getElem?_toList]
  exact Bytes.getElem?_toList _ (h.place_lt ha hanswers) 0xFF

lemma write_eq_set (ha : Window.memory.Holds a) (hanswers : c.Answers .memory) (v : UInt8) :
    ∃ hplace : c.place .memory a < c.ram.size,
      c.write a v = { c with ram := c.ram.set (c.place .memory a) v hplace } := by
  have hplace : c.place .memory a < c.ram.size := h.place_lt ha hanswers
  refine ⟨hplace, ?_⟩
  rw [write_memory (inRamWindow_iff.mpr ha) hanswers, Bytes.put]
  exact congrArg (fun ram => { c with ram := ram }) (dif_pos hplace)

lemma keepsToBanks : c.KeepsToBanks := by
  refine ⟨?_, h.rom, h.ram, fun w a => h.getElem?_store, fun a v ha hanswers =>
    h.write_eq_set ha hanswers v, fun w a b => c.place_injective, fun a b => c.place_fixed_eq_iff⟩
  obtain ⟨n, hn⟩ := h.romBanks
  refine ⟨n + 1, by omega, ?_⟩
  rw [hn, Nat.shiftLeft_eq, Nat.pow_succ']

end Stored

/-! ## Writes -/

lemma after_keeps (c : Cartridge) (ws : Writes) :
    (c.after ws).rom = c.rom ∧ (c.after ws).romBanks = c.romBanks ∧
      (c.after ws).ramBanks = c.ramBanks := by
  induction ws with
  | nil => exact ⟨rfl, rfl, rfl⟩
  | cons w ws ih =>
    obtain ⟨hrom, hbanks, hbanks'⟩ := write_keeps (c.after ws) w.1 w.2
    exact ⟨hrom.trans ih.1, hbanks.trans ih.2.1, hbanks'.trans ih.2.2⟩

lemma Stored.after (h : c.Stored) (ws : Writes) : (c.after ws).Stored := by
  induction ws with
  | nil => exact h
  | cons w ws ih => exact ih.write w.1 w.2

/-! ## The header -/

/-- The header lies in the first bank, so that it is neither cut nor filled up. -/
lemma LoadedFrom.slice_rom (h : LoadedFrom image c) :
    Bytes.slice c.rom 0x100 0x150 = Bytes.slice image 0x100 0x150 := by
  have himage : 0x150 ≤ image.size := h.size
  have hrom : 0x150 ≤ c.rom.size := by
    have htwo := h.stored.two_le
    rw [h.stored.rom, romBankSize]
    omega
  refine Bytes.slice_congr hrom himage fun i hi => ?_
  have hlt : i < c.romBanks * romBankSize := by
    rw [← h.stored.rom]
    omega
  rw [h.rom, Bytes.get_resize _ _ hlt (by omega)]

/-- **Accesses to a cartridge keep to its banks.**  Whatever is written to a cartridge that has been
loaded, its program banks are a power of two in number and stay as they were, and all its banks are
whole.  Every access in a window that answers reaches a byte of them, which is another one for each
address of the window.  The header is that of the image. -/
theorem keeps_to_banks (hload : load image = .ok (c, notices)) (ws : Writes) :
    (c.after ws).KeepsToBanks ∧ (c.after ws).rom = c.rom ∧
      (c.after ws).romBanks = c.romBanks ∧ (c.after ws).ramBanks = c.ramBanks ∧
      Bytes.slice (c.after ws).header.image 0x100 0x150 = Bytes.slice image 0x100 0x150 := by
  have hloaded := loadedFrom_of_load hload
  obtain ⟨hrom, hbanks, hbanks'⟩ := after_keeps c ws
  refine ⟨(hloaded.stored.after ws).keepsToBanks, hrom, hbanks, hbanks', ?_⟩
  rw [header, hrom]
  exact hloaded.slice_rom

/-- With all bits of both registers set, the last address of the second window reaches the last byte
of 64 banks. -/
theorem large_keeps_to_banks : ∃ c notices, load largeImage = .ok (c, notices) ∧
    ∃ d, d = c.after [(0x4000, 0xFF), (0x2000, 0xFF)] ∧ d.KeepsToBanks ∧ d.romBank = 63 ∧
      d.rom.data[64 * 0x4000 - 1]? = some (d.read 0x7FFF) := by
  obtain ⟨c, notices, hload, hmapper, hbanks, -⟩ := exists_load_large
  obtain ⟨hkeeps, -⟩ := keeps_to_banks hload [(0x4000, 0xFF), (0x2000, 0xFF)]
  have hbank := (shows_after (loadedFrom_of_load hload) hmapper
    [(0x4000, 0xFF), (0x2000, 0xFF)]).romBank_eq
  rw [hbanks] at hbank
  have hread := hkeeps.read .banked 0x7FFF ⟨by decide, by decide⟩ trivial
  rw [place, bank, hbank] at hread
  exact ⟨c, notices, hload, _, rfl, hkeeps, hbank, hread⟩

end Cartridge

end Handheld
