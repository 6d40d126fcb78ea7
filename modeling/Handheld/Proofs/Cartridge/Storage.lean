/-
# The storage of a cartridge

A cartridge that has been loaded holds whole banks, and keeps them under every write.  So a bank
that shows in a window lies inside the storage (`Cartridge.Stored.inRange`), and the byte that
stands for a missing one is never read.
-/
import Handheld.Cartridge.Basic
import Handheld.Proofs.Bytes

namespace Handheld

lemma Header.ofImage?_eq_some_iff {image : ByteArray} {h : Header} :
    Header.ofImage? image = some h ↔ Header.size ≤ image.size ∧ h = ⟨image⟩ := by
  rw [Header.ofImage?]
  split
  · rename_i hsize
    rw [Option.some.injEq, eq_comm]
    exact ⟨fun heq => ⟨hsize, heq⟩, And.right⟩
  · rename_i hsize
    constructor
    · intro heq
      cases heq
    · intro heq
      exact absurd heq.1 hsize

namespace Cartridge

/-- Whether the storage of a cartridge is whole banks.  The program banks double from two on. -/
structure Stored (c : Cartridge) : Prop where
  romBanks : ∃ n, c.romBanks = 2 <<< n
  rom : c.rom.size = c.romBanks * romBankSize
  ram : c.ram.size = c.ramBanks * ramBankSize

/-- Whether an access at an address stays inside the storage of a cartridge. -/
structure InRange (c : Cartridge) (a : Address) : Prop where
  /-- The bank number is a remainder. -/
  divisor : c.romBanks ≠ 0
  fixed : a < 0x4000 → a.toNat < c.rom.size
  banked : 0x4000 ≤ a → a < 0x8000 →
    0x4000 ≤ a.toNat ∧ c.romBank * romBankSize + (a.toNat - 0x4000) < c.rom.size
  memory : inRamWindow a = true → c.ramEnabled = true →
    0xA000 ≤ a.toNat ∧ c.ramIndex a < c.ram.size

variable {c : Cartridge}

/-! ## Loading -/

lemma exists_bankCount_eq (n : Nat) : ∃ k, bankCount n = 2 <<< k := by
  unfold bankCount
  split
  · exact ⟨0, rfl⟩
  · exact ⟨_, rfl⟩

lemma exists_romBanks_eq (h : Header) (size : Nat) :
    ∃ n, h.romBanks?.getD (banksFor size) = 2 <<< n := by
  unfold Header.romBanks?
  split
  · exact ⟨_, rfl⟩
  · exact exists_bankCount_eq _

/-- What a cartridge has of its image and of its header when it has been loaded. -/
structure LoadedFrom (image : ByteArray) (c : Cartridge) : Prop where
  size : Header.size ≤ image.size
  checksums : Checksum.Report.ofImage? image = some c.checksums
  romBanks : ∃ n, c.romBanks = 2 <<< n
  rom : c.rom = Bytes.resize image (c.romBanks * romBankSize) 0xFF
  ram : c.ram = Bytes.fill (c.ramBanks * ramBankSize) 0
  controller : c.controller =
    match c.mapper with
    | .romOnly => .romOnly
    | .mbc1 => .mbc1 {}

lemma loadedFrom_of_load {image : ByteArray} {notices : List Notice}
    (h : load image = .ok (c, notices)) : LoadedFrom image c := by
  unfold load at h
  split at h
  · cases h
  · rename_i header hheader
    split at h
    · cases h
    · obtain ⟨rfl, -⟩ := Prod.mk.inj (Except.ok.inj h)
      obtain ⟨hsize, -⟩ := Header.ofImage?_eq_some_iff.mp hheader
      have hchecksums : Checksum.Report.ofImage? image = some
          ⟨header.headerSum, Checksum.header image, header.romSum, Checksum.rom image⟩ := by
        rw [Checksum.Report.ofImage?, hheader, Option.map_some]
      exact ⟨hsize, hchecksums, exists_romBanks_eq header image.size, rfl, rfl, rfl⟩

lemma LoadedFrom.stored {image : ByteArray} (h : LoadedFrom image c) : c.Stored := by
  refine ⟨h.romBanks, ?_, ?_⟩
  · rw [h.rom]
    exact Bytes.size_resize _ _ _
  · rw [h.ram]
    exact Bytes.size_fill _ _

/-- A cartridge that has been loaded holds whole banks. -/
lemma stored_of_load {image : ByteArray} {notices : List Notice}
    (h : load image = .ok (c, notices)) : c.Stored :=
  (loadedFrom_of_load h).stored

/-- An image that has a header with a known kind of bank controller is loaded, with as many banks as
the header says. -/
lemma exists_load {image : ByteArray} {mapper : Mapper} (hsize : Header.size ≤ image.size)
    (hmapper : (Header.mk image).mapper? = some mapper) :
    ∃ c notices, load image = .ok (c, notices) ∧ c.mapper = mapper ∧
      c.romBanks = (Header.mk image).romBanks?.getD (banksFor image.size) ∧
      c.ramBanks = (Header.mk image).ramBanks?.getD 0 := by
  have hheader : Header.ofImage? image = some ⟨image⟩ := if_pos hsize
  unfold load
  rw [hheader]
  dsimp only
  rw [hmapper]
  exact ⟨_, _, rfl, rfl, rfl, rfl⟩

/-- Checksums are told to be wrong only where they are. -/
lemma mismatch_of_load {image : ByteArray} {notices : List Notice}
    (h : load image = .ok (c, notices)) :
    (∀ stored computed, Notice.headerMismatch stored computed ∈ notices →
        c.checksums.headerOk = false) ∧
      ∀ stored computed, Notice.romMismatch stored computed ∈ notices →
        c.checksums.romOk = false := by
  unfold load at h
  split at h
  · cases h
  · split at h
    · cases h
    · obtain ⟨rfl, rfl⟩ := Prod.mk.inj (Except.ok.inj h)
      constructor
      · intro stored computed hmem
        simp only [List.mem_append, List.mem_ite_nil_right, List.mem_singleton, reduceCtorEq,
          and_false, or_false, false_or, Bool.not_eq_true'] at hmem
        exact hmem.1
      · intro stored computed hmem
        simp only [List.mem_append, List.mem_ite_nil_right, List.mem_singleton, reduceCtorEq,
          and_false, or_false, false_or, Bool.not_eq_true'] at hmem
        exact hmem.1

/-! ## Writing -/

lemma write_keeps (c : Cartridge) (a : Address) (v : UInt8) :
    (c.write a v).rom = c.rom ∧ (c.write a v).romBanks = c.romBanks ∧
      (c.write a v).ramBanks = c.ramBanks := by
  unfold Cartridge.write
  split
  · split <;> exact ⟨rfl, rfl, rfl⟩
  · split <;> exact ⟨rfl, rfl, rfl⟩

/-- A write neither moves nor resizes anything. -/
lemma Stored.write (h : c.Stored) (a : Address) (v : UInt8) : (c.write a v).Stored := by
  unfold Cartridge.write
  split
  · split
    · refine ⟨h.romBanks, h.rom, ?_⟩
      rw [← h.ram]
      exact Bytes.size_put _ _ _
    · exact h
  · split
    · exact h
    · exact ⟨h.romBanks, h.rom, h.ram⟩

/-! ## Reading -/

/-- An offset into a bank, behind the banks before it. -/
lemma add_lt_of_bank {bank banks size offset : Nat} (hbank : bank < banks)
    (hoffset : offset < size) :
    bank * size + offset < banks * size :=
  calc bank * size + offset
      < bank * size + size := Nat.add_lt_add_left hoffset _
    _ = (bank + 1) * size := (Nat.succ_mul bank size).symm
    _ ≤ banks * size := Nat.mul_le_mul_right size hbank

lemma Stored.two_le (h : c.Stored) : 2 ≤ c.romBanks := by
  obtain ⟨n, hn⟩ := h.romBanks
  rw [hn]
  exact Nat.le_shiftLeft

lemma Stored.romBank_lt (h : c.Stored) : c.romBank < c.romBanks := by
  have htwo := h.two_le
  unfold romBank
  split
  · exact htwo
  · exact Nat.mod_lt _ (by omega)

/-- Memory without banks is no memory. -/
lemma Stored.isEmpty_ram_iff (h : c.Stored) : c.ram.isEmpty = true ↔ c.ramBanks = 0 := by
  rw [ByteArray.isEmpty, beq_iff_eq, h.ram, ramBankSize]
  omega

/-- A cartridge with memory has a bank of it to show. -/
lemma Stored.ramBank_lt (h : c.Stored) (henabled : c.ramEnabled = true) :
    c.ramBank < c.ramBanks := by
  -- memory is enabled only where there is some
  have hpos : 0 < c.ramBanks := by
    have hne : ¬ c.ram.isEmpty = true := by
      unfold ramEnabled at henabled
      split at henabled <;> simp_all
    exact Nat.pos_of_ne_zero (mt h.isEmpty_ram_iff.mpr hne)
  unfold ramBank
  split
  · exact hpos
  · split
    · exact Nat.mod_lt _ hpos
    · exact hpos

/-- **Accesses to a cartridge stay inside its storage.** -/
theorem Stored.inRange (h : c.Stored) (a : Address) : c.InRange a := by
  have htwo := h.two_le
  refine ⟨by omega, ?_, ?_, ?_⟩
  · intro ha
    have ha' : a.toNat < 0x4000 := UInt16.lt_iff_toNat_lt.mp ha
    rw [h.rom, romBankSize]
    omega
  · intro hlow hhigh
    have hlow' : 0x4000 ≤ a.toNat := UInt16.le_iff_toNat_le.mp hlow
    have hhigh' : a.toNat < 0x8000 := UInt16.lt_iff_toNat_lt.mp hhigh
    refine ⟨hlow', ?_⟩
    rw [h.rom]
    refine add_lt_of_bank h.romBank_lt ?_
    rw [romBankSize]
    omega
  · intro hwindow henabled
    simp only [inRamWindow, Bool.and_eq_true, decide_eq_true_eq, UInt16.le_iff_toNat_le,
      UInt16.reduceToNat] at hwindow
    refine ⟨hwindow.1, ?_⟩
    rw [h.ram]
    refine add_lt_of_bank (h.ramBank_lt henabled) ?_
    rw [ramBankSize]
    omega

/-! ## Reading after a write -/

variable {a b : Address} {v : UInt8}

lemma inRamWindow_iff :
    inRamWindow a = true ↔ 0xA000 ≤ a.toNat ∧ a.toNat < 0xC000 := by
  simp only [inRamWindow, Bool.and_eq_true, decide_eq_true_eq, UInt16.le_iff_toNat_le,
    UInt16.reduceToNat]
  omega

/-- Addresses of the memory's window stand for different bytes. -/
lemma ramIndex_injective (ha : inRamWindow a = true) (hb : inRamWindow b = true)
    (h : c.ramIndex a = c.ramIndex b) : a = b := by
  rw [inRamWindow_iff] at ha hb
  unfold ramIndex at h
  exact UInt16.toNat.inj (by omega)

lemma write_memory (ha : inRamWindow a = true) (henabled : c.ramEnabled = true) (v : UInt8) :
    c.write a v = { c with ram := Bytes.put c.ram (c.ramIndex a) v } := by
  rw [write, if_pos ha, if_pos henabled]

lemma ramEnabled_put (c : Cartridge) (i : Nat) (v : UInt8) :
    { c with ram := Bytes.put c.ram i v }.ramEnabled = c.ramEnabled := by
  unfold ramEnabled ByteArray.isEmpty
  rw [Bytes.size_put]

lemma romBank_put (c : Cartridge) (i : Nat) (v : UInt8) :
    { c with ram := Bytes.put c.ram i v }.romBank = c.romBank := by
  unfold romBank
  rfl

lemma ramIndex_put (c : Cartridge) (i : Nat) (v : UInt8) (a : Address) :
    { c with ram := Bytes.put c.ram i v }.ramIndex a = c.ramIndex a := by
  unfold ramIndex ramBank
  rfl

lemma read_memory (ha : inRamWindow a = true) (henabled : c.ramEnabled = true) :
    c.read a = Bytes.get c.ram (c.ramIndex a) 0xFF := by
  have hwindow := inRamWindow_iff.mp ha
  have hlow : ¬ a < 0x8000 := by
    simp only [UInt16.lt_iff_toNat_lt, UInt16.reduceToNat]
    omega
  have hfixed : ¬ a < 0x4000 := by
    simp only [UInt16.lt_iff_toNat_lt, UInt16.reduceToNat]
    omega
  rw [read, if_neg hfixed, if_neg hlow, ha, henabled]
  exact if_pos rfl

/-- A write to the memory's window changes the byte at its address alone. -/
lemma read_write_of_ne (c : Cartridge) (ha : inRamWindow a = true) (h : b ≠ a) (v : UInt8) :
    (c.write a v).read b = c.read b := by
  by_cases henabled : c.ramEnabled = true
  · rw [write_memory ha henabled]
    by_cases hb : inRamWindow b = true
    · rw [read_memory hb ((ramEnabled_put c _ v).trans henabled), read_memory hb henabled]
      rw [ramIndex_put]
      refine Bytes.get_put_of_ne _ ?_ v _
      intro hindex
      exact h (ramIndex_injective ha hb hindex).symm
    · -- the byte is not the memory's, and the banks stay
      rw [Bool.not_eq_true] at hb
      rw [read, read, hb, Bool.false_and, Bool.false_and, romBank_put,
        if_neg Bool.false_ne_true, if_neg Bool.false_ne_true]
  · rw [write, if_pos ha, if_neg henabled]

/-- Where the memory is enabled it keeps what is written. -/
lemma Stored.read_write_self (h : c.Stored) (ha : inRamWindow a = true)
    (henabled : c.ramEnabled = true) (v : UInt8) : (c.write a v).read a = v := by
  rw [write_memory ha henabled, read_memory ha ((ramEnabled_put c _ v).trans henabled)]
  rw [ramIndex_put, Bytes.get_put_self ((h.inRange a).memory ha henabled).2]

/-- No write changes what is read where no bank is picked. -/
lemma read_write_of_unpicked (c : Cartridge)
    (hb : b < 0x4000 ∨ ¬ b < 0x8000 ∧ inRamWindow b = false) (v : UInt8) :
    (c.write a v).read b = c.read b := by
  have hrom := (write_keeps c a v).1
  rcases hb with hb | ⟨hb, hwindow⟩
  · rw [read, read, if_pos hb, if_pos hb, hrom]
  · have hfixed : ¬ b < 0x4000 := by
      simp only [UInt16.lt_iff_toNat_lt, UInt16.reduceToNat] at hb ⊢
      omega
    rw [read, read, if_neg hfixed, if_neg hfixed, if_neg hb, if_neg hb, hwindow, Bool.false_and,
      Bool.false_and, if_neg Bool.false_ne_true, if_neg Bool.false_ne_true]

end Cartridge

end Handheld
