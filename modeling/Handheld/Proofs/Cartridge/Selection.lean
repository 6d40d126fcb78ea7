/-
# Picking a program bank

The program bank that shows is picked by two registers, of which the lower one is never zero.  Where
there are 32 banks or more, a multiple of 32 therefore never shows, while every other bank that the
two registers can name is two writes away.  Where there are fewer, the upper register counts for
nothing, and the first bank shows if the lower register holds a multiple of their number; after a
zero it does not.  The main statement, `Cartridge.picks_bank`, says so of a cartridge after any
writes.  It rests on the number of banks being a power of two, which 32 divides or which divides 32.
-/
import Handheld.Proofs.Cartridge.Windows

namespace Handheld

namespace Cartridge

variable {image : ByteArray} {notices : List Notice} {c : Cartridge} {banks : Nat} {v : UInt8}

namespace Writes

variable {ws : Writes}

/-! ## The lower register -/

lemma low_of_last?_none (h : ws.last? 0x2000 0x4000 = none) : ws.low = 1 := by
  rw [low, register, h]
  rfl

lemma low_of_last?_some (h : ws.last? 0x2000 0x4000 = some v) :
    ws.low = if v.toNat % 32 = 0 then 1 else v.toNat % 32 := by
  rw [low, register, h]
  rfl

lemma low_bounds (ws : Writes) : 0 < ws.low ∧ ws.low < 32 := by
  cases hlast : ws.last? 0x2000 0x4000 with
  | none =>
    rw [low_of_last?_none hlast]
    decide
  | some v =>
    rw [low_of_last?_some hlast]
    split <;> omega

/-- The lower register holds a multiple of the number of banks if one was written to it: the value
that it starts with, and that it takes for a zero, is none. -/
lemma dvd_low_iff (htwo : 2 ≤ banks) :
    banks ∣ ws.low ↔
      ∃ v, ws.last? 0x2000 0x4000 = some v ∧ v.toNat % 32 ≠ 0 ∧ banks ∣ v.toNat % 32 := by
  have hone : ¬ banks ∣ 1 := by
    rw [Nat.dvd_one]
    omega
  cases hlast : ws.last? 0x2000 0x4000 with
  | none =>
    rw [low_of_last?_none hlast]
    simp [hone]
  | some v =>
    rw [low_of_last?_some hlast]
    split
    · rename_i hzero
      simp [hone, hzero]
    · rename_i hne
      simp [hne]

/-! ## The bank of both registers -/

lemma romBank_mod (ws : Writes) (h : 32 ∣ banks) : ws.romBank banks % 32 = ws.low := by
  have hlow := ws.low_bounds.2
  rw [romBank, Nat.mod_mod_of_dvd _ h]
  omega

/-- Where there are fewer banks than 32 the upper register counts for nothing. -/
lemma romBank_of_dvd (ws : Writes) (h : banks ∣ 32) : ws.romBank banks = ws.low % banks := by
  obtain ⟨k, hk⟩ := h
  rw [romBank, hk, Nat.mul_left_comm, Nat.mul_add_mod]

lemma romBank_eq_zero_iff (ws : Writes) (h : banks ∣ 32) (htwo : 2 ≤ banks) :
    ws.romBank banks = 0 ↔
      ∃ v, ws.last? 0x2000 0x4000 = some v ∧ v.toNat % 32 ≠ 0 ∧ banks ∣ v.toNat % 32 := by
  rw [ws.romBank_of_dvd h, ← Nat.dvd_iff_mod_eq_zero, dvd_low_iff htwo]

/-- A bank that is no multiple of 32 is two writes away. -/
lemma romBank_of_two_writes {bank : Nat} (ws : Writes) (hbank : bank < banks) (hbound : bank < 128)
    (hne : bank % 32 ≠ 0) :
    romBank ((0x4000, UInt8.ofNat (bank / 32)) :: (0x2000, UInt8.ofNat (bank % 32)) :: ws) banks =
      bank := by
  have hlow : low ((0x4000, UInt8.ofNat (bank / 32)) :: (0x2000, UInt8.ofNat (bank % 32)) :: ws) =
      bank % 32 := by
    rw [low, register_cons, if_neg (by decide), register_cons, if_pos (by decide),
      UInt8.toNat_ofNat', if_neg (by omega)]
    omega
  have hhigh : high ((0x4000, UInt8.ofNat (bank / 32)) :: (0x2000, UInt8.ofNat (bank % 32)) :: ws) =
      bank / 32 := by
    rw [high, register_cons, if_pos (by decide), UInt8.toNat_ofNat']
    omega
  rw [romBank, hlow, hhigh, Nat.mod_eq_of_lt (by omega)]
  omega

end Writes

/-- **Which program banks show.**  Where there are 32 banks or more, a multiple of 32 never shows,
and every other bank below 128 is two writes away.  Where there are fewer, the first bank shows if
and only if the low five bits of the last value written to the lower register are not zero and a
multiple of the number of banks.  The bytes that are read in the window are those of the bank. -/
theorem picks_bank (hload : load image = .ok (c, notices)) (hmapper : c.mapper = .mbc1)
    (ws : Writes) :
    (32 ≤ c.romBanks →
        (c.after ws).romBank % 32 ≠ 0 ∧
        ∀ bank, bank < min c.romBanks 128 → bank % 32 ≠ 0 →
          ∃ low high : UInt8,
            (c.after ((0x4000, high) :: (0x2000, low) :: ws)).romBank = bank) ∧
      (c.romBanks < 32 →
        ((c.after ws).romBank = 0 ↔
          ∃ v, ws.last? 0x2000 0x4000 = some v ∧ v.toNat % 32 ≠ 0 ∧
            c.romBanks ∣ v.toNat % 32) ∧
        (ws.last? 0x2000 0x4000 = some 0 → (c.after ws).romBank ≠ 0)) ∧
      ∀ a : Address, 0x4000 ≤ a.toNat → a.toNat < 0x8000 →
        (c.after ws).rom.data[(c.after ws).romBank * 0x4000 + (a.toNat - 0x4000)]? =
          some ((c.after ws).read a) := by
  have hloaded := loadedFrom_of_load hload
  have hshows := shows_after hloaded hmapper
  obtain ⟨n, hn, hpow⟩ := hloaded.stored.keepsToBanks.romBanks
  have htwo := hloaded.stored.two_le
  refine ⟨fun hmany => ⟨?_, fun bank hbank hne => ?_⟩, fun hfew => ?_, fun a hlow hhigh => ?_⟩
  · have hdvd : 32 ∣ c.romBanks := by
      rw [hpow] at hmany ⊢
      have hle : 5 ≤ n := (Nat.pow_le_pow_iff_right Nat.one_lt_two).mp hmany
      exact Nat.pow_dvd_pow 2 hle
    rw [(hshows ws).romBank_eq, ws.romBank_mod hdvd]
    exact Nat.ne_of_gt ws.low_bounds.1
  · refine ⟨UInt8.ofNat (bank % 32), UInt8.ofNat (bank / 32), ?_⟩
    rw [(hshows _).romBank_eq]
    exact ws.romBank_of_two_writes (by omega) (by omega) hne
  · have hdvd : c.romBanks ∣ 32 := by
      rw [hpow] at hfew ⊢
      have hle : n ≤ 5 := Nat.le_of_lt ((Nat.pow_lt_pow_iff_right Nat.one_lt_two).mp hfew)
      exact Nat.pow_dvd_pow 2 hle
    have hzero := ws.romBank_eq_zero_iff hdvd htwo
    rw [(hshows ws).romBank_eq]
    refine ⟨hzero, fun hlast hbank => ?_⟩
    obtain ⟨v, hv, hne, -⟩ := hzero.mp hbank
    rw [hlast] at hv
    obtain rfl := Option.some.inj hv
    exact hne rfl
  · exact (hloaded.stored.after ws).keepsToBanks.read .banked a ⟨hlow, hhigh⟩ trivial

/-- The image of a cartridge with two program banks and a bank controller. -/
def smallImage : ByteArray :=
  Bytes.put (Bytes.fill 0x150 0) 0x147 0x01

lemma exists_load_small : ∃ c notices, load smallImage = .ok (c, notices) ∧ c.mapper = .mbc1 ∧
    c.romBanks = 2 := by
  have hsize : Header.size ≤ smallImage.size := by
    decide +kernel
  have hmapper : (Header.mk smallImage).mapper? = some .mbc1 := by
    decide +kernel
  have hrom : (Header.mk smallImage).romBanks? = some 2 := by
    decide +kernel
  obtain ⟨c, notices, hload, hkind, hbanks, -⟩ := exists_load hsize hmapper
  rw [hrom] at hbanks
  exact ⟨c, notices, hload, hkind, hbanks⟩

/-- Of 64 banks, bank 33 can be picked, and a multiple of 32 does not show after a zero; of two, the
first shows after an even value, but not after a zero. -/
theorem large_and_small_picks_bank :
    (∃ c notices, load largeImage = .ok (c, notices) ∧ c.mapper = .mbc1 ∧
      (c.after [(0x4000, 0x01), (0x2000, 0x00)]).romBank % 32 ≠ 0 ∧
      ∃ low high : UInt8,
        (c.after [(0x4000, high), (0x2000, low), (0x4000, 0x01), (0x2000, 0x00)]).romBank = 33) ∧
    ∃ c notices, load smallImage = .ok (c, notices) ∧ c.mapper = .mbc1 ∧
      (c.after [(0x3FFF, 0xE2), (0x2000, 0x00)]).romBank = 0 ∧
      (c.after [(0x2000, 0x00), (0x3FFF, 0xE2)]).romBank ≠ 0 := by
  constructor
  · obtain ⟨c, notices, hload, hmapper, hbanks, -⟩ := exists_load_large
    obtain ⟨hmany, -, -⟩ := picks_bank hload hmapper [(0x4000, 0x01), (0x2000, 0x00)]
    rw [hbanks] at hmany
    obtain ⟨hshown, hpick⟩ := hmany (by decide)
    exact ⟨c, notices, hload, hmapper, hshown, hpick 33 (by decide) (by decide)⟩
  · obtain ⟨c, notices, hload, hmapper, hbanks⟩ := exists_load_small
    obtain ⟨-, hfew, -⟩ := picks_bank hload hmapper [(0x3FFF, 0xE2), (0x2000, 0x00)]
    obtain ⟨-, hfew', -⟩ := picks_bank hload hmapper [(0x2000, 0x00), (0x3FFF, 0xE2)]
    rw [hbanks] at hfew hfew'
    exact ⟨c, notices, hload, hmapper, (hfew (by decide)).1.mpr ⟨0xE2, rfl, by decide, by decide⟩,
      (hfew' (by decide)).2 rfl⟩

end Cartridge

end Handheld
