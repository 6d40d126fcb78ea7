/-
# Right checksums

Both checksums are sums of bytes.  That of the header comes to zero together with the bytes that it
covers and one more for each of them; that of the image is the sum of all bytes but its own two, so
that it covers the checksum of the header as well.  Hence the other bytes of an image leave it one
choice of right checksums, and writing them makes that choice (`Checksum.fix_makes_right`).  Another
byte moves a sum that covers it by less than the sum can hold, so that no change of one byte goes
unseen (`Checksum.change_shows`).
-/
import Mathlib.Algebra.BigOperators.Intervals
import Handheld.Proofs.Cartridge.Storage

namespace Handheld

/-! ## Sums of bytes -/

namespace Bytes

/-- The sum of the bytes at some places.  What is outside of the array counts nothing. -/
def total (b : ByteArray) (places : Finset Nat) : Nat :=
  ∑ i ∈ places, (get b i 0).toNat

variable {a b : ByteArray} {places : Finset Nat} {i : Nat} {v : UInt8}

lemma sumFrom_eq (b : ByteArray) (n i acc : Nat) :
    sumFrom b n i acc = acc + ∑ k ∈ Finset.range n, (get b (i + k) 0).toNat := by
  induction n generalizing i acc with
  | zero => simp [sumFrom]
  | succ n ih =>
    have hnext : ∀ k, i + 1 + k = i + (k + 1) := fun k => by omega
    rw [sumFrom, ih, Finset.sum_range_succ']
    simp only [hnext, Nat.add_zero]
    omega

lemma sum_eq_total (b : ByteArray) : sum b = total b (Finset.range b.size) := by
  rw [sum, sumFrom_eq, total]
  simp only [Nat.zero_add]

lemma total_congr (h : ∀ i ∈ places, get a i 0 = get b i 0) : total a places = total b places := by
  refine Finset.sum_congr rfl fun i hi => ?_
  rw [h i hi]

/-- Changing a byte at one of the places changes the sum by as much. -/
lemma total_put (hi : i ∈ places) (hsize : i < b.size) :
    total (put b i v) places + (get b i 0).toNat = total b places + v.toNat := by
  have hrest : total (put b i v) (places.erase i) = total b (places.erase i) := by
    refine total_congr fun j hj => get_put_of_ne b ?_ v 0
    rintro rfl
    exact Finset.notMem_erase i places hj
  have hput := Finset.add_sum_erase places (fun j => (get (put b i v) j 0).toNat) hi
  have hold := Finset.add_sum_erase places (fun j => (get b j 0).toNat) hi
  simp only [get_put_self hsize] at hput
  simp only [total] at hrest ⊢
  omega

/-- Another byte at one of the places makes another sum, even of the sum's low byte alone. -/
lemma total_put_mod_ne (hi : i ∈ places) (hsize : i < b.size) (hv : v ≠ get b i 0) :
    total (put b i v) places % 0x100 ≠ total b places % 0x100 := by
  have hmoved := total_put (v := v) hi hsize
  have hne : v.toNat ≠ (get b i 0).toNat := fun h => hv (UInt8.toNat.inj h)
  have hbound := v.toNat_lt
  have hbound' := (get b i 0).toNat_lt
  omega

/-- Leaving a place out takes its byte away from the sum. -/
lemma total_erase (h : i ∈ places ∨ b.size ≤ i) :
    total b (places.erase i) + (get b i 0).toNat = total b places := by
  rcases h with hi | hi
  · rw [total, total, ← Finset.add_sum_erase _ _ hi]
    exact Nat.add_comm _ _
  · have hzero : (get b i 0).toNat = 0 := by
      rw [get_of_size_le hi]
      rfl
    have herase := Finset.sum_erase (f := fun j => (get b j 0).toNat) places hzero
    rw [total, total, herase, hzero]
    rfl

end Bytes

namespace Checksum

/-! ## The places that are covered -/

/-- The places that the checksum of the header covers, from the title to the version. -/
def headerPlaces : Finset Nat :=
  Finset.Ico 0x134 0x14D

/-- The places that the checksum of an image of so many bytes covers: all but its own two. -/
def romPlaces (size : Nat) : Finset Nat :=
  ((Finset.range size).erase 0x14E).erase 0x14F

variable {image other : ByteArray} {i : Nat} {v : UInt8}

@[simp] lemma mem_headerPlaces : i ∈ headerPlaces ↔ 0x134 ≤ i ∧ i < 0x14D :=
  Finset.mem_Ico

@[simp] lemma mem_romPlaces {size : Nat} :
    i ∈ romPlaces size ↔ i < size ∧ i ≠ 0x14E ∧ i ≠ 0x14F := by
  simp only [romPlaces, Finset.mem_erase, Finset.mem_range]
  omega

/-- Counting down from zero by some bytes and one more for each comes to zero with their sum. -/
lemma toNat_countDown (image : ByteArray) (first n : Nat) :
    (((List.range n).foldl (fun x i => x - Bytes.get image (first + i) 0 - 1) (0 : UInt8)).toNat +
      (∑ i ∈ Finset.range n, (Bytes.get image (first + i) 0).toNat) + n) % 0x100 = 0 := by
  induction n with
  | zero => rfl
  | succ n ih =>
    have hbyte := (Bytes.get image (first + n) 0).toNat_lt
    rw [List.range_succ, List.foldl_append, Finset.sum_range_succ]
    simp only [List.foldl_cons, List.foldl_nil, UInt8.toNat_sub, UInt8.reduceToNat]
    omega

/-- The checksum of the header, the bytes that it covers, and one for each of them come to zero. -/
lemma header_add_total (image : ByteArray) :
    ((header image).toNat + Bytes.total image headerPlaces + 25) % 0x100 = 0 := by
  rw [Bytes.total, headerPlaces, Finset.sum_Ico_eq_sum_range]
  exact toNat_countDown image 0x134 25

/-- The checksum of an image is the sum of the bytes that it covers. -/
lemma toNat_rom (image : ByteArray) :
    (rom image).toNat = Bytes.total image (romPlaces image.size) % 0x10000 := by
  have hhigh : Bytes.total image ((Finset.range image.size).erase 0x14E) +
      (Bytes.get image 0x14E 0).toNat = Bytes.total image (Finset.range image.size) := by
    refine Bytes.total_erase ?_
    rw [Finset.mem_range]
    omega
  have hlow : Bytes.total image (romPlaces image.size) + (Bytes.get image 0x14F 0).toNat =
      Bytes.total image ((Finset.range image.size).erase 0x14E) := by
    refine Bytes.total_erase ?_
    rw [Finset.mem_erase, Finset.mem_range]
    omega
  rw [rom, UInt16.toNat_ofNat', Bytes.sum_eq_total, ← hhigh, ← hlow]
  congr 1
  omega

/-- The checksum of the header looks at the places that it covers alone. -/
lemma header_congr (h : ∀ i ∈ headerPlaces, Bytes.get image i 0 = Bytes.get other i 0) :
    header image = header other := by
  have himage := header_add_total image
  have hother := header_add_total other
  have hbound := (header image).toNat_lt
  have hbound' := (header other).toNat_lt
  rw [Bytes.total_congr h] at himage
  apply UInt8.toNat.inj
  omega

/-- The checksum of an image looks at the places that it covers alone. -/
lemma rom_congr (hsize : image.size = other.size)
    (h : ∀ i ∈ romPlaces other.size, Bytes.get image i 0 = Bytes.get other i 0) :
    rom image = rom other := by
  apply UInt16.toNat.inj
  rw [toNat_rom, toNat_rom, hsize, Bytes.total_congr h]

/-! ## Changing one byte -/

lemma header_put_of_not_mem (hi : i ∉ headerPlaces) :
    header (Bytes.put image i v) = header image := by
  refine header_congr fun j hj => Bytes.get_put_of_ne image ?_ v 0
  rintro rfl
  exact hi hj

lemma header_put_ne (hi : i ∈ headerPlaces) (hsize : i < image.size)
    (hv : v ≠ Bytes.get image i 0) : header (Bytes.put image i v) ≠ header image := by
  intro heq
  have hbefore := header_add_total image
  have hafter := header_add_total (Bytes.put image i v)
  have hmoved := Bytes.total_put_mod_ne hi hsize hv
  rw [heq] at hafter
  omega

lemma rom_put_of_not_mem (hi : i ∉ romPlaces image.size) :
    rom (Bytes.put image i v) = rom image := by
  refine rom_congr (Bytes.size_put image i v) fun j hj => Bytes.get_put_of_ne image ?_ v 0
  rintro rfl
  exact hi hj

lemma rom_put_ne (hi : i ∈ romPlaces image.size) (hv : v ≠ Bytes.get image i 0) :
    rom (Bytes.put image i v) ≠ rom image := by
  intro heq
  have hbefore := toNat_rom image
  have hafter := toNat_rom (Bytes.put image i v)
  have hmoved := Bytes.total_put_mod_ne hi (mem_romPlaces.mp hi).1 hv
  rw [heq, Bytes.size_put] at hafter
  omega

/-! ## Right checksums -/

/-- Whether an image has a header and both of its checksums are right. -/
def Right (image : ByteArray) : Prop :=
  ∃ r, Report.ofImage? image = some r ∧ r.headerOk = true ∧ r.romOk = true

/-- Whether two images of one size differ in the bytes that hold the checksums at most. -/
structure Alike (image other : ByteArray) : Prop where
  size : image.size = other.size
  get : ∀ i, i < 0x14D ∨ 0x14F < i → Bytes.get image i 0 = Bytes.get other i 0

lemma ofImage?_eq (h : 0x150 ≤ image.size) :
    Report.ofImage? image =
      some ⟨Bytes.get image 0x14D 0, header image,
        Word.ofBytes (Bytes.get image 0x14E 0) (Bytes.get image 0x14F 0), rom image⟩ := by
  rw [Report.ofImage?, Header.ofImage?, Header.size, if_pos h]
  rfl

lemma ofImage?_eq_none (h : image.size < 0x150) : Report.ofImage? image = none := by
  rw [Report.ofImage?, Header.ofImage?, Header.size, if_neg (Nat.not_le.mpr h)]
  rfl

lemma right_iff :
    Right image ↔ 0x150 ≤ image.size ∧ Bytes.get image 0x14D 0 = header image ∧
      Word.ofBytes (Bytes.get image 0x14E 0) (Bytes.get image 0x14F 0) = rom image := by
  by_cases hsize : 0x150 ≤ image.size
  · simp only [Right, ofImage?_eq hsize, Option.some.injEq, exists_eq_left', Report.headerOk,
      Report.romOk, beq_iff_eq, hsize, true_and]
  · simp only [Right, ofImage?_eq_none (Nat.not_le.mp hsize), reduceCtorEq, false_and, exists_false,
      hsize]

namespace Alike

lemma symm (h : Alike image other) : Alike other image :=
  ⟨h.size.symm, fun i hi => (h.get i hi).symm⟩

lemma trans {third : ByteArray} (h : Alike image other) (h' : Alike other third) :
    Alike image third :=
  ⟨h.size.trans h'.size, fun i hi => (h.get i hi).trans (h'.get i hi)⟩

/-- Right checksums follow from the other bytes. -/
lemma eq_of_right (h : Alike image other) (himage : Right image) (hother : Right other) :
    image = other := by
  obtain ⟨-, hheader, hrom⟩ := right_iff.mp himage
  obtain ⟨-, hheader', hrom'⟩ := right_iff.mp hother
  have hsum : Bytes.get image 0x14D 0 = Bytes.get other 0x14D 0 := by
    rw [hheader, hheader']
    refine header_congr fun i hi => h.get i ?_
    exact Or.inl (mem_headerPlaces.mp hi).2
  -- the image's checksum covers the header's, so this comes second
  have hcovered : rom image = rom other := by
    refine rom_congr h.size fun i hi => ?_
    have hi' := mem_romPlaces.mp hi
    by_cases heq : i = 0x14D
    · rw [heq, hsum]
    · exact h.get i (by omega)
  rw [← hrom, ← hrom', Word.ofBytes_inj] at hcovered
  refine Bytes.ext_get h.size fun i _ => ?_
  by_cases hi : i < 0x14D ∨ 0x14F < i
  · exact h.get i hi
  · obtain rfl | rfl | rfl : i = 0x14D ∨ i = 0x14E ∨ i = 0x14F := by omega
    · exact hsum
    · exact hcovered.1
    · exact hcovered.2

lemma mapper?_eq (h : Alike image other) :
    (Header.mk image).mapper? = (Header.mk other).mapper? := by
  have htype : (Header.mk image).typeCode = (Header.mk other).typeCode := h.get 0x147 (by decide)
  rw [Header.mapper?, Header.mapper?, htype]

end Alike

/-- An image with right checksums is loaded without a word about them. -/
lemma exists_load_of_right {mapper : Mapper} (h : Right image)
    (hmapper : (Header.mk image).mapper? = some mapper) :
    ∃ c notices, Cartridge.load image = .ok (c, notices) ∧ c.mapper = mapper ∧
      c.checksums.headerOk = true ∧ c.checksums.romOk = true ∧
      (∀ stored computed, .headerMismatch stored computed ∉ notices) ∧
      ∀ stored computed, .romMismatch stored computed ∉ notices := by
  have hsize := (right_iff.mp h).1
  obtain ⟨r, hr, hheader, hrom⟩ := h
  obtain ⟨c, notices, hload, hkind, -⟩ := Cartridge.exists_load hsize hmapper
  have hchecksums := (Cartridge.loadedFrom_of_load hload).checksums
  obtain rfl := Option.some.inj (hr.symm.trans hchecksums)
  obtain ⟨hmismatch, hmismatch'⟩ := Cartridge.mismatch_of_load hload
  refine ⟨c, notices, hload, hkind, hheader, hrom, fun stored computed hmem => ?_,
    fun stored computed hmem => ?_⟩
  · rw [hmismatch stored computed hmem] at hheader
    cases hheader
  · rw [hmismatch' stored computed hmem] at hrom
    cases hrom

/-! ## Writing the checksums -/

lemma fix_of_size_lt (h : image.size < 0x150) :
    fix image = (.error (.tooSmall image.size), image) := by
  rw [fix, fix?, Header.size, if_neg (Nat.not_le.mpr h)]

/-- Writing the checksums makes them right and changes no other byte. -/
lemma exists_fix (image : ByteArray) (h : 0x150 ≤ image.size) :
    ∃ fixed, fix image = (.ok (), fixed) ∧ Alike fixed image ∧ Right fixed := by
  obtain ⟨summed, hsummed⟩ : ∃ summed, summed = Bytes.put image 0x14D (header image) := ⟨_, rfl⟩
  obtain ⟨fixed, hfixed⟩ : ∃ fixed, fixed = Bytes.put
      (Bytes.put summed 0x14E (Word.high (rom summed))) 0x14F (Word.low (rom summed)) := ⟨_, rfl⟩
  have hsize : summed.size = image.size := by
    rw [hsummed, Bytes.size_put]
  have hsize' : fixed.size = summed.size := by
    rw [hfixed, Bytes.size_put, Bytes.size_put]
  have hfix : fix image = (.ok (), fixed) := by
    rw [fix, fix?, Header.size, if_pos h, hfixed, hsummed]
  refine ⟨fixed, hfix, ⟨hsize'.trans hsize, fun i hi => ?_⟩, right_iff.mpr ⟨by omega, ?_, ?_⟩⟩
  · rw [hfixed, Bytes.get_put_of_ne _ (by omega), Bytes.get_put_of_ne _ (by omega), hsummed,
      Bytes.get_put_of_ne _ (by omega)]
  · have hheader : header fixed = header image := by
      rw [hfixed, header_put_of_not_mem (by simp), header_put_of_not_mem (by simp), hsummed,
        header_put_of_not_mem (by simp)]
    rw [hheader, hfixed, Bytes.get_put_of_ne _ (by decide), Bytes.get_put_of_ne _ (by decide),
      hsummed, Bytes.get_put_self (by omega)]
  · have hrom : rom fixed = rom summed := by
      rw [hfixed, rom_put_of_not_mem (by simp), rom_put_of_not_mem (by simp)]
    have hhigh : Bytes.get fixed 0x14E 0 = Word.high (rom summed) := by
      rw [hfixed, Bytes.get_put_of_ne _ (by decide), Bytes.get_put_self (by omega)]
    have hlow : Bytes.get fixed 0x14F 0 = Word.low (rom summed) := by
      rw [hfixed, Bytes.get_put_self (by rw [Bytes.size_put]; omega)]
    rw [hhigh, hlow, Word.ofBytes_high_low, hrom]

/-- **Writing the checksums makes the one image with right checksums.**  An image that is too short
is refused, and stays as it is.  Any other image keeps all bytes but three, and has right checksums
afterwards; doing it again changes nothing, and what the three bytes were does not matter.  If its
kind of bank controller is known, the image is then loaded without a word about its checksums. -/
theorem fix_makes_right (image : ByteArray) :
    (∀ e, (fix image).1 = .error e ↔ image.size < 0x150 ∧ e = .tooSmall image.size) ∧
      (image.size < 0x150 → (fix image).2 = image) ∧
      (0x150 ≤ image.size →
        (fix image).1 = .ok () ∧ Alike (fix image).2 image ∧ Right (fix image).2 ∧
        fix (fix image).2 = (.ok (), (fix image).2) ∧
        (∀ other, Alike other image → fix other = fix image) ∧
        ∀ mapper, (Header.mk image).mapper? = some mapper →
          ∃ c notices, Cartridge.load (fix image).2 = .ok (c, notices) ∧ c.mapper = mapper ∧
            c.checksums.headerOk = true ∧ c.checksums.romOk = true ∧
            (∀ stored computed, .headerMismatch stored computed ∉ notices) ∧
            ∀ stored computed, .romMismatch stored computed ∉ notices) := by
  rcases Nat.lt_or_ge image.size 0x150 with hshort | hlong
  · rw [fix_of_size_lt hshort]
    refine ⟨fun e => ?_, fun _ => rfl, fun hlong => absurd hshort (Nat.not_lt.mpr hlong)⟩
    rw [Except.error.injEq, eq_comm]
    exact ⟨fun heq => ⟨hshort, heq⟩, And.right⟩
  · obtain ⟨fixed, hfix, halike, hright⟩ := exists_fix image hlong
    rw [hfix]
    refine ⟨fun e => ?_, fun hshort => absurd hshort (Nat.not_lt.mpr hlong),
      fun _ => ⟨rfl, halike, hright, ?_, fun other hother => ?_, fun mapper hmapper => ?_⟩⟩
    · simp only [reduceCtorEq, false_iff]
      exact fun h => absurd h.1 (Nat.not_lt.mpr hlong)
    · obtain ⟨again, hagain, halike', hright'⟩ := exists_fix fixed (right_iff.mp hright).1
      rw [hagain, halike'.eq_of_right hright' hright]
    · have hsize := hother.size
      obtain ⟨fixed', hfix', halike', hright'⟩ := exists_fix other (by omega)
      have hsame := (halike'.trans hother).trans halike.symm
      rw [hfix', hsame.eq_of_right hright' hright]
    · exact exists_load_of_right hright (halike.mapper?_eq.trans hmapper)

/-- **No change of a single byte goes unseen.**  Where both checksums are right, another byte
anywhere makes that of the image wrong.  It makes that of the header wrong, too, if and only if that
checksum covers the byte or is the byte. -/
theorem change_shows (h : Right image) (hi : i < image.size) (hv : v ≠ Bytes.get image i 0) :
    ∃ r, Report.ofImage? (Bytes.put image i v) = some r ∧ r.romOk = false ∧
      (r.headerOk = false ↔ 0x134 ≤ i ∧ i ≤ 0x14D) := by
  obtain ⟨hsize, hheader, hrom⟩ := right_iff.mp h
  have hsize' : 0x150 ≤ (Bytes.put image i v).size := by
    rw [Bytes.size_put]
    exact hsize
  refine ⟨_, ofImage?_eq hsize', ?_, ?_⟩
  · rw [Report.romOk, beq_eq_false_iff_ne]
    dsimp only
    by_cases hcovered : i ∈ romPlaces image.size
    · obtain ⟨-, hhigh, hlow⟩ := mem_romPlaces.mp hcovered
      rw [Bytes.get_put_of_ne _ hhigh, Bytes.get_put_of_ne _ hlow, hrom]
      exact (rom_put_ne hcovered hv).symm
    · -- the change is in what is stored
      rw [rom_put_of_not_mem hcovered, ← hrom, ne_eq, Word.ofBytes_inj]
      rintro ⟨hhigh, hlow⟩
      rw [mem_romPlaces] at hcovered
      obtain rfl | rfl : i = 0x14E ∨ i = 0x14F := by omega
      · rw [Bytes.get_put_self hi] at hhigh
        exact hv hhigh
      · rw [Bytes.get_put_self hi] at hlow
        exact hv hlow
  · rw [Report.headerOk, beq_eq_false_iff_ne]
    dsimp only
    by_cases hcovered : i ∈ headerPlaces
    · obtain ⟨hlow, hhigh⟩ := mem_headerPlaces.mp hcovered
      rw [Bytes.get_put_of_ne _ (by omega), hheader]
      exact iff_of_true (header_put_ne hcovered hi hv).symm (by omega)
    · rw [header_put_of_not_mem hcovered, ← hheader]
      rw [mem_headerPlaces] at hcovered
      by_cases hstored : i = 0x14D
      · subst hstored
        rw [Bytes.get_put_self hi]
        exact iff_of_true hv (by omega)
      · rw [Bytes.get_put_of_ne _ hstored]
        exact iff_of_false (fun hne => hne rfl) (by omega)

/-- An image of zeros whose checksums have been written has right ones; a change of the stored
checksum of the header makes both wrong. -/
theorem zeros_change_shows : ∃ fixed, fix (Bytes.fill 0x150 0) = (.ok (), fixed) ∧ Right fixed ∧
    (0x00 : UInt8) ≠ Bytes.get fixed 0x14D 0 ∧
    ∃ r, Report.ofImage? (Bytes.put fixed 0x14D 0x00) = some r ∧ r.romOk = false ∧
      r.headerOk = false := by
  obtain ⟨fixed, hfix, halike, hright⟩ :=
    exists_fix (Bytes.fill 0x150 0) (by rw [Bytes.size_fill])
  have hsize : 0x14D < fixed.size := Nat.lt_of_lt_of_le (by decide) (right_iff.mp hright).1
  have hstored : (0x00 : UInt8) ≠ Bytes.get fixed 0x14D 0 := by
    have hfixed : fixed = (fix (Bytes.fill 0x150 0)).2 := by rw [hfix]
    rw [hfixed]
    decide +kernel
  obtain ⟨r, hr, hrom, hheader⟩ := change_shows hright hsize hstored
  exact ⟨fixed, hfix, hright, hstored, r, hr, hrom, hheader.mpr (by decide)⟩

end Checksum

end Handheld
