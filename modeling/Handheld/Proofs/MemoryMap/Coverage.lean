/-
# How many regions an address lies in

`MemoryMap.coverage` counts the regions that an address lies in.  Regions that lie one after the
other share no address, and of these a look-up finds the one that an address lies in
(`MemoryMap.indexOf_eq_some_iff`).  Sorting, the search for an overlap and the search for a gap
are described in these terms.
-/
import Mathlib.Data.List.Chain
import Handheld.Proofs.MemoryMap.Outline

namespace Handheld

namespace Region

/-- Whether a region ends before another one starts, or where it starts. -/
def Before (r s : Region) : Prop :=
  r.stop ≤ s.start.toNat

/-- Whether a region has an address, and none past the end of the address space. -/
structure Proper (r : Region) : Prop where
  pos : 0 < r.length
  stop_le : r.stop ≤ 0x10000

variable {r s t : Region} {a : Address}

lemma start_le_stop (r : Region) : r.start.toNat ≤ r.stop :=
  Nat.le_add_right _ _

lemma Before.trans (h : r.Before s) (h' : s.Before t) : r.Before t :=
  Nat.le_trans h (Nat.le_trans s.start_le_stop h')

instance : Trans Before Before Before :=
  ⟨Before.trans⟩

lemma before_outline : r.outline.Before s.outline ↔ r.Before s := by
  cases r <;> cases s <;> rfl

lemma Before.not_owns (h : r.Before s) (ha : r.owns a = true) : ¬ s.owns a = true := by
  intro ha'
  have hr := owns_iff.mp ha
  have hs := owns_iff.mp ha'
  unfold Before at h
  omega

lemma Proper.owns_start (h : r.Proper) : r.owns r.start = true := by
  have hpos := h.pos
  exact owns_iff.mpr ⟨Nat.le_refl _, by unfold stop; omega⟩

end Region

namespace MemoryMap

open Region

variable {regions : List Region} {m : MemoryMap} {r s : Region}
  {a b : Address} {i j n : Nat}

lemma pairwise_outline :
    (regions.map Region.outline).Pairwise Before ↔ regions.Pairwise Before := by
  rw [List.pairwise_map]
  simp only [before_outline]

/-! ## How many regions an address lies in -/

/-- The number of regions that an address lies in. -/
def coverage (regions : List Region) (a : Address) : Nat :=
  regions.countP (·.owns a)

lemma coverage_cons (r : Region) (regions : List Region) (a : Address) :
    coverage (r :: regions) a = coverage regions a + if r.owns a = true then 1 else 0 :=
  List.countP_cons

lemma coverage_append (regions regions' : List Region) (a : Address) :
    coverage (regions ++ regions') a = coverage regions a + coverage regions' a :=
  List.countP_append

lemma coverage_perm {regions' : List Region} (h : regions'.Perm regions) (a : Address) :
    coverage regions' a = coverage regions a :=
  h.countP_eq _

lemma coverage_pos_iff : 0 < coverage regions a ↔ ∃ r ∈ regions, r.owns a = true :=
  List.countP_pos_iff

lemma coverage_eq_zero_iff : coverage regions a = 0 ↔ ∀ r ∈ regions, ¬ r.owns a = true :=
  List.countP_eq_zero

/-- No region reaches below its first address. -/
lemma coverage_eq_zero_of_lt (h : ∀ r ∈ regions, a.toNat < r.start.toNat) :
    coverage regions a = 0 := by
  rw [coverage_eq_zero_iff]
  intro r hr ha
  have hlt := h r hr
  have hle := (owns_iff.mp ha).1
  omega

/-- Regions that lie one after the other share no address. -/
lemma coverage_le_one (h : regions.Pairwise Before) (a : Address) : coverage regions a ≤ 1 := by
  induction regions with
  | nil => exact Nat.zero_le 1
  | cons r regions ih =>
    obtain ⟨hfirst, hrest⟩ := List.pairwise_cons.mp h
    rw [coverage_cons]
    by_cases ha : r.owns a = true
    · have hzero : coverage regions a = 0 :=
        coverage_eq_zero_iff.mpr fun s hs => (hfirst s hs).not_owns ha
      simp [hzero, ha]
    · rw [if_neg ha]
      exact ih hrest

/-! ## Sorting -/

lemma sortRegions_perm (regions : List Region) : (sortRegions regions).Perm regions :=
  List.mergeSort_perm regions _

lemma pairwise_sortRegions (regions : List Region) :
    (sortRegions regions).Pairwise fun r s => r.start.toNat ≤ s.start.toNat := by
  have hsorted : (sortRegions regions).Pairwise fun r s => decide (r.start ≤ s.start) = true := by
    apply List.pairwise_mergeSort
    · intro r s t
      simpa [UInt16.le_iff_toNat_le] using Nat.le_trans
    · intro r s
      simpa [UInt16.le_iff_toNat_le] using Nat.le_total _ _
  refine hsorted.imp fun h => ?_
  rwa [decide_eq_true_eq, UInt16.le_iff_toNat_le] at h

lemma sortRegions_pair (r s : Region) :
    sortRegions [r, s] = if r.start ≤ s.start then [r, s] else [s, r] := by
  by_cases h : r.start ≤ s.start <;> simp [sortRegions, List.mergeSort, h]

lemma sortRegions_of_pairwise (h : regions.Pairwise Before) : sortRegions regions = regions := by
  refine List.mergeSort_of_pairwise (h.imp fun {r s} hrs => ?_)
  rw [decide_eq_true_eq, UInt16.le_iff_toNat_le]
  exact Nat.le_trans r.start_le_stop hrs

/-! ## Overlaps -/

lemma overlap?_eq_none_iff : overlap? regions = none ↔ regions.Pairwise Before := by
  rw [← List.isChain_iff_pairwise]
  fun_induction overlap? regions with
  | case1 r s regions h =>
    have hnot : ¬ r.Before s := Nat.not_le_of_lt h
    simp [hnot]
  | case2 r s regions h ih =>
    have hbefore : r.Before s := Nat.le_of_not_lt h
    simp [hbefore, ih]
  | case3 regions h =>
    match regions, h with
    | [], _ => simp
    | [_], _ => simp
    | r :: s :: regions, h => exact absurd rfl (h r s regions)

/-- An overlap is reported of the first two neighbours that meet. -/
lemma exists_of_overlap? {e : MapError} (h : overlap? regions = some e) :
    ∃ before r s after, regions = before ++ r :: s :: after ∧
      (before ++ [r]).Pairwise Before ∧ s.start.toNat < r.stop ∧
      e = .overlap s.start r.name s.name := by
  fun_induction overlap? regions with
  | case1 r s regions hlt =>
    exact ⟨[], r, s, regions, rfl, List.pairwise_singleton _ _, hlt, (Option.some.inj h).symm⟩
  | case2 r s regions hlt ih =>
    obtain ⟨before, r', s', after, heq, hpairwise, hlt', he⟩ := ih h
    refine ⟨r :: before, r', s', after, by rw [heq]; rfl, ?_, hlt', he⟩
    rw [← List.isChain_iff_pairwise] at hpairwise ⊢
    have hbefore : r.Before s := Nat.le_of_not_lt hlt
    cases before with
    | nil =>
      obtain ⟨rfl, -⟩ := List.cons.inj heq
      simp [hbefore]
    | cons t before =>
      obtain ⟨rfl, -⟩ := List.cons.inj heq
      simpa [hbefore] using hpairwise
  | case3 regions hnot => cases h

/-! ## Gaps -/

/-- Regions without a gap between them lie one after the other. -/
lemma pairwise_of_gap (h : gap? n regions = none) :
    (∀ r ∈ regions, n ≤ r.start.toNat) ∧ regions.Pairwise Before := by
  induction regions generalizing n with
  | nil => simp
  | cons r regions ih =>
    unfold gap? at h
    split at h
    · rename_i hstart
      obtain ⟨hbehind, hrest⟩ := ih h
      refine ⟨?_, List.pairwise_cons.mpr ⟨hbehind, hrest⟩⟩
      intro s hs
      rcases List.mem_cons.mp hs with rfl | hs
      · exact Nat.le_of_eq hstart.symm
      · have hle := r.start_le_stop
        have hs := hbehind s hs
        omega
    · cases h

/-- A gap is reported at the first address that is in no region. -/
lemma of_gap {g : Nat} (hpairwise : regions.Pairwise Before) (hproper : ∀ r ∈ regions, r.Proper)
    (hn : n ≤ 0x10000) (hbehind : ∀ r ∈ regions, n ≤ r.start.toNat)
    (h : gap? n regions = some g) :
    n ≤ g ∧ g < 0x10000 ∧ (∀ a : Address, a.toNat = g → coverage regions a = 0) ∧
      ∀ a : Address, n ≤ a.toNat → a.toNat < g → coverage regions a ≠ 0 := by
  induction regions generalizing n with
  | nil =>
    unfold gap? at h
    split at h
    · cases h
    · obtain rfl := Option.some.inj h
      exact ⟨Nat.le_refl n, by omega, fun a _ => rfl, fun a _ _ => by omega⟩
  | cons r regions ih =>
    obtain ⟨hfirst, hrest⟩ := List.pairwise_cons.mp hpairwise
    have hr := hproper r List.mem_cons_self
    have hproper' : ∀ s ∈ regions, s.Proper := fun s hs => hproper s (List.mem_cons_of_mem r hs)
    have hle := r.start_le_stop
    unfold gap? at h
    split at h
    · rename_i hstart
      obtain ⟨hng, hg, hzero, hcovered⟩ := ih hrest hproper' hr.stop_le hfirst h
      refine ⟨by omega, hg, ?_, ?_⟩
      · intro a ha
        have hnot : ¬ r.owns a = true := by
          rw [owns_iff]
          omega
        rw [coverage_cons, hzero a ha, if_neg hnot]
      · intro a hna hag
        rw [coverage_cons]
        by_cases ha : r.owns a = true
        · rw [if_pos ha]
          omega
        · rw [if_neg ha]
          refine hcovered a ?_ hag
          rw [owns_iff] at ha
          omega
    · rename_i hstart
      obtain rfl := Option.some.inj h
      have hlt := hbehind r List.mem_cons_self
      have hroom := r.start.toNat_lt
      refine ⟨Nat.le_refl n, by omega, ?_, fun a _ _ => by omega⟩
      intro a ha
      refine coverage_eq_zero_of_lt fun s hs => ?_
      rcases List.mem_cons.mp hs with rfl | hs
      · omega
      · have hbefore := hfirst s hs
        unfold Before at hbefore
        omega

/-! ## Look-ups -/

/-- An address lies in one region alone. -/
lemma eq_of_owns (h : regions.Pairwise Before) (hi : regions[i]? = some r)
    (hj : regions[j]? = some s) (hr : r.owns a = true) (hs : s.owns a = true) : i = j := by
  obtain ⟨hilt, rfl⟩ := List.getElem?_eq_some_iff.mp hi
  obtain ⟨hjlt, rfl⟩ := List.getElem?_eq_some_iff.mp hj
  have hbefore := List.pairwise_iff_getElem.mp h
  rcases Nat.lt_trichotomy i j with hlt | heq | hlt
  · exact absurd hs ((hbefore i j hilt hjlt hlt).not_owns hr)
  · exact heq
  · exact absurd hr ((hbefore j i hjlt hilt hlt).not_owns hs)

/-- The regions that start at an address or before it stand in front of the others. -/
lemma lt_findIdx_iff (h : regions.Pairwise Before) (hi : i < regions.length) :
    i < regions.findIdx (a < ·.start) ↔ regions[i].start.toNat ≤ a.toNat := by
  constructor
  · intro hlt
    have hnot := List.not_of_lt_findIdx hlt
    rw [decide_eq_false_iff_not, UInt16.lt_iff_toNat_lt] at hnot
    omega
  · intro hle
    refine List.lt_findIdx_of_not hi fun j hj => ?_
    have hstart : regions[j].start.toNat ≤ regions[i].start.toNat := by
      rcases Nat.eq_or_lt_of_le hj with rfl | hlt
      · exact Nat.le_refl _
      · have hbefore := List.pairwise_iff_getElem.mp h j i (by omega) hi hlt
        exact Nat.le_trans (start_le_stop _) hbefore
    rw [decide_eq_true_eq, UInt16.lt_iff_toNat_lt]
    omega

/-- A look-up finds the region that an address lies in. -/
lemma indexOf_eq_some_iff (h : regions.Pairwise Before) :
    indexOf regions a = some i ↔ ∃ r, regions[i]? = some r ∧ r.owns a = true := by
  constructor
  · intro hindex
    unfold indexOf at hindex
    split at hindex
    · cases hindex
    · rename_i j hj
      split at hindex
      · rename_i r hr
        split at hindex
        · rename_i hstop
          obtain rfl := Option.some.inj hindex
          obtain ⟨hlt, rfl⟩ := List.getElem?_eq_some_iff.mp hr
          have hstart := (lt_findIdx_iff h (a := a) hlt).mp (by omega)
          exact ⟨_, hr, owns_iff.mpr ⟨hstart, hstop⟩⟩
        · cases hindex
      · cases hindex
  · rintro ⟨r, hr, ha⟩
    obtain ⟨hlt, rfl⟩ := List.getElem?_eq_some_iff.mp hr
    obtain ⟨hstart, hstop⟩ := owns_iff.mp ha
    have hfirst := (lt_findIdx_iff h hlt).mpr hstart
    -- the next region starts behind the address
    have hlast : regions.findIdx (a < ·.start) ≤ i + 1 := by
      by_contra hmore
      have hlength : regions.findIdx (a < ·.start) ≤ regions.length := List.findIdx_le_length
      have hnext : i + 1 < regions.length := by omega
      have hbefore := List.pairwise_iff_getElem.mp h i (i + 1) hlt hnext (Nat.lt_succ_self i)
      have hnextStart := (lt_findIdx_iff h (a := a) hnext).mp (by omega)
      unfold Before at hbefore
      omega
    have hindex : regions.findIdx (a < ·.start) = i + 1 := by omega
    unfold indexOf
    rw [hindex]
    simp [hr, hstop]

lemma indexOf_eq_none_iff (h : regions.Pairwise Before) :
    indexOf regions a = none ↔ coverage regions a = 0 := by
  rw [coverage_eq_zero_iff]
  constructor
  · intro hnone r hr ha
    obtain ⟨i, hi⟩ := List.mem_iff_getElem?.mp hr
    rw [(indexOf_eq_some_iff h).mpr ⟨r, hi, ha⟩] at hnone
    cases hnone
  · intro hnot
    by_contra hsome
    obtain ⟨i, hi⟩ := Option.ne_none_iff_exists'.mp hsome
    obtain ⟨r, hr, ha⟩ := (indexOf_eq_some_iff h).mp hi
    exact hnot r (List.mem_of_getElem? hr) ha

/-- Looking from the front finds the same region. -/
lemma owner?_eq_some_iff (h : regions.Pairwise Before) :
    owner? regions a = some r ↔ r ∈ regions ∧ r.owns a = true := by
  constructor
  · exact owner?_eq_some
  · rintro ⟨hr, ha⟩
    obtain ⟨i, hi⟩ := List.mem_iff_getElem?.mp hr
    have hsome : (owner? regions a).isSome = true := by
      rw [owner?, List.find?_isSome]
      exact ⟨r, hr, ha⟩
    obtain ⟨s, hs⟩ := Option.isSome_iff_exists.mp hsome
    obtain ⟨hmem, hsa⟩ := owner?_eq_some hs
    obtain ⟨j, hj⟩ := List.mem_iff_getElem?.mp hmem
    obtain rfl := eq_of_owns h hi hj ha hsa
    rw [hs, ← hi, hj]

lemma regionName_eq_some_iff {name : String} (h : m.regions.Pairwise Before) :
    m.regionName a = some name ↔ ∃ r ∈ m.regions, r.owns a = true ∧ r.name = name := by
  unfold regionName
  constructor
  · intro hname
    split at hname
    · rename_i i hi
      obtain ⟨r, hr, ha⟩ := (indexOf_eq_some_iff h).mp hi
      rw [hr] at hname
      exact ⟨r, List.mem_of_getElem? hr, ha, Option.some.inj hname⟩
    · cases hname
  · rintro ⟨r, hr, ha, rfl⟩
    obtain ⟨i, hi⟩ := List.mem_iff_getElem?.mp hr
    rw [(indexOf_eq_some_iff h).mpr ⟨r, hi, ha⟩]
    simp [hi]

end MemoryMap

end Handheld
