/-
# Which regions make a map

Building a map compares neighbours only, after the regions have been sorted.  The main statement,
`MemoryMap.built_of_coverage`, says what comes of it in terms of the number of regions that each
address lies in: when a map is built, which address is reported when it is not, and that a look-up
in the map finds the one region that an address lies in.
-/
import Handheld.Proofs.MemoryMap.Coverage

namespace Handheld

namespace MemoryMap

open Region

variable {regions : List Region} {board : Board} {m : MemoryMap}

/-! ## Building -/

lemma buildSparse_eq_ok_iff :
    buildSparse regions board = .ok m ↔
      (sortRegions regions).Pairwise Before ∧ m = ⟨sortRegions regions, board⟩ := by
  rw [← overlap?_eq_none_iff]
  unfold buildSparse
  dsimp only
  cases overlap? (sortRegions regions) with
  | none => simp [eq_comm]
  | some e => simp

lemma buildSparse_eq_error_iff {e : MapError} :
    buildSparse regions board = .error e ↔ overlap? (sortRegions regions) = some e := by
  unfold buildSparse
  dsimp only
  cases overlap? (sortRegions regions) <;> simp

lemma build_eq_ok_iff :
    build regions board = .ok m ↔ buildSparse regions board = .ok m ∧ gap? 0 m.regions = none := by
  unfold build
  cases buildSparse regions board with
  | error e => simp [bind, Except.bind]
  | ok m' =>
    cases hgap : gap? 0 m'.regions with
    | none =>
      simp only [bind, Except.bind, hgap, Except.ok.injEq]
      constructor
      · rintro rfl
        exact ⟨rfl, hgap⟩
      · exact And.left
    | some g =>
      simp only [bind, Except.bind, hgap, Except.ok.injEq, reduceCtorEq, false_iff]
      rintro ⟨rfl, hnone⟩
      rw [hgap] at hnone
      cases hnone

lemma exists_buildSparse_eq_ok_iff :
    (∃ m, buildSparse regions board = .ok m) ↔ (sortRegions regions).Pairwise Before := by
  simp only [buildSparse_eq_ok_iff, exists_and_left, exists_eq, and_true]

lemma exists_build_eq_ok_iff :
    (∃ m, build regions board = .ok m) ↔
      (sortRegions regions).Pairwise Before ∧ gap? 0 (sortRegions regions) = none := by
  simp only [build_eq_ok_iff, buildSparse_eq_ok_iff]
  constructor
  · rintro ⟨m, ⟨hpairwise, rfl⟩, hgap⟩
    exact ⟨hpairwise, hgap⟩
  · rintro ⟨hpairwise, hgap⟩
    exact ⟨_, ⟨hpairwise, rfl⟩, hgap⟩

lemma build_eq_error_of_buildSparse {e : MapError} (h : buildSparse regions board = .ok m) :
    build regions board = .error e ↔ ∃ g, gap? 0 m.regions = some g ∧ e = .gap g := by
  unfold build
  rw [h]
  cases hgap : gap? 0 m.regions with
  | none => simp [bind, Except.bind, hgap]
  | some g => simp [bind, Except.bind, hgap, eq_comm]

/-- What a map says of the regions it was built from. -/
structure Arranges (regions : List Region) (m : MemoryMap) : Prop where
  perm : m.regions.Perm regions
  ordered : m.regions.Pairwise fun r s => r.start ≤ s.start
  coverage_le_one (a : Address) : coverage regions a ≤ 1
  indexOf_eq_some_iff (a : Address) (i : Nat) :
    indexOf m.regions a = some i ↔
      ∃ r, m.regions[i]? = some r ∧ r.start.toNat ≤ a.toNat ∧ a.toNat < r.stop
  indexOf_eq_none_iff (a : Address) : indexOf m.regions a = none ↔ coverage regions a = 0
  owner?_eq (a : Address) : owner? m.regions a = (indexOf m.regions a).bind (m.regions[·]?)
  regionName_eq_some_iff (a : Address) (name : String) :
    m.regionName a = some name ↔ ∃ r ∈ regions, r.owns a = true ∧ r.name = name

lemma arranges_of_pairwise (hperm : m.regions.Perm regions) (h : m.regions.Pairwise Before) :
    Arranges regions m := by
  refine ⟨hperm, ?_, ?_, ?_, ?_, ?_, ?_⟩
  · refine h.imp fun {r s} hrs => ?_
    exact UInt16.le_iff_toNat_le.mpr (Nat.le_trans r.start_le_stop hrs)
  · intro a
    rw [← coverage_perm hperm]
    exact MemoryMap.coverage_le_one h a
  · intro a i
    simp only [MemoryMap.indexOf_eq_some_iff h, owns_iff]
  · intro a
    rw [MemoryMap.indexOf_eq_none_iff h, coverage_perm hperm]
  · intro a
    cases hindex : indexOf m.regions a with
    | none =>
      have hnone := coverage_eq_zero_iff.mp ((MemoryMap.indexOf_eq_none_iff h).mp hindex)
      exact List.find?_eq_none.mpr hnone
    | some i =>
      obtain ⟨r, hr, ha⟩ := (MemoryMap.indexOf_eq_some_iff h).mp hindex
      rw [(owner?_eq_some_iff h).mpr ⟨List.mem_of_getElem? hr, ha⟩]
      exact hr.symm
  · intro a name
    simp only [MemoryMap.regionName_eq_some_iff h, hperm.mem_iff]

lemma arranges_of_buildSparse (h : buildSparse regions board = .ok m) :
    m.board = board ∧ Arranges regions m := by
  obtain ⟨hpairwise, rfl⟩ := buildSparse_eq_ok_iff.mp h
  exact ⟨rfl, arranges_of_pairwise (sortRegions_perm regions) hpairwise⟩

/-- If no map is built, the least address that lies in two regions is reported. -/
lemma of_overlap {e : MapError} (hproper : ∀ r ∈ regions, r.Proper)
    (h : buildSparse regions board = .error e) :
    ∃ a, (∃ r ∈ regions, ∃ s ∈ regions, r.owns a = true ∧ s.owns a = true ∧
        e = .overlap a r.name s.name) ∧
      2 ≤ coverage regions a ∧ ∀ b, 2 ≤ coverage regions b → a ≤ b := by
  have hperm := sortRegions_perm regions
  obtain ⟨before, r, s, after, heq, hbefore, hlt, he⟩ :=
    exists_of_overlap? (buildSparse_eq_error_iff.mp h)
  have hsorted := pairwise_sortRegions regions
  rw [heq, List.pairwise_append] at hsorted
  obtain ⟨hrs, hsafter⟩ := List.pairwise_cons.mp hsorted.2.1
  have hr : r ∈ regions := hperm.mem_iff.mp (by rw [heq]; simp)
  have hs : s ∈ regions := hperm.mem_iff.mp (by rw [heq]; simp)
  have hra : r.owns s.start = true := owns_iff.mpr ⟨hrs s List.mem_cons_self, hlt⟩
  have hsa : s.owns s.start = true := (hproper s hs).owns_start
  have hcoverage (b : Address) :
      coverage regions b = coverage (before ++ [r]) b + coverage (s :: after) b := by
    rw [← coverage_perm hperm, heq, ← coverage_append]
    simp
  refine ⟨s.start, ⟨r, hr, s, hs, hra, hsa, he⟩, ?_, ?_⟩
  · rw [hcoverage, coverage_append, coverage_cons, coverage_cons, if_pos hra, if_pos hsa]
    omega
  · intro b hb
    by_contra hnot
    rw [UInt16.le_iff_toNat_le] at hnot
    -- what starts at the second region or behind it starts behind the address
    have hzero : coverage (s :: after) b = 0 := by
      refine coverage_eq_zero_of_lt fun t ht => ?_
      rcases List.mem_cons.mp ht with rfl | ht
      · omega
      · have hst := (List.pairwise_cons.mp hsafter).1 t ht
        omega
    have hone := MemoryMap.coverage_le_one hbefore b
    rw [hcoverage, hzero] at hb
    omega

lemma overlap_iff_of_proper (hproper : ∀ r ∈ regions, r.Proper) :
    (∃ e, buildSparse regions board = .error e) ↔ ∃ a, 2 ≤ coverage regions a := by
  constructor
  · rintro ⟨e, he⟩
    obtain ⟨a, -, ha, -⟩ := of_overlap hproper he
    exact ⟨a, ha⟩
  · rintro ⟨a, ha⟩
    cases h : buildSparse regions board with
    | error e => exact ⟨e, rfl⟩
    | ok m =>
      obtain ⟨hpairwise, -⟩ := buildSparse_eq_ok_iff.mp h
      have hone := MemoryMap.coverage_le_one hpairwise a
      rw [coverage_perm (sortRegions_perm regions)] at hone
      omega

/-- If addresses are left over, the least of them is reported. -/
lemma of_gap_of_build {e : MapError} (hproper : ∀ r ∈ regions, r.Proper)
    (hm : buildSparse regions board = .ok m) (h : build regions board = .error e) :
    ∃ a : Address, e = .gap a.toNat ∧ coverage regions a = 0 ∧
      ∀ b, coverage regions b = 0 → a ≤ b := by
  obtain ⟨hpairwise, rfl⟩ := buildSparse_eq_ok_iff.mp hm
  obtain ⟨g, hgap, he⟩ := (build_eq_error_of_buildSparse hm).mp h
  have hperm := sortRegions_perm regions
  have hproper' : ∀ r ∈ sortRegions regions, r.Proper :=
    fun r hr => hproper r (hperm.mem_iff.mp hr)
  obtain ⟨-, hg, hzero, hcovered⟩ :=
    of_gap hpairwise hproper' (Nat.zero_le _) (fun r _ => Nat.zero_le _) hgap
  have ha : (UInt16.ofNat g).toNat = g := UInt16.toNat_ofNat_of_lt' hg
  refine ⟨UInt16.ofNat g, by rw [ha]; exact he, ?_, ?_⟩
  · rw [← coverage_perm hperm]
    exact hzero _ ha
  · intro b hb
    by_contra hnot
    rw [UInt16.le_iff_toNat_le, ha] at hnot
    rw [← coverage_perm hperm] at hb
    exact hcovered b (Nat.zero_le _) (by omega) hb

/-- A map without gaps has a region for every address. -/
lemma coverage_eq_one_of_build (h : build regions board = .ok m) (a : Address) :
    coverage regions a = 1 := by
  obtain ⟨hm, hgap⟩ := build_eq_ok_iff.mp h
  obtain ⟨hpairwise, rfl⟩ := buildSparse_eq_ok_iff.mp hm
  have hone := MemoryMap.coverage_le_one hpairwise a
  obtain ⟨r, hr⟩ := exists_owner_of_gap hgap (Nat.zero_le a.toNat)
  have hpos : 0 < coverage (sortRegions regions) a := coverage_pos_iff.mpr ⟨r, owner?_eq_some hr⟩
  rw [← coverage_perm (sortRegions_perm regions)]
  exact Nat.le_antisymm hone hpos

lemma gap_iff_of_proper (hproper : ∀ r ∈ regions, r.Proper)
    (hm : buildSparse regions board = .ok m) :
    (∃ e, build regions board = .error e) ↔ ∃ a, coverage regions a = 0 := by
  constructor
  · rintro ⟨e, he⟩
    obtain ⟨a, -, ha, -⟩ := of_gap_of_build hproper hm he
    exact ⟨a, ha⟩
  · rintro ⟨a, ha⟩
    cases h : build regions board with
    | error e => exact ⟨e, rfl⟩
    | ok m' =>
      have hone := coverage_eq_one_of_build h a
      omega

lemma exists_buildSparse_iff (hproper : ∀ r ∈ regions, r.Proper) :
    (∃ m, buildSparse regions board = .ok m) ↔ ∀ a, coverage regions a ≤ 1 := by
  have hoverlap : (∃ e, buildSparse regions board = .error e) ↔ _ := overlap_iff_of_proper hproper
  constructor
  · rintro ⟨m, hm⟩
    exact (arranges_of_buildSparse hm).2.coverage_le_one
  · intro hone
    cases h : buildSparse regions board with
    | ok m => exact ⟨m, rfl⟩
    | error e =>
      obtain ⟨a, ha⟩ := hoverlap.mp ⟨e, h⟩
      have hle := hone a
      omega

lemma exists_build_iff (hproper : ∀ r ∈ regions, r.Proper) :
    (∃ m, build regions board = .ok m) ↔ ∀ a, coverage regions a = 1 := by
  constructor
  · rintro ⟨m, hm⟩
    exact coverage_eq_one_of_build hm
  · intro hone
    have hsparse : ∃ m, buildSparse regions board = .ok m :=
      (exists_buildSparse_iff hproper).mpr fun a => (hone a).le
    obtain ⟨m, hm⟩ := hsparse
    cases h : build regions board with
    | ok m' => exact ⟨m', rfl⟩
    | error e =>
      obtain ⟨a, ha⟩ := (gap_iff_of_proper hproper hm).mp ⟨e, h⟩
      have hzero := hone a
      omega

/-- **Which regions make a map.**  A map that has been built lists its regions in order, none of its
addresses lies in two of them, and a look-up finds the one that it lies in; a complete map has one
for every address.  Regions that are not empty and end with the address space fail to make a map
only for an address that lies in two of them or, if the map is to be complete, in none, and the
least of these addresses is reported.  So the order in which they are given does not matter. -/
theorem built_of_coverage (regions : List Region) (board : Board) :
    (∀ m, buildSparse regions board = .ok m → m.board = board ∧ Arranges regions m) ∧
      (∀ m, build regions board = .ok m →
        buildSparse regions board = .ok m ∧ ∀ a, coverage regions a = 1) ∧
      ((∀ r ∈ regions, r.Proper) →
        ((∃ e, buildSparse regions board = .error e) ↔ ∃ a, 2 ≤ coverage regions a) ∧
          (∀ e, buildSparse regions board = .error e →
            ∃ a, (∃ r ∈ regions, ∃ s ∈ regions, r.owns a = true ∧ s.owns a = true ∧
                e = .overlap a r.name s.name) ∧
              2 ≤ coverage regions a ∧ ∀ b, 2 ≤ coverage regions b → a ≤ b) ∧
          (∀ m, buildSparse regions board = .ok m →
            ((∃ e, build regions board = .error e) ↔ ∃ a, coverage regions a = 0) ∧
              ∀ e, build regions board = .error e →
                ∃ a : Address, e = .gap a.toNat ∧ coverage regions a = 0 ∧
                  ∀ b, coverage regions b = 0 → a ≤ b) ∧
          ∀ regions' : List Region, regions'.Perm regions →
            ((∃ m, buildSparse regions' board = .ok m) ↔
                ∃ m, buildSparse regions board = .ok m) ∧
              ((∃ m, build regions' board = .ok m) ↔ ∃ m, build regions board = .ok m)) := by
  refine ⟨fun m hm => arranges_of_buildSparse hm,
    fun m hm => ⟨(build_eq_ok_iff.mp hm).1, coverage_eq_one_of_build hm⟩, fun hproper => ?_⟩
  refine ⟨overlap_iff_of_proper hproper, fun e he => of_overlap hproper he,
    fun m hm => ⟨gap_iff_of_proper hproper hm, fun e he => of_gap_of_build hproper hm he⟩, ?_⟩
  intro regions' hperm
  have hproper' : ∀ r ∈ regions', r.Proper := fun r hr => hproper r (hperm.mem_iff.mp hr)
  rw [exists_buildSparse_iff hproper', exists_buildSparse_iff hproper, exists_build_iff hproper',
    exists_build_iff hproper]
  simp only [coverage_perm hperm, and_self]

/-- Two stretches of the address space, the second first, with room between them. -/
def apartRegions : List Region :=
  [.backed (.openBus "high" 0x9000 0x7000), .backed (.openBus "low" 0x0000 0x8000)]

/-- The room between two stretches is reported at its first address. -/
theorem apart_built_of_coverage : (∀ r ∈ apartRegions, r.Proper) ∧
    build apartRegions {} = .error (.gap 0x8000) ∧
      ∀ b, coverage apartRegions b = 0 → (0x8000 : Address) ≤ b := by
  have hproper : ∀ r ∈ apartRegions, r.Proper := by
    intro r hr
    simp only [apartRegions, List.mem_cons, List.not_mem_nil, or_false] at hr
    rcases hr with rfl | rfl
    · exact ⟨by decide, by decide⟩
    · exact ⟨by decide, by decide⟩
  have hsort : sortRegions apartRegions =
      [.backed (.openBus "low" 0x0000 0x8000), .backed (.openBus "high" 0x9000 0x7000)] := by
    rw [apartRegions, sortRegions_pair, if_neg (by decide)]
  have hsparse : buildSparse apartRegions {} = .ok ⟨sortRegions apartRegions, {}⟩ := by
    refine buildSparse_eq_ok_iff.mpr ⟨?_, rfl⟩
    rw [hsort]
    exact List.pairwise_pair.mpr (by decide : 0x8000 ≤ 0x9000)
  have hbuild : build apartRegions {} = .error (.gap 0x8000) := by
    refine (build_eq_error_of_buildSparse hsparse).mpr ⟨0x8000, ?_, rfl⟩
    rw [hsort]
    simp [gap?, Region.start, Region.stop, Region.length, Section.start, Section.length]
  obtain ⟨-, -, hreport⟩ := built_of_coverage apartRegions {}
  obtain ⟨-, -, hgap, -⟩ := hreport hproper
  obtain ⟨a, ha, -, hleast⟩ := (hgap _ hsparse).2 _ hbuild
  obtain rfl : a = 0x8000 := UInt16.toNat.inj (MapError.gap.inj ha).symm
  exact ⟨hproper, hbuild, hleast⟩

/-- Of two regions that start together, an empty one may stand in front, but not behind. -/
example : overlap? [.backed (.openBus "" 0 0), .backed (.openBus "" 0 1)] = none ∧
    overlap? [.backed (.openBus "" 0 1), .backed (.openBus "" 0 0)] = some (.overlap 0 "" "") := by
  decide

end MemoryMap

end Handheld
