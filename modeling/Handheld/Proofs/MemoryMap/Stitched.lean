/-
# Stitched sections in a map

A section that is stitched together from two takes up the addresses of both, and at each of them
acts as the one that the address belongs to.  So it may stand for the two in a map: the main
statement, `MemoryMap.answers_stitched`, says that a map is built of regions with the one if and
only if it is of regions with the two, and that after any writes it answers alike, apart from the
name of the section in an error.
-/
import Mathlib.Data.List.Pairwise
import Handheld.Proofs.MemoryMap.Build
import Handheld.Proofs.MemoryMap.Cells

namespace Handheld

/-! ## Two sections and one in their place -/

/-- An error with another name in the place of the section's. -/
def MemoryError.renamed (n : String) : MemoryError → MemoryError
  | notMapped a => .notMapped a
  | violation a _ access => .violation a n access

namespace Section

variable {n : String} {s low high : Section} {board : Board} {a : Address} {v : UInt8}

/-- The answer to an access, with the name of a section in an error at one of its addresses. -/
def answer {α : Type} (s : Section) (a : Address) (r : Except MemoryError α) :
    Except MemoryError α :=
  if s.accepts a then r.mapError (·.renamed s.name) else r

/-- Whether a section takes up the addresses of two others, the second of which starts where the
first ends. -/
structure Spans (s low high : Section) : Prop where
  start_eq : s.start = low.start
  next : low.stop = high.start.toNat
  stop_eq : s.stop = high.stop

lemma spans_stitched (n : String) (h : low.stop = high.start.toNat) :
    Spans (stitched n low high) low high := by
  refine ⟨rfl, h, ?_⟩
  change low.start.toNat + (low.length + high.length) = high.start.toNat + high.length
  rw [← h, stop, Nat.add_assoc]

lemma of_stitch (h : stitch n low high = .ok s) :
    s = stitched n low high ∧ low.stop = high.start.toNat := by
  unfold stitch at h
  split at h
  · cases h
  · rename_i hnext
    split at h
    · cases h
    · exact ⟨(Except.ok.inj h).symm, not_not.mp (not_or.mp hnext).1⟩

namespace Spans

lemma accepts_iff (h : Spans s low high) :
    s.accepts a = true ↔ low.accepts a = true ∨ high.accepts a = true := by
  have hlow : low.start.toNat ≤ low.stop := Nat.le_add_right _ _
  have hhigh : high.start.toNat ≤ high.stop := Nat.le_add_right _ _
  have hnext := h.next
  rw [Section.accepts_iff, Section.accepts_iff, Section.accepts_iff, h.start_eq, h.stop_eq]
  omega

/-- A write moves neither of the sections. -/
lemma write_low (h : Spans s low high) (board : Board) (a : Address) (v : UInt8) :
    Spans s (low.write board a v).2 high := by
  refine ⟨?_, ?_, h.stop_eq⟩
  · rw [start_write, h.start_eq]
  · rw [stop_write, h.next]

lemma write_high (h : Spans s low high) (board : Board) (a : Address) (v : UInt8) :
    Spans s low (high.write board a v).2 := by
  refine ⟨h.start_eq, ?_, ?_⟩
  · rw [start_write, h.next]
  · rw [stop_write, h.stop_eq]

end Spans

/-- The part of a stitched section that an address belongs to. -/
def part (low high : Section) (a : Address) : Section :=
  if low.accepts a then low else high

lemma accessAt_stitched : (stitched n low high).accessAt a = (part low high a).accessAt a := by
  rw [part, accessAt]
  exact (apply_ite (accessAt a) _ _ _).symm

lemma read_stitched : (stitched n low high).read board a = (part low high a).read board a := by
  rw [part, Section.read]
  exact (apply_ite (Section.read board a) _ _ _).symm

end Section

namespace MemoryMap

open Region

variable {n : String} {s low high : Section} {rest : List Section}
  {regions regions' joined : List Region} {m m' : MemoryMap} {board : Board} {r t : Region}
  {a : Address} {v : UInt8}

/-! ## Regions in any order -/

/-- Whether one of two regions ends before the other one starts, or where it starts. -/
def Apart (r t : Region) : Prop :=
  r.Before t ∨ t.Before r

instance : Std.Symm Apart :=
  ⟨fun _ _ h => h.symm⟩

lemma perm_pairwise_apart (h : regions.Perm regions') :
    regions.Pairwise Apart ↔ regions'.Pairwise Apart :=
  h.pairwise_iff fun {_ _} h => h.symm

lemma length_pos_of_perm {sections : List Section} (hpos : ∀ t ∈ sections, 0 < t.length)
    (h : regions.Perm (sections.map backed)) : ∀ r ∈ regions, 0 < r.length := by
  intro r hr
  obtain ⟨t, ht, rfl⟩ := List.mem_map.mp (h.mem_iff.mp hr)
  exact hpos t ht

/-- Regions that are apart are sorted in one way, if none is empty. -/
lemma sortRegions_eq_of_perm (hpos : ∀ r ∈ regions', 0 < r.length)
    (hpairwise : regions'.Pairwise Before) (hperm : regions'.Perm regions) :
    sortRegions regions = regions' := by
  have hstart (r t : Region) (h : r.Before t) : r.start.toNat ≤ t.start.toNat :=
    Nat.le_trans r.start_le_stop h
  have hapart : regions'.Pairwise Apart := hpairwise.imp .inl
  have hsorted := (sortRegions_perm regions).trans hperm.symm
  refine hsorted.eq_of_pairwise (fun r t hr ht hle hge => ?_) (pairwise_sortRegions regions)
    (hpairwise.imp (hstart _ _))
  by_contra hne
  -- of two regions that start together, one would have to end before it starts
  have hrpos := hpos r (hsorted.mem_iff.mp hr)
  have htpos := hpos t ht
  rcases hapart.forall (hsorted.mem_iff.mp hr) ht hne with h | h
  · unfold Before stop at h
    omega
  · unfold Before stop at h
    omega

/-- Whether sorted regions overlap does not depend on the order in which they are given. -/
lemma pairwise_sortRegions_iff (hpos : ∀ r ∈ regions, 0 < r.length) :
    (sortRegions regions).Pairwise Before ↔ regions.Pairwise Apart := by
  have hperm := sortRegions_perm regions
  rw [← perm_pairwise_apart hperm]
  constructor
  · exact List.Pairwise.imp .inl
  · intro hapart
    refine ((pairwise_sortRegions regions).and hapart).imp_of_mem ?_
    rintro r t hr ht ⟨hle, h | h⟩
    · exact h
    · have htpos := hpos t (hperm.mem_iff.mp ht)
      unfold Before stop at h
      omega

/-- What is apart from a section is apart from what it is stitched together from. -/
lemma apart_spans (h : s.Spans low high) (hpos : 0 < r.length) :
    Apart (.backed s) r ↔ Apart (.backed low) r ∧ Apart (.backed high) r := by
  have hlow : low.start.toNat ≤ low.stop := Nat.le_add_right _ _
  have hhigh : high.start.toNat ≤ high.stop := Nat.le_add_right _ _
  have hr : r.start.toNat < r.stop := Nat.lt_add_of_pos_right hpos
  have hnext := h.next
  change s.stop ≤ r.start.toNat ∨ r.stop ≤ s.start.toNat ↔
    (low.stop ≤ r.start.toNat ∨ r.stop ≤ low.start.toNat) ∧
      (high.stop ≤ r.start.toNat ∨ r.stop ≤ high.start.toNat)
  rw [h.start_eq, h.stop_eq]
  omega

lemma pairwise_apart_spans (h : s.Spans low high) (hpos : ∀ t ∈ rest, 0 < t.length) :
    ((low :: high :: rest).map backed).Pairwise Apart ↔
      ((s :: rest).map backed).Pairwise Apart := by
  have hnext : Apart (.backed low) (.backed high) := .inl h.next.le
  have hrest : (∀ t ∈ rest, Apart (.backed s) (.backed t)) ↔
      (∀ t ∈ rest, Apart (.backed low) (.backed t)) ∧
        ∀ t ∈ rest, Apart (.backed high) (.backed t) := by
    rw [← forall₂_and]
    exact forall₂_congr fun t ht => apart_spans h (hpos t ht)
  simp only [List.map_cons, List.pairwise_cons, List.forall_mem_cons, List.forall_mem_map, hrest,
    hnext, true_and, and_assoc]

/-! ## Regions with a stitched section -/

/-- Whether regions differ from others in having a section with the name and in the place of a
given one where those have two, of which it is stitched together. -/
inductive Joins (s : Section) : List Region → List Region → Prop
  | here {low high : Section} (h : s.Spans low high) (regions : List Region) :
      Joins s (.backed low :: .backed high :: regions)
        (.backed (.stitched s.name low high) :: regions)
  | there {t : Section} {regions regions' : List Region}
      (ht : (Region.backed t).Before (.backed s)) (h : Joins s regions regions') :
      Joins s (.backed t :: regions) (.backed t :: regions')

namespace Joins

variable (h : Joins s regions regions')
include h

lemma gap? (n : Nat) : gap? n regions' = gap? n regions := by
  induction h generalizing n with
  | @here low high h regions =>
    have hspans := Section.spans_stitched s.name h.next
    have hnext : (Region.backed high).start.toNat = (Region.backed low).stop := h.next.symm
    have hstop : (Region.backed (.stitched s.name low high)).stop = (Region.backed high).stop :=
      hspans.stop_eq
    unfold MemoryMap.gap?
    rw [MemoryMap.gap?, if_pos hnext, hstop]
    rfl
  | there ht h ih =>
    unfold MemoryMap.gap?
    rw [ih]

/-- Outside of the section the same region owns an address. -/
lemma owner?_of_not_accepts (ha : ¬ s.accepts a = true) : owner? regions' a = owner? regions a := by
  induction h with
  | @here low high h regions =>
    have hparts := not_or.mp (mt h.accepts_iff.mpr ha)
    have hstitched : ¬ (Region.backed (.stitched s.name low high)).owns a = true :=
      mt (Section.spans_stitched s.name h.next).accepts_iff.mp (not_or.mpr hparts)
    rw [owner?_cons_of_not_owns hstitched, owner?_cons_of_not_owns (r := .backed low) hparts.1,
      owner?_cons_of_not_owns (r := .backed high) hparts.2]
  | @there t regions regions' ht h ih =>
    by_cases howns : (Region.backed t).owns a = true
    · rw [owner?_cons_of_owns howns, owner?_cons_of_owns howns]
    · rw [owner?_cons_of_not_owns howns, owner?_cons_of_not_owns howns, ih]

/-- An address of the section is owned by the part that it belongs to. -/
lemma owner?_of_accepts (ha : s.accepts a = true) :
    ∃ low high, owner? regions' a = some (.backed (.stitched s.name low high)) ∧
      owner? regions a = some (.backed (Section.part low high a)) := by
  induction h with
  | @here low high h regions =>
    have hparts := h.accepts_iff.mp ha
    have hstitched := (Section.spans_stitched s.name h.next).accepts_iff.mpr hparts
    refine ⟨low, high, owner?_cons_of_owns hstitched, ?_⟩
    unfold Section.part
    by_cases hlow : low.accepts a = true
    · rw [if_pos hlow]
      exact owner?_cons_of_owns hlow
    · rw [if_neg hlow, owner?_cons_of_not_owns (r := .backed low) hlow]
      exact owner?_cons_of_owns (hparts.resolve_left hlow)
  | @there t regions regions' ht h ih =>
    have hnot : ¬ (Region.backed t).owns a = true := fun howns => ht.not_owns howns ha
    obtain ⟨low, high, howner', howner⟩ := ih
    exact ⟨low, high, (owner?_cons_of_not_owns hnot).trans howner',
      (owner?_cons_of_not_owns hnot).trans howner⟩

/-- A write does the same to the board, and leaves regions that differ in the same way. -/
lemma put (board : Board) (a : Address) (v : UInt8) :
    (put board a v regions').1 = (put board a v regions).1 ∧
      Joins s (MemoryMap.put board a v regions).2 (MemoryMap.put board a v regions').2 := by
  induction h with
  | @here low high h regions =>
    have hstitched : (Region.backed (.stitched s.name low high)).owns a = true ↔
        (Region.backed low).owns a = true ∨ (Region.backed high).owns a = true :=
      (Section.spans_stitched s.name h.next).accepts_iff
    by_cases hlow : (Region.backed low).owns a = true
    · rw [put_cons_of_owns hlow, put_cons_of_owns (hstitched.mpr (.inl hlow)),
        Section.write_stitched_of_accepts hlow]
      exact ⟨rfl, .here (h.write_low board a v) regions⟩
    · rw [put_cons_of_not_owns hlow]
      by_cases hhigh : (Region.backed high).owns a = true
      · rw [put_cons_of_owns hhigh, put_cons_of_owns (hstitched.mpr (.inr hhigh)),
          Section.write_stitched_of_not_accepts hlow]
        exact ⟨rfl, .here (h.write_high board a v) regions⟩
      · rw [put_cons_of_not_owns hhigh,
          put_cons_of_not_owns (mt hstitched.mp (not_or.mpr ⟨hlow, hhigh⟩))]
        exact ⟨rfl, .here h _⟩
  | @there t regions regions' ht h ih =>
    by_cases howns : (Region.backed t).owns a = true
    · rw [put_cons_of_owns howns, put_cons_of_owns howns]
      refine ⟨rfl, .there ?_ h⟩
      exact (t.stop_write board a v).le.trans ht
    · rw [put_cons_of_not_owns howns, put_cons_of_not_owns howns]
      exact ⟨ih.1, .there ht ih.2⟩

end Joins

/-- Sections that end before the stitched one may stand in front. -/
lemma Joins.append (h : Joins s regions regions') {before : List Region}
    (hbefore : ∀ r ∈ before, ∃ t, r = .backed t ∧ r.Before (.backed s)) :
    Joins s (before ++ regions) (before ++ regions') := by
  induction before with
  | nil => exact h
  | cons r before ih =>
    obtain ⟨⟨t, rfl, ht⟩, hrest⟩ := List.forall_mem_cons.mp hbefore
    exact .there ht (ih hrest)

section Sorted

variable (h : s.Spans low high) (hpos : ∀ t ∈ low :: high :: rest, 0 < t.length)
  (hregions : regions.Perm ((low :: high :: rest).map backed))
  (hjoined : joined.Perm ((s :: rest).map backed))
include h hpos hregions hjoined

/-- Regions with the stitched section are apart if and only if those with its parts are. -/
lemma pairwise_sortRegions_joined_iff :
    (sortRegions joined).Pairwise Before ↔ (sortRegions regions).Pairwise Before := by
  obtain ⟨hlow, hhigh, hrest⟩ : 0 < low.length ∧ 0 < high.length ∧ ∀ t ∈ rest, 0 < t.length := by
    simpa only [List.forall_mem_cons] using hpos
  have hs : 0 < s.length := by
    have hstop := h.stop_eq
    have hnext := h.next
    have hstart := h.start_eq
    unfold Section.stop at hstop hnext
    rw [hstart] at hstop
    omega
  have hspos : ∀ t ∈ s :: rest, 0 < t.length := List.forall_mem_cons.mpr ⟨hs, hrest⟩
  rw [pairwise_sortRegions_iff (length_pos_of_perm hspos hjoined),
    pairwise_sortRegions_iff (length_pos_of_perm hpos hregions), perm_pairwise_apart hjoined,
    perm_pairwise_apart hregions, pairwise_apart_spans h hrest]

/-- Sorted regions with the stitched section differ from those with its parts in nothing but
that. -/
lemma joins_sortRegions (hname : s = .stitched s.name low high)
    (hpairwise : (sortRegions joined).Pairwise Before) :
    Joins s (sortRegions regions) (sortRegions joined) := by
  have hperm := (sortRegions_perm joined).trans hjoined
  have hmem : Region.backed s ∈ sortRegions joined := hperm.mem_iff.mpr (by simp)
  obtain ⟨before, after, heq⟩ := List.append_of_mem hmem
  rw [heq] at hperm hpairwise
  obtain ⟨hbefore, hs, hacross⟩ := List.pairwise_append.mp hpairwise
  obtain ⟨hafter, hsorted⟩ := List.pairwise_cons.mp hs
  have hrest : (before ++ after).Perm (rest.map backed) :=
    (List.perm_middle.symm.trans hperm).cons_inv
  have hparts : (before ++ .backed low :: .backed high :: after).Perm regions :=
    (List.perm_middle.trans ((List.perm_middle.trans (hrest.cons _)).cons _)).trans hregions.symm
  have hnext : (Region.backed low).Before (.backed high) := h.next.le
  have hlow (r : Region) (hr : r ∈ before) : r.Before (.backed low) :=
    (hacross r hr _ List.mem_cons_self).trans_eq (congrArg UInt16.toNat h.start_eq)
  have hhigh (t : Region) (ht : t ∈ after) : (Region.backed high).Before t :=
    h.stop_eq.symm.trans_le (hafter t ht)
  have hsort : sortRegions regions = before ++ .backed low :: .backed high :: after := by
    refine sortRegions_eq_of_perm (length_pos_of_perm hpos (hparts.trans hregions)) ?_ hparts
    simp only [List.pairwise_append, List.pairwise_cons, List.forall_mem_cons]
    exact ⟨hbefore, ⟨⟨hnext, fun t ht => hnext.trans (hhigh t ht)⟩, hhigh, hsorted⟩,
      fun r hr => ⟨hlow r hr, (hlow r hr).trans hnext,
        fun t ht => hacross r hr t (List.mem_cons_of_mem _ ht)⟩⟩
  have hhere := Joins.here h after
  rw [← hname] at hhere
  rw [hsort, heq]
  refine hhere.append fun r hr => ?_
  obtain ⟨t, -, rfl⟩ := List.mem_map.mp (hrest.mem_iff.mp (List.mem_append_left after hr))
  exact ⟨t, rfl, hacross _ hr _ List.mem_cons_self⟩

end Sorted

/-! ## Maps with a stitched section -/

variable (s) in
/-- Whether a map is another one with a stitched section in the place of its parts. -/
structure Stands (m m' : MemoryMap) : Prop where
  board_eq : m'.board = m.board
  joins : Joins s m.regions m'.regions
  noRemap (r : Remap) : .remap r ∉ m.regions

namespace Stands

variable (h : Stands s m m')
include h

lemma resolve_of_not_accepts (ha : ¬ s.accepts a = true) : m'.resolve a = m.resolve a := by
  have howner := h.joins.owner?_of_not_accepts ha
  cases hr : owner? m.regions a with
  | none =>
    rw [hr] at howner
    rw [resolve, follow, howner, resolve, follow, hr]
  | some r =>
    cases r with
    | backed t => rw [resolve_of_owner (howner.trans hr), resolve_of_owner hr]
    | remap r => exact absurd (owner?_eq_some hr).1 (h.noRemap r)

lemma stored (a : Address) (v : UInt8) : Stands s (m.stored a v) (m'.stored a v) := by
  obtain ⟨hboard, hjoins⟩ := h.joins.put m.board a v
  unfold MemoryMap.stored
  rw [h.board_eq]
  refine ⟨hboard, hjoins, fun r hr => ?_⟩
  have hmem := List.mem_map_of_mem (f := Region.outline) hr
  rw [outline_put] at hmem
  obtain ⟨r', hr', heq⟩ := List.mem_map.mp hmem
  cases r' with
  | backed t => cases heq
  | remap r' => exact h.noRemap r' hr'

lemma read (a : Address) : Memory.read m' a = s.answer a (Memory.read m a) := by
  unfold Section.answer
  by_cases ha : s.accepts a = true
  · obtain ⟨low, high, howner', howner⟩ := h.joins.owner?_of_accepts ha
    rw [if_pos ha, read_of_resolve (resolve_of_owner howner'),
      read_of_resolve (resolve_of_owner howner), Section.accessAt_stitched, Section.read_stitched,
      h.board_eq]
    split
    · rfl
    · rfl
  · have hresolve := h.resolve_of_not_accepts ha
    rw [if_neg ha]
    cases hm : m.resolve a with
    | none => rw [read_of_resolve_none hm, read_of_resolve_none (hresolve.trans hm)]
    | some target =>
      obtain ⟨t, b⟩ := target
      rw [read_of_resolve hm, read_of_resolve (hresolve.trans hm), h.board_eq]

lemma write (a : Address) (v : UInt8) :
    (Memory.write m' a v).1 = s.answer a (Memory.write m a v).1 ∧
      Stands s (Memory.write m a v).2 (Memory.write m' a v).2 := by
  unfold Section.answer
  by_cases ha : s.accepts a = true
  · obtain ⟨low, high, howner', howner⟩ := h.joins.owner?_of_accepts ha
    have hresolve' := resolve_of_owner howner'
    have hresolve := resolve_of_owner howner
    have haccess : (Section.stitched s.name low high).accessAt a = _ := Section.accessAt_stitched
    rw [if_pos ha]
    by_cases hwritable : ((Section.part low high a).accessAt a).writable = true
    · rw [write_of_resolve hresolve hwritable, write_of_resolve hresolve' (haccess ▸ hwritable)]
      exact ⟨rfl, h.stored a v⟩
    · rw [write_of_not_writable hresolve hwritable,
        write_of_not_writable hresolve' (haccess ▸ hwritable)]
      exact ⟨rfl, h⟩
  · have hresolve := h.resolve_of_not_accepts ha
    rw [if_neg ha]
    cases hm : m.resolve a with
    | none =>
      rw [write_of_resolve_none hm, write_of_resolve_none (hresolve.trans hm)]
      exact ⟨rfl, h⟩
    | some target =>
      obtain ⟨t, b⟩ := target
      by_cases hwritable : (t.accessAt b).writable = true
      · rw [write_of_resolve hm hwritable, write_of_resolve (hresolve.trans hm) hwritable]
        exact ⟨rfl, h.stored b v⟩
      · rw [write_of_not_writable hm hwritable,
          write_of_not_writable (hresolve.trans hm) hwritable]
        exact ⟨rfl, h⟩

lemma after (ws : List (Address × UInt8)) : Stands s (m.after ws) (m'.after ws) := by
  induction ws with
  | nil => exact h
  | cons w earlier ih => exact (ih.write w.1 w.2).2

end Stands

/-- **A stitched section may stand in a map for the two that it is stitched together from.**  Given
with other sections, none of them empty and in any order, they make a map if and only if the two
would; after any writes the map answers every access as the map with the two does, and an error at
an address of the stitched section gives its name. -/
theorem answers_stitched (hstitch : Section.stitch n low high = .ok s)
    (hpos : ∀ t ∈ low :: high :: rest, 0 < t.length)
    (hregions : regions.Perm ((low :: high :: rest).map backed))
    (hjoined : joined.Perm ((s :: rest).map backed)) :
    ∀ make ∈ [(build · board), (buildSparse · board)],
      ((∃ m', make joined = .ok m') ↔ ∃ m, make regions = .ok m) ∧
        ∀ m m', make regions = .ok m → make joined = .ok m' →
          ∀ ws a, Memory.read (m'.after ws) a = s.answer a (Memory.read (m.after ws) a) ∧
            ∀ v, (Memory.write (m'.after ws) a v).1 =
              s.answer a (Memory.write (m.after ws) a v).1 := by
  obtain ⟨rfl, hnext⟩ := Section.of_stitch hstitch
  have hspans := Section.spans_stitched n hnext
  have hpairwise := pairwise_sortRegions_joined_iff hspans hpos hregions hjoined
  have hjoins := joins_sortRegions hspans hpos hregions hjoined rfl
  have hstands (m m' : MemoryMap) (hm : buildSparse regions board = .ok m)
      (hm' : buildSparse joined board = .ok m') : Stands (.stitched n low high) m m' := by
    obtain ⟨-, rfl⟩ := buildSparse_eq_ok_iff.mp hm
    obtain ⟨hsorted, rfl⟩ := buildSparse_eq_ok_iff.mp hm'
    refine ⟨rfl, hjoins hsorted, fun r hr => ?_⟩
    have hmem := hregions.mem_iff.mp ((sortRegions_perm regions).mem_iff.mp hr)
    obtain ⟨t, -, ht⟩ := List.mem_map.mp hmem
    cases ht
  have hanswers (m m' : MemoryMap) (h : Stands (.stitched n low high) m m') ws a :=
    And.intro ((h.after ws).read a) fun v => ((h.after ws).write a v).1
  simp only [List.forall_mem_cons, List.not_mem_nil, false_imp_iff, implies_true, and_true]
  refine ⟨⟨?_, fun m m' hm hm' => hanswers m m' (hstands m m' ?_ ?_)⟩, ?_,
    fun m m' hm hm' => hanswers m m' (hstands m m' hm hm')⟩
  · rw [exists_build_eq_ok_iff, exists_build_eq_ok_iff]
    constructor
    · rintro ⟨hsorted, hgap⟩
      exact ⟨hpairwise.mp hsorted, (hjoins hsorted).gap? 0 ▸ hgap⟩
    · rintro ⟨hsorted, hgap⟩
      have hsorted' := hpairwise.mpr hsorted
      exact ⟨hsorted', ((hjoins hsorted').gap? 0).trans hgap⟩
  · exact (build_eq_ok_iff.mp hm).1
  · exact (build_eq_ok_iff.mp hm').1
  · rw [exists_buildSparse_eq_ok_iff, exists_buildSparse_eq_ok_iff, hpairwise]

/-- A byte that is only read, and one behind it that is only written. -/
def readOnly : Section :=
  .ram (.ofBytes "fixed" 0xC000 ⟨#[0x11]⟩ .read)

def writeOnly : Section :=
  .ram (.ofBytes "log" 0xC001 ⟨#[0x22]⟩ .write)

def mixed : Section :=
  .stitched "mixed" readOnly writeOnly

/-- Each part of a stitched section keeps its own access rule. -/
theorem mixed_answers_stitched :
    Section.stitch "mixed" readOnly writeOnly = .ok mixed ∧
      ∃ m, buildSparse [.backed (.openBus "rest" 0xC002 2), .backed mixed] {} = .ok m ∧
        Memory.read (m.after [(0xC001, 5)]) 0xC000 = .ok 0x11 ∧
        Memory.read (m.after [(0xC001, 5)]) 0xC001 = .error (.violation 0xC001 "mixed" .read) ∧
        (Memory.write (m.after [(0xC001, 5)]) 0xC000 0).1 =
          .error (.violation 0xC000 "mixed" .write) := by
  have hstitch : Section.stitch "mixed" readOnly writeOnly = .ok mixed := rfl
  let rest : Section := .openBus "rest" 0xC002 2
  let regions : List Region := [.backed readOnly, .backed writeOnly, .backed rest]
  have hsparse : buildSparse regions {} = .ok ⟨regions, {}⟩ := by
    have hpairwise : regions.Pairwise Before := overlap?_eq_none_iff.mp rfl
    refine buildSparse_eq_ok_iff.mpr ?_
    rw [sortRegions_of_pairwise hpairwise]
    exact ⟨hpairwise, rfl⟩
  have hregions : regions.Perm ([readOnly, writeOnly, rest].map backed) := .refl _
  have hjoined : [.backed rest, .backed mixed].Perm ([mixed, rest].map backed) := .swap _ _ []
  obtain ⟨hiff, hanswers⟩ := answers_stitched hstitch (by decide) hregions hjoined
    (buildSparse · {}) (List.mem_cons_of_mem _ List.mem_cons_self)
  obtain ⟨m, hm⟩ := hiff.mpr ⟨_, hsparse⟩
  have hanswer := hanswers _ m hsparse hm [(0xC001, 5)]
  refine ⟨hstitch, m, hm, (hanswer 0xC000).1.trans ?_, (hanswer 0xC001).1.trans ?_,
    ((hanswer 0xC000).2 0).trans ?_⟩
  · rfl
  · rfl
  · rfl

end MemoryMap

end Handheld
