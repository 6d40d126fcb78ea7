/-
# Ways through remaps

A remap may lead to another one, or to itself further down.  `MemoryMap.Way` is the way of an
access through remaps, hop by hop.  The main statement, `MemoryMap.access_along_way`, says that an
access goes to the section that a way leads to, if the way has no more hops than the map has
regions, and fails otherwise.  A way that passes no remap twice is that short; one that passes a
remap again, further down, may be too long although it is no cycle
(`MemoryMap.mirror_not_reached`).
-/
import Handheld.Proofs.MemoryMap.Build
import Handheld.Proofs.MemoryMap.Cells

namespace Handheld

namespace MemoryMap

open Region

variable {regions : List Region} {board : Board} {m : MemoryMap} {s : Section} {a b : Address}
  {r : Remap} {rs : List Remap} {hops : Nat}

/-- A way from an address through remaps, one after the other, to an address. -/
inductive Way (regions : List Region) : List Remap → Address → Address → Prop
  | here (a : Address) : Way regions [] a a
  | hop {r : Remap} {rs : List Remap} {a b : Address} (hr : .remap r ∈ regions)
      (ha : (Region.remap r).owns a = true) (h : Way regions rs (r.translate a) b) :
      Way regions (r :: rs) a b

/-- Whether a way leads from an address to a section, and to which of its addresses. -/
structure Arrives (regions : List Region) (rs : List Remap) (a : Address) (s : Section)
    (b : Address) : Prop where
  way : Way regions rs a b
  mem : .backed s ∈ regions
  owns : (Region.backed s).owns b = true

/-! ## Ways and hops -/

lemma Way.mem (h : Way regions rs a b) (hr : r ∈ rs) : .remap r ∈ regions := by
  induction h with
  | here a => cases hr
  | hop hmem ha h ih =>
    rcases List.mem_cons.mp hr with rfl | hr
    · exact hmem
    · exact ih hr

/-- A way that passes no remap twice has no more hops than there are regions. -/
lemma Way.length_le (h : Way regions rs a b) (hnodup : rs.Nodup) : rs.length ≤ regions.length := by
  have hnodup' : (rs.map Region.remap).Nodup :=
    List.Pairwise.map Region.remap (fun r r' hne heq => hne (Region.remap.inj heq)) hnodup
  have hsubset : rs.map Region.remap ⊆ regions := by
    intro region hregion
    obtain ⟨r, hr, rfl⟩ := List.mem_map.mp hregion
    exact h.mem hr
  simpa using hnodup'.length_le_of_subset hsubset

/-- Following remaps leads where the ways of so many hops lead. -/
lemma follow_eq_some_iff (h : regions.Pairwise Before) :
    follow regions hops a = some (s, b) ↔ ∃ rs, Arrives regions rs a s b ∧ rs.length < hops := by
  induction hops generalizing a with
  | zero => simp [follow]
  | succ hops ih =>
    unfold follow
    constructor
    · intro hfollow
      split at hfollow
      · cases hfollow
      · rename_i t howner
        obtain ⟨rfl, rfl⟩ := Prod.mk.inj (Option.some.inj hfollow)
        obtain ⟨hmem, ha⟩ := owner?_eq_some howner
        exact ⟨[], ⟨.here _, hmem, ha⟩, Nat.zero_lt_succ hops⟩
      · rename_i r howner
        obtain ⟨hmem, ha⟩ := owner?_eq_some howner
        obtain ⟨rs, harrives, hlt⟩ := ih.mp hfollow
        exact ⟨r :: rs, ⟨.hop hmem ha harrives.way, harrives.mem, harrives.owns⟩,
          Nat.succ_lt_succ hlt⟩
    · rintro ⟨rs, ⟨hway, hmem, hb⟩, hlt⟩
      cases hway with
      | here a => rw [(owner?_eq_some_iff h).mpr ⟨hmem, hb⟩]
      | hop hr ha hway =>
        rw [(owner?_eq_some_iff h).mpr ⟨hr, ha⟩]
        exact ih.mpr ⟨_, ⟨hway, hmem, hb⟩, Nat.lt_of_succ_lt_succ hlt⟩

lemma resolve_eq_some_iff (h : m.regions.Pairwise Before) :
    m.resolve a = some (s, b) ↔
      ∃ rs, Arrives m.regions rs a s b ∧ rs.length ≤ m.regions.length := by
  rw [resolve, follow_eq_some_iff h]
  simp only [Nat.lt_succ_iff]

/-! ## Accesses -/

variable (m) in
/-- Whether accesses at an address go to a section at another one, by the rule that it has
there. -/
structure ActsAt (a : Address) (s : Section) (b : Address) : Prop where
  read : Memory.read m a =
    if (s.accessAt b).readable then .ok (s.read m.board b) else .error (.violation a s.name .read)
  write (h : (s.accessAt b).writable = true) (v : UInt8) :
    ∃ before after, m.regions = before ++ .backed s :: after ∧
      Memory.write m a v =
        (.ok (), ⟨before ++ .backed (s.write m.board b v).2 :: after, (s.write m.board b v).1⟩)
  writeRefused (h : ¬ (s.accessAt b).writable = true) (v : UInt8) :
    Memory.write m a v = (.error (.violation a s.name .write), m)

variable (m) in
/-- Whether nothing answers at an address. -/
structure Unmapped (a : Address) : Prop where
  read : Memory.read m a = .error (.notMapped a)
  write (v : UInt8) : Memory.write m a v = (.error (.notMapped a), m)

lemma actsAt_of_resolve (h : m.resolve a = some (s, b)) : m.ActsAt a s b := by
  refine ⟨read_of_resolve h, fun hwritable v => ?_, write_of_not_writable h⟩
  obtain ⟨before, after, heq, hput⟩ := exists_put (owner?_of_follow h)
  refine ⟨before, after, heq, ?_⟩
  rw [write_of_resolve h hwritable, stored, hput]

lemma unmapped_of_resolve (h : m.resolve a = none) : m.Unmapped a :=
  ⟨read_of_resolve_none h, write_of_resolve_none h⟩

/-- Writes leave the regions of a map one after the other. -/
lemma pairwise_after (hm : buildSparse regions board = .ok m ∨ build regions board = .ok m)
    (ws : List (Address × UInt8)) : (m.after ws).regions.Pairwise Before := by
  have hsparse : buildSparse regions board = .ok m := by
    rcases hm with hm | hm
    · exact hm
    · exact (build_eq_ok_iff.mp hm).1
  obtain ⟨hpairwise, rfl⟩ := buildSparse_eq_ok_iff.mp hsparse
  refine after_induction (P := fun m => m.regions.Pairwise Before) hpairwise ?_ ws
  intro m s a v h _
  have houtline := outline_put m.board a v m.regions
  rw [← pairwise_outline] at h ⊢
  exact houtline ▸ h

/-- **Where an access goes.**  Whatever has been written: if a way with no more hops than there are
regions leads from the address to a section, the access acts there; if none does, it fails with the
address it was made at.  A way that passes no remap twice has no more hops than that. -/
theorem access_along_way (hm : buildSparse regions board = .ok m ∨ build regions board = .ok m)
    (ws : List (Address × UInt8)) (a : Address) :
    (∀ rs s b, Arrives (m.after ws).regions rs a s b → rs.length ≤ (m.after ws).regions.length →
        (m.after ws).ActsAt a s b) ∧
      ((∀ rs s b, Arrives (m.after ws).regions rs a s b →
          (m.after ws).regions.length < rs.length) → (m.after ws).Unmapped a) ∧
      ∀ rs b, Way (m.after ws).regions rs a b → rs.Nodup →
        rs.length ≤ (m.after ws).regions.length := by
  have hpairwise := pairwise_after hm ws
  refine ⟨fun rs s b harrives hle => ?_, fun hnone => ?_, fun rs b hway => hway.length_le⟩
  · exact actsAt_of_resolve ((resolve_eq_some_iff hpairwise).mpr ⟨rs, harrives, hle⟩)
  · refine unmapped_of_resolve (Option.eq_none_iff_forall_ne_some.mpr fun ⟨s, b⟩ hsome => ?_)
    obtain ⟨rs, harrives, hle⟩ := (resolve_eq_some_iff hpairwise).mp hsome
    have hlt := hnone rs s b harrives
    omega

/-- A stretch that answers at addresses four below, down to four bytes of memory. -/
def mirror : Remap :=
  ⟨"mirror", 4, 252, 0⟩

def mirrored : Ram :=
  .ofBytes "mirrored" 0 ⟨#[0x5A, 0x5B, 0x5C, 0x5D]⟩ .readWrite

def mirrorMap : MemoryMap :=
  ⟨[.backed (.ram mirrored), .remap mirror], {}⟩

lemma buildSparse_mirrorMap :
    buildSparse [.backed (.ram mirrored), .remap mirror] {} = .ok mirrorMap := by
  have hpairwise : [.backed (.ram mirrored), .remap mirror].Pairwise Before :=
    List.pairwise_pair.mpr (Nat.le_refl 4)
  refine buildSparse_eq_ok_iff.mpr ?_
  rw [sortRegions_of_pairwise hpairwise]
  exact ⟨hpairwise, rfl⟩

lemma mirror_mem : .remap mirror ∈ mirrorMap.regions := by
  simp [mirrorMap]

lemma mirror_owns : (Region.remap mirror).owns 4 = true ∧ (Region.remap mirror).owns 8 = true ∧
    (Region.remap mirror).owns 12 = true := by
  decide

lemma arrives_mirror : Arrives mirrorMap.regions [mirror, mirror] 8 (.ram mirrored) 0 := by
  obtain ⟨hfirst, hsecond, -⟩ := mirror_owns
  refine ⟨?_, by simp [mirrorMap], by decide⟩
  exact .hop mirror_mem hsecond (.hop mirror_mem hfirst (.here 0))

/-- Two hops lead to the memory through the same stretch, and a read makes them. -/
theorem mirror_access_along_way :
    buildSparse [.backed (.ram mirrored), .remap mirror] {} = .ok mirrorMap ∧
      Arrives mirrorMap.regions [mirror, mirror] 8 (.ram mirrored) 0 ∧
      Memory.read mirrorMap 8 = .ok 0x5A := by
  obtain ⟨hacts, -, -⟩ := access_along_way (.inl buildSparse_mirrorMap) [] 8
  have hread := (hacts _ _ _ arrives_mirror (Nat.le_refl 2)).read
  exact ⟨buildSparse_mirrorMap, arrives_mirror, hread.trans (by decide)⟩

/-- Three hops lead to the memory, and the map has two regions: the access is refused, although the
way ends. -/
theorem mirror_not_reached :
    buildSparse [.backed (.ram mirrored), .remap mirror] {} = .ok mirrorMap ∧
      Arrives mirrorMap.regions [mirror, mirror, mirror] 12 (.ram mirrored) 0 ∧
      mirrorMap.Unmapped 12 := by
  obtain ⟨-, -, hthird⟩ := mirror_owns
  obtain ⟨hway, hmem, howns⟩ := arrives_mirror
  have hresolve : mirrorMap.resolve 12 = none := rfl
  exact ⟨buildSparse_mirrorMap, ⟨.hop mirror_mem hthird hway, hmem, howns⟩,
    unmapped_of_resolve hresolve⟩

end MemoryMap

end Handheld
