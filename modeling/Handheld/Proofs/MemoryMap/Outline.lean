/-
# The outline of a map

Where an access goes depends on where the regions of a map lie and on its remaps, and not on what
the sections hold.  Writes leave the outline as it is (`MemoryMap.outline_put`), so a map in which
every address leads to a section stays one (`MemoryMap.Complete.of_outline`).
-/
import Mathlib.Tactic.Lemma
import Handheld.Proofs.Section.Sound
import Handheld.MemoryMap.Build

namespace Handheld

/-! ## Regions without their contents -/

namespace Region

/-- A region without its contents. -/
def outline : Region → Region
  | backed s => .backed (.openBus "" s.start s.length)
  | remap r => .remap r

@[simp] lemma owns_outline (r : Region) (a : Address) : r.outline.owns a = r.owns a := by
  cases r <;> rfl

lemma owns_iff {r : Region} {a : Address} :
    r.owns a = true ↔ r.start.toNat ≤ a.toNat ∧ a.toNat < r.stop := by
  rw [owns, Bool.and_eq_true, decide_eq_true_eq, decide_eq_true_eq, UInt16.le_iff_toNat_le]

end Region

namespace MemoryMap

variable {regions regions' : List Region} {a a' : Address} {s : Section} {hops : Nat}

/-! ## Owners -/

lemma owner?_eq_some {r : Region} (h : owner? regions a = some r) :
    r ∈ regions ∧ r.owns a = true :=
  ⟨List.mem_of_find?_eq_some h, List.find?_some (p := fun r : Region => r.owns a) h⟩

lemma owner?_cons_of_owns {r : Region} (h : r.owns a = true) :
    owner? (r :: regions) a = some r :=
  List.find?_cons_of_pos h

lemma owner?_cons_of_not_owns {r : Region} (h : ¬ r.owns a = true) :
    owner? (r :: regions) a = owner? regions a :=
  List.find?_cons_of_neg (p := fun r : Region => r.owns a) h

/-- One section owns an address. -/
lemma owner?_unique {t : Section} (hs : owner? regions a = some (.backed s))
    (ht : owner? regions a = some (.backed t)) : s = t :=
  Region.backed.inj (Option.some.inj (hs.symm.trans ht))

/-- Regions may be replaced by others that own the same addresses. -/
lemma owner?_map {φ : Region → Region} (howns : ∀ r a, (φ r).owns a = r.owns a)
    (regions : List Region) (a : Address) :
    owner? (regions.map φ) a = (owner? regions a).map φ := by
  rw [owner?, owner?, List.find?_map]
  congr 2
  funext r
  exact howns r a

/-- Regions without a gap between them own every address from the first on. -/
lemma exists_owner_of_gap {n : Nat} (h : gap? n regions = none) (ha : n ≤ a.toNat) :
    ∃ r, owner? regions a = some r := by
  induction regions generalizing n with
  | nil =>
    unfold gap? at h
    split at h
    · have := a.toNat_lt
      omega
    · cases h
  | cons r regions ih =>
    unfold gap? at h
    split at h
    · rename_i hstart
      by_cases howns : r.owns a = true
      · exact ⟨r, owner?_cons_of_owns howns⟩
      · -- an address that is not before the first region is behind it
        have hstop : r.stop ≤ a.toNat := by
          rw [Region.owns_iff] at howns
          omega
        obtain ⟨r', hr'⟩ := ih h hstop
        exact ⟨r', (owner?_cons_of_not_owns howns).trans hr'⟩
    · cases h

/-! ## Where an access leads -/

/-- An access ends in the section that owns the address it is sent to. -/
lemma owner?_of_follow (h : follow regions hops a = some (s, a')) :
    owner? regions a' = some (.backed s) := by
  induction hops generalizing a with
  | zero => cases h
  | succ hops ih =>
    unfold follow at h
    split at h
    · cases h
    · rename_i howner
      obtain ⟨rfl, rfl⟩ := Prod.mk.inj (Option.some.inj h)
      exact howner
    · exact ih h

/-- An access to an address of a section stays where it is. -/
lemma resolve_of_owner {m : MemoryMap} (h : owner? m.regions a = some (.backed s)) :
    m.resolve a = some (s, a) := by
  rw [resolve, follow, h]

/-- An access leads to the same address if sections are replaced by others in their places. -/
lemma follow_map {φ : Region → Region} {f : Section → Section}
    (howns : ∀ r a, (φ r).owns a = r.owns a) (hbacked : ∀ s, φ (.backed s) = .backed (f s))
    (hremap : ∀ r, φ (.remap r) = .remap r) (regions : List Region) (hops : Nat) (a : Address) :
    follow (regions.map φ) hops a =
      (follow regions hops a).map fun (s, a') => (f s, a') := by
  induction hops generalizing a with
  | zero => rfl
  | succ hops ih =>
    unfold follow
    rw [owner?_map howns]
    cases owner? regions a with
    | none => rfl
    | some r =>
      cases r with
      | backed s => simp [hbacked]
      | remap r => simpa [hremap] using ih (r.translate a)

lemma follow_outline (regions : List Region) (hops : Nat) (a : Address) :
    follow (regions.map Region.outline) hops a =
      (follow regions hops a).map fun (s, a') => (.openBus "" s.start s.length, a') :=
  follow_map Region.owns_outline (fun _ => rfl) (fun _ => rfl) regions hops a

/-- Whether every address leads to a section. -/
def Complete (regions : List Region) : Prop :=
  ∀ a, ∃ s a', follow regions (regions.length + 1) a = some (s, a')

lemma Complete.of_outline (h : Complete regions)
    (heq : regions'.map Region.outline = regions.map Region.outline) : Complete regions' := by
  intro a
  obtain ⟨s, a', hs⟩ := h a
  have hlen : regions'.length = regions.length := by
    simpa using congrArg List.length heq
  have hfollow := follow_outline regions' (regions'.length + 1) a
  rw [heq, hlen, follow_outline, hs] at hfollow
  obtain ⟨⟨s', a''⟩, hs', -⟩ := Option.map_eq_some_iff.mp hfollow.symm
  rw [hlen]
  exact ⟨s', a'', hs'⟩

/-! ## Writes -/

lemma put_cons_of_owns {board : Board} {v : UInt8} (h : (Region.backed s).owns a = true) :
    put board a v (.backed s :: regions) =
      ((s.write board a v).1, .backed (s.write board a v).2 :: regions) :=
  if_pos h

lemma put_cons_of_not_owns {board : Board} {v : UInt8} {r : Region} (h : ¬ r.owns a = true) :
    put board a v (r :: regions) = ((put board a v regions).1, r :: (put board a v regions).2) :=
  if_neg h

/-- A write leaves what it leaves of each section. -/
lemma map_put {α : Type} {φ : Region → α}
    (h : ∀ s board a v, φ (.backed (s.write board a v).2) = φ (.backed s)) (board : Board)
    (a : Address) (v : UInt8) (regions : List Region) :
    (put board a v regions).2.map φ = regions.map φ := by
  induction regions with
  | nil => rfl
  | cons r regions ih =>
    unfold put
    split
    · cases r with
      | backed s => simp [h]
      | remap r => rfl
    · exact congrArg (φ r :: ·) ih

/-- A write leaves the outline as it is. -/
lemma outline_put (board : Board) (a : Address) (v : UInt8) (regions : List Region) :
    (put board a v regions).2.map Region.outline = regions.map Region.outline :=
  map_put (fun s board a v => by simp [Region.outline]) board a v regions

/-- What a write to any section keeps, a write to a map keeps of all of its sections. -/
lemma forall_sections_put {P : Section → Prop}
    (hwrite : ∀ s board a v, P s → P (s.write board a v).2)
    (h : ∀ s, .backed s ∈ regions → P s) (board : Board) (a : Address) (v : UInt8) :
    ∀ s, .backed s ∈ (put board a v regions).2 → P s := by
  induction regions with
  | nil => exact h
  | cons r regions ih =>
    have hrest : ∀ s, .backed s ∈ regions → P s := fun s hs => h s (List.mem_cons_of_mem _ hs)
    unfold put
    split
    · cases r with
      | backed s =>
        intro t ht
        rcases List.mem_cons.mp ht with heq | ht
        · obtain rfl := Region.backed.inj heq
          exact hwrite s board a v (h s List.mem_cons_self)
        · exact hrest t ht
      | remap r => exact h
    · intro t ht
      rcases List.mem_cons.mp ht with rfl | ht
      · exact h t List.mem_cons_self
      · exact ih hrest t ht

/-- Whether all sections of some regions are sound. -/
def SoundSections (regions : List Region) : Prop :=
  ∀ s, .backed s ∈ regions → s.Sound

lemma SoundSections.put (h : SoundSections regions) (board : Board) (a : Address) (v : UInt8) :
    SoundSections (put board a v regions).2 :=
  forall_sections_put (fun _ board a v hs => hs.write board a v) h board a v

lemma stored_put {board : Board} (h : board.Stored) (a : Address) (v : UInt8)
    (regions : List Region) : (put board a v regions).1.Stored := by
  induction regions with
  | nil => exact h
  | cons r regions ih =>
    unfold put
    split
    · cases r with
      | backed s => exact s.stored_write h a v
      | remap r => exact h
    · exact ih

end MemoryMap

end Handheld
