/-
# Reading a map after a write

Addresses that lead to one place of a map, directly or through remaps, share a byte.
`MemoryMap.place` is that place.  Where it keeps what is written, a write changes the byte of one
place and no other (`MemoryMap.read_stored_of_keeps`).
-/
import Handheld.Proofs.MemoryMap.Outline
import Handheld.Proofs.Section.Kept

namespace Handheld

namespace MemoryMap

variable {m : MemoryMap} {regions : List Region} {s t : Section} {a b c : Address}
  {f : UInt8 → UInt8} {hops : Nat}

/-- The address at which the map answers for an address. -/
def place (m : MemoryMap) (a : Address) : Option Address :=
  (m.resolve a).map Prod.snd

/-- The map after a write to the section that owns an address. -/
def stored (m : MemoryMap) (a : Address) (v : UInt8) : MemoryMap :=
  ⟨(put m.board a v m.regions).2, (put m.board a v m.regions).1⟩

lemma place_of_resolve (h : m.resolve a = some (s, b)) : m.place a = some b :=
  congrArg (Option.map Prod.snd) h

/-! ## Accesses by the section that they lead to -/

lemma read_of_resolve (h : m.resolve a = some (s, b)) :
    Memory.read m a =
      if (s.accessAt b).readable then .ok (s.read m.board b)
      else .error (.violation a s.name .read) := by
  dsimp only [Memory.read]
  rw [h]

lemma read_of_resolve_none (h : m.resolve a = none) :
    Memory.read m a = .error (.notMapped a) := by
  dsimp only [Memory.read]
  rw [h]

lemma write_of_resolve (h : m.resolve a = some (s, b)) (hwritable : (s.accessAt b).writable = true)
    (v : UInt8) : Memory.write m a v = (.ok (), m.stored b v) := by
  have htarget : m.writeTarget a = .granted b := by
    unfold writeTarget
    rw [h]
    exact if_pos hwritable
  dsimp only [Memory.write]
  rw [htarget]
  rfl

lemma write_of_not_writable (h : m.resolve a = some (s, b))
    (hnot : ¬ (s.accessAt b).writable = true) (v : UInt8) :
    Memory.write m a v = (.error (.violation a s.name .write), m) := by
  have htarget : m.writeTarget a = .refused (.violation a s.name .write) := by
    unfold writeTarget
    rw [h]
    exact if_neg hnot
  dsimp only [Memory.write]
  rw [htarget]

lemma write_of_resolve_none (h : m.resolve a = none) (v : UInt8) :
    Memory.write m a v = (.error (.notMapped a), m) := by
  have htarget : m.writeTarget a = .refused (.notMapped a) := by
    unfold writeTarget
    rw [h]
  dsimp only [Memory.write]
  rw [htarget]

/-- A write goes to the section that the address leads to, or fails and changes nothing. -/
lemma write_cases (m : MemoryMap) (a : Address) (v : UInt8) :
    (∃ s b, m.resolve a = some (s, b) ∧ Memory.write m a v = (.ok (), m.stored b v)) ∨
      ∃ e, Memory.write m a v = (.error e, m) := by
  cases h : m.resolve a with
  | none => exact .inr ⟨_, write_of_resolve_none h v⟩
  | some target =>
    obtain ⟨s, b⟩ := target
    by_cases hwritable : (s.accessAt b).writable = true
    · exact .inl ⟨s, b, rfl, write_of_resolve h hwritable v⟩
    · exact .inr ⟨_, write_of_not_writable h hwritable v⟩

/-- A map after writes, the latest first. -/
def after (m : MemoryMap) : List (Address × UInt8) → MemoryMap
  | [] => m
  | (a, v) :: earlier => (Memory.write (m.after earlier) a v).2

/-- What every write to a section keeps, writes keep. -/
lemma after_induction {P : MemoryMap → Prop} (hstart : P m)
    (hstored : ∀ m s a v, P m → owner? m.regions a = some (.backed s) → P (m.stored a v))
    (ws : List (Address × UInt8)) : P (m.after ws) := by
  induction ws with
  | nil => exact hstart
  | cons w earlier ih =>
    obtain ⟨a, v⟩ := w
    change P (Memory.write (m.after earlier) a v).2
    rcases write_cases (m.after earlier) a v with ⟨s, b, hresolve, hwrite⟩ | ⟨e, hwrite⟩
    · rw [hwrite]
      exact hstored _ s b v ih (owner?_of_follow hresolve)
    · rw [hwrite]
      exact ih

/-! ## The map after a write -/

/-- A write to an address changes the section that owns it, and leaves the owner of every other
section's addresses. -/
lemma owner?_put (ha : owner? regions a = some (.backed s)) (board : Board) (v : UInt8)
    (b : Address) :
    owner? (put board a v regions).2 b = owner? regions b ∧ b ≠ a ∨
      owner? regions b = some (.backed s) ∧
        owner? (put board a v regions).2 b = some (.backed (s.write board a v).2) := by
  induction regions with
  | nil => cases ha
  | cons r regions ih =>
    by_cases howns : r.owns a = true
    · rw [owner?_cons_of_owns howns] at ha
      obtain rfl := Option.some.inj ha
      rw [put_cons_of_owns howns]
      have hkeep : (Region.backed (s.write board a v).2).owns b = (Region.backed s).owns b :=
        Section.accepts_write s board a b v
      by_cases hb : (Region.backed s).owns b = true
      · exact .inr ⟨owner?_cons_of_owns hb, owner?_cons_of_owns (hkeep.trans hb)⟩
      · refine .inl ⟨?_, fun heq => hb (heq ▸ howns)⟩
        rw [owner?_cons_of_not_owns hb, owner?_cons_of_not_owns (by rwa [hkeep])]
    · rw [owner?_cons_of_not_owns howns] at ha
      rw [put_cons_of_not_owns howns]
      by_cases hb : r.owns b = true
      · refine .inl ⟨?_, fun heq => howns (heq ▸ hb)⟩
        rw [owner?_cons_of_owns hb, owner?_cons_of_owns hb]
      · rw [owner?_cons_of_not_owns hb, owner?_cons_of_not_owns hb]
        exact ih ha

/-- A write replaces the section that owns the address. -/
lemma exists_put (h : owner? regions a = some (.backed s)) :
    ∃ before after, regions = before ++ .backed s :: after ∧ ∀ board v,
      put board a v regions =
        ((s.write board a v).1, before ++ .backed (s.write board a v).2 :: after) := by
  induction regions with
  | nil => cases h
  | cons r regions ih =>
    by_cases howns : r.owns a = true
    · rw [owner?_cons_of_owns howns] at h
      obtain rfl := Option.some.inj h
      exact ⟨[], regions, rfl, fun board v => put_cons_of_owns howns⟩
    · rw [owner?_cons_of_not_owns howns] at h
      obtain ⟨before, after, heq, hput⟩ := ih h
      refine ⟨r :: before, after, by rw [heq]; rfl, fun board v => ?_⟩
      rw [put_cons_of_not_owns howns, hput]
      rfl

lemma board_put (ha : owner? regions a = some (.backed s)) (board : Board) (v : UInt8) :
    (put board a v regions).1 = (s.write board a v).1 := by
  obtain ⟨before, after, -, hput⟩ := exists_put ha
  rw [hput]

/-- A write neither moves a remap nor the place that an address leads to. -/
lemma follow_put (ha : owner? regions a = some (.backed s)) (board : Board) (v : UInt8)
    (h : follow regions hops c = some (t, b)) :
    follow (put board a v regions).2 hops c = some (t, b) ∧ b ≠ a ∨
      t = s ∧ follow (put board a v regions).2 hops c = some ((s.write board a v).2, b) := by
  induction hops generalizing c with
  | zero => cases h
  | succ hops ih =>
    unfold follow at h
    unfold follow
    rcases owner?_put ha board v c with ⟨howner, hne⟩ | ⟨hc, howner⟩
    · rw [howner]
      cases hr : owner? regions c with
      | none =>
        rw [hr] at h
        cases h
      | some r =>
        rw [hr] at h
        cases r with
        | backed t' =>
          obtain ⟨rfl, rfl⟩ := Prod.mk.inj (Option.some.inj h)
          exact .inl ⟨rfl, hne⟩
        | remap r => exact ih h
    · rw [hc] at h
      rw [howner]
      obtain ⟨rfl, rfl⟩ := Prod.mk.inj (Option.some.inj h)
      exact .inr ⟨rfl, rfl⟩

lemma length_put (board : Board) (a : Address) (v : UInt8) (regions : List Region) :
    (put board a v regions).2.length = regions.length := by
  simpa using congrArg List.length (outline_put board a v regions)

lemma resolve_stored (ha : owner? m.regions a = some (.backed s)) (v : UInt8)
    (h : m.resolve c = some (t, b)) :
    (m.stored a v).resolve c = some (t, b) ∧ b ≠ a ∨
      t = s ∧ (m.stored a v).resolve c = some ((s.write m.board a v).2, b) := by
  unfold resolve at h ⊢
  change follow (put m.board a v m.regions).2 ((put m.board a v m.regions).2.length + 1) c = _ ∧ _ ∨
    _ ∧ follow (put m.board a v m.regions).2 ((put m.board a v m.regions).2.length + 1) c = _
  rw [length_put]
  exact follow_put ha m.board v h

lemma resolve_stored_none (a : Address) (v : UInt8) (h : m.resolve c = none) :
    (m.stored a v).resolve c = none := by
  have hfollow := follow_outline (m.stored a v).regions (m.regions.length + 1) c
  rw [stored, outline_put, follow_outline] at hfollow
  unfold resolve at h ⊢
  rw [h] at hfollow
  change follow (put m.board a v m.regions).2 ((put m.board a v m.regions).2.length + 1) c = none
  rw [length_put]
  exact Option.map_eq_none_iff.mp hfollow.symm

@[simp] lemma place_stored (ha : owner? m.regions a = some (.backed s)) (v : UInt8) (c : Address) :
    (m.stored a v).place c = m.place c := by
  cases h : m.resolve c with
  | none => rw [place, place, resolve_stored_none a v h, h]
  | some target =>
    obtain ⟨t, b⟩ := target
    rw [place_of_resolve h]
    rcases resolve_stored ha v h with ⟨h', -⟩ | ⟨-, h'⟩
    all_goals exact place_of_resolve h'

/-! ## Places that keep their bytes -/

/-- **A byte that is kept is read at every address of its place, if it may be read, and all other
places read as before.** -/
theorem read_stored_of_keeps (ha : owner? m.regions a = some (.backed s))
    (hkeeps : s.Keeps m.board a f) (v : UInt8) (c : Address) :
    Memory.read (m.stored a v) c =
      if m.place c = some a ∧ (s.accessAt a).readable = true then .ok (f v)
      else Memory.read m c := by
  have hboard : (m.stored a v).board = m.board :=
    (board_put ha m.board v).trans (hkeeps.unmoved v)
  cases h : m.resolve c with
  | none =>
    rw [read_of_resolve_none h, read_of_resolve_none (resolve_stored_none a v h), place, h]
    simp
  | some target =>
    obtain ⟨t, b⟩ := target
    rw [place_of_resolve h, read_of_resolve h]
    rcases resolve_stored ha v h with ⟨h', hne⟩ | ⟨rfl, h'⟩
    · rw [read_of_resolve h', hboard]
      simp [hne]
    · rw [read_of_resolve h', hboard, Section.accessAt_write, Section.name_write]
      by_cases hb : b = a
      · subst hb
        rw [hkeeps.same]
        by_cases hreadable : (t.accessAt b).readable = true
        · simp [hreadable]
        · simp [hreadable]
      · rw [hkeeps.other v hb]
        simp [hb]

/-! ## Maps without faults -/

variable (m) in
/-- Whether no access fails. -/
def FaultFree : Prop :=
  ∀ a, (∃ v, Memory.read m a = .ok v) ∧ ∀ v, (Memory.write m a v).1 = .ok ()

variable (m) in
/-- Whether a program sees at an address a byte of memory, or the register of requested
interrupts; it reads as `f v` after `v` has been written. -/
def CellAt (a : Address) (f : UInt8 → UInt8) : Prop :=
  ∃ s b, m.resolve a = some (s, b) ∧ Section.Cell b f (s.visible m.board b)

lemma faultFree_iff :
    m.FaultFree ↔ ∀ a, ∃ s b, m.resolve a = some (s, b) ∧ s.accessAt b = .readWrite := by
  constructor
  · intro h a
    obtain ⟨⟨v, hread⟩, hwrite⟩ := h a
    cases hresolve : m.resolve a with
    | none =>
      rw [read_of_resolve_none hresolve] at hread
      cases hread
    | some target =>
      obtain ⟨s, b⟩ := target
      refine ⟨s, b, rfl, ?_⟩
      rw [read_of_resolve hresolve] at hread
      have hwritable := hwrite 0
      dsimp only [Memory.write] at hwritable
      rw [writeTarget, hresolve] at hwritable
      dsimp only at hwritable
      cases haccess : s.accessAt b with
      | readWrite => rfl
      | read =>
        rw [haccess] at hwritable
        cases hwritable
      | write =>
        rw [haccess] at hread
        cases hread
  · intro h a
    obtain ⟨s, b, hresolve, haccess⟩ := h a
    refine ⟨⟨s.read m.board b, ?_⟩, fun v => ?_⟩
    · rw [read_of_resolve hresolve, haccess]
      rfl
    · rw [write_of_resolve hresolve (by rw [haccess]; rfl)]

lemma FaultFree.stored (h : m.FaultFree) (ha : owner? m.regions a = some (.backed s)) (v : UInt8) :
    (m.stored a v).FaultFree := by
  rw [faultFree_iff] at h ⊢
  intro c
  obtain ⟨t, b, hresolve, haccess⟩ := h c
  rcases resolve_stored ha v hresolve with ⟨h', -⟩ | ⟨rfl, h'⟩
  · exact ⟨t, b, h', haccess⟩
  · exact ⟨_, b, h', by rw [Section.accessAt_write, haccess]⟩

lemma CellAt.stored {g : UInt8 → UInt8} (h : m.CellAt c g)
    (ha : owner? m.regions a = some (.backed s)) (hkeeps : s.Keeps m.board a f) (v : UInt8) :
    (m.stored a v).CellAt c g := by
  have hboard : (m.stored a v).board = m.board :=
    (board_put ha m.board v).trans (hkeeps.unmoved v)
  obtain ⟨t, b, hresolve, hcell⟩ := h
  rcases resolve_stored ha v hresolve with ⟨h', -⟩ | ⟨rfl, h'⟩
  · exact ⟨t, b, h', by rwa [hboard]⟩
  · refine ⟨_, b, h', ?_⟩
    rw [hboard]
    rcases t.visible_write m.board a b v with hvisible | hvisible
    · rwa [hvisible]
    · rw [hvisible]
      exact hcell.write m.board a v

variable (m) in
/-- What becomes of a map when a cell of it comes to read as `w`. -/
structure Changes (a : Address) (w : UInt8) (m' : MemoryMap) : Prop where
  same {c : Address} (h : m.place c = m.place a) : Memory.read m' c = .ok w
  other {c : Address} (h : m.place c ≠ m.place a) : Memory.read m' c = Memory.read m c
  place (c : Address) : m'.place c = m.place c
  free : m'.FaultFree
  cell {c : Address} {g : UInt8 → UInt8} (h : m.CellAt c g) : m'.CellAt c g

/-- A write to a byte that is kept changes what is read at the addresses of its place. -/
lemma changes_of_keeps (hfree : m.FaultFree) (hresolve : m.resolve a = some (s, b))
    (hkeeps : s.Keeps m.board b f) (v : UInt8) :
    ∃ m', Memory.write m a v = (.ok (), m') ∧ m.Changes a (f v) m' := by
  have haccess : s.accessAt b = .readWrite := by
    obtain ⟨s', b', hresolve', haccess⟩ := faultFree_iff.mp hfree a
    obtain ⟨rfl, rfl⟩ := Prod.mk.inj (Option.some.inj (hresolve.symm.trans hresolve'))
    exact haccess
  have howner := owner?_of_follow hresolve
  refine ⟨m.stored b v, write_of_resolve hresolve (by rw [haccess]; rfl) v, ?_⟩
  have hread (c : Address) :
      Memory.read (m.stored b v) c =
        if m.place c = m.place a then .ok (f v) else Memory.read m c := by
    rw [read_stored_of_keeps howner hkeeps, haccess, place_of_resolve hresolve]
    simp [Access.readable]
  refine ⟨fun heq => ?_, fun hne => ?_, place_stored howner v, hfree.stored howner v,
    fun hc => hc.stored howner hkeeps v⟩
  · rw [hread, if_pos heq]
  · rw [hread, if_neg hne]

/-- **A write to a cell changes what is read at the addresses of its place.** -/
theorem CellAt.write (h : m.CellAt a f) (hfree : m.FaultFree) (v : UInt8) :
    ∃ m', Memory.write m a v = (.ok (), m') ∧ m.Changes a (f v) m' := by
  obtain ⟨s, b, hresolve, hcell⟩ := h
  exact changes_of_keeps hfree hresolve (.of_visible (hcell.keeps m.board)) v

/-- A byte that has been read at a cell is kept when some of its bits are cleared. -/
lemma CellAt.apply_clear (h : m.CellAt a f) {v : UInt8} (hread : Memory.read m a = .ok v)
    (i : Interrupt) : f (v &&& ~~~i.mask) = v &&& ~~~i.mask := by
  obtain ⟨s, b, hresolve, hcell⟩ := h
  rw [read_of_resolve hresolve] at hread
  split at hread
  · obtain rfl := Except.ok.inj hread
    rw [← s.read_visible]
    exact hcell.apply_clear m.board i
  · cases hread

end MemoryMap

end Handheld
