/-
# The cells below the top of the stack

A word is pushed into the two cells below the top of the stack, its high byte first.  Where a map
has room there (`MemoryMap.StackRoom`), the word can be pushed and read back, and nothing else
changes (`MemoryMap.StackRoom.exists_pushed`).  Cells are told apart by their places, so that a map
may have remaps; on a map of memory without remaps there is room unless the two addresses are needed
(`MemoryMap.StackRoom.of_distinct`).
-/
import Handheld.Proofs.Memory.RandomAccess
import Handheld.Proofs.Processor.Answers

namespace Handheld

namespace MemoryMap

variable {m : MemoryMap} {a sp : Address} {w : UInt16} {kept : List Address}

/-! ## Maps without faults -/

lemma Distinct.place (h : m.Distinct) (hfree : m.FaultFree) (a : Address) : m.place a = some a := by
  obtain ⟨s, b, hresolve, -⟩ := faultFree_iff.mp hfree a
  obtain ⟨rfl, -⟩ := h a s b hresolve
  exact place_of_resolve hresolve

lemma Distinct.cellAt (h : m.Distinct) (hfree : m.FaultFree) (a : Address) : m.CellAt a id := by
  obtain ⟨s, b, hresolve, -⟩ := faultFree_iff.mp hfree a
  obtain ⟨rfl, hbyte⟩ := h a s b hresolve
  obtain ⟨access, haccess⟩ := Option.isSome_iff_exists.mp hbyte
  obtain ⟨-, r, hvisible, hoffset⟩ := Section.exists_visible_of_byte? haccess m.board
  refine ⟨s, b, hresolve, ?_⟩
  rw [hvisible]
  exact .ram hoffset

/-- A map of memory that may be read and written, without a gap, is without faults. -/
lemma faultFree_of_ram
    (h : ∀ r ∈ m.regions, ∃ bytes : Ram, r = .backed (.ram bytes) ∧ bytes.access = .readWrite)
    (hgap : gap? 0 m.regions = none) : m.FaultFree := by
  refine faultFree_iff.mpr fun a => ?_
  obtain ⟨r, howner⟩ := exists_owner_of_gap hgap (Nat.zero_le a.toNat)
  obtain ⟨bytes, rfl, haccess⟩ := h r (owner?_eq_some howner).1
  exact ⟨.ram bytes, a, resolve_of_owner howner, haccess⟩

/-- A map without faults answers every access, and stays without faults. -/
lemma answers_faultFree : Memory.Answers FaultFree := by
  refine ⟨fun h a => (h a).1, ?_⟩
  intro m h a v
  rcases write_cases m a v with ⟨s, b, hresolve, hwrite⟩ | ⟨e, hwrite⟩
  · exact ⟨_, hwrite, h.stored (owner?_of_follow hresolve) v⟩
  · have hok := (h a).2 v
    rw [hwrite] at hok
    cases hok

/-! ## Pushing a word -/

/-- The cells that a word is pushed into. -/
def stackCells (sp : Address) : List Address :=
  [sp - 1, sp - 2]

variable (m) in
/-- Whether two maps read alike outside of some cells. -/
def SameBut (cells : List Address) (m' : MemoryMap) : Prop :=
  ∀ a, (∀ c ∈ cells, m.place a ≠ m.place c) → Memory.read m' a = Memory.read m a

variable (m) in
/-- Whether there is room for a word below the top of the stack: two cells of memory, neither of
which is behind one of the addresses that are to be kept. -/
structure StackRoom (sp : Address) (kept : List Address) : Prop where
  high : m.CellAt (sp - 1) id
  low : m.CellAt (sp - 2) id
  separate : m.place (sp - 1) ≠ m.place (sp - 2)
  apart : ∀ a ∈ kept, ∀ c ∈ stackCells sp, m.place a ≠ m.place c

variable (m) in
/-- What becomes of a map when a word has been pushed. -/
structure Pushed (sp : Address) (w : UInt16) (m' : MemoryMap) : Prop where
  word : Memory.read16 m' (sp - 2) = .ok w
  other : m.SameBut (stackCells sp) m'

/-- The low byte of a word is under its high byte, also around the top of the address space. -/
lemma read16_of_reads (hlow : Memory.read m (sp - 2) = .ok (Word.low w))
    (hhigh : Memory.read m (sp - 1) = .ok (Word.high w)) : Memory.read16 m (sp - 2) = .ok w := by
  have hnext : sp - 2 + 1 = sp - 1 := by
    rw [← Routine.sub_one_sub_one, UInt16.sub_add_cancel]
  rw [Memory.read16, hlow, ok_bind, hnext, hhigh, ok_bind, Word.ofBytes_high_low]
  rfl

/-- **Where there is room a word can be pushed**, and then it is on top of the stack. -/
theorem StackRoom.exists_pushed (h : m.StackRoom sp kept) (hfree : m.FaultFree) (w : UInt16) :
    ∃ m', Memory.putAll m [(sp - 1, Word.high w), (sp - 2, Word.low w)] = .ok m' ∧
      m.Pushed sp w m' := by
  obtain ⟨m₁, hwrite₁, hm₁⟩ := h.high.write hfree (Word.high w)
  obtain ⟨m₂, hwrite₂, hm₂⟩ := (hm₁.cell h.low).write hm₁.free (Word.low w)
  have hlast {a : Address} (hne : m.place a ≠ m.place (sp - 2)) :
      Memory.read m₂ a = Memory.read m₁ a :=
    hm₂.other (by rwa [hm₁.place, hm₁.place])
  refine ⟨m₂, ?_, read16_of_reads (hm₂.same rfl) ?_, ?_⟩
  · simp only [Memory.putAll, Memory.put, hwrite₁, hwrite₂, ok_bind]
  · rw [hlast h.separate]
    exact hm₁.same rfl
  · intro a ha
    rw [hlast (ha _ (by simp [stackCells])), hm₁.other (ha _ (by simp [stackCells]))]

/-- On a map with a byte of its own at each address there is room below the top of the stack unless
the two addresses are needed. -/
lemma StackRoom.of_distinct (hfree : m.FaultFree) (h : m.Distinct)
    (hkept : ∀ a ∈ kept, a ∉ stackCells sp) : m.StackRoom sp kept := by
  have hplace {a b : Address} (hne : a ≠ b) : m.place a ≠ m.place b := by
    rw [h.place hfree, h.place hfree]
    exact fun heq => hne (Option.some.inj heq)
  refine ⟨h.cellAt hfree _, h.cellAt hfree _,
    hplace ((UInt16.sub_right_inj sp).not.mpr (by decide)), ?_⟩
  intro a ha c hc
  exact hplace fun heq => hkept a ha (heq ▸ hc)

end MemoryMap

end Handheld
