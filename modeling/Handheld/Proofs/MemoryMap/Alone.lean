/-
# An array of bytes alone in a map

An array of bytes is a memory on its own, and it is a section.  Bounds and access rules are checked
by the array in the one case and by the map in the other, and the two checks agree: the main
statement, `Ram.answers_alone`, says that a map with nothing but the array gives the same answers to
any calls as the array does, errors included, and holds the same bytes afterwards.  It is enough to
compare single bytes (`Ram.mirrors_alone`), since words and blocks are read and written byte by byte
(`Memory.Mirrors.callAll`).
-/
import Handheld.Proofs.Memory.RandomAccess
import Handheld.Proofs.MemoryMap.Build

namespace Handheld

/-! ## Calls -/

namespace Memory

/-- What can be asked of a memory. -/
inductive Call where
  | read (a : Address)
  | write (a : Address) (v : UInt8)
  | read16 (a : Address)
  | load (a : Address) (bytes : List UInt8)

/-- What a memory answers. -/
inductive Answer where
  | byte (r : Except MemoryError UInt8)
  | word (r : Except MemoryError UInt16)
  | done (r : Except MemoryError Unit)

section Calls

variable {M : Type} [Memory M]

/-- The answer to a call, and the memory afterwards. -/
def call (m : M) : Call → Answer × M
  | .read a => (.byte (read m a), m)
  | .write a v => (.done (write m a v).1, (write m a v).2)
  | .read16 a => (.word (read16 m a), m)
  | .load a bytes => (.done (load m a bytes).1, (load m a bytes).2)

/-- The answers to calls, one after the other, and the memory afterwards. -/
def callAll (m : M) : List Call → List Answer × M
  | [] => ([], m)
  | c :: calls =>
    ((call m c).1 :: (callAll (call m c).2 calls).1, (callAll (call m c).2 calls).2)

end Calls

/-- Whether memories of one type behave byte by byte like those of another that they come from. -/
structure Mirrors {M N : Type} [Memory M] [Memory N] (f : M → N) : Prop where
  read (m : M) (a : Address) : Memory.read (f m) a = Memory.read m a
  write (m : M) (a : Address) (v : UInt8) :
    Memory.write (f m) a v = ((Memory.write m a v).1, f (Memory.write m a v).2)

namespace Mirrors

variable {M N : Type} [Memory M] [Memory N] {f : M → N} (h : Mirrors f)
include h

lemma read16 (m : M) (a : Address) : Memory.read16 (f m) a = Memory.read16 m a := by
  rw [Memory.read16, Memory.read16, h.read, h.read]

/-- A block that cannot be loaded to its end leaves the same bytes behind in both. -/
lemma load (m : M) (a : Address) (bytes : List UInt8) :
    Memory.load (f m) a bytes = ((Memory.load m a bytes).1, f (Memory.load m a bytes).2) := by
  induction bytes generalizing m a with
  | nil => rfl
  | cons b bytes ih =>
    rw [Memory.load, Memory.load, h.write]
    rcases Memory.write m a b with ⟨e | u, m'⟩
    · rfl
    · exact ih m' (a + 1)

lemma call (m : M) (c : Call) :
    Memory.call (f m) c = ((Memory.call m c).1, f (Memory.call m c).2) := by
  cases c with
  | read a => rw [Memory.call, h.read, Memory.call]
  | write a v => rw [Memory.call, h.write, Memory.call]
  | read16 a => rw [Memory.call, h.read16, Memory.call]
  | load a bytes => rw [Memory.call, h.load, Memory.call]

/-- **Memories that behave alike byte by byte answer all calls alike.** -/
theorem callAll (m : M) (calls : List Call) :
    Memory.callAll (f m) calls =
      ((Memory.callAll m calls).1, f (Memory.callAll m calls).2) := by
  induction calls generalizing m with
  | nil => rfl
  | cons c calls ih => rw [Memory.callAll, h.call, ih, Memory.callAll]

end Mirrors

end Memory

/-! ## The map of one array -/

namespace Ram

open MemoryMap

variable {r : Ram} {board : Board} {a : Address}

/-- The map with nothing but an array of bytes. -/
def alone (board : Board) (r : Ram) : MemoryMap :=
  ⟨[.backed (.ram r)], board⟩

lemma buildSparse_alone (board : Board) (r : Ram) :
    buildSparse [.backed (.ram r)] board = .ok (alone board r) := by
  have hpairwise := List.pairwise_singleton Region.Before (.backed (.ram r))
  refine buildSparse_eq_ok_iff.mpr ?_
  rw [sortRegions_of_pairwise hpairwise]
  exact ⟨hpairwise, rfl⟩

/-- The region takes up the addresses that the array has bytes for. -/
lemma owns_iff_offset : (Region.backed (.ram r)).owns a = true ↔ (r.offset a).isSome := by
  rw [Region.owns_iff, Option.isSome_iff_exists]
  simp only [offset_eq_some_iff]
  change r.start.toNat ≤ a.toNat ∧ a.toNat < r.start.toNat + r.bytes.size ↔ _
  constructor
  · rintro ⟨hstart, hstop⟩
    exact ⟨_, hstart, rfl, by omega⟩
  · rintro ⟨i, hstart, rfl, hi⟩
    exact ⟨hstart, by omega⟩

lemma resolve_alone (h : (r.offset a).isSome) : (alone board r).resolve a = some (.ram r, a) :=
  resolve_of_owner (owner?_cons_of_owns (owns_iff_offset.mpr h))

lemma resolve_alone_none (h : r.offset a = none) : (alone board r).resolve a = none := by
  have hnot : ¬ (Region.backed (.ram r)).owns a = true := by
    rw [owns_iff_offset, h]
    exact Bool.false_ne_true
  rw [resolve, follow, alone, owner?_cons_of_not_owns hnot]
  rfl

lemma stored_alone (h : (r.offset a).isSome) (v : UInt8) :
    (alone board r).stored a v = alone board (r.put a v) := by
  rw [stored, alone, put_cons_of_owns (owns_iff_offset.mpr h)]
  rfl

/-- An array behaves alone in a map as it does on its own. -/
lemma mirrors_alone (board : Board) : Memory.Mirrors (alone board) where
  read r a := by
    rw [read_eq, refusal]
    cases hoffset : r.offset a with
    | none => exact read_of_resolve_none (resolve_alone_none hoffset)
    | some i =>
      rw [read_of_resolve (resolve_alone (by rw [hoffset]; rfl))]
      change (if r.access.readable = true then _ else _) = _
      split
      · rfl
      · rfl
  write r a v := by
    rw [write_eq, refusal]
    cases hoffset : r.offset a with
    | none => exact write_of_resolve_none (resolve_alone_none hoffset) v
    | some i =>
      have hsome : (r.offset a).isSome := by rw [hoffset]; rfl
      have hresolve : (alone board r).resolve a = some (.ram r, a) := resolve_alone hsome
      by_cases hwritable : r.access.writable = true
      · rw [write_of_resolve hresolve hwritable, stored_alone hsome, hwritable]
        rfl
      · rw [write_of_not_writable hresolve hwritable, if_neg hwritable]
        rfl

/-- **An array of bytes answers alone in a map as it does on its own.**  The map can be built; it
gives the same answers to any calls, with the same errors, and holds the array as the calls have
left it. -/
theorem answers_alone (r : Ram) (board : Board) :
    ∃ m, buildSparse [.backed (.ram r)] board = .ok m ∧ ∀ calls : List Memory.Call,
      (Memory.callAll m calls).1 = (Memory.callAll r calls).1 ∧
        (Memory.callAll m calls).2.regions = [.backed (.ram (Memory.callAll r calls).2)] := by
  refine ⟨alone board r, buildSparse_alone board r, fun calls => ?_⟩
  rw [(mirrors_alone board).callAll]
  exact ⟨rfl, rfl⟩

end Ram

end Handheld
