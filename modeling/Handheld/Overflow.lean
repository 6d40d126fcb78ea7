/-
# Sums of sizes

Sizes are counted in 64 bits.  What becomes of a sum that has no room there is a matter of how a
program is built: a build with checks stops, and one without goes on with the sum wrapped around.
A sum that has room is the same in both.  So in the first no sum is a wrong one
(`Overflow.exact_stops`), and in the second those are that have no room
(`Overflow.exact_wraps_iff`).
-/

namespace Handheld

/-- Sizes are given in 64 bits: they are below this number. -/
def sizeBound : Nat := 0x10000000000000000

/-- What a sum without room does to the program. -/
inductive Overflow where
  | stops
  | wraps
deriving DecidableEq

namespace Overflow

/-- The sum of two sizes; nothing if the program stops at it. -/
def add? (o : Overflow) (x y : Nat) : Option Nat :=
  if x + y < sizeBound then some (x + y)
  else
    match o with
    | stops => none
    | wraps => some ((x + y) % sizeBound)

/-- The sum of all sizes, added up in order. -/
def sum? (o : Overflow) (sizes : List Nat) : Option Nat :=
  sizes.foldlM o.add? 0

/-- Whether no sum of two sizes is a wrong one: where there is one, it is that of the numbers. -/
def Exact (o : Overflow) (x y : Nat) : Prop :=
  ∀ n, o.add? x y = some n → n = x + y

variable {o : Overflow} {x y : Nat}

theorem add?_of_lt (h : x + y < sizeBound) : o.add? x y = some (x + y) :=
  if_pos h

theorem exact_of_lt (h : x + y < sizeBound) : o.Exact x y := by
  intro n hn
  rw [add?_of_lt h] at hn
  exact (Option.some.inj hn).symm

theorem exact_stops : stops.Exact x y := by
  by_cases h : x + y < sizeBound
  · exact exact_of_lt h
  · intro n hn
    rw [add?, if_neg h] at hn
    cases hn

/-- A sum that wraps around is a wrong one. -/
theorem exact_wraps_iff : wraps.Exact x y ↔ x + y < sizeBound := by
  refine ⟨fun h => ?_, exact_of_lt⟩
  by_cases hlt : x + y < sizeBound
  · exact hlt
  · rw [← h ((x + y) % sizeBound) (if_neg hlt)]
    exact Nat.mod_lt _ (by decide)

theorem Exact.add?_cases (h : o.Exact x y) :
    o.add? x y = some (x + y) ∨ o.add? x y = none ∧ sizeBound ≤ x + y := by
  by_cases hlt : x + y < sizeBound
  · exact .inl (add?_of_lt hlt)
  · cases hadd : o.add? x y with
    | none => exact .inr ⟨rfl, Nat.le_of_not_lt hlt⟩
    | some n =>
      rw [h n hadd]
      exact .inl rfl

end Overflow

end Handheld
