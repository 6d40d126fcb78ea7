/-
# What an allocator has handed out

An allocator starts with all of its banks free and is then called, in any order and with any
arguments whose sums do not wrap around: in a build that stops at a sum without room these are all
arguments.  The main statement, `BankAllocator.History.keeps_accounts`, says that it keeps its
accounts: its free spans lie in order, a call that is refused changes nothing, and any other call
moves the places of its block and no more.  So a place that has been handed out is handed out again
only after it has been taken back.
-/
import Handheld.Proofs.Allocation.Calls

namespace Handheld

/-- What changes hands by a call of an allocator. -/
inductive Exchange where
  | handedOut (b : Block)
  | takenBack (b : Block)
deriving DecidableEq

namespace Exchange

/-- What changes hands by a call that asks for a block, by its answer. -/
def ofGrant : Except AllocationError Block → List Exchange
  | .ok b => [handedOut b]
  | .error _ => []

/-- What changes hands by a call that gives a block back, by its answer. -/
def ofReturn (b : Block) : Except AllocationError Unit → List Exchange
  | .ok () => [takenBack b]
  | .error _ => []

/-- Whether a place of a bank is held, where the latest exchange stands first: it has been handed
out and has not been taken back since. -/
def Held (space : BankSpace) (bank place : Nat) : List Exchange → Prop
  | [] => False
  | handedOut b :: log => b.Holds space bank place ∨ Held space bank place log
  | takenBack b :: log => ¬ b.Holds space bank place ∧ Held space bank place log

/-- Whether every block has been handed out in the window of a bank, at places that were not
held. -/
def Apart (space : BankSpace) (banks : Nat) : List Exchange → Prop
  | [] => True
  | handedOut b :: log =>
    (b.bank < banks ∧ b.Inside space ∧
        ∀ bank place, b.Holds space bank place → ¬ Held space bank place log) ∧
      Apart space banks log
  | takenBack _ :: log => Apart space banks log

variable {space : BankSpace} {banks bank place : Nat} {b x y : Block}
  {later between earlier log : List Exchange}

/-- A place that has been handed out is held until it is taken back. -/
lemma held_of_handedOut (hb : b.Holds space bank place)
    (hlater : ∀ c, takenBack c ∈ later → ¬ c.Holds space bank place) :
    Held space bank place (later ++ handedOut b :: log) := by
  induction later with
  | nil => exact .inl hb
  | cons e later ih =>
    have hrest := ih fun c hc => hlater c (List.mem_cons_of_mem e hc)
    cases e with
    | handedOut c => exact .inr hrest
    | takenBack c => exact ⟨hlater c List.mem_cons_self, hrest⟩

lemma Apart.not_held (h : Apart space banks (later ++ handedOut b :: earlier))
    (hb : b.Holds space bank place) : ¬ Held space bank place earlier := by
  induction later with
  | nil => exact h.1.2.2 bank place hb
  | cons e later ih =>
    cases e with
    | handedOut c => exact ih h.2
    | takenBack c => exact ih h

/-- A place of two blocks has been taken back after it was handed out in the first of them. -/
lemma Apart.exists_takenBack
    (h : Apart space banks (later ++ handedOut y :: (between ++ handedOut x :: earlier)))
    (hx : x.Holds space bank place) (hy : y.Holds space bank place) :
    ∃ c, takenBack c ∈ between ∧ c.Holds space bank place := by
  by_contra hnone
  push Not at hnone
  exact h.not_held hy (held_of_handedOut hx hnone)

end Exchange

namespace BankAllocator

open Exchange Overflow

/-- The allocators that come about by calls that return, as long as no sum wraps around, with what
has changed hands, the latest first. -/
inductive History (o : Overflow) (space : BankSpace) (banks : Nat) :
    List Exchange → BankAllocator → Prop
  | start : History o space banks [] (ofBanks space banks)
  | allocate {log : List Exchange} {a : BankAllocator} (h : History o space banks log a)
      (size : Nat) (bank : Option Nat) :
      History o space banks (ofGrant (a.allocate size bank).1 ++ log) (a.allocate size bank).2
  | reserve {log : List Exchange} {a a' : BankAllocator} {r : Except AllocationError Block}
      (h : History o space banks log a) (bank offset size : Nat) (hexact : o.Exact offset size)
      (hcall : a.reserve o bank offset size = some (r, a')) :
      History o space banks (ofGrant r ++ log) a'
  | release {log : List Exchange} {a a' : BankAllocator} {r : Except AllocationError Unit}
      (h : History o space banks log a) (b : Block) (hexact : o.Exact (b.offset space) b.size)
      (hcall : a.release o b = some (r, a')) : History o space banks (ofReturn b r ++ log) a'

variable {o : Overflow} {space : BankSpace} {a a' : BankAllocator} {b : Block}
  {banks bank place : Nat} {log : List Exchange}

/-! ## The start -/

lemma bankSize_pos (space : BankSpace) : 0 < space.bankSize := by
  cases space
  · exact Nat.zero_lt_succ _
  · exact Nat.zero_lt_succ _

lemma banks_ofBanks : (ofBanks space banks).banks = banks := by
  simp [ofBanks, BankAllocator.banks]

lemma free_ofBanks (h : bank < banks) :
    (ofBanks space banks).free[bank]? = some [⟨0, space.bankSize⟩] := by
  simp [ofBanks, h]

lemma tidy_ofBanks (gap : Nat) : (ofBanks space banks).Tidy gap := by
  intro bank spans hspans
  have hbank := lt_banks hspans
  rw [banks_ofBanks] at hbank
  obtain rfl := Option.some.inj ((free_ofBanks hbank).symm.trans hspans)
  exact ⟨le_rfl, bankSize_pos space, le_rfl, trivial⟩

lemma isFree_ofBanks :
    (ofBanks space banks).IsFree bank place ↔ bank < banks ∧ place < space.bankSize := by
  constructor
  · intro hfree
    have hlt := (tidy_ofBanks 0).lt hfree
    rwa [banks_ofBanks] at hlt
  · rintro ⟨hbank, hplace⟩
    rw [isFree_iff (free_ofBanks hbank)]
    exact ⟨_, List.mem_singleton_self _, Nat.zero_le _, hplace⟩

/-! ## The balance -/

/-- Whether the free places of an allocator are those that what has changed hands leaves. -/
structure Balanced (space : BankSpace) (banks : Nat) (log : List Exchange) (a : BankAllocator) :
    Prop where
  space_eq : a.space = space
  banks_eq : a.banks = banks
  isFree_iff : ∀ bank place,
    a.IsFree bank place ↔ bank < banks ∧ place < space.bankSize ∧ ¬ Held space bank place log
  apart : Apart space banks log
  /-- Spans touch only if an empty block has come between them. -/
  tidy : ∀ gap, gap ≤ 1 → (∀ b, handedOut b ∈ log → gap ≤ b.size) → a.Tidy gap

namespace Balanced

lemma tidy_zero (h : Balanced space banks log a) : a.Tidy 0 :=
  h.tidy 0 (Nat.zero_le 1) fun _ _ => Nat.zero_le _

lemma handsOut (h : Balanced space banks log a) (hout : a.HandsOut a' b) :
    Balanced space banks (handedOut b :: log) a' := by
  refine ⟨hout.space.trans h.space_eq, hout.banks.trans h.banks_eq, fun k i => ?_, ⟨?_, h.apart⟩,
    fun gap hgap hlog => ?_⟩
  · rw [hout.isFree_iff, h.isFree_iff, h.space_eq, Held]
    tauto
  · refine ⟨h.banks_eq ▸ hout.bank_lt, h.space_eq ▸ hout.inside, fun k i hi => ?_⟩
    have hfree := hout.wasFree k i (h.space_eq.symm ▸ hi)
    exact ((h.isFree_iff k i).mp hfree).2.2
  · refine hout.tidy gap (hlog b List.mem_cons_self) (h.tidy gap hgap fun c hc => ?_)
    exact hlog c (List.mem_cons_of_mem _ hc)

/-- The places of a block in the window of a bank are places of the bank. -/
lemma lt_of_holds (h : Balanced space banks log a) (hreturn : a.Returnable b)
    (hb : b.Holds space bank place) : bank < banks ∧ place < space.bankSize := by
  obtain ⟨rfl, -, hstop⟩ := hb
  obtain ⟨-, hend⟩ := hreturn.inside
  rw [h.space_eq] at hend
  exact ⟨h.banks_eq ▸ hreturn.bank_lt, by omega⟩

lemma takesBack (h : Balanced space banks log a) (hreturn : a.Returnable b)
    (hback : a.TakesBack a' b) : Balanced space banks (takenBack b :: log) a' := by
  refine ⟨hback.space.trans h.space_eq, hback.banks.trans h.banks_eq, fun k i => ?_, h.apart,
    fun gap hgap hlog => ?_⟩
  · have hlt : b.Holds space k i → k < banks ∧ i < space.bankSize := h.lt_of_holds hreturn
    rw [hback.isFree_iff, h.isFree_iff, h.space_eq, Held]
    tauto
  · refine hback.tidy gap hgap (h.tidy gap hgap fun c hc => ?_)
    exact hlog c (List.mem_cons_of_mem _ hc)

end Balanced

/-! ## The accounts -/

/-- Whether an allocator keeps its accounts. -/
structure Accountable (a : BankAllocator) (o : Overflow) : Prop where
  /-- The free spans of a bank lie in order and apart; none is empty, and none leaves the bank. -/
  spans : ∀ (bank : Nat) (spans : List Span), a.free[bank]? = some spans →
    spans.Pairwise (fun s t => s.stop ≤ t.start) ∧
      ∀ s ∈ spans, s.start < s.stop ∧ s.stop ≤ a.space.bankSize
  available : ∀ bank, a.available o bank =
    some ((Finset.range a.space.bankSize).filter (a.IsFree bank)).card
  /-- A block of a size comes from the free places of a bank that was asked for. -/
  allocate : ∀ size bank, (∃ e, a.allocate size bank = (.error e, a)) ∨
    ∃ b a', a.allocate size bank = (.ok b, a') ∧ b.size = size ∧ (∀ k ∈ bank, k = b.bank) ∧
      a.HandsOut a' b
  /-- A block of a place comes from just that place. -/
  reserve : ∀ bank offset size, o.Exact offset size →
    a.Refuses (offset + size) (a.reserve o bank offset size) ∨
    ∃ b a', a.reserve o bank offset size = some (.ok b, a') ∧ b.bank = bank ∧ b.size = size ∧
      b.address.toNat = (a.space.window bank).toNat + offset ∧ a.HandsOut a' b
  /-- A block is taken back if and only if it can be. -/
  release : ∀ b, o.Exact (b.offset a.space) b.size →
    a.Refuses (b.offset a.space + b.size) (a.release o b) ∧ ¬ a.Returnable b ∨
    ∃ a', a.release o b = some (.ok (), a') ∧ a.Returnable b ∧ a.TakesBack a' b

lemma Tidy.available_eq (h : a.Tidy 0) (o : Overflow) (bank : Nat) :
    a.available o bank =
      some ((Finset.range a.space.bankSize).filter (a.IsFree bank)).card := by
  have hsum : ((a.free.getD bank []).map Span.length).sum =
      ((Finset.range a.space.bankSize).filter (a.IsFree bank)).card := by
    by_cases hbank : bank < a.banks
    · obtain ⟨spans, hspans⟩ := exists_spans hbank
      have hgetD : a.free.getD bank [] = spans := by
        rw [List.getD_eq_getElem?_getD, hspans]
        rfl
      rw [hgetD, (h bank spans hspans).sum_length]
      simp only [isFree_iff hspans]
    · have hgetD : a.free.getD bank [] = [] := by
        rw [List.getD_eq_getElem?_getD, List.getElem?_eq_none (not_lt.mp hbank)]
        rfl
      have hnone : ∀ place ∈ Finset.range a.space.bankSize, ¬ a.IsFree bank place :=
        fun place _ hfree => hbank (h.lt hfree).1
      rw [hgetD, Finset.filter_false_of_mem hnone]
      rfl
  -- there are no more free places than places, so that their number has room
  have hle : ((Finset.range a.space.bankSize).filter (a.IsFree bank)).card ≤ a.space.bankSize :=
    (Finset.card_filter_le _ _).trans_eq (Finset.card_range _)
  rw [available, Overflow.sum?_of_lt (hsum ▸ hle.trans_lt a.space.bankSize_lt), hsum]

lemma Tidy.accountable (h : a.Tidy 0) (o : Overflow) : a.Accountable o := by
  refine ⟨fun bank spans hspans => ?_, h.available_eq o, fun size bank => ?_,
    fun bank offset size hexact => ?_, fun b hexact => release_cases h hexact⟩
  · have hlaid := h bank spans hspans
    exact ⟨hlaid.pairwise, fun s hs => (hlaid.bounds hs).2⟩
  · rcases allocate_cases h size bank with ⟨hrefused, -⟩ | ⟨b, a', heq, hsize, -, hbank, hout⟩
    · exact .inl hrefused
    · exact .inr ⟨b, a', heq, hsize, hbank, hout⟩
  · rcases reserve_cases h bank hexact with ⟨hrefused, -⟩ | hgranted
    · exact .inl hrefused
    · exact .inr hgranted

namespace History

/-- Every call keeps the balance. -/
lemma balanced (h : History o space banks log a) : Balanced space banks log a := by
  induction h with
  | start =>
    refine ⟨rfl, banks_ofBanks, fun k i => ?_, trivial, fun gap _ _ => tidy_ofBanks gap⟩
    rw [isFree_ofBanks]
    simp [Held]
  | allocate h size bank ih =>
    rcases allocate_cases ih.tidy_zero size bank with ⟨⟨e, heq⟩, -⟩ | ⟨b, a', heq, -, -, -, hout⟩
    · rw [heq]
      exact ih
    · rw [heq]
      exact ih.handsOut hout
  | reserve h bank offset size hexact hcall ih =>
    rcases reserve_cases ih.tidy_zero bank hexact with
      ⟨⟨e, heq⟩ | ⟨hnone, -⟩, -⟩ | ⟨b, a', heq, -, -, -, hout⟩
    · cases hcall.symm.trans heq
      exact ih
    · cases hcall.symm.trans hnone
    · cases hcall.symm.trans heq
      exact ih.handsOut hout
  | release h b hexact hcall ih =>
    rw [← ih.space_eq] at hexact
    rcases release_cases ih.tidy_zero hexact with
      ⟨⟨e, heq⟩ | ⟨hnone, -⟩, -⟩ | ⟨a', heq, hreturn, hback⟩
    · cases hcall.symm.trans heq
      exact ih
    · cases hcall.symm.trans hnone
    · cases hcall.symm.trans heq
      exact ih.takesBack hreturn hback

/-- **An allocator keeps its accounts**, whatever it is asked, as long as no sum wraps around.  Its
free places are those that nobody holds, and blocks that have a place in common have had it one
after the other. -/
theorem keeps_accounts (h : History o space banks log a) :
    a.space = space ∧ a.banks = banks ∧ a.Accountable o ∧
      (∀ bank place, a.IsFree bank place ↔
        bank < banks ∧ place < space.bankSize ∧ ¬ Held space bank place log) ∧
      ∀ later between earlier x y,
        log = later ++ handedOut y :: (between ++ handedOut x :: earlier) →
        ∀ bank place, x.Holds space bank place → y.Holds space bank place →
          ∃ c, takenBack c ∈ between ∧ c.Holds space bank place := by
  have hbalanced := h.balanced
  refine ⟨hbalanced.space_eq, hbalanced.banks_eq, hbalanced.tidy_zero.accountable o,
    hbalanced.isFree_iff, ?_⟩
  rintro later between earlier x y rfl bank place hx hy
  exact hbalanced.apart.exists_takenBack hx hy

/-- Half of a block is taken back, and is handed out again. -/
theorem half_keeps_accounts : ∃ a,
    History .wraps .ram 1 [.handedOut ⟨0, 0xA040, 0x20⟩, .takenBack ⟨0, 0xA040, 0x40⟩,
      .handedOut ⟨0, 0xB000, 0⟩, .handedOut ⟨0, 0xA000, 0x80⟩] a ∧
      a.Accountable .wraps ∧ ¬ a.IsFree 0 0x5F ∧ a.IsFree 0 0x60 := by
  have h : History .wraps .ram 1 _ _ :=
    (((History.start.allocate 0x80 none).reserve 0 0x1000 0 (exact_of_lt (by decide)) rfl).release
      ⟨0, 0xA040, 0x40⟩ (exact_of_lt (by decide)) rfl).allocate 0x20 (some 0)
  exact ⟨_, h, (keeps_accounts h).2.2.1, by decide, by decide⟩

/-- Where a sum wraps around, a block of more than all places is handed out; the spans that are left
overlap, and the block is not taken back. -/
example : ∃ a b, (ofBanks .ram 1).reserve .wraps 0 1 (sizeBound - 1) = some (.ok b, a) ∧
    a.free = [[⟨0, 1⟩, ⟨0, 0x2000⟩]] ∧
    a.release .wraps b = some (.error (.notAllocated b), a) :=
  ⟨⟨.ram, [[⟨0, 1⟩, ⟨0, 0x2000⟩]]⟩, ⟨0, 0xA001, sizeBound - 1⟩, by decide, rfl, by decide⟩

end History

end BankAllocator

end Handheld
