/-
# The calls of an allocator

Every call of an allocator in which no sum wraps around either is refused and changes nothing, or
moves the places of one block: from the free ones to those that are handed out (`HandsOut`), or back
(`TakesBack`).  All that a call can do is said once for each of the three calls, in
`allocate_cases`, `reserve_cases` and `release_cases`; what happens in a run of calls follows from
these alone.
-/
import Handheld.Proofs.Allocation.Spans

namespace Handheld

/-! ## The places of a block -/

/-- The windows of the banks do not reach the end of the address space. -/
lemma BankSpace.window_add_le (space : BankSpace) (bank : Nat) :
    (space.window bank).toNat + space.bankSize ≤ 0xC000 := by
  have hsize : space.bankSize = 0x4000 ∧ (space.window bank).toNat ≤ 0x4000 ∨
      space.bankSize = 0x2000 ∧ (space.window bank).toNat = 0xA000 := by
    cases space with
    | ram => exact .inr ⟨rfl, rfl⟩
    | rom =>
      refine .inl ⟨rfl, ?_⟩
      cases bank with
      | zero => exact Nat.zero_le _
      | succ n => exact le_of_eq rfl
  omega

/-- Sums of places of a bank have room. -/
lemma BankSpace.bankSize_lt (space : BankSpace) : space.bankSize < sizeBound := by
  cases space with
  | rom => decide
  | ram => decide

namespace Block

/-- Whether a block has a place of a bank, by the addresses at which the two show. -/
def Holds (space : BankSpace) (b : Block) (bank place : Nat) : Prop :=
  b.bank = bank ∧ b.address.toNat ≤ (space.window bank).toNat + place ∧
    (space.window bank).toNat + place < b.address.toNat + b.size

/-- The places of a block in its bank. -/
def span (space : BankSpace) (b : Block) : Span where
  start := b.offset space
  stop := b.offset space + b.size

/-- Whether a block lies in the window of its bank. -/
def Inside (space : BankSpace) (b : Block) : Prop :=
  (space.window b.bank).toNat ≤ b.address.toNat ∧
    b.address.toNat + b.size ≤ (space.window b.bank).toNat + space.bankSize

lemma Inside.mem_span_iff {space : BankSpace} {b : Block} {place : Nat} (h : b.Inside space) :
    place ∈ b.span space ↔ b.Holds space b.bank place := by
  obtain ⟨hwindow, -⟩ := h
  simp only [span, offset, Span.mem_mk, Holds, true_and]
  omega

lemma Inside.offset_add_le {space : BankSpace} {b : Block} (h : b.Inside space) :
    b.offset space + b.size ≤ space.bankSize := by
  obtain ⟨hwindow, hend⟩ := h
  simp only [offset]
  omega

end Block

namespace BankAllocator

open Handheld.Span

variable {a a' : BankAllocator} {b : Block} {gap bank size offset i k : Nat}
  {spans spans' : List Span} {o : Overflow}

lemma address_block (h : offset ≤ a.space.bankSize) :
    (a.block bank offset size).address.toNat = (a.space.window bank).toNat + offset := by
  have := a.space.window_add_le bank
  simp only [block, UInt16.toNat_add, UInt16.toNat_ofNat']
  omega

lemma holds_block (h : offset ≤ a.space.bankSize) :
    (a.block bank offset size).Holds a.space k i ↔
      k = bank ∧ i ∈ (⟨offset, offset + size⟩ : Span) := by
  simp only [Block.Holds, address_block h, mem_mk]
  simp only [block]
  constructor
  · rintro ⟨rfl, hstart, hstop⟩
    exact ⟨rfl, by omega⟩
  · rintro ⟨rfl, hstart, hstop⟩
    exact ⟨rfl, by omega⟩

lemma inside_block (h : offset + size ≤ a.space.bankSize) :
    (a.block bank offset size).Inside a.space := by
  simp only [Block.Inside, address_block ((Nat.le_add_right offset size).trans h)]
  simp only [block]
  omega

/-! ## The places that are free -/

/-- Whether a place of a bank is free. -/
def IsFree (a : BankAllocator) (bank place : Nat) : Prop :=
  Free (a.free.getD bank []) place

instance (a : BankAllocator) (bank place : Nat) : Decidable (a.IsFree bank place) :=
  inferInstanceAs (Decidable (Free _ _))

/-- Whether the free spans of every bank lie in it, at least `gap` places apart. -/
def Tidy (gap : Nat) (a : BankAllocator) : Prop :=
  ∀ (bank : Nat) (spans : List Span), a.free[bank]? = some spans →
    Laid gap a.space.bankSize 0 spans

/-- An allocator with other free spans in a bank. -/
def withSpans (a : BankAllocator) (bank : Nat) (spans : List Span) : BankAllocator :=
  { a with free := a.free.set bank spans }

@[simp] lemma withSpans_banks : (a.withSpans bank spans).banks = a.banks :=
  List.length_set

lemma lt_banks (h : a.free[bank]? = some spans) : bank < a.banks :=
  (List.getElem?_eq_some_iff.mp h).1

lemma isFree_iff (h : a.free[bank]? = some spans) : a.IsFree bank i ↔ Free spans i := by
  rw [IsFree, List.getD_eq_getElem?_getD, h]
  rfl

lemma exists_spans (h : bank < a.banks) : ∃ spans, a.free[bank]? = some spans :=
  ⟨_, List.getElem?_eq_getElem h⟩

/-- Only places of a bank are free. -/
lemma Tidy.lt (h : a.Tidy gap) (hi : a.IsFree bank i) : bank < a.banks ∧ i < a.space.bankSize := by
  by_cases hbank : bank < a.banks
  · obtain ⟨spans, hspans⟩ := exists_spans hbank
    exact ⟨hbank, ((h bank spans hspans).bounds_of_free ((isFree_iff hspans).mp hi)).2⟩
  · have hnone : a.free[bank]? = none := List.getElem?_eq_none (not_lt.mp hbank)
    rw [IsFree, List.getD_eq_getElem?_getD, hnone] at hi
    exact absurd hi not_free_nil

lemma isFree_withSpans (hbank : bank < a.banks) :
    (a.withSpans bank spans).IsFree k i ↔ if k = bank then Free spans i else a.IsFree k i := by
  simp only [IsFree, withSpans, List.getD_eq_getElem?_getD, List.getElem?_set]
  by_cases hk : k = bank
  · subst hk
    have hlt : k < a.free.length := hbank
    simp [hlt]
  · simp [hk, Ne.symm hk]

lemma Tidy.withSpans (h : a.Tidy gap) (hspans : Laid gap a.space.bankSize 0 spans) :
    (a.withSpans bank spans).Tidy gap := by
  intro k spans' hk
  simp only [BankAllocator.withSpans, List.getElem?_set] at hk
  split at hk
  · split at hk
    · obtain rfl := Option.some.inj hk
      exact hspans
    · cases hk
  · exact h k spans' hk

/-- Whether an allocator has become another one by handing out a block: the places of the block
were free and are so no more, and nothing else is different. -/
structure HandsOut (a a' : BankAllocator) (b : Block) : Prop where
  space : a'.space = a.space
  banks : a'.banks = a.banks
  bank_lt : b.bank < a.banks
  inside : b.Inside a.space
  wasFree : ∀ bank place, b.Holds a.space bank place → a.IsFree bank place
  isFree_iff : ∀ bank place,
    a'.IsFree bank place ↔ a.IsFree bank place ∧ ¬ b.Holds a.space bank place
  others : ∀ bank, bank ≠ b.bank → a'.free[bank]? = a.free[bank]?
  /-- An empty block leaves no gap where it was. -/
  tidy : ∀ gap, gap ≤ b.size → a.Tidy gap → a'.Tidy gap

/-- Whether an allocator has become another one by taking a block back: the places of the block
were not free and are so now, and nothing else is different. -/
structure TakesBack (a a' : BankAllocator) (b : Block) : Prop where
  space : a'.space = a.space
  banks : a'.banks = a.banks
  wasHeld : ∀ bank place, b.Holds a.space bank place → ¬ a.IsFree bank place
  isFree_iff : ∀ bank place,
    a'.IsFree bank place ↔ a.IsFree bank place ∨ b.Holds a.space bank place
  others : ∀ bank, bank ≠ b.bank → a'.free[bank]? = a.free[bank]?
  tidy : ∀ gap, gap ≤ 1 → a.Tidy gap → a'.Tidy gap

/-- Whether a block can be taken back: it is not empty, lies in the window of a bank, and none of
its places is free. -/
structure Returnable (a : BankAllocator) (b : Block) : Prop where
  bank_lt : b.bank < a.banks
  size_ne : b.size ≠ 0
  inside : b.Inside a.space
  held : ∀ place, b.Holds a.space b.bank place → ¬ a.IsFree b.bank place

/-- Places that are cut out of the free spans of a bank leave as a block. -/
lemma handsOut_cut? (h : a.Tidy 0) (hspans : a.free[bank]? = some spans)
    (hcut : cut? offset (offset + size) spans = some spans') :
    a.HandsOut (a.withSpans bank spans') (a.block bank offset size) := by
  have hbank := lt_banks hspans
  have hlaid := h bank spans hspans
  obtain ⟨s, hs, hstart, hstop⟩ := exists_cut?_iff.mp ⟨spans', hcut⟩
  have hbounds := hlaid.bounds hs
  have hoffset : offset ≤ a.space.bankSize := by omega
  refine ⟨rfl, withSpans_banks, hbank, inside_block (by omega), ?_, ?_, ?_, ?_⟩
  · intro k i hi
    obtain ⟨rfl, hmem⟩ := (holds_block hoffset).mp hi
    exact (isFree_iff hspans).mpr (free_of_cut? hcut hmem)
  · intro k i
    rw [isFree_withSpans hbank, holds_block hoffset]
    by_cases hk : k = bank
    · subst hk
      simp [free_cut? hlaid (Nat.le_add_right offset size) hcut, isFree_iff hspans]
    · simp [hk]
  · intro k hk
    exact List.getElem?_set_ne (Ne.symm hk)
  · intro gap hgap htidy
    exact htidy.withSpans (laid_cut? (htidy bank spans hspans) (Nat.add_le_add_left hgap _) hcut)

/-- A block that is put back among the free spans of its bank comes back. -/
lemma takesBack_insert? (h : a.Tidy 0) (hspans : a.free[b.bank]? = some spans)
    (hinside : b.Inside a.space) (hsize : b.size ≠ 0)
    (hinsert : insert? (b.span a.space) spans = some spans') :
    a.Returnable b ∧ a.TakesBack (a.withSpans b.bank spans') b := by
  have hbank := lt_banks hspans
  have hne : (b.span a.space).start < (b.span a.space).stop := by
    simp only [Block.span]
    omega
  have hstop : (b.span a.space).stop ≤ a.space.bankSize := hinside.offset_add_le
  have hheld : ∀ i, b.Holds a.space b.bank i → ¬ a.IsFree b.bank i := fun i hi => by
    rw [isFree_iff hspans]
    exact (exists_insert?_iff (h b.bank spans hspans) hne).mp ⟨spans', hinsert⟩ i
      (hinside.mem_span_iff.mpr hi)
  have hlaid : ∀ gap, gap ≤ 1 → Laid gap a.space.bankSize 0 spans →
      Laid gap a.space.bankSize 0 spans' ∧ ∀ i, Free spans' i ↔ Free spans i ∨ i ∈ b.span a.space :=
    fun gap hgap hlaid => laid_insert? hlaid hgap (Nat.zero_le _) hne hstop hinsert
  refine ⟨⟨hbank, hsize, hinside, hheld⟩, rfl, withSpans_banks, ?_, ?_, ?_, ?_⟩
  · intro k i hi
    obtain rfl : b.bank = k := hi.1
    exact hheld i hi
  · intro k i
    rw [isFree_withSpans hbank]
    by_cases hk : k = b.bank
    · subst hk
      rw [if_pos rfl, (hlaid 0 (Nat.zero_le 1) (h b.bank spans hspans)).2, isFree_iff hspans,
        hinside.mem_span_iff]
    · have hnot : ¬ b.Holds a.space k i := fun hi => hk hi.1.symm
      simp [hk, hnot]
  · intro k hk
    exact List.getElem?_set_ne (Ne.symm hk)
  · intro gap hgap htidy
    exact htidy.withSpans (hlaid gap hgap (htidy b.bank spans hspans)).1

/-! ## Asking for a block of a size -/

lemma mem_candidates {c : Candidate} {banks : Option Nat} :
    c ∈ a.candidates size banks ↔
      (∃ spans, a.free[c.bank]? = some spans ∧ c.span ∈ spans) ∧ size ≤ c.span.length ∧
        ∀ k ∈ banks, k = c.bank := by
  obtain ⟨k, s⟩ := c
  simp only [candidates, List.mem_flatMap, Prod.exists, List.mem_zipIdx_iff_getElem?]
  constructor
  · rintro ⟨spans, j, hspans, hmem⟩
    split at hmem
    · rename_i hall
      obtain ⟨t, ht, hc⟩ := List.mem_map.mp hmem
      obtain ⟨ht, hsize⟩ := List.mem_filter.mp ht
      obtain ⟨rfl, rfl⟩ := Candidate.mk.inj hc
      exact ⟨⟨spans, hspans, ht⟩, of_decide_eq_true hsize, by simpa [Option.all_eq_true] using hall⟩
    · cases hmem
  · rintro ⟨⟨spans, hspans, hs⟩, hsize, hall⟩
    refine ⟨spans, k, hspans, ?_⟩
    rw [if_pos (by simpa [Option.all_eq_true] using hall)]
    exact List.mem_map.mpr ⟨s, List.mem_filter.mpr ⟨hs, decide_eq_true hsize⟩, rfl⟩

lemma foldl_better_mem (c : Candidate) (cs : List Candidate) :
    cs.foldl Candidate.better c ∈ c :: cs := by
  induction cs generalizing c with
  | nil => exact List.mem_cons_self
  | cons d cs ih =>
    have hbetter : c.better d = c ∨ c.better d = d := by
      unfold Candidate.better
      split
      · exact .inr rfl
      · exact .inl rfl
    rcases List.mem_cons.mp (ih (c.better d)) with heq | hmem
    · rw [List.foldl_cons, heq]
      rcases hbetter with h | h
      · simp [h]
      · simp [h]
    · exact List.mem_cons_of_mem _ (List.mem_cons_of_mem _ hmem)

lemma best?_eq_none {cs : List Candidate} (h : best? cs = none) : cs = [] := by
  cases cs with
  | nil => rfl
  | cons c cs => cases h

lemma mem_of_best? {c : Candidate} {cs : List Candidate} (h : best? cs = some c) : c ∈ cs := by
  cases cs with
  | nil => cases h
  | cons d cs =>
    obtain rfl := Option.some.inj h
    exact foldl_better_mem d cs

/-- Whether a bank has a free span of a size. -/
def HasSpan (a : BankAllocator) (bank size : Nat) : Prop :=
  ∃ spans, a.free[bank]? = some spans ∧ ∃ s ∈ spans, size ≤ s.length

/-- An allocator of which a candidate has been taken: its span has lost its first places. -/
def taken (a : BankAllocator) (c : Candidate) (size : Nat) : BankAllocator :=
  { a with free := a.free.modify c.bank (takeFrom c.span size) }

lemma taken_eq {c : Candidate} (hspans : a.free[c.bank]? = some spans) :
    a.taken c size = a.withSpans c.bank (takeFrom c.span size spans) := by
  rw [taken, List.modify_eq_set_getElem?, hspans]
  rfl

/-- A candidate that is taken leaves its span. -/
lemma handsOut_candidate {c : Candidate} {banks : Option Nat} (h : a.Tidy 0) (hsize : size ≠ 0)
    (hc : c ∈ a.candidates size banks) :
    a.HandsOut (a.taken c size) (a.block c.bank c.span.start size) := by
  obtain ⟨⟨spans, hspans, hs⟩, hlength, -⟩ := mem_candidates.mp hc
  rw [taken_eq hspans]
  exact handsOut_cut? h hspans (cut?_eq_takeFrom (h c.bank spans hspans) hs hsize hlength)

/-- All that can happen when a block of a size is asked for. -/
lemma allocate_cases (h : a.Tidy 0) (size : Nat) (banks : Option Nat) :
    ((∃ e, a.allocate size banks = (.error e, a)) ∧
        (size ≠ 0 → ∀ k, (∀ j ∈ banks, j = k) → ¬ a.HasSpan k size)) ∨
      ∃ b a', a.allocate size banks = (.ok b, a') ∧ b.size = size ∧ size ≠ 0 ∧
        (∀ k ∈ banks, k = b.bank) ∧ a.HandsOut a' b := by
  unfold allocate
  split
  · rename_i j hj
    obtain ⟨hbanks, hlt⟩ := Option.filter_eq_some_iff.mp hj
    refine .inl ⟨⟨_, rfl⟩, fun _ k hk => ?_⟩
    rintro ⟨spans, hspans, -⟩
    have hbank := lt_banks hspans
    rw [← hk j hbanks] at hbank
    exact absurd (of_decide_eq_true hlt) (not_le.mpr hbank)
  · by_cases hsize : size = 0
    · rw [if_pos hsize]
      exact .inl ⟨⟨_, rfl⟩, fun hne => absurd hsize hne⟩
    · rw [if_neg hsize]
      split
      · rename_i hbest
        refine .inl ⟨⟨_, rfl⟩, fun _ k hk => ?_⟩
        rintro ⟨spans, hspans, s, hs, hlength⟩
        have hmem : (⟨k, s⟩ : Candidate) ∈ a.candidates size banks :=
          mem_candidates.mpr ⟨⟨spans, hspans, hs⟩, hlength, hk⟩
        rw [best?_eq_none hbest] at hmem
        cases hmem
      · rename_i c hbest
        have hc := mem_of_best? hbest
        exact .inr ⟨_, _, rfl, rfl, hsize, (mem_candidates.mp hc).2.2,
          handsOut_candidate h hsize hc⟩

/-! ## Asking for a block of a place -/

/-- Whether a call that adds up to a sum changes nothing: it is refused, or the program stops
because the sum has no room. -/
def Refuses {α : Type} (a : BankAllocator) (sum : Nat)
    (call : Option (Except AllocationError α × BankAllocator)) : Prop :=
  (∃ e, call = some (.error e, a)) ∨ call = none ∧ sizeBound ≤ sum

lemma Refuses.ne_ok {α : Type} {sum : Nat} {x : α}
    {call : Option (Except AllocationError α × BankAllocator)} (h : a.Refuses sum call) :
    call ≠ some (.ok x, a') := by
  rcases h with ⟨e, rfl⟩ | ⟨rfl, -⟩
  · simp
  · simp

/-- All that can happen when a block of a place is asked for. -/
lemma reserve_cases (h : a.Tidy 0) (bank : Nat) (hexact : o.Exact offset size) :
    (a.Refuses (offset + size) (a.reserve o bank offset size) ∧
        ¬ ∃ spans, a.free[bank]? = some spans ∧
          ∃ s ∈ spans, s.start ≤ offset ∧ offset + size ≤ s.stop) ∨
      ∃ b a', a.reserve o bank offset size = some (.ok b, a') ∧ b.bank = bank ∧ b.size = size ∧
        b.address.toNat = (a.space.window bank).toNat + offset ∧ a.HandsOut a' b := by
  unfold reserve
  split
  · rename_i hnone
    refine .inl ⟨.inl ⟨_, rfl⟩, ?_⟩
    rintro ⟨spans, hspans, -⟩
    cases hnone.symm.trans hspans
  · rename_i spans hspans
    rcases hexact.add?_cases with hadd | ⟨hadd, hlarge⟩
    · rw [hadd, Option.map_some]
      split
      · rename_i hcut
        refine .inl ⟨.inl ⟨_, rfl⟩, ?_⟩
        rintro ⟨spans', hspans', hs⟩
        obtain rfl := Option.some.inj (hspans.symm.trans hspans')
        obtain ⟨rest, hrest⟩ := exists_cut?_iff.mpr hs
        cases hcut.symm.trans hrest
      · rename_i rest hcut
        obtain ⟨s, hs, hstart, hstop⟩ := exists_cut?_iff.mp ⟨rest, hcut⟩
        have hbounds := (h bank spans hspans).bounds hs
        exact .inr ⟨_, _, rfl, rfl, rfl, address_block (by omega), handsOut_cut? h hspans hcut⟩
    · rw [hadd]
      refine .inl ⟨.inr ⟨rfl, hlarge⟩, ?_⟩
      rintro ⟨spans', hspans', s, hs, -, hstop⟩
      have hbounds := (h bank spans' hspans').bounds hs
      have := a.space.bankSize_lt
      omega

/-! ## Giving a block back -/

lemma Returnable.exact (hreturn : a.Returnable b) (o : Overflow) :
    o.Exact (b.offset a.space) b.size :=
  Overflow.exact_of_lt (hreturn.inside.offset_add_le.trans_lt a.space.bankSize_lt)

/-- A block that can be taken back is taken back. -/
lemma Returnable.exists_release (hreturn : a.Returnable b) (h : a.Tidy 0) (o : Overflow) :
    ∃ a', a.release o b = some (.ok (), a') ∧ a.TakesBack a' b := by
  obtain ⟨hbank, hsize, hinside, hheld⟩ := hreturn
  obtain ⟨spans, hspans⟩ := exists_spans hbank
  have hle := hinside.offset_add_le
  have hadd : o.add? (b.offset a.space) b.size = some (b.offset a.space + b.size) :=
    Overflow.add?_of_lt (hle.trans_lt a.space.bankSize_lt)
  obtain ⟨spans', hinsert⟩ :
      ∃ spans', insert? ⟨b.offset a.space, b.offset a.space + b.size⟩ spans = some spans' :=
    (exists_insert?_iff (h b.bank spans hspans) (by dsimp only; omega)).mpr fun i hi hfree =>
      hheld i (hinside.mem_span_iff.mp hi) ((isFree_iff hspans).mpr hfree)
  refine ⟨a.withSpans b.bank spans', ?_,
    (takesBack_insert? h hspans hinside hsize hinsert).2⟩
  rw [release, hspans]
  dsimp only
  rw [if_neg (not_lt.mpr hinside.1), hadd, Option.map_some, if_neg (by omega), hinsert]
  rfl

lemma refuses_release (h : a.Tidy 0) (hexact : o.Exact (b.offset a.space) b.size)
    (hreturn : ¬ a.Returnable b) :
    a.Refuses (b.offset a.space + b.size) (a.release o b) := by
  unfold release
  split
  · exact .inl ⟨_, rfl⟩
  · rename_i spans hspans
    split
    · exact .inl ⟨_, rfl⟩
    · rename_i hbefore
      dsimp only
      rcases hexact.add?_cases with hadd | ⟨hadd, hlarge⟩
      · rw [hadd, Option.map_some]
        split
        · exact .inl ⟨_, rfl⟩
        · rename_i hallowed
          have hinside : b.Inside a.space := by
            simp only [Block.offset] at hallowed
            exact ⟨by omega, by omega⟩
          split
          · exact .inl ⟨_, rfl⟩
          · rename_i spans' hinsert
            have hback := takesBack_insert? h hspans hinside (by omega) hinsert
            exact absurd hback.1 hreturn
      · rw [hadd]
        exact .inr ⟨rfl, hlarge⟩

/-- All that can happen when a block is given back. -/
lemma release_cases (h : a.Tidy 0) (hexact : o.Exact (b.offset a.space) b.size) :
    (a.Refuses (b.offset a.space + b.size) (a.release o b) ∧ ¬ a.Returnable b) ∨
      ∃ a', a.release o b = some (.ok (), a') ∧ a.Returnable b ∧ a.TakesBack a' b := by
  by_cases hreturn : a.Returnable b
  · obtain ⟨a', heq, hback⟩ := hreturn.exists_release h o
    exact .inr ⟨a', heq, hreturn, hback⟩
  · exact .inl ⟨refuses_release h hexact hreturn, hreturn⟩

end BankAllocator

end Handheld
