/-
# Room in a bank

Where no empty block has been handed out and no sum has wrapped around, no two free spans of a bank
touch, and so a run of free places lies in one span: an allocator finds room wherever there is some
(`BankAllocator.History.grants_iff`).  An empty block in the midst of free places cuts their span in
two, and hides from then on that they are together (`BankAllocator.History.hidden_by_empty`).
-/
import Handheld.Proofs.Allocation.History

namespace Handheld.BankAllocator

open Exchange Overflow Handheld.Span

variable {o : Overflow} {space : BankSpace} {a : BankAllocator} {b : Block}
  {banks bank start size : Nat} {log : List Exchange}

/-- Whether places of a bank, as many as `size` from `start` on, belong to nobody. -/
def Unheld (space : BankSpace) (banks : Nat) (log : List Exchange) (bank start size : Nat) : Prop :=
  bank < banks ∧ ∀ place, start ≤ place → place < start + size →
    place < space.bankSize ∧ ¬ Held space bank place log

namespace Balanced

variable (h : Balanced space banks log a)
include h

lemma unheld_iff (hsize : size ≠ 0) :
    Unheld space banks log bank start size ↔
      ∀ place, start ≤ place → place < start + size → a.IsFree bank place := by
  simp only [h.isFree_iff]
  constructor
  · rintro ⟨hbank, hplaces⟩ place hstart hstop
    exact ⟨hbank, hplaces place hstart hstop⟩
  · intro hfree
    exact ⟨(hfree start le_rfl (by omega)).1, fun place hstart hstop =>
      (hfree place hstart hstop).2⟩

/-- The places of a block that is handed out belonged to nobody. -/
lemma exists_unheld {a' : BankAllocator} (hout : a.HandsOut a' b) (hsize : b.size ≠ 0) :
    ∃ start, b.address.toNat = (a.space.window b.bank).toNat + start ∧
      Unheld space banks log b.bank start b.size := by
  obtain ⟨hwindow, -⟩ := hout.inside
  obtain ⟨start, haddress⟩ := Nat.exists_eq_add_of_le hwindow
  refine ⟨start, haddress, (h.unheld_iff hsize).mpr fun place hstart hstop => ?_⟩
  exact hout.wasFree b.bank place ⟨rfl, by omega, by omega⟩

/-- Places that belong to nobody are of one span, where no empty block has been handed out. -/
lemma exists_span (hlog : ∀ b, handedOut b ∈ log → b.size ≠ 0) (hsize : size ≠ 0)
    (hroom : Unheld space banks log bank start size) :
    ∃ spans, a.free[bank]? = some spans ∧ ∃ s ∈ spans, s.start ≤ start ∧ start + size ≤ s.stop := by
  have htidy : a.Tidy 1 := h.tidy 1 le_rfl fun b hb => Nat.one_le_iff_ne_zero.mpr (hlog b hb)
  obtain ⟨spans, hspans⟩ := exists_spans (h.banks_eq.symm ▸ hroom.1 : bank < a.banks)
  refine ⟨spans, hspans, (htidy bank spans hspans).exists_span (by omega) fun i hstart hstop => ?_⟩
  exact (BankAllocator.isFree_iff hspans).mp ((h.unheld_iff hsize).mp hroom i hstart hstop)

end Balanced

namespace History

/-- **No room is hidden** where no empty block has been handed out and no sum has wrapped around: a
block is granted if and only if its places belong to nobody, and a size if and only if a bank that
may serve has as many places together that belong to nobody. -/
theorem grants_iff (h : History o space banks log a)
    (hlog : ∀ b, handedOut b ∈ log → b.size ≠ 0) (hsize : size ≠ 0) :
    (∀ bank, (∃ b, (a.allocate size (some bank)).1 = .ok b) ↔
        ∃ start, Unheld space banks log bank start size) ∧
      ((∃ b, (a.allocate size none).1 = .ok b) ↔
        ∃ bank start, Unheld space banks log bank start size) ∧
      ∀ bank offset, o.Exact offset size →
        ((∃ b a', a.reserve o bank offset size = some (.ok b, a')) ↔
          Unheld space banks log bank offset size) := by
  have hbalanced := h.balanced
  have htidy := hbalanced.tidy_zero
  have hspan : ∀ {bank start}, Unheld space banks log bank start size → a.HasSpan bank size := by
    intro bank start hroom
    obtain ⟨spans, hspans, s, hs, hstart, hstop⟩ := hbalanced.exists_span hlog hsize hroom
    exact ⟨spans, hspans, s, hs, by unfold Span.length; omega⟩
  refine ⟨fun bank => ?_, ?_, fun bank offset hexact => ?_⟩
  · rcases allocate_cases htidy size (some bank) with
      ⟨⟨e, heq⟩, hnone⟩ | ⟨b, a', heq, rfl, -, hbank, hout⟩
    · refine iff_of_false (by simp [heq]) ?_
      rintro ⟨start, hroom⟩
      exact hnone hsize bank (by simp) (hspan hroom)
    · refine iff_of_true ⟨b, by rw [heq]⟩ ?_
      obtain rfl := hbank bank rfl
      obtain ⟨start, -, hroom⟩ := hbalanced.exists_unheld hout hsize
      exact ⟨start, hroom⟩
  · rcases allocate_cases htidy size none with ⟨⟨e, heq⟩, hnone⟩ | ⟨b, a', heq, rfl, -, -, hout⟩
    · refine iff_of_false (by simp [heq]) ?_
      rintro ⟨bank, start, hroom⟩
      exact hnone hsize bank (by simp) (hspan hroom)
    · refine iff_of_true ⟨b, by rw [heq]⟩ ?_
      obtain ⟨start, -, hroom⟩ := hbalanced.exists_unheld hout hsize
      exact ⟨b.bank, start, hroom⟩
  · rcases reserve_cases htidy bank hexact with
      ⟨hrefused, hnone⟩ | ⟨b, a', heq, rfl, rfl, haddress, hout⟩
    · refine iff_of_false ?_ fun hroom => hnone (hbalanced.exists_span hlog hsize hroom)
      rintro ⟨b, a', heq⟩
      exact hrefused.ne_ok heq
    · refine iff_of_true ⟨b, a', heq⟩ ?_
      obtain ⟨start, hstart, hroom⟩ := hbalanced.exists_unheld hout hsize
      obtain rfl : start = offset := by omega
      exact hroom

/-- Room is found between two blocks, one of which has been taken back in part, and right there. -/
theorem between_grants_iff : ∃ a b,
    History .wraps .ram 1 [.takenBack ⟨0, 0xA0F0, 0x10⟩, .handedOut ⟨0, 0xB000, 0x1000⟩,
      .handedOut ⟨0, 0xA000, 0x100⟩] a ∧ (a.allocate 0xF10 none).1 = .ok b ∧
      ∃ c a', a.reserve .wraps 0 0xF0 0xF10 = some (.ok c, a') := by
  have h : History .wraps .ram 1 _ _ :=
    ((History.start.allocate 0x100 none).reserve 0 0x1000 0x1000
      (exact_of_lt (by decide)) rfl).release ⟨0, 0xA0F0, 0x10⟩ (exact_of_lt (by decide)) rfl
  have hlog : ∀ b, handedOut b ∈ [takenBack ⟨0, 0xA0F0, 0x10⟩, .handedOut ⟨0, 0xB000, 0x1000⟩,
      .handedOut ⟨0, 0xA000, 0x100⟩] → b.size ≠ 0 := by
    simp
  have hroom : Unheld .ram 1 [takenBack ⟨0, 0xA0F0, 0x10⟩, .handedOut ⟨0, 0xB000, 0x1000⟩,
      .handedOut ⟨0, 0xA000, 0x100⟩] 0 0xF0 0xF10 := by
    refine ⟨Nat.one_pos, fun place hstart hstop => ?_⟩
    simp [BankSpace.bankSize, Cartridge.ramBankSize, Held, Block.Holds, BankSpace.window]
    omega
  obtain ⟨-, hany, hplace⟩ := grants_iff h hlog (show 0xF10 ≠ 0 by decide)
  obtain ⟨b, hb⟩ := hany.mpr ⟨0, 0xF0, hroom⟩
  exact ⟨_, b, h, hb, (hplace 0 0xF0 (exact_of_lt (by decide))).mpr hroom⟩

/-- An empty block hides that the places around it are together. -/
theorem hidden_by_empty : ∃ log a, History .stops .ram 1 log a ∧ Unheld .ram 1 log 0 0 0x2000 ∧
    (a.allocate 0x2000 (some 0)).1 = .error (.outOfMemory 0x2000) ∧
    (a.allocate 0x2000 none).1 = .error (.outOfMemory 0x2000) ∧
    a.reserve .stops 0 0 0x2000 = some (.error (.outOfMemory 0x2000), a) := by
  have h : History .stops .ram 1 [handedOut ⟨0, 0xB000, 0⟩] _ :=
    .reserve (r := .ok ⟨0, 0xB000, 0⟩) .start 0 0x1000 0 exact_stops rfl
  refine ⟨_, _, h, ⟨Nat.one_pos, fun place _ hstop => ?_⟩, by decide, by decide, by decide⟩
  simp [BankSpace.bankSize, Cartridge.ramBankSize, Held, Block.Holds]
  omega

end History

end Handheld.BankAllocator
