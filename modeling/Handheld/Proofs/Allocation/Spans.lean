/-
# Free spans

The free spans of a bank stand for a set of places.  `Span.Laid` says how the spans lie: in order,
apart from each other, none of them empty, none beyond the bank.  A gap is a parameter of it: with
a gap of one no two spans touch, so that no run of free places is cut in two (`Laid.exists_span`)
and the spans follow from the places (`Laid.eq_of_free_iff`).

Cutting places out and putting places back keep the spans so laid, and change the set of places by
just the places asked for.
-/
import Mathlib.Algebra.GroupWithZero.Nat
import Mathlib.Data.Finset.Card
import Mathlib.Order.Interval.Finset.Nat
import Mathlib.Tactic.Lemma
import Handheld.BankAllocator

namespace Handheld

/-! ## Sums of sizes -/

namespace Overflow

variable {o : Overflow} {sizes : List Nat}

lemma foldlM_add? {start : Nat} (h : start + sizes.sum < sizeBound) :
    sizes.foldlM o.add? start = some (start + sizes.sum) := by
  induction sizes generalizing start with
  | nil => rfl
  | cons n sizes ih =>
    rw [List.sum_cons, ← Nat.add_assoc] at h ⊢
    rw [List.foldlM_cons, add?_of_lt (Nat.lt_of_le_of_lt (Nat.le_add_right _ _) h)]
    exact ih h

lemma sum?_of_lt (h : sizes.sum < sizeBound) : o.sum? sizes = some sizes.sum := by
  rw [← Nat.zero_add sizes.sum] at h ⊢
  exact foldlM_add? h

end Overflow

/-! ## Spans and their places -/

namespace Span

instance : Membership Nat Span := ⟨fun s i => s.start ≤ i ∧ i < s.stop⟩

lemma mem_iff {s : Span} {i : Nat} : i ∈ s ↔ s.start ≤ i ∧ i < s.stop := Iff.rfl

lemma mem_mk {start stop i : Nat} : i ∈ (⟨start, stop⟩ : Span) ↔ start ≤ i ∧ i < stop := Iff.rfl

instance (s : Span) (i : Nat) : Decidable (i ∈ s) :=
  inferInstanceAs (Decidable (s.start ≤ i ∧ i < s.stop))

/-- Whether a place is free where these are the free spans. -/
def Free (spans : List Span) (i : Nat) : Prop :=
  ∃ s ∈ spans, i ∈ s

instance (spans : List Span) (i : Nat) : Decidable (Free spans i) :=
  inferInstanceAs (Decidable (∃ s ∈ spans, i ∈ s))

/-- Whether spans lie in order between `low` and `high`, each of them with places, and each at
least `gap` places behind the one before it. -/
def Laid (gap high : Nat) : (low : Nat) → List Span → Prop
  | _, [] => True
  | low, s :: spans =>
    low ≤ s.start ∧ s.start < s.stop ∧ s.stop ≤ high ∧ Laid gap high (s.stop + gap) spans

variable {gap high low low' start stop i : Nat} {s t x : Span} {spans spans' : List Span}

@[simp] lemma not_free_nil : ¬ Free [] i := by
  simp [Free]

@[simp] lemma free_cons : Free (s :: spans) i ↔ i ∈ s ∨ Free spans i := by
  simp [Free]

namespace Laid

lemma mono (h : Laid gap high low spans) (hlow : low' ≤ low) : Laid gap high low' spans := by
  cases spans with
  | nil => trivial
  | cons s spans => exact ⟨hlow.trans h.1, h.2⟩

lemma bounds (h : Laid gap high low spans) (hs : s ∈ spans) :
    low ≤ s.start ∧ s.start < s.stop ∧ s.stop ≤ high := by
  induction spans generalizing low with
  | nil => cases hs
  | cons t spans ih =>
    obtain ⟨hlow, hne, hhigh, hrest⟩ := h
    rcases List.mem_cons.mp hs with rfl | hs
    · exact ⟨hlow, hne, hhigh⟩
    · obtain ⟨hstart, hrest⟩ := ih hrest hs
      exact ⟨by omega, hrest⟩

lemma bounds_of_free (h : Laid gap high low spans) (hi : Free spans i) : low ≤ i ∧ i < high := by
  obtain ⟨s, hs, hstart, hstop⟩ := hi
  have := h.bounds hs
  omega

lemma pairwise (h : Laid gap high low spans) :
    spans.Pairwise fun s t => s.stop + gap ≤ t.start := by
  induction spans generalizing low with
  | nil => exact .nil
  | cons s spans ih =>
    obtain ⟨-, -, -, hrest⟩ := h
    exact .cons (fun t ht => (hrest.bounds ht).1) (ih hrest)

/-- Where no two spans touch, a run of free places lies in one span. -/
lemma exists_span (h : Laid 1 high low spans) (hlt : start < stop)
    (hfree : ∀ i, start ≤ i → i < stop → Free spans i) :
    ∃ s ∈ spans, s.start ≤ start ∧ stop ≤ s.stop := by
  induction spans generalizing low with
  | nil => exact absurd (hfree start le_rfl hlt) not_free_nil
  | cons s spans ih =>
    obtain ⟨-, -, -, hrest⟩ := h
    rcases free_cons.mp (hfree start le_rfl hlt) with hstart | hstart
    · refine ⟨s, List.mem_cons_self, hstart.1, ?_⟩
      -- otherwise the place behind `s` would be free, though no span starts there
      by_contra hstop
      rcases free_cons.mp (hfree s.stop hstart.2.le (by omega)) with hmem | hmem
      · exact absurd hmem.2 (lt_irrefl _)
      · have := hrest.bounds_of_free hmem
        omega
    · have hlow := (hrest.bounds_of_free hstart).1
      obtain ⟨t, ht, hspan⟩ := ih hrest fun i hi hi' =>
        (free_cons.mp (hfree i hi hi')).resolve_left fun hmem => by
          have := hmem.2
          omega
      exact ⟨t, List.mem_cons_of_mem s ht, hspan⟩

/-- Where no two spans touch, the first one ends where the free places do. -/
lemma stop_le (h : Laid 1 high low (t :: spans')) (hstart : s.start = t.start)
    (hfree : ∀ i, Free (s :: spans) i → Free (t :: spans') i) : s.stop ≤ t.stop := by
  by_contra hlt
  obtain ⟨-, hne, -, hrest⟩ := h
  have hmem : t.stop ∈ s := ⟨by omega, by omega⟩
  rcases free_cons.mp (hfree t.stop (free_cons.mpr (.inl hmem))) with hmem' | hmem'
  · exact absurd hmem'.2 (lt_irrefl _)
  · have := hrest.bounds_of_free hmem'
    omega

/-- The number of places in spans is that of the free places. -/
lemma sum_length (h : Laid gap high low spans) :
    (spans.map length).sum = ((Finset.range high).filter (Free spans)).card := by
  induction spans generalizing low with
  | nil => simp
  | cons s spans ih =>
    obtain ⟨-, hne, hhigh, hrest⟩ := h
    have hsplit : (Finset.range high).filter (Free (s :: spans)) =
        Finset.Ico s.start s.stop ∪ (Finset.range high).filter (Free spans) := by
      ext i
      simp only [Finset.mem_filter, Finset.mem_range, Finset.mem_union, Finset.mem_Ico, free_cons,
        mem_iff]
      constructor
      · rintro ⟨hi, hmem | hmem⟩
        · exact .inl hmem
        · exact .inr ⟨hi, hmem⟩
      · rintro (hmem | ⟨hi, hmem⟩)
        · exact ⟨by omega, .inl hmem⟩
        · exact ⟨hi, .inr hmem⟩
    have hdisjoint : Disjoint (Finset.Ico s.start s.stop)
        ((Finset.range high).filter (Free spans)) := by
      refine Finset.disjoint_left.mpr fun i hi hi' => ?_
      have hlow := (hrest.bounds_of_free (Finset.mem_filter.mp hi').2).1
      have hstop := (Finset.mem_Ico.mp hi).2
      omega
    rw [hsplit, Finset.card_union_of_disjoint hdisjoint, Nat.card_Ico, List.map_cons, List.sum_cons,
      ih hrest, length]

end Laid

end Span

namespace BankAllocator

open Handheld.Span

variable {gap high low size start stop i : Nat} {s t : Span} {spans spans' : List Span}

/-! ## Cutting places out -/

lemma cut?_cons_eq_some_iff :
    cut? start stop (s :: spans) = some spans' ↔
      (s.start ≤ start ∧ stop ≤ s.stop) ∧
          (if s.start < start then [⟨s.start, start⟩] else []) ++
            (if stop < s.stop then [⟨stop, s.stop⟩] else []) ++ spans = spans' ∨
        ¬ (s.start ≤ start ∧ stop ≤ s.stop) ∧
          ∃ rest, cut? start stop spans = some rest ∧ s :: rest = spans' := by
  by_cases hin : s.start ≤ start ∧ stop ≤ s.stop
  · simp [cut?, hin]
  · simp [cut?, hin]

lemma exists_cut?_iff :
    (∃ spans', cut? start stop spans = some spans') ↔
      ∃ s ∈ spans, s.start ≤ start ∧ stop ≤ s.stop := by
  induction spans with
  | nil => simp [cut?]
  | cons s spans ih =>
    by_cases hin : s.start ≤ start ∧ stop ≤ s.stop
    · simp [cut?_cons_eq_some_iff, hin]
    · rw [List.exists_mem_cons_iff, or_iff_right hin, ← ih]
      simp [cut?_cons_eq_some_iff, hin]

/-- The rest of a span before or behind the places that are cut out. -/
lemma free_rest : Free (if start < stop then [⟨start, stop⟩] else []) i ↔ start ≤ i ∧ i < stop := by
  split
  · simp [mem_mk]
  · simp only [not_free_nil, false_iff]
    omega

lemma free_append : Free (spans ++ spans') i ↔ Free spans i ∨ Free spans' i := by
  simp only [Free, List.mem_append, or_and_right, exists_or]

/-- The two rests of the span keep the gap if the places that are cut out fill it. -/
lemma laid_cut? (h : Laid gap high low spans) (hgap : start + gap ≤ stop)
    (hcut : cut? start stop spans = some spans') : Laid gap high low spans' := by
  induction spans generalizing low spans' with
  | nil => cases hcut
  | cons s spans ih =>
    obtain ⟨hlow, hne, hhigh, hrest⟩ := h
    rcases cut?_cons_eq_some_iff.mp hcut with ⟨hin, rfl⟩ | ⟨-, rest, hrest', rfl⟩
    · have hright : Laid gap high (start + gap)
          ((if stop < s.stop then [⟨stop, s.stop⟩] else []) ++ spans) := by
        by_cases hstop : stop < s.stop
        · rw [if_pos hstop]
          exact ⟨hgap, hstop, hhigh, hrest⟩
        · rw [if_neg hstop]
          exact hrest.mono (by omega)
      by_cases hstart : s.start < start
      · rw [if_pos hstart, List.append_assoc]
        exact ⟨hlow, hstart, by dsimp only; omega, hright⟩
      · rw [if_neg hstart, List.append_assoc]
        exact hright.mono (by omega)
    · exact ⟨hlow, hne, hhigh, ih hrest hrest'⟩

/-- The places that are cut out were free. -/
lemma free_of_cut? (hcut : cut? start stop spans = some spans')
    (hi : i ∈ (⟨start, stop⟩ : Span)) : Free spans i := by
  obtain ⟨s, hs, hstart, hstop⟩ := exists_cut?_iff.mp ⟨_, hcut⟩
  exact ⟨s, hs, hstart.trans hi.1, hi.2.trans_le hstop⟩

/-- The places that are cut out are free no more. -/
lemma free_cut? (h : Laid gap high low spans) (hle : start ≤ stop)
    (hcut : cut? start stop spans = some spans') :
    Free spans' i ↔ Free spans i ∧ i ∉ (⟨start, stop⟩ : Span) := by
  induction spans generalizing low spans' with
  | nil => cases hcut
  | cons s spans ih =>
    obtain ⟨-, -, -, hrest⟩ := h
    have hbehind : Free spans i → s.stop ≤ i := fun hi => by
      have := hrest.bounds_of_free hi
      omega
    rcases cut?_cons_eq_some_iff.mp hcut with ⟨hin, rfl⟩ | ⟨-, rest, hrest', rfl⟩
    · rw [free_append, free_append, free_rest, free_rest, free_cons, mem_iff, mem_mk]
      constructor
      · rintro ((hi | hi) | hi)
        · exact ⟨.inl (by omega), by omega⟩
        · exact ⟨.inl (by omega), by omega⟩
        · have := hbehind hi
          exact ⟨.inr hi, by omega⟩
      · rintro ⟨hi | hi, hout⟩
        · exact .inl (by omega)
        · exact .inr hi
    · rw [free_cons, free_cons, ih hrest hrest']
      constructor
      · rintro (hi | ⟨hi, hout⟩)
        · refine ⟨.inl hi, fun hmem => ?_⟩
          have hstop := hbehind (free_of_cut? hrest' hmem)
          have := hi.2
          omega
        · exact ⟨.inr hi, hout⟩
      · rintro ⟨hi | hi, hout⟩
        · exact .inl hi
        · exact .inr ⟨hi, hout⟩

/-- To take from the start of a span is to cut the places out. -/
lemma cut?_eq_takeFrom (h : Laid gap high low spans) (hs : s ∈ spans) (hsize : size ≠ 0)
    (hlength : size ≤ s.length) :
    cut? s.start (s.start + size) spans = some (takeFrom s size spans) := by
  unfold Span.length at hlength
  induction spans generalizing low with
  | nil => cases hs
  | cons t spans ih =>
    have hbounds := h.bounds hs
    by_cases ht : t = s
    · subst ht
      by_cases hall : t.start + size = t.stop
      · simp [cut?, takeFrom, hall]
      · have hstop : t.start + size < t.stop := by omega
        simp [cut?, takeFrom, hall, hstop, hstop.le]
    · obtain ⟨-, -, -, hrest⟩ := h
      have hs' : s ∈ spans := (List.mem_cons.mp hs).resolve_left (Ne.symm ht)
      -- `s` lies behind `t`, so its places are none of `t`
      have hstart := (hrest.bounds hs').1
      have hnot : ¬ (t.start ≤ s.start ∧ s.start + size ≤ t.stop) := by omega
      simp [cut?, takeFrom, ht, hnot, ih hrest hs']

/-! ## Putting places back -/

/-- A span in front of others joins them to its own, so that afterwards the two do not touch. -/
lemma laid_join (h : Laid gap high s.stop spans) (hgap : gap ≤ 1) (hlow : low ≤ s.start)
    (hne : s.start < s.stop) (hhigh : s.stop ≤ high) : Laid gap high low (join s spans) := by
  cases spans with
  | nil => exact ⟨hlow, hne, hhigh, trivial⟩
  | cons t spans =>
    obtain ⟨hlow', hne', hhigh', hrest⟩ := h
    by_cases htouch : s.stop = t.start
    · rw [join, if_pos htouch]
      exact ⟨hlow, by dsimp only; omega, hhigh', hrest⟩
    · rw [join, if_neg htouch]
      exact ⟨hlow, hne, hhigh, by omega, hne', hhigh', hrest⟩

lemma free_join (h : Laid gap high low spans) (hne : s.start < s.stop) :
    Free (join s spans) i ↔ i ∈ s ∨ Free spans i := by
  cases spans with
  | nil => simp [join]
  | cons t spans =>
    obtain ⟨-, hne', -, -⟩ := h
    by_cases htouch : s.stop = t.start
    · rw [join, if_pos htouch, free_cons, free_cons, ← or_assoc]
      refine or_congr_left ?_
      simp only [mem_iff]
      omega
    · rw [join, if_neg htouch, free_cons]

/-- Where a span goes into a list: right behind its first span, further behind, or before it. -/
lemma insert?_cons_eq_some_iff :
    insert? s (t :: spans) = some spans' ↔
      (t.start < s.start ∧ startsFrom s.start spans = true ∧ t.stop ≤ s.start ∧
          ∃ rest, insert? s spans = some rest ∧ join t rest = spans') ∨
        (t.start < s.start ∧ ¬ startsFrom s.start spans = true ∧
          ∃ rest, insert? s spans = some rest ∧ t :: rest = spans') ∨
        s.start ≤ t.start ∧ s.stop ≤ t.start ∧ join s (t :: spans) = spans' := by
  by_cases hafter : t.start < s.start
  · by_cases hnext : startsFrom s.start spans = true
    · by_cases hmeet : s.start < t.stop
      · simp [insert?, hafter, hnext, hmeet]
      · simp [insert?, hafter, hnext, hmeet, not_lt.mp hmeet]
    · simp [insert?, hafter, hnext]
  · by_cases hmeet : t.start < s.stop
    · simp [insert?, hafter, hmeet]
    · simp [insert?, hafter, hmeet, not_lt.mp hafter, not_lt.mp hmeet]

lemma le_of_not_startsFrom (h : ¬ startsFrom start spans = true)
    (hlaid : Laid gap high low spans) : low ≤ start := by
  cases spans with
  | nil => exact absurd rfl h
  | cons t spans =>
    have := hlaid.1
    simp only [startsFrom, decide_eq_true_eq] at h
    omega

/-- A span is put back where none of its places is free. -/
lemma exists_insert?_iff (h : Laid gap high low spans) (hne : s.start < s.stop) :
    (∃ spans', insert? s spans = some spans') ↔ ∀ i ∈ s, ¬ Free spans i := by
  induction spans generalizing low with
  | nil => simp [insert?]
  | cons t spans ih =>
    have hfront : Laid gap high t.start (t :: spans) := ⟨le_rfl, h.2⟩
    obtain ⟨hlow, hne', hhigh, hrest⟩ := h
    simp only [insert?_cons_eq_some_iff]
    constructor
    · -- where `s` goes behind `t`, it starts behind all places of `t`
      have hbehind {rest : List Span} (hstop : t.stop ≤ s.start)
          (hrest' : insert? s spans = some rest) : ∀ i ∈ s, ¬ Free (t :: spans) i := by
        intro i hi hfree
        rcases free_cons.mp hfree with hmem | hmem
        · have := hmem.2
          have := hi.1
          omega
        · exact (ih hrest).mp ⟨rest, hrest'⟩ i hi hmem
      rintro ⟨spans', ⟨-, -, hstop, rest, hrest', -⟩ | ⟨-, hnext, rest, hrest', -⟩ | ⟨-, hstop, -⟩⟩
      · exact hbehind hstop hrest'
      · have hstop := le_of_not_startsFrom hnext hrest
        exact hbehind (by omega) hrest'
      · intro i hi hfree
        have := hfront.bounds_of_free hfree
        have := hi.2
        omega
    · intro hheld
      by_cases hafter : t.start < s.start
      · -- the first place of `s` is none of `t`
        have hstop : t.stop ≤ s.start := by
          by_contra hmeet
          exact hheld s.start ⟨le_rfl, hne⟩ (free_cons.mpr (.inl ⟨by omega, by omega⟩))
        obtain ⟨rest, hrest'⟩ := (ih hrest).mpr fun i hi hmem =>
          hheld i hi (free_cons.mpr (.inr hmem))
        by_cases hnext : startsFrom s.start spans = true
        · exact ⟨_, .inl ⟨hafter, hnext, hstop, rest, hrest', rfl⟩⟩
        · exact ⟨_, .inr (.inl ⟨hafter, hnext, rest, hrest', rfl⟩)⟩
      · -- the first place of `t` is none of `s`
        have hstop : s.stop ≤ t.start := by
          by_contra hmeet
          exact hheld t.start ⟨by omega, by omega⟩ (free_cons.mpr (.inl ⟨le_rfl, hne'⟩))
        exact ⟨_, .inr (.inr ⟨by omega, hstop, rfl⟩)⟩

/-- A span that is put back keeps the gaps, as it joins what it touches; its places are free. -/
lemma laid_insert? (h : Laid gap high low spans) (hgap : gap ≤ 1) (hlow : low ≤ s.start)
    (hne : s.start < s.stop) (hhigh : s.stop ≤ high) (hinsert : insert? s spans = some spans') :
    Laid gap high low spans' ∧ ∀ i, Free spans' i ↔ Free spans i ∨ i ∈ s := by
  induction spans generalizing low spans' with
  | nil =>
    obtain rfl := Option.some.inj hinsert
    exact ⟨⟨hlow, hne, hhigh, trivial⟩, by simp⟩
  | cons t spans ih =>
    have hfront : Laid gap high t.start (t :: spans) := ⟨le_rfl, h.2⟩
    obtain ⟨hlow', hne', hhigh', hrest⟩ := h
    rcases insert?_cons_eq_some_iff.mp hinsert with
      ⟨-, -, hstop, rest, hrest', rfl⟩ | ⟨-, hnext, rest, hrest', rfl⟩ | ⟨hstart, hstop, rfl⟩
    · -- `s` comes right behind `t`, which it may touch
      obtain ⟨hlaid, hfree⟩ := ih (hrest.mono (Nat.le_add_right t.stop gap)) hstop hrest'
      refine ⟨laid_join hlaid hgap hlow' hne' hhigh', fun i => ?_⟩
      rw [free_join hlaid hne', hfree, free_cons, or_assoc]
    · obtain ⟨hlaid, hfree⟩ := ih hrest (le_of_not_startsFrom hnext hrest) hrest'
      refine ⟨⟨hlow', hne', hhigh', hlaid⟩, fun i => ?_⟩
      rw [free_cons, hfree, free_cons, or_assoc]
    · refine ⟨laid_join (hfront.mono hstop) hgap hlow hne hhigh, fun i => ?_⟩
      rw [free_join hfront hne, or_comm]

end BankAllocator

end Handheld
