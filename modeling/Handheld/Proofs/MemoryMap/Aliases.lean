/-
# Addresses of one byte

Memory, with any rule for the accesses that it admits, and stretches with nothing behind them may
be put side by side, and remaps may mirror them, and one another.  In such a map several addresses
lead to one byte; `MemoryMap.byte?` tells them.  The main statement, `MemoryMap.write_shows`, says
that a write is read at all of them, if they may be read, and nowhere else, and that no write
changes which byte an address leads to.
-/
import Handheld.Proofs.MemoryMap.Cells

namespace Handheld

/-! ## Sections of memory -/

namespace Section

variable {s : Section} {board : Board} {a : Address} {access : Access}

/-- Whether a section is made of memory and of stretches with nothing behind them. -/
def MadeOfMemory : Section → Prop
  | ram _ | openBus .. => True
  | stitched _ low high => low.MadeOfMemory ∧ high.MadeOfMemory
  | _ => False

/-- The access that the byte of memory at an address admits, if there is one. -/
def byte? (a : Address) : Section → Option Access
  | ram r => if (r.offset a).isSome then some r.access else none
  | stitched _ low high => if low.accepts a then low.byte? a else high.byte? a
  | _ => none

@[simp] lemma byte?_write (s : Section) (board : Board) (a b : Address) (v : UInt8) :
    (s.write board a v).2.byte? b = s.byte? b := by
  induction s with
  | ram r => simp [write, byte?]
  | stitched n low high ihlow ihhigh =>
    by_cases ha : low.accepts a = true
    · rw [write_stitched_of_accepts ha]
      simp [byte?, ihlow]
    · rw [write_stitched_of_not_accepts ha]
      simp [byte?, ihhigh]
  | _ => rfl

lemma MadeOfMemory.write (h : s.MadeOfMemory) (board : Board) (a : Address) (v : UInt8) :
    (s.write board a v).2.MadeOfMemory := by
  induction s with
  | ram r => trivial
  | openBus n start length => trivial
  | stitched n low high ihlow ihhigh =>
    obtain ⟨hlow, hhigh⟩ := h
    by_cases ha : low.accepts a = true
    · rw [write_stitched_of_accepts ha]
      exact ⟨ihlow hlow, hhigh⟩
    · rw [write_stitched_of_not_accepts ha]
      exact ⟨hlow, ihhigh hhigh⟩
  | _ => exact h.elim

/-- A byte of memory is visible where it is, under its own rule. -/
lemma exists_visible_of_byte? (h : s.byte? a = some access) (board : Board) :
    s.accessAt a = access ∧ ∃ r, s.visible board a = ram r ∧ (r.offset a).isSome = true := by
  induction s with
  | ram r =>
    unfold byte? at h
    split at h
    · rename_i hoffset
      exact ⟨Option.some.inj h, r, rfl, hoffset⟩
    · cases h
  | stitched n low high ihlow ihhigh =>
    unfold byte? at h
    by_cases ha : low.accepts a = true
    · rw [if_pos ha] at h
      rw [accessAt, visible, if_pos ha, if_pos ha]
      exact ihlow h
    · rw [if_neg ha] at h
      rw [accessAt, visible, if_neg ha, if_neg ha]
      exact ihhigh h
  | _ => cases h

lemma keeps_of_byte? (h : s.byte? a = some access) (board : Board) : s.Keeps board a id := by
  obtain ⟨-, r, hvisible, hoffset⟩ := exists_visible_of_byte? h board
  refine .of_visible ?_
  rw [hvisible]
  exact keeps_ram board hoffset

/-- Where there is no byte of memory, what is written is lost. -/
lemma MadeOfMemory.write_eq (h : s.MadeOfMemory) (hnone : s.byte? a = none) (board : Board)
    (v : UInt8) : s.write board a v = (board, s) := by
  induction s with
  | ram r =>
    have hoffset : r.offset a = none := by
      simpa [byte?] using hnone
    simp [Section.write, Ram.put, hoffset]
  | openBus n start length => rfl
  | stitched n low high ihlow ihhigh =>
    obtain ⟨hlow, hhigh⟩ := h
    unfold byte? at hnone
    by_cases ha : low.accepts a = true
    · rw [if_pos ha] at hnone
      rw [write_stitched_of_accepts ha, ihlow hlow hnone]
    · rw [if_neg ha] at hnone
      rw [write_stitched_of_not_accepts ha, ihhigh hhigh hnone]
  | _ => exact h.elim

end Section

/-! ## Maps of memory -/

namespace MemoryMap

variable {m m' : MemoryMap} {s : Section} {a b c : Address} {v : UInt8} {access : Access}

/-- The byte of memory that an address leads to: where it is, and the access that it admits. -/
def byte? (m : MemoryMap) (a : Address) : Option (Address × Access) :=
  match m.resolve a with
  | some (s, b) => (s.byte? b).map fun access => (b, access)
  | none => none

variable (m) in
/-- Whether what is written at one address is read at another: they lead to the same byte, and it
may be read. -/
def Shows (a b : Address) : Prop :=
  ∃ c access, m.byte? a = some (c, access) ∧ m.byte? b = some (c, access) ∧
    access.readable = true

variable (m) in
/-- Whether all sections of a map are made of memory and of stretches with nothing behind them. -/
def MadeOfMemory : Prop :=
  ∀ s, .backed s ∈ m.regions → s.MadeOfMemory

lemma byte?_of_resolve (h : m.resolve a = some (s, b)) :
    m.byte? a = (s.byte? b).map fun access => (b, access) := by
  rw [byte?, h]

lemma byte?_of_resolve_none (h : m.resolve a = none) : m.byte? a = none := by
  rw [byte?, h]

/-- The byte that an address leads to is the one at its place. -/
lemma byte?_eq_some_iff (ha : owner? m.regions a = some (.backed s))
    (hbyte : s.byte? a = some access) : m.byte? b = some (a, access) ↔ m.place b = some a := by
  cases h : m.resolve b with
  | none => simp [byte?_of_resolve_none h, place, h]
  | some target =>
    obtain ⟨t, c⟩ := target
    rw [byte?_of_resolve h, place_of_resolve h]
    constructor
    · intro hsome
      obtain ⟨access', -, heq⟩ := Option.map_eq_some_iff.mp hsome
      exact congrArg some (Prod.mk.inj heq).1
    · intro hplace
      obtain rfl := Option.some.inj hplace
      obtain rfl := owner?_unique ha (owner?_of_follow h)
      rw [hbyte]
      rfl

@[simp] lemma byte?_stored (ha : owner? m.regions a = some (.backed s)) (v : UInt8) (b : Address) :
    (m.stored a v).byte? b = m.byte? b := by
  cases h : m.resolve b with
  | none => rw [byte?_of_resolve_none h, byte?_of_resolve_none (resolve_stored_none a v h)]
  | some target =>
    obtain ⟨t, c⟩ := target
    rw [byte?_of_resolve h]
    rcases resolve_stored ha v h with ⟨h', -⟩ | ⟨rfl, h'⟩
    · rw [byte?_of_resolve h']
    · rw [byte?_of_resolve h', Section.byte?_write]

lemma stored_eq_self (ha : owner? m.regions a = some (.backed s))
    (hwrite : s.write m.board a v = (m.board, s)) : m.stored a v = m := by
  obtain ⟨before, after, heq, hput⟩ := exists_put ha
  rw [stored, hput, hwrite, ← heq]

/-- A write that succeeds is read at the addresses of its byte, if they may be read, and nowhere
else. -/
lemma read_of_write (h : m.MadeOfMemory) (hwrite : Memory.write m a v = (.ok (), m'))
    (b : Address) :
    (m.Shows a b → Memory.read m' b = .ok v) ∧
      (¬ m.Shows a b → Memory.read m' b = Memory.read m b) := by
  rcases write_cases m a v with ⟨s, c, hresolve, heq⟩ | ⟨e, heq⟩
  · obtain rfl : m' = m.stored c v := (Prod.mk.inj (hwrite.symm.trans heq)).2
    have howner := owner?_of_follow hresolve
    have hmemory := h s (owner?_eq_some howner).1
    cases hbyte : s.byte? c with
    | none =>
      -- a write that reaches no byte is lost
      rw [stored_eq_self howner (hmemory.write_eq hbyte m.board v)]
      refine ⟨?_, fun _ => rfl⟩
      rintro ⟨c', access, ha, -⟩
      rw [byte?_of_resolve hresolve, hbyte] at ha
      cases ha
    | some access =>
      have ha : m.byte? a = some (c, access) := by
        rw [byte?_of_resolve hresolve, hbyte]
        rfl
      have hshows : m.Shows a b ↔ m.place b = some c ∧ (s.accessAt c).readable = true := by
        rw [(Section.exists_visible_of_byte? hbyte m.board).1, ← byte?_eq_some_iff howner hbyte]
        constructor
        · rintro ⟨c', access', ha', hb, hreadable⟩
          obtain ⟨rfl, rfl⟩ := Prod.mk.inj (Option.some.inj (ha.symm.trans ha'))
          exact ⟨hb, hreadable⟩
        · rintro ⟨hb, hreadable⟩
          exact ⟨c, access, ha, hb, hreadable⟩
      rw [read_stored_of_keeps howner (Section.keeps_of_byte? hbyte m.board), hshows]
      exact ⟨fun hin => if_pos hin, fun hout => if_neg hout⟩
  · rw [hwrite] at heq
    cases heq

/-- Writes change neither which byte an address leads to nor what a map is made of. -/
lemma byte?_after (h : m.MadeOfMemory) (ws : List (Address × UInt8)) :
    (m.after ws).MadeOfMemory ∧ ∀ a, (m.after ws).byte? a = m.byte? a := by
  refine after_induction (P := fun m' => m'.MadeOfMemory ∧ ∀ a, m'.byte? a = m.byte? a)
    ⟨h, fun _ => rfl⟩ ?_ ws
  rintro m' s a v ⟨hmemory, hbyte⟩ ha
  refine ⟨?_, fun b => (byte?_stored ha v b).trans (hbyte b)⟩
  exact forall_sections_put (fun _ board a v hs => hs.write board a v) hmemory m'.board a v

/-- **What a write shows.**  After any writes to a map of memory, a write that succeeds is read at
the addresses that lead to the same byte, if it may be read; every other read gives what it gave
before, a byte or an error; a write that fails changes no read; and every address still leads to
the byte that it led to at first. -/
theorem write_shows (h : m.MadeOfMemory) (ws : List (Address × UInt8)) :
    (∀ a, (m.after ws).byte? a = m.byte? a) ∧
      ∀ a v, (∀ m', Memory.write (m.after ws) a v = (.ok (), m') → ∀ b,
          ((m.after ws).Shows a b → Memory.read m' b = .ok v) ∧
            (¬ (m.after ws).Shows a b → Memory.read m' b = Memory.read (m.after ws) b)) ∧
        ∀ e m', Memory.write (m.after ws) a v = (.error e, m') →
          ∀ b, Memory.read m' b = Memory.read (m.after ws) b := by
  obtain ⟨hmemory, hbyte⟩ := byte?_after h ws
  refine ⟨hbyte, fun a v => ⟨fun m' hwrite b => read_of_write hmemory hwrite b, ?_⟩⟩
  intro e m' hwrite b
  rcases write_cases (m.after ws) a v with ⟨s, c, -, heq⟩ | ⟨e', heq⟩
  · rw [hwrite] at heq
    cases heq
  · obtain rfl : m' = m.after ws := (Prod.mk.inj (hwrite.symm.trans heq)).2
    rfl

/-- Memory, a log behind it that may only be written, and a mirror of both. -/
def logMap : MemoryMap :=
  ⟨[.backed (.stitched "memory" (.ram (.zeroed "work" 0 4))
      (.ram (.ofBytes "log" 4 (Bytes.fill 4 0) .write))), .remap ⟨"mirror", 8, 8, 0⟩], {}⟩

/-- After a write to the log, a write through the mirror is read in the memory; the log still may
not be read. -/
theorem log_write_shows : logMap.MadeOfMemory ∧
    ∃ m', Memory.write (logMap.after [(13, 1)]) 9 0x77 = (.ok (), m') ∧
      Memory.read m' 1 = .ok 0x77 ∧
      Memory.read m' 13 = .error (.violation 13 "memory" .read) := by
  have hmemory : logMap.MadeOfMemory := by
    intro s hs
    obtain rfl : s = .stitched "memory" _ _ := by
      simpa [logMap] using hs
    exact ⟨trivial, trivial⟩
  have hok : (Memory.write (logMap.after [(13, 1)]) 9 0x77).1 = .ok () := rfl
  have hshows : (logMap.after [(13, 1)]).Shows 9 1 :=
    ⟨1, .readWrite, by decide, by decide, rfl⟩
  have hhidden : ¬ (logMap.after [(13, 1)]).Shows 9 13 := by
    rintro ⟨c, access, -, hlog, hreadable⟩
    have hbyte : (logMap.after [(13, 1)]).byte? 13 = some (5, .write) := rfl
    obtain ⟨-, rfl⟩ := Prod.mk.inj (Option.some.inj (hbyte.symm.trans hlog))
    cases hreadable
  have hbefore : Memory.read (logMap.after [(13, 1)]) 13 =
      .error (.violation 13 "memory" .read) := rfl
  obtain ⟨-, hwrite⟩ := write_shows hmemory [(13, 1)]
  obtain ⟨hread, -⟩ := hwrite 9 0x77
  refine ⟨hmemory, _, Prod.ext hok rfl, ?_, ?_⟩
  · exact (hread _ (Prod.ext hok rfl) 1).1 hshows
  · rw [(hread _ (Prod.ext hok rfl) 13).2 hhidden, hbefore]

end MemoryMap

end Handheld
