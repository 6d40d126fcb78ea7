/-
# What a write to the console's map reaches

A write to the console's map always succeeds.  `MemoryMap.Reaches` lists the addresses at which it
may change the byte that is read: those of the same byte, the windows of the cartridge for a write
to the control of its banks, the display's status and line for its control, and the page that the
start-up program hides for its switch.  The main statement, `MemoryMap.ConsoleState.write_reaches`,
says that there are no others, and which bytes are kept.
-/
import Handheld.Proofs.MemoryMap.Layout
import Handheld.Proofs.Console.Reachable

namespace Handheld

namespace MemoryMap

variable {m : MemoryMap} {s t : Section} {a b : Address} {v : UInt8} {board board' : Board}
  {bootProgram : Option ByteArray}

/-- The two addresses of one byte of the work memory. -/
def Echoes (a b : Address) : Prop :=
  ∃ i < 0x1E00, a.toNat = 0xC000 + i ∧ b.toNat = 0xE000 + i ∨
    a.toNat = 0xE000 + i ∧ b.toNat = 0xC000 + i

/-- The addresses at which a write at `a` may change the byte that is read. -/
inductive Reaches (a : Address) : Address → Prop
  /-- The control of the cartridge's banks. -/
  | banks {b : Address} (ha : a.toNat < 0x8000)
      (hb : 0x4000 ≤ b.toNat ∧ b.toNat < 0x8000 ∨ 0xA000 ≤ b.toNat ∧ b.toNat < 0xC000) :
      Reaches a b
  /-- Video memory, the cartridge's, object memory, high memory, and interrupt enable. -/
  | memory (ha : 0x8000 ≤ a.toNat ∧ a.toNat < 0xC000 ∨ 0xFE00 ≤ a.toNat ∧ a.toNat < 0xFEA0 ∨
      0xFF80 ≤ a.toNat) : Reaches a a
  | work (ha : 0xC000 ≤ a.toNat ∧ a.toNat < 0xFE00) : Reaches a a
  | echo {b : Address} (h : Echoes a b) : Reaches a b
  | register (ha : 0xFF00 ≤ a.toNat ∧ a.toNat < 0xFF80) : Reaches a a
  | display {b : Address} (ha : a = IoRegisters.displayControl)
      (hb : b = IoRegisters.displayStatus ∨ b = IoRegisters.displayLine) : Reaches a b
  /-- The start-up program goes away. -/
  | boot {b : Address} (ha : a = IoRegisters.bootSwitch) (hb : b.toNat < 0x100) : Reaches a b

variable (m) in
/-- Whether there is memory at an address that keeps what is written.  The cartridge's does while
it is enabled. -/
def Retains (a : Address) : Prop :=
  0x8000 ≤ a.toNat ∧ a.toNat < 0xA000 ∨ 0xC000 ≤ a.toNat ∧ a.toNat < 0xFEA0 ∨
    0xFF80 ≤ a.toNat ∨
    (0xA000 ≤ a.toNat ∧ a.toNat < 0xC000) ∧ ∃ c, m.board.cartridge = some c ∧ c.ramEnabled = true

/-! ## Addresses of one byte -/

lemma wired_eq_iff : wired b = wired a ↔ b = a ∨ Echoes a b := by
  rw [← UInt16.toNat_inj, toNat_wired, toNat_wired]
  constructor
  · intro h
    by_cases hab : b.toNat = a.toNat
    · exact .inl (UInt16.toNat.inj hab)
    · refine .inr ⟨(wired a).toNat - 0xC000, ?_⟩
      rw [toNat_wired]
      split_ifs at h ⊢ <;> omega
  · rintro (rfl | ⟨i, hi, ⟨ha, hb⟩ | ⟨ha, hb⟩⟩)
    · rfl
    · rw [if_pos (by omega), if_neg (by omega)]
      omega
    · rw [if_neg (by omega), if_pos (by omega)]
      omega

/-! ## Sections under another board -/

/-- The start-up program hides the first page at most. -/
lemma front_read_congr (hcartridge : board'.cartridge.map (·.read a) = board.cartridge.map (·.read a))
    (hboot : a.toNat < 0x100 → board'.bootMapped = board.bootMapped) :
    (front bootProgram).read board' a = (front bootProgram).read board a := by
  have hrom : Section.cartridgeRom.read board' a = Section.cartridgeRom.read board a :=
    Section.read_window_congr (.inl rfl) hcartridge
  cases bootProgram with
  | none => exact hrom
  | some program =>
    by_cases ha : a.toNat < 0x100
    · exact Section.read_congr _ hcartridge (hboot ha)
    · have hshadow (board : Board) :
          Section.shadow board (program.extract 0 0x100) .cartridgeRom a = none := by
        rw [Section.shadow_cartridgeRom, if_neg (fun h => ha h.2)]
      exact (Section.read_of_shadow_none (hshadow board')).trans
        (hrom.trans (Section.read_of_shadow_none (hshadow board)).symm)

/-- What is read at an address of the console's map depends on the cartridge in its windows, and
on the latch in the first page. -/
lemma Behind.read_congr (h : Behind bootProgram s a)
    (hcartridge : a.toNat < 0x8000 ∨ 0xA000 ≤ a.toNat ∧ a.toNat < 0xC000 →
      board'.cartridge.map (·.read a) = board.cartridge.map (·.read a))
    (hboot : a.toNat < 0x100 → board'.bootMapped = board.bootMapped) :
    s.read board' a = s.read board a := by
  cases h with
  | program ha hs =>
    subst hs
    exact front_read_congr (hcartridge (.inl ha)) hboot
  | cartridge ha hs =>
    subst hs
    exact Section.read_window_congr (.inr rfl) (hcartridge (.inr ha))
  | memory ha hs => exact hs.read board board'
  | nothing ha hs =>
    subst hs
    rfl
  | registers ha hs hsize =>
    subst hs
    rfl

/-! ## Writes -/

/-- Whether writes to a section go to the cartridge. -/
def IsWindow (s : Section) : Prop :=
  ∀ (board : Board) (c : Cartridge) (a : Address) (v : UInt8), board.cartridge = some c →
    s.write board a v = (⟨some (c.write a v), board.bootMapped⟩, s)

lemma isWindow_cartridgeRam : IsWindow .cartridgeRam := by
  rintro ⟨cartridge, mapped⟩ c a v rfl
  rfl

lemma isWindow_front (bootProgram : Option ByteArray) : IsWindow (front bootProgram) := by
  rintro ⟨cartridge, mapped⟩ c a v rfl
  cases bootProgram <;> rfl

namespace Layout

/-- What is read after a write: from the section that was written, or from another one under the
new board. -/
lemma read_stored (h : Layout bootProgram m) (ha : m.resolve a = some (s, wired a))
    (hb : m.resolve b = some (t, wired b)) (v : UInt8) :
    Memory.read (m.stored (wired a) v) b =
        .ok (t.read (s.write m.board (wired a) v).1 (wired b)) ∧ wired b ≠ wired a ∨
      t = s ∧ Memory.read (m.stored (wired a) v) b =
        .ok ((s.write m.board (wired a) v).2.read (s.write m.board (wired a) v).1 (wired b)) := by
  have howner := owner?_of_follow ha
  have hboard : (m.stored (wired a) v).board = (s.write m.board (wired a) v).1 :=
    board_put howner m.board v
  rcases resolve_stored howner v hb with ⟨hresolve, hne⟩ | ⟨hts, hresolve⟩
  · exact .inl ⟨by rw [(h.write a v).2.read_eq hresolve, hboard], hne⟩
  · exact .inr ⟨hts, by rw [(h.write a v).2.read_eq hresolve, hboard]⟩

variable (h : Layout bootProgram m)
include h

/-- A write to memory is read back at its addresses, and nowhere else. -/
lemma read_stored_of_plain (ha : m.resolve a = some (s, wired a)) (hplain : Plain (wired a) s)
    (v : UInt8) (b : Address) :
    (wired b ≠ wired a → Memory.read (m.stored (wired a) v) b = Memory.read m b) ∧
      (wired b = wired a → Memory.read (m.stored (wired a) v) b = .ok v) := by
  obtain ⟨t, ht, -⟩ := h.exists_behind b
  have hsound := h.sound.sections s (owner?_eq_some (owner?_of_follow ha)).1
  rw [read_stored_of_keeps (owner?_of_follow ha) (hplain.keeps m.board), hsound.accessAt,
    place_of_resolve ht]
  refine ⟨fun hne => if_neg fun hplace => hne (Option.some.inj hplace.1), fun heq => ?_⟩
  exact if_pos ⟨congrArg some heq, rfl⟩

/-- A write to the cartridge is seen where the cartridge reads otherwise after it. -/
lemma read_stored_of_window (ha : m.resolve a = some (s, wired a)) (hwindow : IsWindow s)
    {c : Cartridge} (hc : m.board.cartridge = some c)
    (hread : (wired b).toNat < 0x8000 ∨ 0xA000 ≤ (wired b).toNat ∧ (wired b).toNat < 0xC000 →
      (c.write (wired a) v).read (wired b) = c.read (wired b)) :
    Memory.read (m.stored (wired a) v) b = Memory.read m b := by
  obtain ⟨t, ht, hbehind⟩ := h.exists_behind b
  have hwrite := hwindow m.board c (wired a) v hc
  have hcongr : t.read ⟨some (c.write (wired a) v), m.board.bootMapped⟩ (wired b) =
      t.read m.board (wired b) :=
    hbehind.read_congr (fun hrange => by rw [hc]; exact congrArg some (hread hrange))
      (fun _ => rfl)
  rw [h.read_eq ht, ← hcongr]
  rcases h.read_stored ha ht v with ⟨hstored, -⟩ | ⟨rfl, hstored⟩
  all_goals rw [hstored, hwrite]

lemma reaches_of_plain (ha : m.resolve a = some (s, wired a)) (hplain : Plain (wired a) s)
    (hin : 0x8000 ≤ (wired a).toNat ∧ (wired a).toNat < 0xA000 ∨
      0xC000 ≤ (wired a).toNat ∧ (wired a).toNat < 0xE000 ∨
      0xFE00 ≤ (wired a).toNat ∧ (wired a).toNat < 0xFEA0 ∨ 0xFF80 ≤ (wired a).toNat)
    (hne : Memory.read (m.stored (wired a) v) b ≠ Memory.read m b) : Reaches a b := by
  have heq : wired b = wired a := by
    by_contra hwired
    exact hne ((h.read_stored_of_plain ha hplain v b).1 hwired)
  rcases wired_eq_iff.mp heq with rfl | hecho
  · rw [toNat_wired] at hin
    by_cases hwork : 0xC000 ≤ b.toNat ∧ b.toNat < 0xFE00
    · exact .work hwork
    · refine .memory ?_
      split at hin <;> omega
  · exact .echo hecho

lemma reaches_of_front (ha : m.resolve a = some (front bootProgram, wired a))
    (hin : (wired a).toNat < 0x8000)
    (hne : Memory.read (m.stored (wired a) v) b ≠ Memory.read m b) : Reaches a b := by
  obtain ⟨c, hc, -⟩ := h.sound.board
  have hself := eq_of_wired (a := a) (.inl (by omega))
  by_contra hreach
  refine hne (h.read_stored_of_window ha (isWindow_front _) hc ?_)
  intro hwindow
  have hself' := eq_of_wired (a := b) (.inl (by omega))
  rw [hself] at hin ⊢
  rw [hself'] at hwindow ⊢
  -- the banks show in both windows, but not in the first half of the program's
  have hlow : b.toNat < 0x4000 := by
    by_contra hlow
    exact hreach (.banks hin (by omega))
  exact c.read_write_of_unpicked (.inl (UInt16.lt_iff_toNat_lt.mpr hlow)) v

lemma reaches_of_cartridgeRam (ha : m.resolve a = some (.cartridgeRam, wired a))
    (hin : 0xA000 ≤ (wired a).toNat ∧ (wired a).toNat < 0xC000)
    (hne : Memory.read (m.stored (wired a) v) b ≠ Memory.read m b) : Reaches a b := by
  obtain ⟨c, hc, -⟩ := h.sound.board
  have hself := eq_of_wired (a := a) (.inl (by omega))
  rw [hself] at hin
  by_contra hreach
  refine hne (h.read_stored_of_window ha isWindow_cartridgeRam hc ?_)
  intro hwindow
  have hself' := eq_of_wired (a := b) (.inl (by omega))
  rw [hself, hself']
  refine c.read_write_of_ne (Cartridge.inRamWindow_iff.mpr hin) ?_ v
  rintro rfl
  exact hreach (.memory (.inl (by omega)))

lemma reaches_of_registers {r : IoRegisters} (ha : m.resolve a = some (.io r, wired a))
    (hin : 0xFF00 ≤ (wired a).toNat ∧ (wired a).toNat < 0xFF80)
    (hne : Memory.read (m.stored (wired a) v) b ≠ Memory.read m b) : Reaches a b := by
  obtain ⟨t, ht, hbehind⟩ := h.exists_behind b
  have hself := eq_of_wired (a := a) (.inr (by omega))
  rw [hself] at hin
  by_contra hreach
  rw [h.read_eq ht] at hne
  rcases h.read_stored ha ht v with ⟨hstored, -⟩ | ⟨rfl, hstored⟩
  · -- another section sees the latch, which the switch alone changes
    refine hne (hstored.trans (congrArg Except.ok ?_))
    refine hbehind.read_congr (fun _ => rfl) (fun hpage => ?_)
    refine IoRegisters.latch_write _ _ ?_ _
    rw [hself]
    rintro rfl
    have hself' := eq_of_wired (a := b) (.inl (by omega))
    exact hreach (.boot rfl (hself' ▸ hpage))
  · -- another register changes with the display's control alone
    obtain ⟨hstart, -⟩ := Region.owns_iff.mp (owner?_eq_some (owner?_of_follow ht)).2
    change 0xFF00 ≤ (wired b).toNat at hstart
    have hself' := eq_of_wired (a := b) (.inr (by omega))
    rw [hself'] at hstart
    refine hne (hstored.trans (congrArg Except.ok ?_))
    rw [hself, hself']
    refine IoRegisters.read_write_of_ne _ _ (UInt16.le_iff_toNat_le.mpr hin.1)
      (UInt16.le_iff_toNat_le.mpr hstart) ?_ ?_ v
    · rintro rfl
      exact hreach (.register hin)
    · intro hdisplay
      exact not_or.mp fun hb => hreach (.display hdisplay hb)

/-- A write to the console's map reaches the addresses that `Reaches` lists. -/
lemma reaches (hne : Memory.read (m.stored (wired a) v) b ≠ Memory.read m b) : Reaches a b := by
  obtain ⟨s, hs, hbehind⟩ := h.exists_behind a
  cases hbehind with
  | memory hin hplain => exact h.reaches_of_plain hs hplain hin hne
  | program hin hsection => exact h.reaches_of_front (hsection ▸ hs) hin hne
  | cartridge hin hsection => exact h.reaches_of_cartridgeRam (hsection ▸ hs) hin hne
  | registers hin hsection _ => exact h.reaches_of_registers (hsection ▸ hs) hin hne
  | nothing hin hsection =>
    subst hsection
    obtain ⟨t, ht, -⟩ := h.exists_behind b
    rw [h.read_eq ht] at hne
    rcases h.read_stored hs ht v with ⟨hstored, -⟩ | ⟨rfl, hstored⟩
    all_goals exact absurd hstored hne

/-- Memory that keeps what is written reads it back at all addresses of the byte. -/
lemma retains (ha : m.Retains a) (hb : b = a ∨ Echoes a b) (v : UInt8) :
    Memory.read (m.stored (wired a) v) b = .ok v := by
  obtain ⟨s, hs, hbehind⟩ := h.exists_behind a
  have heq := wired_eq_iff.mpr hb
  have hrange := toNat_wired a
  cases hbehind with
  | memory _ hplain => exact (h.read_stored_of_plain hs hplain v b).2 heq
  | cartridge hwindow hsection =>
    subst hsection
    have hself := eq_of_wired (a := a) (.inl (by omega))
    obtain ⟨c, hc, hstored⟩ := h.sound.board
    -- of the memories that keep what is written, this is the cartridge's
    have henabled : c.ramEnabled = true := by
      rw [hself] at hwindow
      rcases ha with ha | ha | ha | ⟨-, c', hc', henabled⟩
      · omega
      · omega
      · omega
      · obtain rfl := Option.some.inj (hc.symm.trans hc')
        exact henabled
    obtain ⟨t, ht, -⟩ := h.exists_behind b
    have hwrite := isWindow_cartridgeRam m.board c (wired a) v hc
    rcases h.read_stored hs ht v with ⟨-, hne⟩ | ⟨-, hread⟩
    · exact absurd heq hne
    · rw [hread, hwrite, heq]
      exact congrArg Except.ok
        (hstored.read_write_self (Cartridge.inRamWindow_iff.mpr hwindow) henabled v)
  | program hin _ | nothing hin _ | registers hin _ _ =>
    unfold Retains at ha
    split at hrange <;> omega

end Layout

/-! ## The states of the console's map -/

/-- The states that writes bring the console's map into, around a cartridge whose storage is as
long as its banks say. -/
inductive ConsoleState : MemoryMap → Prop
  | start {cartridge : Cartridge} (h : cartridge.Stored) (bootProgram : Option ByteArray) :
      ConsoleState (console cartridge bootProgram)
  | write {m : MemoryMap} (h : ConsoleState m) (a : Address) (v : UInt8) :
      ConsoleState (Memory.write m a v).2

namespace ConsoleState

lemma exists_layout (h : ConsoleState m) : ∃ bootProgram, Layout bootProgram m := by
  induction h with
  | start h bootProgram => exact ⟨bootProgram, .start h bootProgram⟩
  | write h a v ih =>
    obtain ⟨bootProgram, hlayout⟩ := ih
    obtain ⟨hwrite, hstored⟩ := hlayout.write a v
    exact ⟨bootProgram, by rwa [hwrite]⟩

/-- **What a write reaches.**  It succeeds, changes what is read at the addresses that `Reaches`
lists alone, and is read back at every address of a byte that keeps it; and the two addresses of a
byte of the work memory never differ. -/
theorem write_reaches (h : ConsoleState m) (a : Address) (v : UInt8) :
    (∃ m', Memory.write m a v = (.ok (), m') ∧
      (∀ b, Memory.read m' b ≠ Memory.read m b → Reaches a b) ∧
      (m.Retains a → ∀ b, b = a ∨ Echoes a b → Memory.read m' b = .ok v)) ∧
    ∀ b c, Echoes b c → Memory.read m b = Memory.read m c := by
  obtain ⟨bootProgram, hlayout⟩ := h.exists_layout
  refine ⟨⟨m.stored (wired a) v, (hlayout.write a v).1, fun b hne => hlayout.reaches hne,
    fun ha b hb => hlayout.retains ha hb v⟩, ?_⟩
  intro b c hecho
  have heq : wired c = wired b := wired_eq_iff.mpr (.inr hecho)
  obtain ⟨s, hs, -⟩ := hlayout.exists_behind b
  obtain ⟨t, ht, -⟩ := hlayout.exists_behind c
  have howner := owner?_of_follow ht
  rw [heq, owner?_of_follow hs] at howner
  obtain rfl := Region.backed.inj (Option.some.inj howner)
  rw [hlayout.read_eq hs, hlayout.read_eq ht, heq]

/-- A byte written to the echo of a blank cartridge's console is read in the work memory. -/
theorem blank_write_reaches : ∃ cartridge notices,
    Cartridge.load (Bytes.fill 0x150 0) = .ok (cartridge, notices) ∧
      ∃ m', Memory.write (console cartridge none) 0xE123 0x5A = (.ok (), m') ∧
        Memory.read m' 0xC123 = .ok 0x5A ∧
        ∀ b, Memory.read m' b ≠ Memory.read (console cartridge none) b → Reaches 0xE123 b := by
  obtain ⟨⟨cartridge, notices⟩, hload⟩ := Console.exists_load_blank
  obtain ⟨⟨m', hwrite, hreach, hretain⟩, -⟩ :=
    write_reaches (.start (Cartridge.stored_of_load hload) none) 0xE123 0x5A
  exact ⟨cartridge, notices, hload, m', hwrite,
    hretain (.inr (.inl (by decide))) 0xC123 (.inr ⟨0x123, by decide, .inr (by decide)⟩), hreach⟩

end ConsoleState

end MemoryMap

end Handheld
