/-
# The console's map with a start-up program

`MemoryMap.started` is a map without the start-up program.  Writes do the same to it as to the map
with the program (`MemoryMap.after_started`), so the console's map with a start-up program is at
all times the map without one, but for the first bytes, which the program hides, and the program's
switch.  The main statement, `MemoryMap.startup_covers`, says which reads differ and how long.
-/
import Handheld.Proofs.MemoryMap.Layout
import Handheld.Proofs.Section.Started

namespace Handheld

/-- A region once the start-up program has gone. -/
def Region.started : Region → Region
  | backed s => .backed s.started
  | remap r => .remap r

@[simp] lemma Region.owns_started (r : Region) (a : Address) : r.started.owns a = r.owns a := by
  cases r with
  | backed s => exact s.accepts_started a
  | remap r => rfl

namespace MemoryMap

open IoRegisters (bootSwitch)

variable {m : MemoryMap} {regions : List Region} {s : Section} {a b : Address} {v : UInt8}
  {program : ByteArray}

/-! ## Maps without the start-up program -/

/-- A map once the start-up program has gone. -/
def started (m : MemoryMap) : MemoryMap :=
  ⟨m.regions.map Region.started, m.board.started⟩

lemma resolve_started (m : MemoryMap) (a : Address) :
    m.started.resolve a = (m.resolve a).map fun (s, b) => (s.started, b) := by
  have hfollow := follow_map Region.owns_started (fun _ => rfl) (fun _ => rfl) m.regions
    (m.regions.length + 1) a
  simpa [resolve, started] using hfollow

lemma put_started (board : Board) (a : Address) (v : UInt8) (regions : List Region) :
    put board.started a v (regions.map Region.started) =
      ((put board a v regions).1.started, (put board a v regions).2.map Region.started) := by
  induction regions with
  | nil => rfl
  | cons r regions ih =>
    rw [List.map_cons]
    unfold put
    rw [Region.owns_started]
    split
    · cases r with
      | backed s => simp [Region.started, s.started_write board a v]
      | remap r => rfl
    · simp [ih]

/-- **A write does to a map without the start-up program what it does to the map with it.** -/
theorem write_started (m : MemoryMap) (a : Address) (v : UInt8) :
    Memory.write m.started a v = ((Memory.write m a v).1, (Memory.write m a v).2.started) := by
  have hresolve := m.resolve_started a
  cases h : m.resolve a with
  | none =>
    rw [h] at hresolve
    rw [write_of_resolve_none h, write_of_resolve_none hresolve]
  | some target =>
    obtain ⟨s, b⟩ := target
    rw [h] at hresolve
    by_cases hwritable : (s.accessAt b).writable = true
    · have hstored : m.started.stored b v = (m.stored b v).started := by
        simp only [stored, started, put_started]
      rw [write_of_resolve h hwritable, ← hstored]
      exact write_of_resolve hresolve (by rwa [Section.accessAt_started]) v
    · have hrefused := write_of_not_writable hresolve (by rwa [Section.accessAt_started]) v
      rw [write_of_not_writable h hwritable, hrefused, Section.name_started]

lemma after_started (m : MemoryMap) (ws : List (Address × UInt8)) :
    m.started.after ws = (m.after ws).started := by
  induction ws with
  | nil => rfl
  | cons w earlier ih =>
    obtain ⟨a, v⟩ := w
    rw [after, after, ih, write_started]

/-- Without its start-up program, the console's map is the one that has none. -/
lemma started_console (cartridge : Cartridge) (program : ByteArray) :
    (console cartridge (some program)).started = console cartridge none := by
  have hregisters : (Section.io (.initial true)).started = .io (.initial false) :=
    congrArg Section.io IoRegisters.started_initial
  unfold started console
  rw [consoleRegions_eq, consoleRegions_eq]
  simp only [List.map_cons, List.map_nil, Region.started, Option.isSome_some, hregisters]
  rfl

/-- An access reads the same without the start-up program if the section that it leads to does. -/
lemma read_started (h : ∀ s b, m.resolve a = some (s, b) →
      s.started.read m.board.started b = s.read m.board b) :
    Memory.read m.started a = Memory.read m a := by
  have hresolve := m.resolve_started a
  cases htarget : m.resolve a with
  | none =>
    rw [htarget] at hresolve
    rw [read_of_resolve_none htarget, read_of_resolve_none hresolve]
  | some target =>
    obtain ⟨s, b⟩ := target
    rw [htarget] at hresolve
    have hread : s.started.read m.started.board b = s.read m.board b := h s b htarget
    rw [read_of_resolve htarget, read_of_resolve hresolve, Section.accessAt_started,
      Section.name_started, hread]

/-! ## The console's map and its start-up program -/

/-- The switch has no echo. -/
lemma wired_ne (h : a ≠ bootSwitch) : wired a ≠ bootSwitch := by
  intro heq
  have hself : wired a = a := eq_of_wired (.inr (by rw [heq]; decide))
  exact h (hself.symm.trans heq)

/-- What stays of the console's map with a start-up program, whatever is written: the program is at
its start and nowhere else, and its switch keeps its value once the program has gone. -/
structure Startup (program : ByteArray) (m : MemoryMap) : Prop where
  place (a : Address) : m.place a = some (wired a)
  front {a : Address} (h : a.toNat < 0x8000) :
    owner? m.regions a = some (.backed (MemoryMap.front (some program)))
  registers : ∃ r, owner? m.regions bootSwitch = some (.backed (.io r)) ∧
    (m.board.bootMapped = false → r.started = r)
  bare : ∀ s, .backed s ∈ m.regions → s = MemoryMap.front (some program) ∨ s.Bare

namespace Startup

lemma start (cartridge : Cartridge) (program : ByteArray) :
    Startup program (console cartridge (some program)) := by
  have hpairwise := (pairwise_of_gap (gap_consoleRegions (some program))).2
  refine ⟨fun a => ?_, fun {a} ha => ?_, ⟨.initial true, ?_, nofun⟩, fun s hs => ?_⟩
  · obtain ⟨s, hs⟩ := follow_consoleRegions (some program) a
    exact place_of_resolve hs
  · refine (owner?_eq_some_iff hpairwise).mpr ⟨?_, Region.owns_iff.mpr ⟨Nat.zero_le _, ?_⟩⟩
    · rw [consoleRegions_eq]
      exact List.mem_cons_self
    · rw [stop_backed, Section.stop, start_front, length_front]
      simpa using ha
  · refine (owner?_eq_some_iff hpairwise).mpr ⟨?_, rfl⟩
    rw [consoleRegions_eq]
    simp
  · change .backed s ∈ consoleRegions (some program) at hs
    simp only [consoleRegions_eq, List.mem_cons, Region.backed.injEq, List.not_mem_nil, or_false,
      reduceCtorEq, false_or] at hs
    rcases hs with rfl | rfl | rfl | rfl | rfl | rfl | rfl | rfl | rfl
    · exact .inl rfl
    · exact .inr trivial
    · exact .inr trivial
    · exact .inr ⟨trivial, trivial⟩
    all_goals exact .inr trivial

lemma stored (h : Startup program m) (ha : owner? m.regions a = some (.backed s)) (v : UInt8) :
    Startup program (m.stored a v) := by
  have hboard : (m.stored a v).board = (s.write m.board a v).1 := board_put ha m.board v
  refine ⟨fun b => (place_stored ha v b).trans (h.place b), fun {b} hb => ?_, ?_, ?_⟩
  · rcases owner?_put ha m.board v b with ⟨hsame, -⟩ | ⟨hs, hnew⟩
    · exact hsame.trans (h.front hb)
    · obtain rfl := owner?_unique (h.front hb) hs
      exact hnew
  · obtain ⟨r, hr, hgone⟩ := h.registers
    rw [hboard]
    -- a write to another section leaves the latch; one to the registers may change both
    rcases owner?_put ha m.board v bootSwitch with ⟨hsame, hne⟩ | ⟨hs, hnew⟩
    · refine ⟨r, hsame.trans hr, fun hlatch => hgone ?_⟩
      rwa [s.latch_write m.board hne.symm] at hlatch
    · obtain rfl := owner?_unique hr hs
      exact ⟨_, hnew, IoRegisters.started_of_write hgone⟩
  · refine forall_sections_put ?_ h.bare m.board a v
    rintro s board a v (rfl | hs)
    · exact .inl rfl
    · exact .inr (hs.write board a v)

lemma after (cartridge : Cartridge) (program : ByteArray) (ws : List (Address × UInt8)) :
    Startup program ((console cartridge (some program)).after ws) :=
  after_induction (start cartridge program) (fun _ _ _ v h ha => h.stored ha v) ws

variable (h : Startup program m)
include h

lemma eq_wired (hresolve : m.resolve a = some (s, b)) : b = wired a :=
  Option.some.inj ((place_of_resolve hresolve).symm.trans (h.place a))

/-- An address that is no echo leads to itself. -/
lemma exists_resolve (ha : a.toNat < 0xE000 ∨ 0xFE00 ≤ a.toNat) :
    ∃ s, m.resolve a = some (s, a) := by
  obtain ⟨⟨s, b⟩, hresolve, hb⟩ := Option.map_eq_some_iff.mp (h.place a)
  obtain rfl : b = a := hb.trans (wired_eq_self ha)
  exact ⟨s, hresolve⟩

/-- A write takes the start-up program away if it is one to its switch, and not of zero. -/
lemma latch_write (a : Address) (v : UInt8) :
    (Memory.write m a v).2.board.bootMapped = true ↔
      m.board.bootMapped = true ∧ (a = bootSwitch → v = 0) := by
  by_cases hswitch : a = bootSwitch
  · subst hswitch
    obtain ⟨r, hr, -⟩ := h.registers
    obtain ⟨s, hresolve⟩ := h.exists_resolve (a := bootSwitch) (.inr (by decide))
    obtain rfl := owner?_unique hr (owner?_of_follow hresolve)
    have hboard : (m.stored bootSwitch v).board.bootMapped =
        (r.write m.board.bootMapped bootSwitch v).2 :=
      congrArg Board.bootMapped (board_put hr m.board v)
    rw [write_of_resolve hresolve rfl, hboard, IoRegisters.write_bootSwitch]
    split
    · rename_i hv
      simp [hv.1]
    · rename_i hv
      constructor
      · intro hlatch
        exact ⟨hlatch, fun _ => by_contra fun hne => hv ⟨hne, hlatch⟩⟩
      · exact And.left
  · have hsame : (Memory.write m a v).2.board.bootMapped = m.board.bootMapped := by
      rcases write_cases m a v with ⟨s, b, hresolve, hwrite⟩ | ⟨e, hwrite⟩
      · obtain rfl := h.eq_wired hresolve
        rw [hwrite]
        exact (congrArg Board.bootMapped (board_put (owner?_of_follow hresolve) m.board v)).trans
          (s.latch_write m.board (wired_ne hswitch) v)
      · rw [hwrite]
    rw [hsame]
    simp [hswitch]

/-- The first bytes are the start-up program's, as long as it is in place. -/
lemma read_program (hmapped : m.board.bootMapped = true) (ha : a.toNat < 0x100)
    (hv : program[a.toNat]? = some v) : Memory.read m a = .ok v := by
  obtain ⟨s, hresolve⟩ := h.exists_resolve (a := a) (.inl (by omega))
  obtain rfl := owner?_unique (h.front (by omega)) (owner?_of_follow hresolve)
  have hshadow : Section.shadow m.board (program.extract 0 0x100) .cartridgeRom a = some v := by
    rw [Section.shadow_cartridgeRom, if_pos ⟨hmapped, ha⟩, hv]
  have hread : (MemoryMap.front (some program)).read m.board a = v := by
    unfold MemoryMap.front Section.withBoot Section.read
    rw [hshadow]
  rw [read_of_resolve hresolve, hread]
  rfl

/-- Behind the start-up program, and away from its switch, nothing is hidden. -/
lemma read_behind (ha : min program.size 0x100 ≤ a.toNat) (hswitch : a ≠ bootSwitch) :
    Memory.read m a = Memory.read m.started a := by
  refine (read_started fun s b hresolve => ?_).symm
  obtain rfl := h.eq_wired hresolve
  refine Section.read_started (wired_ne hswitch) fun program' inner => ?_
  obtain ⟨hmem, howns⟩ := owner?_eq_some (owner?_of_follow hresolve)
  rcases h.bare s hmem with rfl | hbare
  · -- the start of the map has no echo, so the program would hide the address itself
    have hself : wired a = a := by
      have hlt := (Region.owns_iff.mp howns).2
      rw [stop_backed, Section.stop, start_front, length_front] at hlt
      exact eq_of_wired (.inl (Nat.lt_trans hlt (by decide)))
    have hshadow : Section.shadow m.board (program.extract 0 0x100) .cartridgeRom a = none := by
      rw [Section.shadow_cartridgeRom]
      split
      · exact getElem?_neg program _ (by omega)
      · rfl
    rw [hself]
    unfold MemoryMap.front Section.withBoot Section.visible
    rw [hshadow]
    intro heq
    cases heq
  · exact hbare.visible_ne program' inner

/-- Once the start-up program has gone, nothing tells that it was there. -/
lemma read_gone (hgone : m.board.bootMapped = false) (a : Address) :
    Memory.read m a = Memory.read m.started a := by
  refine (read_started fun s b hresolve => ?_).symm
  by_cases hb : b = bootSwitch
  · subst hb
    obtain ⟨r, hr, hkept⟩ := h.registers
    obtain rfl := owner?_unique hr (owner?_of_follow hresolve)
    exact congrArg (fun r : IoRegisters => r.read bootSwitch) (hkept hgone)
  · exact Section.read_started hb (Section.visible_ne_of_latch hgone)

end Startup

/-- The start-up program is in place until the first write to its switch that is not of zero. -/
lemma mapped_after (cartridge : Cartridge) (program : ByteArray) (ws : List (Address × UInt8)) :
    ((console cartridge (some program)).after ws).board.bootMapped = true ↔
      ∀ w ∈ ws, w.1 = bootSwitch → w.2 = 0 := by
  induction ws with
  | nil => simp [after, console]
  | cons w earlier ih =>
    obtain ⟨a, v⟩ := w
    rw [after, (Startup.after cartridge program earlier).latch_write, ih, List.forall_mem_cons,
      and_comm]

/-- **The start-up program hides the first bytes of the map and changes nothing else.**  Beside the
same writes to the map without it: the program is in place until the first write to its switch that
is not of zero.  So long its bytes are read, 256 at most, and every other address but the switch
reads the same in both maps; from then on every address does. -/
theorem startup_covers (cartridge : Cartridge) (program : ByteArray)
    (ws : List (Address × UInt8)) :
    (((console cartridge (some program)).after ws).board.bootMapped = true ↔
        ∀ w ∈ ws, w.1 = bootSwitch → w.2 = 0) ∧
      (((console cartridge (some program)).after ws).board.bootMapped = true →
        (∀ a v, a.toNat < 0x100 → program[a.toNat]? = some v →
          Memory.read ((console cartridge (some program)).after ws) a = .ok v) ∧
        ∀ a, min program.size 0x100 ≤ a.toNat → a ≠ bootSwitch →
          Memory.read ((console cartridge (some program)).after ws) a =
            Memory.read ((console cartridge none).after ws) a) ∧
      (((console cartridge (some program)).after ws).board.bootMapped = false →
        ∀ a, Memory.read ((console cartridge (some program)).after ws) a =
          Memory.read ((console cartridge none).after ws) a) := by
  have hstartup := Startup.after cartridge program ws
  have hwithout : (console cartridge none).after ws =
      ((console cartridge (some program)).after ws).started := by
    rw [← after_started, started_console]
  rw [hwithout]
  refine ⟨mapped_after cartridge program ws, fun hmapped => ⟨?_, ?_⟩, hstartup.read_gone⟩
  · exact fun a v ha hv => hstartup.read_program hmapped ha hv
  · exact fun a ha hswitch => hstartup.read_behind ha hswitch

end MemoryMap

end Handheld
