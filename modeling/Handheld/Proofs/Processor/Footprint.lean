/-
# What an instruction leaves alone

The footprint of an instruction is what it names for its results: byte registers, flags, the stack
pointer, the program counter, and addresses in memory.  Whatever is outside the footprint keeps
its value (`Instruction.bounds_footprint`).
-/
import Handheld.Proofs.Memory.Holds
import Handheld.Proofs.Processor.Atomic

namespace Handheld

/-- Whether flags differ in some of them alone. -/
structure Flags.Within (f mask f' : Flags) : Prop where
  zero : mask.zero = false → f'.zero = f.zero
  subtract : mask.subtract = false → f'.subtract = f.subtract
  halfCarry : mask.halfCarry = false → f'.halfCarry = f.halfCarry
  carry : mask.carry = false → f'.carry = f.carry

/-- The places that an instruction may change. -/
structure Footprint where
  registers : List Register := []
  /-- The flags that may change. -/
  flags : Flags := {}
  /-- Whether the stack pointer may change. -/
  stack : Bool := false
  /-- Whether control may go elsewhere than on. -/
  control : Bool := false
  addresses : List Address := []

namespace Footprint

/-- All flags. -/
def allFlags : Flags :=
  ⟨true, true, true, true⟩

/-- The registers of a pair. -/
def ofPair : Pair → Footprint
  | .bc => { registers := [.b, .c] }
  | .de => { registers := [.d, .e] }
  | .hl => { registers := [.h, .l] }
  | .sp => { stack := true }
  | .af => { registers := [.a], flags := allFlags }

/-- The registers that step when memory is accessed. -/
def stepped : Operand → List Register
  | .indirect .hlInc | .indirect .hlDec => [.h, .l]
  | _ => []

/-- A register, or the place in memory that an operand says. -/
def ofOperand (r : Registers) : Operand → Footprint
  | .reg x => { registers := [x] }
  | o => { registers := stepped o, addresses := (o.address? r).toList }

/-- Two cells below the stack pointer. -/
def pushed (r : Registers) : Footprint :=
  { stack := true, addresses := [r.sp - 1, r.sp - 2] }

/-- Loads. -/
def load (r : Registers) : List Operand → Footprint
  | [.direct a, .pair .sp] => { addresses := [a, a + 1] }
  | [.pair .hl, .spRel _] => { ofPair .hl with flags := allFlags }
  | [.pair p, _] => ofPair p
  | [target, source] =>
    let f := ofOperand r target
    { f with registers := f.registers ++ stepped source }
  | _ => {}

/-- Operations on a byte alone. -/
def modify (r : Registers) (flags : Flags) : List Operand → Footprint
  | [o] => { ofOperand r o with flags := flags }
  | _ => {}

/-- One more or one less; the carry stays. -/
def step (r : Registers) : List Operand → Footprint
  | [.pair p] => ofPair p
  | operands => modify r ⟨true, true, true, false⟩ operands

/-- Sums; that of two words leaves the zero flag alone. -/
def add : List Operand → Footprint
  | [.pair .hl, .pair _] => { ofPair .hl with flags := ⟨false, true, true, true⟩ }
  | [.pair .sp, .rel8 _] => { ofPair .sp with flags := allFlags }
  | _ => { registers := [.a], flags := allFlags }

/-- Changes of a bit. -/
def changeBit (r : Registers) : List Operand → Footprint
  | [.bit _, o] => ofOperand r o
  | _ => {}

/-- Whether registers differ in the footprint alone. -/
structure Covers (f : Footprint) (r r' : Registers) : Prop where
  registers : ∀ x ∉ f.registers, r'.get x = r.get x
  flags : r.flags.Within f.flags r'.flags
  stack : f.stack = false → r'.sp = r.sp
  control : f.control = false → r'.pc = r.pc

end Footprint

/-- The footprint of an instruction, by the registers before it. -/
def Instruction.footprint (i : Instruction) (r : Registers) : Footprint :=
  match i.kind with
  | .nop | .halt | .invalid | .stop | .di | .ei => {}
  | .jr | .jp => { control := i.isTaken r.flags }
  | .ld | .ldh => .load r i.operands
  | .inc | .dec => .step r i.operands
  | .add => .add i.operands
  | .adc | .sub | .sbc | .and | .xor | .or => { registers := [.a], flags := Footprint.allFlags }
  | .cp => { flags := Footprint.allFlags }
  | .rlca | .rrca | .rla | .rra => { registers := [.a], flags := Footprint.allFlags }
  | .daa => { registers := [.a], flags := ⟨true, false, true, true⟩ }
  | .cpl => { registers := [.a], flags := ⟨false, true, true, false⟩ }
  | .scf | .ccf => { flags := ⟨false, true, true, true⟩ }
  | .rlc | .rrc | .rl | .rr | .sla | .sra | .swap | .srl =>
    .modify r Footprint.allFlags i.operands
  | .bit => { flags := ⟨true, true, true, false⟩ }
  | .res | .set => .changeBit r i.operands
  | .push => .pushed r
  | .rst | .call => if i.isTaken r.flags then { Footprint.pushed r with control := true } else {}
  | .ret => { stack := i.isTaken r.flags, control := i.isTaken r.flags }
  | .reti => { stack := true, control := true }
  | .pop =>
    match i.first with
    | some (.pair p) => { Footprint.ofPair p with stack := true }
    | _ => {}

variable {M : Type} [Memory M]

/-! ## Registers -/

namespace Registers

variable (r : Registers) (v : UInt8) (w : UInt16)

lemma get_set_of_ne {x y : Register} (h : x ≠ y) : (r.set v y).get x = r.get x := by
  cases y
  all_goals
    cases x
    all_goals first
      | rfl
      | exact absurd rfl h

@[simp] lemma set_flags (x : Register) : (r.set v x).flags = r.flags := by
  cases x <;> rfl

@[simp] lemma set_sp (x : Register) : (r.set v x).sp = r.sp := by
  cases x <;> rfl

@[simp] lemma set_pc (x : Register) : (r.set v x).pc = r.pc := by
  cases x <;> rfl

@[simp] lemma get_withFlags (f : Flags) (x : Register) :
    ({ r with flags := f } : Registers).get x = r.get x := by
  cases x <;> rfl

@[simp] lemma get_withSp (x : Register) : ({ r with sp := w } : Registers).get x = r.get x := by
  cases x <;> rfl

@[simp] lemma get_withPc (x : Register) : ({ r with pc := w } : Registers).get x = r.get x := by
  cases x <;> rfl

end Registers

/-! ## Writes -/

namespace Memory

/-- Whether writes to some addresses leave the byte at `a` alone, in all memories of a kind that
the writes do not leave. -/
def Unreached (kind : M → Prop) (addresses : List Address) (a : Address) : Prop :=
  ∀ m, kind m → ∀ b ∈ addresses, ∀ v,
    kind (write m b v).2 ∧ read (write m b v).2 a = read m a

lemma put_eq_ok {m m' : M} {a : Address} {v : UInt8} (h : put m a v = .ok m') :
    (write m a v).2 = m' := by
  unfold put at h
  rcases hwrite : write m a v with ⟨e | u, after⟩
  · rw [hwrite] at h
    cases h
  · rw [hwrite] at h
    exact Except.ok.inj h

lemma read_of_putAll {kind : M → Prop} {m m' : M} {writes : List (Address × UInt8)}
    {addresses : List Address} {a : Address} (h : putAll m writes = .ok m')
    (haddresses : ∀ w ∈ writes, w.1 ∈ addresses) (hm : kind m)
    (ha : Unreached kind addresses a) : read m' a = read m a := by
  induction writes generalizing m with
  | nil =>
    obtain rfl := Except.ok.inj h
    rfl
  | cons w writes ih =>
    obtain ⟨b, v⟩ := w
    obtain ⟨m₁, hput, hrest⟩ := bind_eq_ok.mp h
    obtain rfl := put_eq_ok hput
    obtain ⟨hkind, hread⟩ := ha m hm b (haddresses _ List.mem_cons_self) v
    rw [ih hrest (fun w hw => haddresses w (List.mem_cons_of_mem _ hw)) hkind, hread]

end Memory

/-! ## Outcomes -/

/-- Whether an outcome stays within a footprint. -/
structure Footprint.Bounds (f : Footprint) (r : Registers) (o : Outcome) : Prop where
  covers : f.Covers r o.registers
  addresses : ∀ w ∈ o.writes, w.1 ∈ f.addresses

namespace Footprint

variable {f : Footprint} {r r' : Registers} {m : M} {o : Outcome} {mask g : Flags}

lemma within_refl (mask f : Flags) : f.Within mask f :=
  ⟨fun _ => rfl, fun _ => rfl, fun _ => rfl, fun _ => rfl⟩

/-- Nothing is asked of flags that may all change. -/
lemma within_allFlags (f f' : Flags) : f.Within allFlags f' := by
  constructor
  all_goals
    intro h
    cases h

/-- The carry is all that flags keep when the others may change. -/
lemma within_keepingCarry {f f' : Flags} (h : f'.carry = f.carry) :
    f.Within ⟨true, true, true, false⟩ f' := by
  constructor
  case carry => exact fun _ => h
  all_goals
    intro h
    cases h

lemma covers_refl (f : Footprint) (r : Registers) : f.Covers r r :=
  ⟨fun _ _ => rfl, within_refl _ _, fun _ => rfl, fun _ => rfl⟩

/-- Outcomes that write nothing. -/
lemma bounds_of_covers (h : f.Covers r r') : f.Bounds r ⟨r', []⟩ :=
  ⟨h, fun _ hw => absurd hw List.not_mem_nil⟩

lemma covers_set (h : r.flags.Within mask g) (v : UInt8) (x : Register) :
    Covers { registers := [x], flags := mask } r (({ r with flags := g } : Registers).set v x) := by
  refine ⟨?_, ?_, ?_, ?_⟩
  · intro y hy
    rw [Registers.get_set_of_ne _ _ (List.ne_of_not_mem_cons hy), Registers.get_withFlags]
  · rwa [Registers.set_flags]
  · intro _
    rw [Registers.set_sp]
  · intro _
    rw [Registers.set_pc]

lemma covers_setPair (w : UInt16) (p : Pair) : (ofPair p).Covers r (r.setPair w p) := by
  cases p
  all_goals
    refine ⟨?_, ?_, ?_, fun _ => rfl⟩
    · intro x hx
      cases x <;> simp_all [ofPair, Registers.setPair, Registers.get]
  case af.refine_2 => exact within_allFlags _ _
  case sp.refine_3 => exact fun h => absurd h (by decide)
  all_goals first
    | exact within_refl _ _
    | exact fun _ => rfl

lemma covers_withFlags (h : r.flags.Within f.flags g) : f.Covers r { r with flags := g } :=
  ⟨fun x _ => r.get_withFlags g x, h, fun _ => rfl, fun _ => rfl⟩

lemma bounds_store (h : r.flags.Within mask g) (v : UInt8) (o : Operand) :
    Bounds { ofOperand r o with flags := mask } r (o.store { r with flags := g } v) := by
  have haddress : o.address? { r with flags := g } = o.address? r := by
    cases o with
    | indirect p => cases p <;> rfl
    | _ => rfl
  unfold Operand.store ofOperand
  cases o with
  | reg x => exact bounds_of_covers (covers_set h v x)
  | _ =>
    dsimp only
    rw [haddress]
    split
    · rename_i a ha
      refine ⟨covers_withFlags h, ?_⟩
      intro w hw
      obtain rfl := List.mem_singleton.mp hw
      rw [ha]
      exact List.mem_singleton.mpr rfl
    · exact bounds_of_covers (covers_withFlags h)

lemma covers_stepHl (o : Operand) (h : f.Covers r r') :
    Covers { f with registers := f.registers ++ stepped o } r (o.stepHl r') := by
  have hkeep : Covers { f with registers := f.registers ++ stepped o } r r' :=
    ⟨fun x hx => h.registers x fun hf => hx (List.mem_append_left _ hf), h.flags, h.stack,
      h.control⟩
  have hstep (w : UInt16) (ho : stepped o = [.h, .l]) :
      Covers { f with registers := f.registers ++ stepped o } r (r'.setPair w .hl) := by
    refine ⟨?_, h.flags, h.stack, h.control⟩
    intro x hx
    rw [ho] at hx
    have hpair := (covers_setPair (r := r') w .hl).registers x
      fun hl => hx (List.mem_append_right _ hl)
    exact hpair.trans (h.registers x fun hf => hx (List.mem_append_left _ hf))
  unfold Operand.stepHl
  split
  · exact hstep _ rfl
  · exact hstep _ rfl
  · exact hkeep

end Footprint

namespace Instruction

open Footprint

variable {i : Instruction} {r : Registers} {m : M} {o : Outcome} {operands : List Operand}

lemma bounds_stepHl {target : Operand} (source : Operand) (h : (ofOperand r target).Bounds r o) :
    Bounds { ofOperand r target with
      registers := (ofOperand r target).registers ++ stepped source } r
      { o with registers := target.stepHl (source.stepHl o.registers) } := by
  refine ⟨?_, h.addresses⟩
  have hboth := covers_stepHl target (covers_stepHl source h.covers)
  refine ⟨?_, hboth.flags, hboth.stack, hboth.control⟩
  intro x hx
  refine hboth.registers x ?_
  intro hmem
  rcases List.mem_append.mp hmem with hmem | hmem
  · exact hx hmem
  · -- a register that the target steps belongs to its own footprint
    refine hx (List.mem_append_left _ ?_)
    cases target with
    | reg y => cases hmem
    | _ => exact hmem

lemma load_bounds (h : load r m operands = .ok o) : (Footprint.load r operands).Bounds r o := by
  unfold load at h
  split at h
  · obtain rfl := Except.ok.inj h
    refine ⟨covers_refl _ r, ?_⟩
    intro w hw
    simp only [List.mem_cons, List.not_mem_nil, or_false] at hw
    rcases hw with rfl | rfl
    · simp [Footprint.load]
    · simp [Footprint.load]
  · obtain rfl := Except.ok.inj h
    refine bounds_of_covers ⟨?_, within_allFlags _ _, fun _ => rfl, fun _ => rfl⟩
    intro x hx
    rw [(covers_setPair _ .hl).registers x hx, Registers.get_withFlags]
  · -- the pair is not `HL` with an offset source, which stands above
    rename_i p source hne
    obtain rfl := Except.ok.inj h
    have hfootprint : Footprint.load r [.pair p, source] = ofPair p := by
      unfold Footprint.load
      split
      case h_4 hpair heq => exact absurd (List.cons.inj heq).1.symm (hpair p)
      all_goals simp_all
    rw [hfootprint]
    exact bounds_of_covers (covers_setPair _ p)
  · rename_i target source hne₁ hne₂ hne₃
    obtain ⟨v, -, h⟩ := bind_eq_ok.mp h
    obtain rfl := Except.ok.inj h
    have hfootprint : Footprint.load r [target, source] = { ofOperand r target with
        registers := (ofOperand r target).registers ++ stepped source } := by
      unfold Footprint.load
      split
      all_goals simp_all
    rw [hfootprint]
    exact bounds_stepHl source (bounds_store (within_refl _ _) v target)
  · obtain rfl := Except.ok.inj h
    exact bounds_of_covers (covers_refl _ r)

lemma modify_bounds {kind : Kind} {mask : Flags}
    (hflags : ∀ v, r.flags.Within mask (kind.modify v r.flags).flags)
    (h : modify kind r m operands = .ok o) : (Footprint.modify r mask operands).Bounds r o := by
  unfold modify at h
  split at h
  · obtain ⟨v, -, h⟩ := bind_eq_ok.mp h
    obtain rfl := Except.ok.inj h
    exact bounds_store (hflags v) _ _
  · obtain rfl := Except.ok.inj h
    exact bounds_of_covers (covers_refl _ r)

lemma step_bounds {kind : Kind} (hkind : kind = .inc ∨ kind = .dec)
    (h : step kind r m operands = .ok o) : (Footprint.step r operands).Bounds r o := by
  unfold step at h
  split at h
  · obtain rfl := Except.ok.inj h
    exact bounds_of_covers (covers_setPair _ _)
  · rename_i hpair
    have hfootprint : Footprint.step r operands =
        Footprint.modify r ⟨true, true, true, false⟩ operands := by
      unfold Footprint.step
      split
      · exact absurd rfl (hpair _)
      · rfl
    rw [hfootprint]
    refine modify_bounds ?_ h
    intro v
    rcases hkind with rfl | rfl
    all_goals exact within_keepingCarry rfl

lemma combine_bounds {kind : Kind} (h : combine kind r m operands = .ok o) :
    Bounds { registers := [.a], flags := allFlags } r o := by
  have hset (v : UInt8) (f : Flags) :
      Covers { registers := [.a], flags := allFlags } r { r with a := v, flags := f } :=
    covers_set (within_allFlags _ f) v .a
  unfold combine at h
  split at h
  · obtain ⟨v, -, h⟩ := bind_eq_ok.mp h
    obtain rfl := Except.ok.inj h
    exact bounds_of_covers (hset _ _)
  · obtain ⟨v, -, h⟩ := bind_eq_ok.mp h
    obtain rfl := Except.ok.inj h
    exact bounds_of_covers (hset _ _)
  · obtain rfl := Except.ok.inj h
    exact bounds_of_covers (covers_refl _ r)

/-- A comparison leaves the accumulator alone. -/
lemma combine_cp_bounds (h : combine .cp r m operands = .ok o) :
    Bounds { flags := allFlags } r o := by
  unfold combine at h
  split at h
  · obtain ⟨v, -, h⟩ := bind_eq_ok.mp h
    obtain rfl := Except.ok.inj h
    exact bounds_of_covers (covers_withFlags (within_allFlags _ _))
  · obtain ⟨v, -, h⟩ := bind_eq_ok.mp h
    obtain rfl := Except.ok.inj h
    exact bounds_of_covers (covers_withFlags (within_allFlags _ _))
  · obtain rfl := Except.ok.inj h
    exact bounds_of_covers (covers_refl _ r)

lemma add_bounds (h : add r m operands = .ok o) : (Footprint.add operands).Bounds r o := by
  unfold add at h
  split at h
  · obtain rfl := Except.ok.inj h
    refine bounds_of_covers
      ⟨?_, ⟨fun _ => rfl, nofun, nofun, nofun⟩, fun _ => rfl, fun _ => rfl⟩
    intro x hx
    rw [(covers_setPair _ .hl).registers x hx, Registers.get_withFlags]
  · obtain rfl := Except.ok.inj h
    refine bounds_of_covers ⟨?_, within_allFlags _ _, nofun, fun _ => rfl⟩
    intro x _
    cases x <;> rfl
  · rename_i hne₁ hne₂
    have hfootprint : Footprint.add operands = { registers := [.a], flags := allFlags } := by
      unfold Footprint.add
      split
      all_goals simp_all
    rw [hfootprint]
    exact combine_bounds h

lemma onBit_bounds {kind : Kind} (hkind : kind ≠ .bit) (h : onBit kind r m operands = .ok o) :
    (Footprint.changeBit r operands).Bounds r o := by
  unfold onBit at h
  split at h
  · obtain ⟨v, -, h⟩ := bind_eq_ok.mp h
    rw [if_neg hkind] at h
    split at h
    · obtain rfl := Except.ok.inj h
      exact bounds_store (within_refl _ _) _ _
    · obtain rfl := Except.ok.inj h
      exact bounds_store (within_refl _ _) _ _
  · obtain rfl := Except.ok.inj h
    exact bounds_of_covers (covers_refl _ r)

/-- A test of a bit leaves the byte alone, and the carry. -/
lemma onBit_bit_bounds (h : onBit .bit r m operands = .ok o) :
    Bounds { flags := ⟨true, true, true, false⟩ } r o := by
  unfold onBit at h
  split at h
  · obtain ⟨v, -, h⟩ := bind_eq_ok.mp h
    obtain rfl := Except.ok.inj h
    exact bounds_of_covers (covers_withFlags (within_keepingCarry rfl))
  · obtain rfl := Except.ok.inj h
    exact bounds_of_covers (covers_refl _ r)

lemma covers_withPc (r : Registers) (a : Address) :
    Covers { control := true } r { r with pc := a } :=
  ⟨fun x _ => r.get_withPc a x, within_refl _ _, fun _ => rfl, nofun⟩

lemma eq_of_popWord {w : UInt16} {r' : Registers} (h : popWord r m = .ok (w, r')) :
    r' = { r with sp := r.sp + 2 } := by
  obtain ⟨w', -, h⟩ := bind_eq_ok.mp h
  exact (congrArg Prod.snd (Except.ok.inj h)).symm

lemma push_addresses (r : Registers) (w : UInt16) :
    ∀ x ∈ (Outcome.push r w).writes, x.1 ∈ (pushed r).addresses := by
  intro x hx
  simp only [Outcome.push, List.mem_cons, List.not_mem_nil, or_false] at hx
  rcases hx with rfl | rfl
  · simp [pushed]
  · simp [pushed]

lemma push_bounds (r : Registers) (w : UInt16) : (pushed r).Bounds r (Outcome.push r w) :=
  ⟨⟨fun x _ => r.get_withSp _ x, within_refl _ _, nofun, fun _ => rfl⟩, push_addresses r w⟩

/-- A call pushes and goes elsewhere. -/
lemma call_bounds (r : Registers) (w : UInt16) (a : Address) :
    Bounds { pushed r with control := true } r { Outcome.push r w with registers.pc := a } := by
  refine ⟨⟨?_, within_refl _ _, nofun, nofun⟩, push_addresses r w⟩
  intro x _
  cases x <;> rfl

/-- **An instruction stays within its footprint.** -/
theorem bounds_footprint (h : i.outcome r m = .ok o) : (i.footprint r).Bounds r o := by
  obtain ⟨kind, first, second⟩ := i
  unfold outcome at h
  unfold footprint
  cases kind with
  | nop | halt | invalid | di | ei | stop =>
    obtain rfl := Except.ok.inj h
    refine bounds_of_covers ⟨?_, within_refl _ _, fun _ => rfl, fun _ => rfl⟩
    intro x _
    cases x <;> rfl
  | ld | ldh => exact load_bounds h
  | inc => exact step_bounds (.inl rfl) h
  | dec => exact step_bounds (.inr rfl) h
  | add => exact add_bounds h
  | adc | sub | sbc | and | xor | or => exact combine_bounds h
  | cp => exact combine_cp_bounds h
  | rlc | rrc | rl | rr | sla | sra | swap | srl =>
    exact modify_bounds (fun _ => within_allFlags _ _) h
  | bit => exact onBit_bit_bounds h
  | res => exact onBit_bounds (by decide : Kind.res ≠ .bit) h
  | set => exact onBit_bounds (by decide : Kind.set ≠ .bit) h
  | rlca | rrca | rla | rra =>
    obtain rfl := Except.ok.inj h
    exact bounds_of_covers (covers_set (within_allFlags _ _) _ .a)
  | daa =>
    have hflags : r.flags.Within ⟨true, false, true, true⟩ (Kind.adjust r.a r.flags .daa).flags :=
      ⟨nofun, fun _ => rfl, nofun, nofun⟩
    obtain rfl := Except.ok.inj h
    exact bounds_of_covers (covers_set hflags _ .a)
  | cpl =>
    have hflags : r.flags.Within ⟨false, true, true, false⟩ (Kind.adjust r.a r.flags .cpl).flags :=
      ⟨fun _ => rfl, nofun, nofun, fun _ => rfl⟩
    obtain rfl := Except.ok.inj h
    exact bounds_of_covers (covers_set hflags _ .a)
  | scf | ccf =>
    obtain rfl := Except.ok.inj h
    exact bounds_of_covers (covers_withFlags ⟨fun _ => rfl, nofun, nofun, nofun⟩)
  | jr | jp =>
    dsimp only at h ⊢
    obtain rfl := Except.ok.inj h
    refine bounds_of_covers ?_
    split
    · rename_i htaken
      rw [htaken]
      exact covers_withPc r _
    · exact covers_refl _ r
  | push =>
    dsimp only at h
    split at h
    · obtain rfl := Except.ok.inj h
      exact push_bounds r _
    · obtain rfl := Except.ok.inj h
      exact bounds_of_covers (covers_refl _ r)
  | call | rst =>
    dsimp only at h ⊢
    split at h
    · rename_i htaken
      obtain rfl := Except.ok.inj h
      rw [if_pos htaken]
      exact call_bounds r _ _
    · rename_i htaken
      obtain rfl := Except.ok.inj h
      rw [if_neg htaken]
      exact bounds_of_covers (covers_refl _ r)
  | ret =>
    dsimp only at h
    split at h
    · rename_i htaken
      obtain ⟨⟨w, r'⟩, hpop, h⟩ := bind_eq_ok.mp h
      obtain rfl := Except.ok.inj h
      obtain rfl := eq_of_popWord hpop
      rw [htaken]
      refine bounds_of_covers ⟨?_, within_refl _ _, nofun, nofun⟩
      intro x _
      cases x <;> rfl
    · obtain rfl := Except.ok.inj h
      exact bounds_of_covers (covers_refl _ r)
  | reti =>
    obtain ⟨⟨w, r'⟩, hpop, h⟩ := bind_eq_ok.mp h
    obtain rfl := Except.ok.inj h
    obtain rfl := eq_of_popWord hpop
    refine bounds_of_covers ⟨?_, within_refl _ _, nofun, nofun⟩
    intro x _
    cases x <;> rfl
  | pop =>
    dsimp only at h ⊢
    split at h
    · obtain ⟨⟨w, r'⟩, hpop, h⟩ := bind_eq_ok.mp h
      obtain rfl := Except.ok.inj h
      obtain rfl := eq_of_popWord hpop
      -- `POP` moves the stack pointer before it sets the pair
      have hpair := fun p => covers_setPair (r := { r with sp := r.sp + 2 }) w p
      refine bounds_of_covers ⟨?registers, (hpair _).flags, ?stack, (hpair _).control⟩
      case registers =>
        intro x hx
        rw [(hpair _).registers x hx, Registers.get_withSp]
      case stack =>
        intro hstack
        cases hstack
    · obtain rfl := Except.ok.inj h
      exact bounds_of_covers (covers_refl _ r)

/-- The footprint does not depend on where the instruction stands. -/
lemma footprint_withPc (i : Instruction) (r : Registers) (a : Address) :
    i.footprint { r with pc := a } = i.footprint r :=
  rfl

/-! ## Instructions as a whole -/

variable {a : Aftermath M}

lemma carryOut_eq_ok (h : i.carryOut r m = .ok a) :
    ∃ o m', i.outcome r m = .ok o ∧ Memory.putAll m o.writes = .ok m' ∧
      i.conclude o.registers m' = .ok a := by
  obtain ⟨⟨r', m'⟩, hrun, hconclude⟩ := bind_eq_ok.mp h
  obtain ⟨o, houtcome, hrun⟩ := bind_eq_ok.mp hrun
  obtain ⟨m'', hput, hrun⟩ := bind_eq_ok.mp hrun
  obtain ⟨rfl, rfl⟩ := Prod.mk.inj (Except.ok.inj hrun)
  exact ⟨o, m'', houtcome, hput, hconclude⟩

/-- Registers outside of the footprint keep their values. -/
lemma covers_of_carryOut (h : i.carryOut r m = .ok a) :
    (i.footprint r).Covers r a.registers := by
  obtain ⟨o, m', houtcome, -, hconclude⟩ := carryOut_eq_ok h
  obtain ⟨-, -, ime, halted, hregisters⟩ := conclude_keeps hconclude
  have hcovers := (bounds_footprint houtcome).covers
  rw [hregisters]
  refine ⟨?_, hcovers.flags, hcovers.stack, hcovers.control⟩
  intro x hx
  rw [← hcovers.registers x hx]
  cases x <;> rfl

/-- Memory changes by writes to the footprint alone. -/
lemma exists_writes_of_carryOut (h : i.carryOut r m = .ok a) :
    ∃ writes, (∀ w ∈ writes, w.1 ∈ (i.footprint r).addresses) ∧
      Memory.putAll m writes = .ok a.memory := by
  obtain ⟨o, m', houtcome, hput, hconclude⟩ := carryOut_eq_ok h
  obtain ⟨rfl, -⟩ := conclude_keeps hconclude
  exact ⟨o.writes, (bounds_footprint houtcome).addresses, hput⟩

end Instruction

end Handheld
