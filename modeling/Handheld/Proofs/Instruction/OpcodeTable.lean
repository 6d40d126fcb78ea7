/-
# Laws of the opcode table

Two facts about the table carry decoding and encoding.  A slot takes a fixed number of bytes and
depends on them alone (`Slot.decode_eq_ok_iff`), and encoding its operand gives the same bytes back
(`Slot.encode_fill`).  And no two opcodes of the table stand for the same kind with the same slots
(`Opcode.entry_injective`), so that an instruction leads back to its opcode.
-/
import Mathlib.Data.List.Nodup
import Handheld.Instruction.Decode
import Handheld.Instruction.Encode
import Handheld.Proofs.Memory.Holds

namespace Handheld

/-! ## Slots -/

namespace Slot

/-- The operand of one byte. -/
def ofByte (f : UInt8 → Option Operand) : List UInt8 → Option Operand
  | [b] => f b
  | _ => none

/-- The operand of a word, low byte first. -/
def ofWord (f : UInt16 → Operand) : List UInt8 → Option Operand
  | [lo, hi] => some (f (Word.ofBytes hi lo))
  | _ => none

/-- The number of bytes that a slot takes after the opcode. -/
def width : Slot → Nat
  | fixed _ => 0
  | imm16 | direct => 2
  | imm8 | rel8 | highOffset | spRel | padding => 1

/-- The operand that a slot makes of its bytes. -/
def fill : Slot → List UInt8 → Option Operand
  | fixed o => fun _ => some o
  | imm8 => ofByte fun b => some (.imm8 b)
  | rel8 => ofByte fun b => some (.rel8 b)
  | highOffset => ofByte fun b => some (.highOffset b)
  | spRel => ofByte fun b => some (.spRel b)
  | imm16 => ofWord .imm16
  | direct => ofWord .direct
  | padding => ofByte fun b => if b = 0 then none else some (.imm8 b)

/-- The number of bytes of an operand place that may have no slot. -/
def width? : Option Slot → Nat
  | none => 0
  | some s => s.width

/-- The operand of an operand place that may have no slot. -/
def fill? : Option Slot → List UInt8 → Option Operand
  | none => fun _ => none
  | some s => s.fill

variable {ε : Type} {fetch : Nat → Except ε UInt8} {pos pos' : Nat} {o : Option Operand}

lemma decode_byte (f : UInt8 → Option Operand) :
    (do let b ← fetch pos; return (f b, pos + 1)) = Except.ok (o, pos') ↔
      ∃ bytes : List UInt8, bytes.length = 1 ∧ Stream.Holds fetch pos bytes ∧
        o = ofByte f bytes ∧ pos' = pos + 1 := by
  constructor
  · intro h
    obtain ⟨b, hb, h⟩ := bind_eq_ok.mp h
    obtain ⟨rfl, rfl⟩ := Prod.mk.inj (Except.ok.inj h)
    exact ⟨[b], rfl, by simpa [Stream.holds_cons] using hb, rfl, rfl⟩
  · rintro ⟨bytes, hlen, hbytes, rfl, rfl⟩
    obtain ⟨b, rfl⟩ := List.length_eq_one_iff.mp hlen
    rw [(Stream.holds_cons.mp hbytes).1]
    rfl

lemma decode_word (f : UInt16 → Operand) :
    (do let lo ← fetch pos
        let hi ← fetch (pos + 1)
        return (some (f (Word.ofBytes hi lo)), pos + 2)) = Except.ok (o, pos') ↔
      ∃ bytes : List UInt8, bytes.length = 2 ∧ Stream.Holds fetch pos bytes ∧
        o = ofWord f bytes ∧ pos' = pos + 2 := by
  constructor
  · intro h
    obtain ⟨lo, hlo, h⟩ := bind_eq_ok.mp h
    obtain ⟨hi, hhi, h⟩ := bind_eq_ok.mp h
    obtain ⟨rfl, rfl⟩ := Prod.mk.inj (Except.ok.inj h)
    exact ⟨[lo, hi], rfl, by simpa [Stream.holds_cons] using ⟨hlo, hhi⟩, rfl, rfl⟩
  · rintro ⟨bytes, hlen, hbytes, rfl, rfl⟩
    obtain ⟨lo, hi, rfl⟩ := List.length_eq_two.mp hlen
    obtain ⟨hlo, hbytes⟩ := Stream.holds_cons.mp hbytes
    rw [hlo, ok_bind, (Stream.holds_cons.mp hbytes).1]
    rfl

/-- A slot is decoded exactly when its bytes can be read, and to what it makes of them. -/
lemma decode_eq_ok_iff (s : Slot) :
    s.decode fetch pos = .ok (o, pos') ↔
      ∃ bytes, bytes.length = s.width ∧ Stream.Holds fetch pos bytes ∧
        o = s.fill bytes ∧ pos' = pos + s.width := by
  cases s with
  | fixed o' =>
    constructor
    · intro h
      obtain ⟨rfl, rfl⟩ := Prod.mk.inj (Except.ok.inj h)
      exact ⟨[], rfl, Stream.holds_nil, rfl, rfl⟩
    · rintro ⟨bytes, -, -, rfl, rfl⟩
      rfl
  | imm16 | direct => exact decode_word _
  | imm8 | rel8 | highOffset | spRel | padding => exact decode_byte _

lemma decode?_eq_ok_iff (s : Option Slot) :
    decode? fetch pos s = .ok (o, pos') ↔
      ∃ bytes, bytes.length = width? s ∧ Stream.Holds fetch pos bytes ∧
        o = fill? s bytes ∧ pos' = pos + width? s := by
  cases s with
  | none =>
    constructor
    · intro h
      obtain ⟨rfl, rfl⟩ := Prod.mk.inj (Except.ok.inj h)
      exact ⟨[], rfl, Stream.holds_nil, rfl, rfl⟩
    · rintro ⟨bytes, -, -, rfl, rfl⟩
      rfl
  | some s => exact s.decode_eq_ok_iff

/-- What cannot be decoded has a byte that cannot be read, after bytes that can. -/
lemma exists_error_of_decode? {s : Option Slot} {e : ε} (h : decode? fetch pos s = .error e) :
    ∃ bytes, bytes.length < width? s ∧ Stream.Holds fetch pos bytes ∧
      fetch (pos + bytes.length) = .error e := by
  have one {f : UInt8 → Option Operand}
      (h : (do let b ← fetch pos; return (f b, pos + 1)) = Except.error e) :
      ∃ bytes : List UInt8, bytes.length < 1 ∧ Stream.Holds fetch pos bytes ∧
        fetch (pos + bytes.length) = .error e := by
    rcases bind_eq_error.mp h with h | ⟨b, -, h⟩
    · exact ⟨[], Nat.zero_lt_one, Stream.holds_nil, h⟩
    · cases h
  have two {f : UInt16 → Operand}
      (h : (do let lo ← fetch pos
               let hi ← fetch (pos + 1)
               return (some (f (Word.ofBytes hi lo)), pos + 2)) = Except.error e) :
      ∃ bytes : List UInt8, bytes.length < 2 ∧ Stream.Holds fetch pos bytes ∧
        fetch (pos + bytes.length) = .error e := by
    rcases bind_eq_error.mp h with h | ⟨lo, hlo, h⟩
    · exact ⟨[], Nat.zero_lt_two, Stream.holds_nil, h⟩
    · rcases bind_eq_error.mp h with h | ⟨hi, -, h⟩
      · exact ⟨[lo], Nat.one_lt_two, by simpa [Stream.holds_cons] using hlo, h⟩
      · cases h
  match s with
  | none => cases h
  | some (.fixed _) => cases h
  | some .imm16 => exact two h
  | some .direct => exact two h
  | some .imm8 => exact one h
  | some .rel8 => exact one h
  | some .highOffset => exact one h
  | some .spRel => exact one h
  | some .padding => exact one h

/-- A fixed slot takes its own operand alone. -/
lemma eq_of_encode_fixed {o o' : Operand} {bytes : List UInt8}
    (h : encode (some (.fixed o)) (some o') = some bytes) : o = o' := by
  by_contra hne
  exact absurd ((if_neg hne).symm.trans h) nofun

/-- The operand of a slot is encoded as the bytes it was made of. -/
lemma encode_fill (s : Option Slot) {bytes : List UInt8} (h : bytes.length = width? s) :
    encode s (fill? s bytes) = some bytes := by
  match s with
  | none =>
    obtain rfl := List.length_eq_zero_iff.mp h
    rfl
  | some (.fixed o) =>
    obtain rfl := List.length_eq_zero_iff.mp h
    exact if_pos rfl
  | some .imm16 | some .direct =>
    obtain ⟨lo, hi, rfl⟩ := List.length_eq_two.mp h
    change some (Word.littleEndian (Word.ofBytes hi lo)) = some [lo, hi]
    rw [Word.littleEndian, Word.low_ofBytes, Word.high_ofBytes]
  | some .imm8 | some .rel8 | some .highOffset | some .spRel =>
    obtain ⟨b, rfl⟩ := List.length_eq_one_iff.mp h
    rfl
  | some .padding =>
    -- padding of zero is no operand, and no operand is padding of zero
    obtain ⟨b, rfl⟩ := List.length_eq_one_iff.mp h
    change encode (some .padding) (if b = 0 then none else some (.imm8 b)) = some [b]
    by_cases hb : b = 0
    · rw [if_pos hb, hb]
      rfl
    · rw [if_neg hb]
      rfl

end Slot

/-! ## Entries -/

namespace Opcode.Entry

/-- The number of bytes after the opcode. -/
def width (e : Entry) : Nat :=
  Slot.width? e.first + Slot.width? e.second

/-- The instruction of an entry whose slots are filled with bytes. -/
def fill (e : Entry) (bytes : List UInt8) : Instruction where
  kind := e.kind
  first := Slot.fill? e.first (bytes.take (Slot.width? e.first))
  second := Slot.fill? e.second (bytes.drop (Slot.width? e.first))

end Opcode.Entry

section DecodeOperands

variable {ε : Type} {fetch : Nat → Except ε UInt8} {pos pos' : Nat} {i : Instruction}

lemma decodeOperands_eq_ok_iff (e : Opcode.Entry) :
    Instruction.decodeOperands fetch pos e = .ok (i, pos') ↔
      ∃ bytes, bytes.length = e.width ∧ Stream.Holds fetch pos bytes ∧
        i = e.fill bytes ∧ pos' = pos + e.width := by
  constructor
  · intro h
    obtain ⟨⟨first, pos₁⟩, h₁, h⟩ := bind_eq_ok.mp h
    obtain ⟨⟨second, pos₂⟩, h₂, h⟩ := bind_eq_ok.mp h
    obtain ⟨rfl, rfl⟩ := Prod.mk.inj (Except.ok.inj h)
    obtain ⟨bytes₁, hlen₁, hbytes₁, rfl, rfl⟩ := (Slot.decode?_eq_ok_iff _).mp h₁
    obtain ⟨bytes₂, hlen₂, hbytes₂, rfl, rfl⟩ := (Slot.decode?_eq_ok_iff _).mp h₂
    refine ⟨bytes₁ ++ bytes₂, ?_, ?_, ?_, ?_⟩
    · rw [List.length_append, hlen₁, hlen₂]
      rfl
    · exact Stream.holds_append.mpr ⟨hbytes₁, by rwa [hlen₁]⟩
    · simp [Opcode.Entry.fill, ← hlen₁]
    · rw [Opcode.Entry.width, Nat.add_assoc]
  · rintro ⟨bytes, hlen, hbytes, rfl, rfl⟩
    have hle : Slot.width? e.first ≤ bytes.length := by
      rw [hlen]
      exact Nat.le_add_right _ _
    rw [← List.take_append_drop (Slot.width? e.first) bytes] at hbytes
    obtain ⟨hbytes₁, hbytes₂⟩ := Stream.holds_append.mp hbytes
    have hlen₁ : (bytes.take (Slot.width? e.first)).length = Slot.width? e.first :=
      List.length_take_of_le hle
    have hlen₂ : (bytes.drop (Slot.width? e.first)).length = Slot.width? e.second := by
      rw [List.length_drop, hlen, Opcode.Entry.width]
      omega
    rw [hlen₁] at hbytes₂
    have h₁ := (Slot.decode?_eq_ok_iff e.first).mpr ⟨_, hlen₁, hbytes₁, rfl, rfl⟩
    have h₂ := (Slot.decode?_eq_ok_iff e.second).mpr ⟨_, hlen₂, hbytes₂, rfl, rfl⟩
    refine bind_eq_ok.mpr ⟨_, h₁, bind_eq_ok.mpr ⟨_, h₂, ?_⟩⟩
    rw [Opcode.Entry.width, ← Nat.add_assoc]
    rfl

lemma exists_error_of_decodeOperands {e : Opcode.Entry} {err : ε}
    (h : Instruction.decodeOperands fetch pos e = .error err) :
    ∃ bytes, bytes.length < e.width ∧ Stream.Holds fetch pos bytes ∧
      fetch (pos + bytes.length) = .error err := by
  rcases bind_eq_error.mp h with h | ⟨⟨first, pos₁⟩, h₁, h⟩
  · obtain ⟨bytes, hlt, hbytes, herr⟩ := Slot.exists_error_of_decode? h
    exact ⟨bytes, Nat.lt_of_lt_of_le hlt (Nat.le_add_right _ _), hbytes, herr⟩
  · obtain ⟨bytes₁, hlen₁, hbytes₁, rfl, rfl⟩ := (Slot.decode?_eq_ok_iff _).mp h₁
    rcases bind_eq_error.mp h with h | ⟨⟨second, pos₂⟩, -, h⟩
    · obtain ⟨bytes₂, hlt, hbytes₂, herr⟩ := Slot.exists_error_of_decode? h
      refine ⟨bytes₁ ++ bytes₂, ?_, ?_, ?_⟩
      · rw [List.length_append, hlen₁, Opcode.Entry.width]
        exact Nat.add_lt_add_left hlt _
      · exact Stream.holds_append.mpr ⟨hbytes₁, by rwa [hlen₁]⟩
      · rwa [List.length_append, hlen₁, ← Nat.add_assoc]
    · cases h

end DecodeOperands

/-- The instruction of an opcode is encoded as the opcode and the bytes in its slots. -/
lemma Opcode.encode_fill (op : Opcode) {bytes : List UInt8} (h : bytes.length = op.entry.width) :
    op.encode (op.entry.fill bytes) = some (op.bytes ++ bytes) := by
  have hle : Slot.width? op.entry.first ≤ bytes.length := by
    rw [h]
    exact Nat.le_add_right _ _
  have h₁ := Slot.encode_fill op.entry.first (List.length_take_of_le hle)
  have hdrop : (bytes.drop (Slot.width? op.entry.first)).length =
      Slot.width? op.entry.second := by
    rw [List.length_drop, h, Opcode.Entry.width]
    omega
  have h₂ := Slot.encode_fill op.entry.second hdrop
  simp only [Opcode.encode, Opcode.Entry.fill, h₁, h₂, if_true, Option.bind_eq_bind,
    Option.bind_some, List.append_assoc, List.take_append_drop, pure]

/-! ## No two opcodes are alike -/

namespace Opcode

lemma mem_allBytes (b : UInt8) : b ∈ allBytes :=
  List.mem_map.mpr ⟨b.toNat, List.mem_range.mpr b.toNat_lt, UInt8.ofNat_toNat⟩

lemma base_mem_all {b : UInt8} (h : b ≠ extension) : base b ∈ all := by
  have hb : b ∈ allBytes.filter (· != extension) :=
    List.mem_filter.mpr ⟨mem_allBytes b, by simpa using h⟩
  exact List.mem_append_left _ (List.mem_map_of_mem hb)

lemma extended_mem_all (b : UInt8) : extended b ∈ all :=
  List.mem_append_right _ (List.mem_map_of_mem (mem_allBytes b))

/-- Whether the numbers of a list differ from one another and from those whose bits are set. -/
def allFresh : (seen : Nat) → List Nat → Bool
  | _, [] => true
  | seen, n :: rest => !seen.testBit n && allFresh (seen ||| 1 <<< n) rest

lemma nodup_of_allFresh {seen : Nat} {numbers : List Nat} (h : allFresh seen numbers = true) :
    numbers.Nodup ∧ ∀ n ∈ numbers, seen.testBit n = false := by
  induction numbers generalizing seen with
  | nil => simp
  | cons n rest ih =>
    rw [allFresh, Bool.and_eq_true, Bool.not_eq_true'] at h
    obtain ⟨hn, hrest⟩ := h
    obtain ⟨hnodup, hfresh⟩ := ih hrest
    simp only [Nat.testBit_or, Bool.or_eq_false_iff] at hfresh
    refine ⟨List.nodup_cons.mpr ⟨?_, hnodup⟩, ?_⟩
    · intro hmem
      have hbit := (hfresh n hmem).2
      simp [Nat.testBit_shiftLeft] at hbit
    · intro k hk
      rcases List.mem_cons.mp hk with rfl | hk
      · exact hn
      · exact (hfresh k hk).1

end Opcode

/-- A number for an operand that an opcode fixes. -/
def Operand.number : Operand → Nat
  | reg r => r.ctorIdx
  | pair p => 7 + p.ctorIdx
  | indirect i => 12 + i.ctorIdx
  | cond condition => 17 + condition.ctorIdx
  | bit n => 21 + n.toNat
  | vector b => 29 + b.toNat
  | highC => 99
  | imm8 b => 100 + b.toNat
  | _ => 0

/-- A number for a slot. -/
def Slot.number : Option Slot → Nat
  | none => 0
  | some (.fixed o) => 8 + o.number
  | some s => s.ctorIdx

namespace Opcode

/-- A number for an entry.  It need not tell all entries apart, only those of the table. -/
def Entry.number (e : Entry) : Nat :=
  e.kind.ctorIdx + 64 * (Slot.number e.second + 64 * Slot.number e.first)

/-- No two opcodes of the table have the same entry. -/
lemma entry_injective {op op' : Opcode} (hop : op ∈ all) (hop' : op' ∈ all)
    (h : op.entry = op'.entry) : op = op' := by
  -- one pass over the numbers of the entries, in place of a comparison of each two entries
  have hfresh : allFresh 0 (all.map fun op => op.entry.number) = true := by
    decide +kernel
  have hnodup := (nodup_of_allFresh hfresh).1
  exact List.inj_on_of_nodup_map hnodup hop hop' (congrArg Entry.number h)

end Opcode

/-! ## The entry of an instruction -/

/-- The slot that takes an operand.  Immediates of `DB` are no operands but part of the opcode. -/
def Slot.ofOperand : Operand → Slot
  | .imm8 _ => imm8
  | .rel8 _ => rel8
  | .imm16 _ => imm16
  | .direct _ => direct
  | .highOffset _ => highOffset
  | .spRel _ => spRel
  | o => fixed o

/-- The only entry that an instruction can be of. -/
def Instruction.entry (i : Instruction) : Opcode.Entry :=
  match i.kind with
  | .invalid => ⟨.invalid, i.first.map .fixed, i.second.map .fixed⟩
  | .stop => ⟨.stop, some .padding, none⟩
  | kind => ⟨kind, i.first.map .ofOperand, i.second.map .ofOperand⟩

namespace Opcode

/-- Whether a slot is one that `Slot.ofOperand` gives. -/
def isPlain : Option Slot → Bool
  | some (.fixed o) => Slot.ofOperand o == .fixed o
  | some .padding => false
  | _ => true

/-- Whether a slot is fixed, if there is one. -/
def isFixed : Option Slot → Bool
  | none | some (.fixed _) => true
  | _ => false

/-- The entries of the table: those of `DB` are fixed, `STOP` has its padding, and the others are
made of plain slots. -/
def Entry.isRegular (e : Entry) : Bool :=
  match e.kind with
  | .invalid => isFixed e.first && isFixed e.second
  | .stop => e == ⟨.stop, some .padding, none⟩
  | _ => isPlain e.first && isPlain e.second

lemma isRegular_entry {op : Opcode} (hop : op ∈ all) : op.entry.isRegular = true := by
  have h : ∀ op ∈ all, op.entry.isRegular = true := by
    decide +kernel
  exact h op hop

lemma eq_map_fixed {s : Option Slot} {o : Option Operand} {bytes : List UInt8}
    (hs : isFixed s = true) (h : Slot.encode s o = some bytes) : s = o.map .fixed := by
  cases s with
  | none =>
    cases o with
    | none => rfl
    | some o => cases h
  | some s =>
    cases s with
    | fixed o' =>
      cases o with
      | none => cases h
      | some o =>
        rw [Slot.eq_of_encode_fixed h]
        rfl
    | _ => cases hs

lemma eq_map_ofOperand {s : Option Slot} {o : Option Operand} {bytes : List UInt8}
    (hs : isPlain s = true) (h : Slot.encode s o = some bytes) : s = o.map .ofOperand := by
  cases s with
  | none =>
    cases o with
    | none => rfl
    | some o => cases h
  | some s =>
    cases o with
    | none =>
      cases s with
      | padding => cases hs
      | _ => cases h
    | some o =>
      cases s with
      | fixed o' =>
        obtain rfl := Slot.eq_of_encode_fixed h
        exact congrArg some (beq_iff_eq.mp hs).symm
      | padding => cases hs
      | _ => cases o <;> first | rfl | cases h

/-- Machine code under an opcode consists of the opcode and the bytes of both operands. -/
lemma encode_iff {op : Opcode} {i : Instruction} {bytes : List UInt8} :
    op.encode i = some bytes ↔ op.entry.kind = i.kind ∧
      ∃ bytes₁ bytes₂, Slot.encode op.entry.first i.first = some bytes₁ ∧
        Slot.encode op.entry.second i.second = some bytes₂ ∧
        bytes = op.bytes ++ bytes₁ ++ bytes₂ := by
  by_cases hkind : op.entry.kind = i.kind
  · simp only [encode, hkind, if_true, Option.bind_eq_bind, Option.bind_eq_some_iff, pure,
      Option.some.injEq, true_and]
    constructor
    · rintro ⟨bytes₁, h₁, bytes₂, h₂, rfl⟩
      exact ⟨bytes₁, bytes₂, h₁, h₂, rfl⟩
    · rintro ⟨bytes₁, bytes₂, h₁, h₂, rfl⟩
      exact ⟨bytes₁, h₁, bytes₂, h₂, rfl⟩
  · simp [encode, hkind]

/-- An instruction that has machine code under an opcode of the table has that opcode's entry. -/
lemma entry_of_encode {op : Opcode} {i : Instruction} {bytes : List UInt8} (hop : op ∈ all)
    (h : op.encode i = some bytes) : i.entry = op.entry := by
  obtain ⟨hkind, bytes₁, bytes₂, h₁, h₂, -⟩ := encode_iff.mp h
  have hreg := isRegular_entry hop
  -- from here on the entry is any regular one
  generalize op.entry = e at hkind h₁ h₂ hreg
  obtain ⟨kind, first, second⟩ := e
  dsimp only at hkind h₁ h₂
  subst hkind
  unfold Entry.isRegular at hreg
  unfold Instruction.entry
  split at hreg
  · next hk =>
    dsimp only at hk hreg
    rw [Bool.and_eq_true] at hreg
    rw [eq_map_fixed hreg.1 h₁, eq_map_fixed hreg.2 h₂, hk]
  · next hk =>
    dsimp only at hk
    rw [beq_iff_eq.mp hreg, hk]
  · dsimp only at hreg
    rw [Bool.and_eq_true] at hreg
    rw [eq_map_ofOperand hreg.1 h₁, eq_map_ofOperand hreg.2 h₂]

/-- The machine code under an opcode of the table is the machine code. -/
lemma encode_eq_of_mem {op : Opcode} {i : Instruction} {bytes : List UInt8} (hop : op ∈ all)
    (h : op.encode i = some bytes) : i.encode = some bytes := by
  cases h' : i.encode with
  | none => exact absurd h (by simp [List.findSome?_eq_none_iff.mp h' op hop])
  | some bytes' =>
    -- the first opcode that encodes `i` has the same entry as `op`, so it is `op`
    obtain ⟨op', hop', hop'i⟩ := List.exists_of_findSome?_eq_some h'
    have heq : op' = op :=
      entry_injective hop' hop ((entry_of_encode hop' hop'i).symm.trans (entry_of_encode hop h))
    rw [← hop'i, heq, h]

/-- An instruction has machine code exactly when it has machine code under an opcode. -/
lemma encode_eq_some_iff {i : Instruction} {bytes : List UInt8} :
    i.encode = some bytes ↔ ∃ op ∈ all, op.encode i = some bytes := by
  constructor
  · intro h
    exact List.exists_of_findSome?_eq_some h
  · rintro ⟨op, hop, h⟩
    exact encode_eq_of_mem hop h

end Opcode
end Handheld
