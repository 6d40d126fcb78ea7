/-
# Reading machine code back

Decoding the machine code of an instruction gives the instruction back, but for one: the padding of
`STOP` is an operand only where it is not zero, so `STOP` with a zero for its operand has the
machine code of plain `STOP` (`machineCode_read_back`).  It is the only instruction with machine
code that decoding never gives (`has_machineCode_iff`).
-/
import Handheld.Instruction.Assembly
import Handheld.Proofs.Instruction.Codec
import Handheld.Section.Ram

namespace Handheld

/-! ## Places that hold given bytes -/

/-- A list of bytes as a stream that ends after it. -/
def Stream.ofList (bytes : List UInt8) (k : Nat) : Except Unit UInt8 :=
  match bytes[k]? with
  | some b => .ok b
  | none => .error ()

lemma Stream.holds_ofList (bytes : List UInt8) : Holds (ofList bytes) 0 bytes := by
  intro k hk
  rw [ofList, Nat.zero_add, List.getElem?_eq_getElem hk]

namespace Ram

/-- Read-only memory with code from address zero on. -/
def ofCode (code : List UInt8) : Ram :=
  .ofBytes "code" 0 ⟨code.toArray⟩ .read

lemma bytes_ofCode {code : List UInt8} (h : code.length ≤ 0xFFFF) :
    (ofCode code).bytes = ⟨code.toArray⟩ := by
  apply ByteArray.ext
  have hroom : room 0 = 0xFFFF := rfl
  rw [ofCode, bytes_ofBytes, hroom, ByteArray.data_extract]
  exact Array.extract_eq_self_of_le h

lemma holds_ofCode {code : List UInt8} (h : code.length ≤ 0xFFFF) :
    Memory.Holds (ofCode code) 0 code := by
  intro k hk
  have hbytes := bytes_ofCode h
  have ha : (0 + UInt16.ofNat k : Address).toNat = k := by
    rw [UInt16.zero_add, UInt16.toNat_ofNat_of_lt']
    exact Nat.lt_of_lt_of_le hk (Nat.le_succ_of_le h)
  have hoffset : (ofCode code).offset (0 + UInt16.ofNat k) = some k := by
    have hsize : k < (ofCode code).bytes.size := by
      rw [hbytes]
      exact hk
    have hstart : (ofCode code).start = 0 := rfl
    rw [offset, hstart, ha]
    exact if_pos ⟨UInt16.zero_le, hsize⟩
  have hrefusal : (ofCode code).refusal (0 + UInt16.ofNat k) .read (ofCode code).access.readable =
      none := by
    rw [refusal, hoffset]
    rfl
  have hget : (ofCode code).get (0 + UInt16.ofNat k) = code[k] := by
    rw [get, hoffset, hbytes]
    dsimp only
    rw [Bytes.get_eq, List.getElem?_toArray, List.getElem?_eq_getElem hk]
    rfl
  simp only [Memory.read, hrefusal, hget]

end Ram

/-! ## Slots and entries -/

namespace Slot

variable {s : Option Slot} {o : Option Operand} {bytes : List UInt8}

/-- A slot has as many bytes in machine code as it takes in decoding, and makes its operand of them;
but a padding of zero is no operand. -/
lemma fill?_of_encode (h : encode s o = some bytes) :
    bytes.length = width? s ∧
      fill? s bytes = if s = some .padding ∧ o = some (.imm8 0) then none else o := by
  match s with
  | none =>
    cases o with
    | none =>
      cases h
      exact ⟨rfl, rfl⟩
    | some o => cases h
  | some (.fixed o') =>
    cases o with
    | none => cases h
    | some o =>
      obtain rfl := eq_of_encode_fixed h
      cases (if_pos rfl).symm.trans h
      exact ⟨rfl, rfl⟩
  | some .imm8 | some .rel8 | some .highOffset | some .spRel =>
    -- one kind of operand fits the slot
    cases o with
    | none => cases h
    | some o =>
      cases o <;> cases h
      exact ⟨rfl, rfl⟩
  | some .imm16 | some .direct =>
    cases o with
    | none => cases h
    | some o =>
      cases o <;> cases h
      exact ⟨rfl, by simp [fill?, fill, ofWord, Word.littleEndian]⟩
  | some .padding =>
    cases o with
    | none =>
      cases h
      exact ⟨rfl, rfl⟩
    | some o =>
      cases o <;> cases h
      exact ⟨rfl, by simp [fill?, fill, ofByte]⟩

end Slot

namespace Opcode

/-- `STOP` has its padding, and no other opcode has any. -/
lemma padding_cases {op : Opcode} (hop : op ∈ all) :
    op.entry = ⟨.stop, some .padding, none⟩ ∨
      op.entry.kind ≠ .stop ∧ op.entry.first ≠ some .padding ∧
        op.entry.second ≠ some .padding := by
  have hreg := isRegular_entry hop
  generalize op.entry = e at hreg
  unfold Entry.isRegular at hreg
  split at hreg
  case h_1 hkind =>
    rw [Bool.and_eq_true] at hreg
    refine .inr ⟨by rw [hkind]; decide, ?_, ?_⟩
    · intro hfirst
      exact absurd hreg.1 (by rw [hfirst]; decide)
    · intro hsecond
      exact absurd hreg.2 (by rw [hsecond]; decide)
  case h_2 => exact .inl (beq_iff_eq.mp hreg)
  case h_3 hkind =>
    rw [Bool.and_eq_true] at hreg
    refine .inr ⟨hkind, ?_, ?_⟩
    · intro hfirst
      exact absurd hreg.1 (by rw [hfirst]; decide)
    · intro hsecond
      exact absurd hreg.2 (by rw [hsecond]; decide)

/-- An entry whose slots are filled one after the other. -/
lemma Entry.fill_append (e : Entry) {bytes₁ bytes₂ : List UInt8}
    (h : bytes₁.length = Slot.width? e.first) :
    e.fill (bytes₁ ++ bytes₂) =
      ⟨e.kind, Slot.fill? e.first bytes₁, Slot.fill? e.second bytes₂⟩ := by
  simp [fill, ← h]

end Opcode

/-! ## The instruction that machine code stands for -/

namespace Instruction

/-- `STOP` with the zero that pads it spelled out. -/
def paddedStop : Instruction := ⟨.stop, some (.imm8 0), none⟩

/-- The instruction that is read back from the machine code of an instruction. -/
def canonical (i : Instruction) : Instruction :=
  if i = paddedStop then ⟨.stop, none, none⟩ else i

lemma canonical_of_ne {i : Instruction} (h : i ≠ paddedStop) : i.canonical = i :=
  if_neg h

end Instruction

namespace Opcode

/-- The machine code of an instruction is an opcode of the table with bytes for its slots, which
fill them with the operands of the instruction. -/
lemma fill_of_encode {op : Opcode} {i : Instruction} {code : List UInt8} (hop : op ∈ all)
    (h : op.encode i = some code) :
    ∃ bytes, code = op.bytes ++ bytes ∧ bytes.length = op.entry.width ∧
      op.entry.fill bytes = i.canonical := by
  obtain ⟨hkind, bytes₁, bytes₂, h₁, h₂, rfl⟩ := encode_iff.mp h
  obtain ⟨hlen₁, hfill₁⟩ := Slot.fill?_of_encode h₁
  obtain ⟨hlen₂, hfill₂⟩ := Slot.fill?_of_encode h₂
  refine ⟨bytes₁ ++ bytes₂, List.append_assoc _ _ _, ?_, ?_⟩
  · rw [List.length_append, hlen₁, hlen₂]
    rfl
  · rw [Entry.fill_append _ hlen₁, hfill₁, hfill₂]
    obtain ⟨kind, first, second⟩ := i
    rcases padding_cases hop with hstop | ⟨hne, hfirst, hsecond⟩
    · rw [hstop] at hkind h₂ ⊢
      obtain rfl : Kind.stop = kind := hkind
      obtain rfl : second = none := by
        cases second with
        | none => rfl
        | some o => cases h₂
      by_cases hzero : first = some (.imm8 0)
      · rw [hzero]
        rfl
      · rw [if_neg (fun h => hzero h.2), if_neg (fun h => nomatch h.1)]
        refine (Instruction.canonical_of_ne ?_).symm
        rintro ⟨⟩
        exact hzero rfl
    · rw [if_neg (fun h => hfirst h.1), if_neg (fun h => hsecond h.1), hkind]
      refine (Instruction.canonical_of_ne ?_).symm
      rintro ⟨⟩
      exact hne hkind

/-- The number of bytes of the instructions of an opcode. -/
def size (op : Opcode) : Nat :=
  op.bytes.length + op.entry.width

end Opcode

namespace Instruction

variable {i j : Instruction} {code : List UInt8} {n : Nat}

/-- A stream that starts with the machine code of an instruction is decoded to it. -/
lemma decodeStream_of_encode {ε : Type} {fetch : Nat → Except ε UInt8} (h : i.encode = some code)
    (hcode : Stream.Holds fetch 0 code) : decodeStream fetch = .ok (i.canonical, code.length) := by
  obtain ⟨op, hop, hi⟩ := Opcode.encode_eq_some_iff.mp h
  obtain ⟨bytes, rfl, hlen, hfill⟩ := Opcode.fill_of_encode hop hi
  exact decodeStream_eq_ok_iff.mpr ⟨op, hop, bytes, hlen, hcode, hfill.symm, rfl⟩

/-- A memory that holds the machine code of an instruction is decoded to it. -/
lemma decode_of_encode {M : Type} [Memory M] {m : M} {pc : Address} (h : i.encode = some code)
    (hcode : Memory.Holds m pc code) :
    decode m pc = .ok (i.canonical, pc + UInt16.ofNat code.length) :=
  decode_eq_ok_iff.mpr
    ⟨code.length, decodeStream_of_encode h (Memory.holds_iff_stream.mp hcode), rfl⟩

lemma encode_paddedStop : paddedStop.encode = some [0x10, 0x00] := by
  decide +kernel

lemma encode_canonical (i : Instruction) : i.canonical.encode = i.encode := by
  unfold canonical
  split
  · rename_i h
    subst h
    decide +kernel
  · rfl

/-- Instructions with the same machine code are the same, but for a padding of zero. -/
lemma encode_eq_iff (h : i.encode = some code) :
    j.encode = some code ↔ j.canonical = i.canonical := by
  constructor
  · intro hj
    have hi := decodeStream_of_encode h (Stream.holds_ofList code)
    rw [decodeStream_of_encode hj (Stream.holds_ofList code)] at hi
    exact (Prod.mk.inj (Except.ok.inj hi)).1
  · intro hcanonical
    rw [← encode_canonical j, hcanonical, encode_canonical, h]

/-- **Machine code is read back.**  A memory that holds the machine code of an instruction, also
around the top of the space, is decoded to that instruction and to the address after its bytes, and
no other instruction has the same machine code; but `STOP` with a padding of zero is read back as
plain `STOP`, whose machine code it shares. -/
theorem machineCode_read_back (h : i.encode = some code) :
    (∀ {M : Type} [Memory M] (m : M) (pc : Address), Memory.Holds m pc code →
      decode m pc = .ok (i.canonical, pc + UInt16.ofNat code.length)) ∧
    ∀ j : Instruction, j.encode = some code ↔ j.canonical = i.canonical :=
  ⟨fun _ _ hcode => decode_of_encode h hcode, fun _ => encode_eq_iff h⟩

/-- A conditional call is read back, from three bytes. -/
theorem call_read_back :
    encode ⟨.call, some (.cond .nz), some (.imm16 0x1234)⟩ = some [0xC4, 0x34, 0x12] ∧
      Memory.Holds (Ram.ofCode [0xC4, 0x34, 0x12]) 0 [0xC4, 0x34, 0x12] ∧
      decode (Ram.ofCode [0xC4, 0x34, 0x12]) 0 =
        .ok (⟨.call, some (.cond .nz), some (.imm16 0x1234)⟩, 3) := by
  have hencode : encode ⟨.call, some (.cond .nz), some (.imm16 0x1234)⟩ =
      some [0xC4, 0x34, 0x12] := by
    decide +kernel
  have hcode : Memory.Holds (Ram.ofCode [0xC4, 0x34, 0x12]) 0 [0xC4, 0x34, 0x12] :=
    Ram.holds_ofCode (by decide)
  exact ⟨hencode, hcode, (machineCode_read_back hencode).1 _ 0 hcode⟩

/-- `STOP` with a padding of zero is not what its machine code is read back as. -/
theorem padding_not_read_back :
    paddedStop.encode = some [0x10, 0x00] ∧
      Memory.Holds (Ram.ofCode [0x10, 0x00]) 0 [0x10, 0x00] ∧
      decode (Ram.ofCode [0x10, 0x00]) 0 = .ok (⟨.stop, none, none⟩, 2) ∧
      encode ⟨.stop, none, none⟩ = some [0x10, 0x00] ∧ paddedStop ≠ ⟨.stop, none, none⟩ := by
  have hcode : Memory.Holds (Ram.ofCode [0x10, 0x00]) 0 [0x10, 0x00] :=
    Ram.holds_ofCode (by decide)
  exact ⟨encode_paddedStop, hcode, decode_of_encode encode_paddedStop hcode, by decide +kernel,
    by decide⟩

/-! ## Instructions that have machine code -/

/-- The size of an instruction is the size of the opcode that takes its operands. -/
lemma size_eq_some_iff :
    i.size = some n ↔ ∃ op ∈ Opcode.all, (op.encode i).isSome ∧ op.size = n := by
  rw [size, Option.map_eq_some_iff]
  constructor
  · rintro ⟨code, hcode, rfl⟩
    obtain ⟨op, hop, hi⟩ := Opcode.encode_eq_some_iff.mp hcode
    obtain ⟨bytes, rfl, hlen, -⟩ := Opcode.fill_of_encode hop hi
    refine ⟨op, hop, by rw [hi]; rfl, ?_⟩
    rw [Opcode.size, List.length_append, hlen]
  · rintro ⟨op, hop, hi, rfl⟩
    obtain ⟨code, hcode⟩ := Option.isSome_iff_exists.mp hi
    obtain ⟨bytes, rfl, hlen, -⟩ := Opcode.fill_of_encode hop hcode
    refine ⟨_, Opcode.encode_eq_of_mem hop hcode, ?_⟩
    rw [Opcode.size, List.length_append, hlen]

/-- Machine code is at most three bytes long, so memory has room for it. -/
lemma length_le_of_encode (h : i.encode = some code) : code.length ≤ 3 :=
  (length_of_decodeStream (decodeStream_of_encode h (Stream.holds_ofList code))).2

/-- Nothing is written, and the instruction is named, exactly where it has no machine code. -/
lemma write_eq_noEncoding_iff {M : Type} [Memory M] {m m' : M} {pc : Address} :
    Assembly.write m pc i = (.error (.noEncoding j), m') ↔ i.encode = none ∧ j = i ∧ m' = m := by
  unfold Assembly.write
  cases h : i.encode with
  | none => simp [eq_comm]
  | some code =>
    dsimp only
    rcases Memory.load m pc code with ⟨e | u, after⟩
    · simp
    · simp

/-- **Which instructions have machine code.**  They are those that some bytes are decoded to, and
`STOP` with a padding of zero.  The size is given for just these, and is the number of bytes, which
is that of the opcode; and to write any other instruction fails, names that instruction and leaves
the memory as it was. -/
theorem has_machineCode_iff (i : Instruction) :
    (i.encode.isSome ↔
      (∃ code next, decode (Ram.ofCode code) 0 = .ok (i, next)) ∨ i = paddedStop) ∧
    (∀ n, i.size = some n ↔ ∃ code, i.encode = some code ∧ code.length = n) ∧
    (∀ n, i.size = some n ↔ ∃ op ∈ Opcode.all, (op.encode i).isSome ∧ op.size = n) ∧
    ∀ {M : Type} [Memory M] (m m' : M) (pc : Address) (j : Instruction),
      Assembly.write m pc i = (.error (.noEncoding j), m') ↔
        i.encode = none ∧ j = i ∧ m' = m := by
  refine ⟨⟨?_, ?_⟩, fun n => Option.map_eq_some_iff, fun n => size_eq_some_iff,
    fun m m' pc j => write_eq_noEncoding_iff⟩
  · intro h
    obtain ⟨code, hcode⟩ := Option.isSome_iff_exists.mp h
    by_cases hi : i = paddedStop
    · exact .inr hi
    · have hroom : code.length ≤ 0xFFFF := Nat.le_trans (length_le_of_encode hcode) (by decide)
      have hdecode := decode_of_encode hcode (Ram.holds_ofCode hroom)
      rw [canonical_of_ne hi] at hdecode
      exact .inl ⟨code, _, hdecode⟩
  · rintro (⟨code, next, hdecode⟩ | rfl)
    · obtain ⟨bytes, hbytes, -⟩ := exists_bytes_of_decode hdecode
      rw [hbytes]
      rfl
    · rw [encode_paddedStop]
      rfl

end Instruction

end Handheld
