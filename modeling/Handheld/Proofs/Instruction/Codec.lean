/-
# Decoding and encoding

Decoding reads an opcode and the bytes of its slots, and nothing else (`decodeStream_eq_ok_iff`).
Encoding an instruction that was decoded gives those bytes back.  The main statement,
`decode_encode`, says both of a memory, together with the only way in which decoding fails.
-/
import Handheld.Proofs.Instruction.OpcodeTable

namespace Handheld

namespace Instruction

/-! ## Streams -/

section Streams

variable {ε : Type} {fetch fetch' : Nat → Except ε UInt8} {i : Instruction} {n : Nat}

/-- An opcode, once read, decides how decoding goes on. -/
lemma decodeStream_of_holds {op : Opcode} (hop : op ∈ Opcode.all)
    (h : Stream.Holds fetch 0 op.bytes) :
    decodeStream fetch = decodeOperands fetch op.bytes.length op.entry := by
  cases op with
  | base b =>
    -- the table has no opcode of one byte for the extension
    have hb : b ≠ Opcode.extension := by
      rintro rfl
      simp [Opcode.all, Opcode.allBytes] at hop
    have h₀ : fetch 0 = .ok b := (Stream.holds_cons.mp h).1
    rw [decodeStream, h₀, ok_bind, if_neg hb]
    rfl
  | extended b =>
    obtain ⟨h₀, h⟩ := Stream.holds_cons.mp h
    have h₁ : fetch 1 = .ok b := (Stream.holds_cons.mp h).1
    rw [decodeStream, h₀, ok_bind, if_pos rfl, h₁, ok_bind]
    rfl

/-- A stream starts with an opcode of the table, or cannot be read that far. -/
lemma exists_opcode (fetch : Nat → Except ε UInt8) :
    (∃ op ∈ Opcode.all, Stream.Holds fetch 0 op.bytes) ∨
      ∃ e bytes, decodeStream fetch = .error e ∧ bytes.length < 2 ∧
        Stream.Holds fetch 0 bytes ∧ fetch bytes.length = .error e := by
  cases h₀ : fetch 0 with
  | error e =>
    right
    refine ⟨e, [], ?_, Nat.zero_lt_two, Stream.holds_nil, h₀⟩
    rw [decodeStream, h₀, error_bind]
  | ok b =>
    by_cases hb : b = Opcode.extension
    swap
    · left
      exact ⟨.base b, Opcode.base_mem_all hb, by simpa [Opcode.bytes, Stream.holds_cons] using h₀⟩
    · subst hb
      cases h₁ : fetch 1 with
      | error e =>
        right
        refine ⟨e, [Opcode.extension], ?_, Nat.one_lt_two, ?_, h₁⟩
        · rw [decodeStream, h₀, ok_bind, if_pos rfl, h₁, error_bind]
        · simpa [Stream.holds_cons] using h₀
      | ok b =>
        left
        refine ⟨.extended b, Opcode.extended_mem_all b, ?_⟩
        simpa [Opcode.bytes, Stream.holds_cons] using ⟨h₀, h₁⟩

/-- What is decoded is an opcode of the table with its slots filled from the bytes after it. -/
lemma decodeStream_eq_ok_iff :
    decodeStream fetch = .ok (i, n) ↔
      ∃ op ∈ Opcode.all, ∃ bytes, bytes.length = op.entry.width ∧
        Stream.Holds fetch 0 (op.bytes ++ bytes) ∧ i = op.entry.fill bytes ∧
        n = (op.bytes ++ bytes).length := by
  constructor
  · intro h
    rcases exists_opcode fetch with ⟨op, hop, hbytes⟩ | ⟨e, _, herr, -⟩
    · rw [decodeStream_of_holds hop hbytes, decodeOperands_eq_ok_iff] at h
      obtain ⟨bytes, hlen, hbytes', rfl, rfl⟩ := h
      refine ⟨op, hop, bytes, hlen, ?_, rfl, by rw [List.length_append, hlen]⟩
      exact Stream.holds_append.mpr ⟨hbytes, by rwa [Nat.zero_add]⟩
    · rw [herr] at h
      cases h
  · rintro ⟨op, hop, bytes, hlen, hbytes, rfl, rfl⟩
    obtain ⟨hbytes, hbytes'⟩ := Stream.holds_append.mp hbytes
    rw [Nat.zero_add] at hbytes'
    rw [decodeStream_of_holds hop hbytes, decodeOperands_eq_ok_iff]
    exact ⟨bytes, hlen, hbytes', rfl, by rw [List.length_append, hlen]⟩

lemma length_le_three {op : Opcode} (hop : op ∈ Opcode.all) :
    op.bytes.length + op.entry.width ≤ 3 := by
  have h : ∀ op ∈ Opcode.all, op.bytes.length + op.entry.width ≤ 3 := by
    decide +kernel
  exact h op hop

lemma length_of_decodeStream (h : decodeStream fetch = .ok (i, n)) : 1 ≤ n ∧ n ≤ 3 := by
  obtain ⟨op, hop, bytes, hlen, -, -, rfl⟩ := decodeStream_eq_ok_iff.mp h
  have hle := length_le_three hop
  have hpos : 1 ≤ op.bytes.length := by
    cases op with
    | base b => exact Nat.le_refl 1
    | extended b => exact Nat.le_succ 1
  rw [List.length_append, hlen]
  omega

/-- Decoding fails only where a byte cannot be read, after bytes that can. -/
lemma exists_error_of_decodeStream {e : ε} (h : decodeStream fetch = .error e) :
    ∃ bytes, bytes.length < 3 ∧ Stream.Holds fetch 0 bytes ∧ fetch bytes.length = .error e := by
  rcases exists_opcode fetch with ⟨op, hop, hbytes⟩ | ⟨e', bytes, herr, hlt, hbytes, hread⟩
  · rw [decodeStream_of_holds hop hbytes] at h
    obtain ⟨bytes, hlt, hbytes', herr⟩ := exists_error_of_decodeOperands h
    have hle := length_le_three hop
    refine ⟨op.bytes ++ bytes, ?_, ?_, ?_⟩
    · rw [List.length_append]
      omega
    · exact Stream.holds_append.mpr ⟨hbytes, by rwa [Nat.zero_add]⟩
    · rwa [List.length_append]
  · rw [herr] at h
    obtain rfl := Except.error.inj h
    exact ⟨bytes, by omega, hbytes, hread⟩

/-- Decoding depends on the bytes that it reads alone. -/
lemma decodeStream_congr (h : decodeStream fetch = .ok (i, n))
    (heq : ∀ k < n, fetch' k = fetch k) : decodeStream fetch' = .ok (i, n) := by
  obtain ⟨op, hop, bytes, hlen, hbytes, rfl, rfl⟩ := decodeStream_eq_ok_iff.mp h
  refine decodeStream_eq_ok_iff.mpr ⟨op, hop, bytes, hlen, hbytes.congr ?_, rfl, rfl⟩
  intro k hk
  rw [Nat.zero_add]
  exact heq k hk

end Streams

/-! ## Memories -/

section Memories

variable {M : Type} [Memory M] {m : M} {pc next : Address} {i : Instruction}

lemma decode_eq_ok_iff :
    decode m pc = .ok (i, next) ↔
      ∃ n, decodeStream (Memory.stream m pc) = .ok (i, n) ∧ next = pc + UInt16.ofNat n := by
  constructor
  · intro h
    obtain ⟨⟨i', n⟩, hn, h⟩ := bind_eq_ok.mp h
    obtain ⟨rfl, rfl⟩ := Prod.mk.inj (Except.ok.inj h)
    exact ⟨n, hn, rfl⟩
  · rintro ⟨n, hn, rfl⟩
    exact bind_eq_ok.mpr ⟨(i, n), hn, rfl⟩

/-- The address after a few bytes is that many bytes further, also around the top. -/
lemma next_sub {n : Nat} (pc : Address) (hn : n ≤ 3) : (pc + UInt16.ofNat n - pc).toNat = n := by
  rw [UInt16.add_comm, UInt16.add_sub_cancel, UInt16.toNat_ofNat_of_lt']
  exact Nat.lt_of_le_of_lt hn (by decide)

/-- What is decoded is encoded as the bytes that were read. -/
lemma exists_bytes_of_decode (h : decode m pc = .ok (i, next)) :
    ∃ bytes, i.encode = some bytes ∧ 1 ≤ bytes.length ∧ bytes.length ≤ 3 ∧
      (next - pc).toNat = bytes.length ∧ Memory.Holds m pc bytes := by
  obtain ⟨n, hn, rfl⟩ := decode_eq_ok_iff.mp h
  obtain ⟨hpos, hle⟩ := length_of_decodeStream hn
  obtain ⟨op, hop, bytes, hlen, hbytes, rfl, rfl⟩ := decodeStream_eq_ok_iff.mp hn
  have hencode := Opcode.encode_eq_of_mem hop (op.encode_fill hlen)
  exact ⟨op.bytes ++ bytes, hencode, hpos, hle, next_sub pc hle,
    Memory.holds_iff_stream.mpr hbytes⟩

/-- Two memories that give the same bytes where one of them is decoded are decoded alike. -/
lemma decode_congr {N : Type} [Memory N] {m' : N} (h : decode m pc = .ok (i, next))
    (heq : ∀ k < (next - pc).toNat, Memory.stream m' pc k = Memory.stream m pc k) :
    decode m' pc = .ok (i, next) := by
  obtain ⟨n, hn, rfl⟩ := decode_eq_ok_iff.mp h
  rw [next_sub pc (length_of_decodeStream hn).2] at heq
  exact decode_eq_ok_iff.mpr ⟨n, decodeStream_congr hn heq, rfl⟩

lemma decode_of_holds {N : Type} [Memory N] {m' : N} {bytes : List UInt8}
    (h : decode m pc = .ok (i, next)) (hlen : (next - pc).toNat ≤ bytes.length)
    (hm : Memory.Holds m pc bytes) (hm' : Memory.Holds m' pc bytes) :
    decode m' pc = .ok (i, next) := by
  refine decode_congr h ?_
  intro k hk
  have hk' : k < bytes.length := Nat.lt_of_lt_of_le hk hlen
  exact (hm' k hk').trans (hm k hk').symm

/-- **Decoding and encoding are inverse.**  What is decoded at an address has the bytes at that
address as its machine code, at most three of them, and depends on no other byte of the memory.
Decoding fails only with the error of the first byte it needs and cannot read: every instruction
whose machine code begins with the bytes before it has more bytes than these. -/
theorem decode_encode (m : M) (pc : Address) :
    match decode m pc with
    | .ok (i, next) =>
      ∃ bytes, i.encode = some bytes ∧ i.size = some bytes.length ∧
        1 ≤ bytes.length ∧ bytes.length ≤ 3 ∧ bytes.length = (next - pc).toNat ∧
        Memory.Holds m pc bytes ∧
        ∀ {N : Type} [Memory N] (m' : N),
          Memory.Holds m' pc bytes → decode m' pc = .ok (i, next)
    | .error e =>
      ∃ bytes : List UInt8, Memory.Holds m pc bytes ∧
        Memory.read m (pc + UInt16.ofNat bytes.length) = .error e ∧
        ∀ {N : Type} [Memory N] (m' : N) (i : Instruction) (next : Address),
          Memory.Holds m' pc bytes → decode m' pc = .ok (i, next) →
          bytes.length < (next - pc).toNat := by
  cases h : decode m pc with
  | ok result =>
    obtain ⟨i, next⟩ := result
    obtain ⟨bytes, hencode, hpos, hle, hlen, hbytes⟩ := exists_bytes_of_decode h
    refine ⟨bytes, hencode, ?_, hpos, hle, hlen.symm, hbytes, ?_⟩
    · rw [size, hencode, Option.map_some]
    · intro N _ m' hm'
      exact decode_of_holds h (Nat.le_of_eq hlen) hbytes hm'
  | error e =>
    have herr : decodeStream (Memory.stream m pc) = .error e := by
      rcases bind_eq_error.mp h with h | ⟨_, -, h⟩
      · exact h
      · cases h
    obtain ⟨bytes, -, hbytes, hread⟩ := exists_error_of_decodeStream herr
    rw [← Memory.holds_iff_stream] at hbytes
    refine ⟨bytes, hbytes, hread, ?_⟩
    intro N _ m' i next hm' h'
    -- otherwise the bytes before the unreadable one would do, and `m` would be decoded
    by_contra hle
    have hok := decode_of_holds h' (Nat.le_of_not_lt hle) hm' hbytes
    rw [h] at hok
    cases hok

end Memories

end Instruction

end Handheld
