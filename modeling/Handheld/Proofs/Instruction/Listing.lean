/-
# Listings and programs

A listing shows the instructions of a memory one after the other, each with its machine code, so
assembling the instructions of a listing gives the bytes that were listed.  In the other direction
a program that has been assembled is listed again.  The main statement, `Listing.round_trips`, says
both.  It takes memory that may be read as well as written: what may only be written can be
assembled into, but not listed (`Listing.write_only_not_listed`).
-/
import Handheld.Instruction.Listing
import Handheld.Proofs.Instruction.Assembling
import Handheld.Proofs.Memory.Loading

namespace Handheld

namespace Instruction

/-- Whether an instruction is one that decoding gives, in some memory. -/
def Decodable (i : Instruction) : Prop :=
  ∃ (M : Type) (_ : Memory M) (m : M) (pc next : Address), decode m pc = .ok (i, next)

/-- What is decoded is what has machine code and is read back from it. -/
lemma decodable_iff {i : Instruction} : i.Decodable ↔ i.hasCode ∧ i.canonical = i := by
  constructor
  · rintro ⟨M, _, m, pc, next, hdecode⟩
    obtain ⟨bytes, hencode, -, -, -, hbytes⟩ := exists_bytes_of_decode hdecode
    refine ⟨Option.isSome_iff_exists.mpr ⟨bytes, hencode⟩, ?_⟩
    have hback := decode_of_encode hencode hbytes
    rw [hdecode] at hback
    exact (Prod.mk.inj (Except.ok.inj hback)).1.symm
  · rintro ⟨hcode, hcanonical⟩
    obtain ⟨bytes, hencode⟩ := Option.isSome_iff_exists.mp hcode
    have hroom : bytes.length ≤ 0xFFFF := Nat.le_trans (length_le_of_encode hencode) (by decide)
    have hback := decode_of_encode hencode (Ram.holds_ofCode hroom)
    rw [hcanonical] at hback
    exact ⟨Ram, _, .ofCode bytes, 0, _, hback⟩

end Instruction

namespace Listing

open Assembly (emitAll machineCode)

variable {M : Type} [Memory M] {m : M} {a : Address} {bytes : List UInt8} {l : Line}
  {ls : List Line} {program : List Instruction}

/-! ## One line -/

/-- Whether a line shows an instruction of a memory with its machine code. -/
structure Line.Shows (m : M) (l : Line) : Prop where
  encode : l.instruction.encode = some l.bytes
  holds : Memory.Holds m l.address l.bytes

lemma readBytes_of_holds (h : Memory.Holds m a bytes) : readBytes m a bytes.length = .ok bytes := by
  induction bytes generalizing a with
  | nil => rfl
  | cons b bytes ih =>
    obtain ⟨hread, hrest⟩ := Memory.holds_cons.mp h
    rw [List.length_cons, readBytes, hread, ok_bind, ih hrest]
    rfl

/-- The line for an instruction that can be decoded shows it, and decoding goes on where the line
ends. -/
lemma line_of_decode {i : Instruction} {next : Address}
    (h : Instruction.decode m a = .ok (i, next)) :
    ∃ bytes, line m a = .ok (⟨a, i, bytes⟩, next) ∧ Line.Shows m ⟨a, i, bytes⟩ ∧
      Line.next ⟨a, i, bytes⟩ = next := by
  obtain ⟨bytes, hencode, -, hle, hlength, hbytes⟩ := Instruction.exists_bytes_of_decode h
  refine ⟨bytes, ?_, ⟨hencode, hbytes⟩, ?_⟩
  · have hmin : min bytes.length maxBytes = bytes.length := Nat.min_eq_left hle
    rw [line, h, ok_bind]
    dsimp only
    rw [hlength, hmin, readBytes_of_holds hbytes]
    rfl
  · rw [Line.next, ← hlength, UInt16.ofNat_toNat, UInt16.add_comm, UInt16.sub_add_cancel]

/-- Where every byte can be read, there is a line for every address. -/
lemma exists_line (hread : ∀ a, ∃ b, Memory.read m a = .ok b) (a : Address) :
    ∃ l, line m a = .ok (l, l.next) ∧ l.address = a ∧ l.Shows m := by
  cases h : Instruction.decodeStream (Memory.stream m a) with
  | error e =>
    obtain ⟨bytes, -, -, herror⟩ := Instruction.exists_error_of_decodeStream h
    obtain ⟨b, hb⟩ := hread (a + UInt16.ofNat bytes.length)
    rw [Memory.stream, hb] at herror
    cases herror
  | ok decoded =>
    obtain ⟨i, n⟩ := decoded
    have hdecode : Instruction.decode m a = .ok (i, a + UInt16.ofNat n) :=
      Instruction.decode_eq_ok_iff.mpr ⟨n, h, rfl⟩
    obtain ⟨bytes, hline, hshows, hnext⟩ := line_of_decode hdecode
    exact ⟨_, hline.trans (by rw [hnext]), rfl, hshows⟩

/-! ## Consecutive lines -/

/-- Whether each line starts where the line before it ends, and the first at a given address. -/
def Consecutive : Address → List Line → Prop
  | _, [] => True
  | a, l :: ls => l.address = a ∧ Consecutive l.next ls

/-- The bytes of all lines. -/
def allBytes (ls : List Line) : List UInt8 :=
  ls.flatMap Line.bytes

/-- A memory that can be read is listed as consecutive lines, however many. -/
lemma exists_lines (hread : ∀ a, ∃ b, Memory.read m a = .ok b) (a : Address) (count : Nat) :
    ∃ ls, lines m a count = .ok ls ∧ ls.length = count ∧ Consecutive a ls ∧
      ∀ l ∈ ls, l.Shows m := by
  induction count generalizing a with
  | zero => exact ⟨[], rfl, rfl, trivial, List.forall_mem_nil _⟩
  | succ count ih =>
    obtain ⟨l, hline, haddress, hshows⟩ := exists_line hread a
    obtain ⟨ls, hlines, hlength, hconsecutive, hall⟩ := ih l.next
    refine ⟨l :: ls, ?_, congrArg Nat.succ hlength, ⟨haddress, hconsecutive⟩,
      List.forall_mem_cons.mpr ⟨hshows, hall⟩⟩
    rw [lines, hline, ok_bind]
    dsimp only
    rw [hlines]
    rfl

/-- The memory holds the bytes of consecutive lines one after the other. -/
lemma holds_allBytes (h : Consecutive a ls) (hshows : ∀ l ∈ ls, l.Shows m) :
    Memory.Holds m a (allBytes ls) := by
  induction ls generalizing a with
  | nil => exact Memory.holds_nil m a
  | cons l ls ih =>
    obtain ⟨rfl, hrest⟩ := h
    obtain ⟨hl, hls⟩ := List.forall_mem_cons.mp hshows
    exact Memory.holds_append.mpr ⟨hl.holds, ih hrest hls⟩

/-- The machine code of the listed instructions is what is listed. -/
lemma machineCode_lines (hshows : ∀ l ∈ ls, l.Shows m) :
    machineCode (ls.map Line.instruction) = allBytes ls := by
  rw [machineCode, List.flatMap_map, allBytes]
  exact List.flatMap_congr fun l hl => Instruction.code_of_encode (hshows l hl).encode

/-- Assembling the listed instructions is loading the listed bytes. -/
lemma emitAll_lines {N : Type} [Memory N] (n : N) (a : Address) (hshows : ∀ l ∈ ls, l.Shows m) :
    emitAll .strict n a (ls.map Line.instruction) = Assembly.loaded n a (allBytes ls) := by
  rw [Assembly.emitAll_of_encodes, machineCode_lines hshows]
  intro i hi
  obtain ⟨l, hl, rfl⟩ := List.mem_map.mp hi
  exact Option.isSome_iff_exists.mpr ⟨l.bytes, (hshows l hl).encode⟩

/-- No line has more than three bytes. -/
lemma length_allBytes_le (hshows : ∀ l ∈ ls, l.Shows m) :
    (allBytes ls).length ≤ 3 * ls.length := by
  induction ls with
  | nil => exact Nat.le_refl 0
  | cons l ls ih =>
    obtain ⟨hl, hls⟩ := List.forall_mem_cons.mp hshows
    have hle := Instruction.length_le_of_encode hl.encode
    have hrest := ih hls
    rw [allBytes] at hrest
    rw [allBytes, List.flatMap_cons, List.length_append, List.length_cons]
    omega

/-- Assembled instructions are listed, if their bytes can be read. -/
lemma lines_of_holds (hprogram : ∀ i ∈ program, i.Decodable)
    (h : Memory.Holds m a (machineCode program)) :
    ∃ ls, lines m a program.length = .ok ls ∧ ls.map Line.instruction = program := by
  induction program generalizing a with
  | nil => exact ⟨[], rfl, rfl⟩
  | cons i program ih =>
    obtain ⟨hi, hrest⟩ := List.forall_mem_cons.mp hprogram
    obtain ⟨hcode, hcanonical⟩ := Instruction.decodable_iff.mp hi
    obtain ⟨bytes, hencode⟩ := Option.isSome_iff_exists.mp hcode
    rw [machineCode, List.flatMap_cons, Instruction.code_of_encode hencode] at h
    obtain ⟨hfirst, hsecond⟩ := Memory.holds_append.mp h
    have hdecode := Instruction.decode_of_encode hencode hfirst
    rw [hcanonical] at hdecode
    obtain ⟨bytes', hline, -, -⟩ := line_of_decode hdecode
    obtain ⟨ls, hlines, hmap⟩ := ih hrest hsecond
    refine ⟨⟨a, i, bytes'⟩ :: ls, ?_, congrArg (i :: ·) hmap⟩
    rw [List.length_cons, lines, hline, ok_bind]
    dsimp only
    rw [hlines]
    rfl

/-! ## Assembling into memory -/

/-- What is listed is written into a map of memory that may be written, and nothing else. -/
lemma exists_emitAll_lines (hconsecutive : Consecutive a ls) (hshows : ∀ l ∈ ls, l.Shows m)
    (hlength : (allBytes ls).length ≤ 0x10000) {n : MemoryMap} (hn : n.Writable) :
    ∃ n', emitAll .strict n a (ls.map Line.instruction) =
        (.ok (a + UInt16.ofNat (allBytes ls).length), n') ∧ n.Refilled n' ∧
      (∀ k < (allBytes ls).length, n'.byteAt (a + UInt16.ofNat k) =
        (Memory.read m (a + UInt16.ofNat k)).toOption) ∧
      ∀ b, (∀ k < (allBytes ls).length, b ≠ a + UInt16.ofNat k) → n'.byteAt b = n.byteAt b := by
  obtain ⟨n', hload, ⟨-, hrefilled⟩, hin, hout⟩ :=
    n.takes.load (a := a) ⟨hn, rfl, rfl⟩ hlength fun _ _ => trivial
  refine ⟨n', ?_, hrefilled, fun k hk => ?_, hout⟩
  · rw [emitAll_lines n a hshows, Assembly.loaded_of_load hload]
  · rw [hin k hk, holds_allBytes hconsecutive hshows k hk]
    rfl

/-- A program that is assembled into an array of bytes with room for it can be read there. -/
lemma exists_emitAll_ram {r : Ram} {pc : Address} (haccess : r.access = .readWrite)
    (hprogram : ∀ i ∈ program, i.hasCode)
    (hstart : r.start.toNat ≤ pc.toNat)
    (hstop : pc.toNat + (machineCode program).length ≤ r.start.toNat + r.length) :
    ∃ r', emitAll .strict r pc program =
        (.ok (pc + UInt16.ofNat (machineCode program).length), r') ∧
      Memory.Holds r' pc (machineCode program) := by
  have hend := r.stop_le
  have hroom : ∀ k < (machineCode program).length,
      (r.offset (pc + UInt16.ofNat k)).isSome := by
    intro k hk
    have hlt : k < 0x10000 := by omega
    have hat : (pc + UInt16.ofNat k).toNat = pc.toNat + k := by
      rw [UInt16.toNat_add, UInt16.toNat_ofNat_of_lt' hlt, Nat.mod_eq_of_lt (by omega)]
    exact Ram.isSome_offset (by omega) (by omega)
  obtain ⟨r', hload, -, hin, -⟩ :=
    r.takes.load (a := pc) ⟨haccess, fun _ => rfl⟩ (by omega) hroom
  refine ⟨r', ?_, fun k hk => ?_⟩
  · rw [Assembly.emitAll_of_encodes .strict r pc hprogram, Assembly.loaded_of_load hload]
  · have hk' := hin k hk
    cases hread : Memory.read r' (pc + UInt16.ofNat k) with
    | error e =>
      rw [hread] at hk'
      cases hk'
    | ok b =>
      rw [hread] at hk'
      exact congrArg Except.ok (Option.some.inj hk')

/-- **Listings and programs.**  A memory that can be read is listed as consecutive lines, each with
the bytes that are there and that its instruction has for machine code.  If they do not go round the
space more than once, then assembling their instructions at the same address, into a map of memory
that may be written, gives the listed bytes and changes nothing else.  In the other direction, a
program of decodable instructions that is assembled into an array of bytes with room for it, which
may be read and written, is listed again. -/
theorem round_trips :
    (∀ {M : Type} [Memory M] (m : M) (start : Address) (count : Nat),
      (∀ a, ∃ b, Memory.read m a = .ok b) →
      ∃ ls, lines m start count = .ok ls ∧ ls.length = count ∧ Consecutive start ls ∧
        (∀ l ∈ ls, l.Shows m) ∧
        ((allBytes ls).length ≤ 0x10000 → ∀ n : MemoryMap, n.Writable →
          ∃ n', emitAll .strict n start (ls.map Line.instruction) =
              (.ok (start + UInt16.ofNat (allBytes ls).length), n') ∧ n.Refilled n' ∧
            (∀ k < (allBytes ls).length, n'.byteAt (start + UInt16.ofNat k) =
              (Memory.read m (start + UInt16.ofNat k)).toOption) ∧
            ∀ b, (∀ k < (allBytes ls).length, b ≠ start + UInt16.ofNat k) →
              n'.byteAt b = n.byteAt b)) ∧
    ∀ (r : Ram) (pc : Address) (program : List Instruction), r.access = .readWrite →
      (∀ i ∈ program, i.Decodable) → r.start.toNat ≤ pc.toNat →
      pc.toNat + (machineCode program).length ≤ r.start.toNat + r.length →
      ∃ r' ls, emitAll .strict r pc program =
          (.ok (pc + UInt16.ofNat (machineCode program).length), r') ∧
        lines r' pc program.length = .ok ls ∧ ls.map Line.instruction = program := by
  refine ⟨fun m start count hread => ?_, fun r pc program haccess hprogram hstart hstop => ?_⟩
  · obtain ⟨ls, hlines, hcount, hconsecutive, hshows⟩ := exists_lines hread start count
    exact ⟨ls, hlines, hcount, hconsecutive, hshows, fun hlength n hn =>
      exists_emitAll_lines hconsecutive hshows hlength hn⟩
  · obtain ⟨r', hemit, hholds⟩ :=
      exists_emitAll_ram haccess
        (fun i hi => (Instruction.decodable_iff.mp (hprogram i hi)).1) hstart hstop
    obtain ⟨ls, hlines, hmap⟩ := lines_of_holds hprogram hholds
    exact ⟨r', ls, hemit, hlines, hmap⟩

/-- Memory everywhere, in two arrays, since one cannot be as long as the space. -/
def twoArrays : MemoryMap :=
  ⟨[.backed (.ram (.zeroed "low" 0 0xFFFF)), .backed (.ram (.zeroed "last" 0xFFFF 1))], {}⟩

lemma gap_twoArrays : MemoryMap.gap? 0 twoArrays.regions = none :=
  MemoryMap.gap_cons_backed rfl (MemoryMap.stop_zeroed (by decide) (by decide))
    (MemoryMap.gap_cons_backed rfl (MemoryMap.stop_zeroed (by decide) (by decide)) rfl)

lemma ram_twoArrays {r : Region} (hr : r ∈ twoArrays.regions) :
    ∃ bytes : Ram, r = .backed (.ram bytes) ∧ bytes.access = .readWrite := by
  obtain rfl | rfl : r = .backed (.ram (.zeroed "low" 0 0xFFFF)) ∨
      r = .backed (.ram (.zeroed "last" 0xFFFF 1)) := by
    simpa [twoArrays] using hr
  · exact ⟨_, rfl, rfl⟩
  · exact ⟨_, rfl, rfl⟩

/-- A call and an instruction after it. -/
def callAndNop : List Instruction :=
  [⟨.call, some (.imm16 0x1234), none⟩, ⟨.nop, none, none⟩]

lemma machineCode_callAndNop : machineCode callAndNop = [0xCD, 0x34, 0x12, 0x00] := by
  decide +kernel

lemma decodable_callAndNop {i : Instruction} (hi : i ∈ callAndNop) : i.Decodable := by
  have h : ∀ i ∈ callAndNop, i.hasCode ∧ i.canonical = i := by decide +kernel
  exact Instruction.decodable_iff.mpr (h i hi)

/-- Three instructions around the top of the space are listed and assembled where they are, and a
program is assembled and listed. -/
theorem round_trips_around_the_top :
    (∀ a, ∃ b, Memory.read twoArrays a = .ok b) ∧ twoArrays.Writable ∧
      (∃ ls n', lines twoArrays 0xFFFE 3 = .ok ls ∧ ls.length = 3 ∧
        emitAll .strict twoArrays 0xFFFE (ls.map Line.instruction) =
          (.ok (0xFFFE + UInt16.ofNat (allBytes ls).length), n')) ∧
      ∃ r' ls, emitAll .strict (Ram.zeroed "work" 0xC000 16) 0xC000 callAndNop =
          (.ok 0xC004, r') ∧
        lines r' 0xC000 2 = .ok ls ∧ ls.map Line.instruction = callAndNop := by
  have hread := MemoryMap.exists_read_of_ram gap_twoArrays fun r hr =>
    (ram_twoArrays hr).imp fun _ h => ⟨h.1, congrArg Access.readable h.2⟩
  have hwritable : twoArrays.Writable := MemoryMap.writable_of_ram gap_twoArrays fun r hr =>
    (ram_twoArrays hr).imp fun _ h => ⟨h.1, congrArg Access.writable h.2⟩
  obtain ⟨ls, hlines, hcount, -, hshows, hback⟩ := round_trips.1 twoArrays 0xFFFE 3 hread
  have hlength : (allBytes ls).length ≤ 0x10000 := by
    have hle := length_allBytes_le hshows
    omega
  obtain ⟨n', hemit, -⟩ := hback hlength twoArrays hwritable
  have hwork : (Ram.zeroed "work" 0xC000 16).length = 16 :=
    Ram.length_zeroed (by decide) (by decide)
  have hprogram := round_trips.2 (Ram.zeroed "work" 0xC000 16) 0xC000 callAndNop rfl
    (fun _ => decodable_callAndNop) (by decide)
    (by rw [hwork, machineCode_callAndNop]; decide)
  rw [machineCode_callAndNop] at hprogram
  exact ⟨hread, hwritable, ⟨ls, n', hlines, hcount, hemit⟩, hprogram⟩

/-- Memory that may only be written. -/
def writeOnly : Ram :=
  .ofBytes "scratch" 0xC000 (Bytes.fill 16 0) .write

/-- What may only be written can be assembled into, but the program is not listed again. -/
theorem write_only_not_listed :
    writeOnly.access.writable = true ∧ writeOnly.start = 0xC000 ∧ writeOnly.length = 16 ∧
      (∀ i ∈ callAndNop, i.Decodable) ∧ (machineCode callAndNop).length = 4 ∧
      ∃ r', emitAll .strict writeOnly 0xC000 callAndNop = (.ok 0xC004, r') ∧
        lines r' 0xC000 2 = .error (.violation 0xC000 "scratch" .read) := by
  refine ⟨rfl, rfl, rfl, fun _ => decodable_callAndNop, by decide +kernel, ?_⟩
  rw [Assembly.emitAll_of_encodes .strict writeOnly 0xC000 (by decide +kernel),
    machineCode_callAndNop]
  exact ⟨_, Assembly.loaded_of_load rfl, rfl⟩

end Listing

end Handheld
