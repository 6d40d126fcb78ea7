/-
# Assembling programs

To assemble instructions that all have machine code is to load their machine code in one go
(`Assembly.emitAll_of_encodes`).  The policy matters where one has none: the strict one stops
there, the other leaves the instruction out.  The main statement, `Assembly.emitAll_policies`,
compares the two on every program, memory and start address.
-/
import Handheld.Proofs.Instruction.MachineCode

namespace Handheld

/-! ## Loading -/

/-- Bytes are loaded one part after the other. -/
lemma Memory.load_append {M : Type} [Memory M] (m : M) (a : Address) (first second : List UInt8) :
    load m a (first ++ second) =
      match load m a first with
      | (.ok _, m) => load m (a + UInt16.ofNat first.length) second
      | (.error e, m) => (.error e, m) := by
  induction first generalizing m a with
  | nil => simp [load]
  | cons b first ih =>
    rw [List.cons_append, load, load]
    rcases write m a b with ⟨e | u, m'⟩
    · rfl
    · dsimp only
      rw [ih, List.length_cons, UInt16.add_assoc, Nat.add_comm first.length 1, UInt16.ofNat_add]
      rfl

namespace Instruction

/-- Whether an instruction has machine code. -/
def hasCode (i : Instruction) : Bool :=
  i.encode.isSome

/-- The machine code of an instruction, which is empty if there is none. -/
def code (i : Instruction) : List UInt8 :=
  i.encode.getD []

lemma code_of_encode {i : Instruction} {bytes : List UInt8} (h : i.encode = some bytes) :
    i.code = bytes := by
  rw [code, h]
  rfl

end Instruction

namespace Assembly

variable {M : Type} [Memory M] {i j : Instruction} {program before rest : List Instruction}
  {policy : AssemblyPolicy} {bytes : List UInt8}

/-- Load bytes and give the address after them. -/
def loaded (m : M) (pc : Address) (bytes : List UInt8) : Except AssemblyError Address × M :=
  match Memory.load m pc bytes with
  | (.ok _, m) => (.ok (pc + UInt16.ofNat bytes.length), m)
  | (.error e, m) => (.error (.memory e), m)

@[simp] lemma loaded_nil (m : M) (pc : Address) : loaded m pc [] = (.ok pc, m) := by
  simp [loaded, Memory.load]

lemma loaded_of_load {m m' : M} {pc : Address} (h : Memory.load m pc bytes = (.ok (), m')) :
    loaded m pc bytes = (.ok (pc + UInt16.ofNat bytes.length), m') := by
  rw [loaded, h]

lemma loaded_append (m : M) (pc : Address) (first second : List UInt8) :
    loaded m pc (first ++ second) =
      match loaded m pc first with
      | (.ok pc, m) => loaded m pc second
      | (.error e, m) => (.error e, m) := by
  rw [loaded, Memory.load_append, loaded]
  rcases Memory.load m pc first with ⟨e | u, m'⟩
  · rfl
  · dsimp only
    rw [loaded, List.length_append, UInt16.ofNat_add, UInt16.add_assoc]

/-- Loading fails for no other reason than an access. -/
lemma loaded_ne_noEncoding (m : M) (pc : Address) (bytes : List UInt8) (i : Instruction) :
    (loaded m pc bytes).1 ≠ .error (.noEncoding i) := by
  unfold loaded
  split
  · exact nofun
  · exact nofun

/-! ## One instruction -/

lemma write_of_none (m : M) (pc : Address) (h : i.encode = none) :
    write m pc i = (.error (.noEncoding i), m) := by
  unfold write
  rw [h]

lemma emit_of_encode (policy : AssemblyPolicy) (m : M) (pc : Address)
    (h : i.encode = some bytes) : emit policy m pc i = loaded m pc bytes := by
  have hwrite : write m pc i = loaded m pc bytes := by
    unfold write
    rw [h]
    rfl
  unfold emit
  rw [hwrite]
  -- loading gives no error that a policy would pass over
  unfold loaded
  cases policy with
  | strict => rfl
  | bestEffort => rcases Memory.load m pc bytes with ⟨e | u, m'⟩ <;> rfl

lemma emit_strict_of_none (m : M) (pc : Address) (h : i.encode = none) :
    emit .strict m pc i = (.error (.noEncoding i), m) := by
  unfold emit
  rw [write_of_none m pc h]

lemma emit_bestEffort_of_none (m : M) (pc : Address) (h : i.encode = none) :
    emit .bestEffort m pc i = (.ok pc, m) := by
  unfold emit
  rw [write_of_none m pc h]

/-! ## Programs -/

/-- The machine code of a program, without the instructions that have none. -/
def machineCode (program : List Instruction) : List UInt8 :=
  program.flatMap Instruction.code

/-- Assembling goes from each instruction to the next for as long as none fails. -/
lemma emitAll_append (policy : AssemblyPolicy) (m : M) (pc : Address)
    (before rest : List Instruction) :
    emitAll policy m pc (before ++ rest) =
      match emitAll policy m pc before with
      | (.ok pc, m) => emitAll policy m pc rest
      | (.error e, m) => (.error e, m) := by
  induction before generalizing m pc with
  | nil => rfl
  | cons i before ih =>
    rw [List.cons_append, emitAll, emitAll]
    rcases emit policy m pc i with ⟨e | pc', m'⟩
    · rfl
    · exact ih m' pc'

/-- **Instructions that have machine code are assembled by loading it**, under either policy. -/
theorem emitAll_of_encodes (policy : AssemblyPolicy) (m : M) (pc : Address)
    (h : ∀ i ∈ program, i.hasCode) :
    emitAll policy m pc program = loaded m pc (machineCode program) := by
  induction program generalizing m pc with
  | nil => exact (loaded_nil m pc).symm
  | cons i program ih =>
    obtain ⟨bytes, hbytes⟩ := Option.isSome_iff_exists.mp (h i List.mem_cons_self)
    rw [emitAll, emit_of_encode policy m pc hbytes, machineCode, List.flatMap_cons,
      Instruction.code_of_encode hbytes, loaded_append]
    rcases loaded m pc bytes with ⟨e | pc', m'⟩
    · rfl
    · exact ih m' pc' fun j hj => h j (List.mem_cons_of_mem _ hj)

/-- What has no machine code leaves no trace where it is left out. -/
lemma emitAll_bestEffort (m : M) (pc : Address) (program : List Instruction) :
    emitAll .bestEffort m pc program =
      emitAll .strict m pc (program.filter Instruction.hasCode) := by
  induction program generalizing m pc with
  | nil => rfl
  | cons i program ih =>
    cases h : i.encode with
    | none =>
      have hcode : ¬ i.hasCode = true := by simp [Instruction.hasCode, h]
      rw [List.filter_cons_of_neg hcode, emitAll, emit_bestEffort_of_none m pc h]
      exact ih m pc
    | some bytes =>
      have hcode : i.hasCode = true := by simp [Instruction.hasCode, h]
      rw [List.filter_cons_of_pos hcode, emitAll, emitAll, emit_of_encode .bestEffort m pc h,
        emit_of_encode .strict m pc h]
      rcases loaded m pc bytes with ⟨e | pc', m'⟩
      · rfl
      · exact ih m' pc'

/-- A program is one without an instruction that has no machine code, or there is a first such. -/
lemma exists_first_without_code (program : List Instruction) :
    (∀ i ∈ program, i.hasCode) ∨ ∃ before i after, program = before ++ i :: after ∧
      (∀ j ∈ before, j.hasCode) ∧ i.encode = none := by
  cases h : program.find? (!·.hasCode) with
  | none =>
    refine .inl fun i hi => ?_
    simpa using List.find?_eq_none.mp h i hi
  | some i =>
    obtain ⟨hi, before, after, heq, hbefore⟩ := List.find?_eq_some_iff_append.mp h
    refine .inr ⟨before, i, after, heq, fun j hj => ?_, ?_⟩
    · simpa using hbefore j hj
    · simpa [Instruction.hasCode] using hi

/-- **The two policies compared.**  To assemble with a best effort is to assemble strictly what has
machine code: the same address after the last instruction or the same failing access, and the same
memory.  To assemble strictly is the same where everything has machine code; otherwise it comes to
the first instruction that has none, names it, and has written what those before it are written
as, unless an access has failed on the way. -/
theorem emitAll_policies (m : M) (pc : Address) (program : List Instruction) :
    emitAll .bestEffort m pc program =
        emitAll .strict m pc (program.filter Instruction.hasCode) ∧
      (∀ i, (emitAll .bestEffort m pc program).1 ≠ .error (.noEncoding i)) ∧
      ((∀ i ∈ program, i.hasCode) ∧
          emitAll .strict m pc program =
            emitAll .strict m pc (program.filter Instruction.hasCode) ∨
        ∃ before i after, program = before ++ i :: after ∧ (∀ j ∈ before, j.hasCode) ∧
          i.encode = none ∧
          ((∃ pc' m', emitAll .strict m pc before = (.ok pc', m') ∧
              emitAll .strict m pc program = (.error (.noEncoding i), m')) ∨
            ∃ e m', emitAll .strict m pc before = (.error (.memory e), m') ∧
              emitAll .strict m pc program = (.error (.memory e), m'))) := by
  refine ⟨emitAll_bestEffort m pc program, fun i => ?_, ?_⟩
  · rw [emitAll_bestEffort, emitAll_of_encodes _ _ _ fun j hj => (List.mem_filter.mp hj).2]
    exact loaded_ne_noEncoding m pc _ i
  · rcases exists_first_without_code program with hall | ⟨before, i, after, rfl, hbefore, hi⟩
    · refine .inl ⟨hall, ?_⟩
      rw [List.filter_eq_self.mpr hall]
    · refine .inr ⟨before, i, after, rfl, hbefore, hi, ?_⟩
      have hloaded := emitAll_of_encodes .strict m pc hbefore
      rw [emitAll_append, hloaded]
      rcases hresult : loaded m pc (machineCode before) with ⟨e | pc', m'⟩
      · cases e with
        | memory e => exact .inr ⟨e, m', rfl, rfl⟩
        | noEncoding j =>
          exact absurd (congrArg Prod.fst hresult) (loaded_ne_noEncoding m pc _ j)
      · refine .inl ⟨pc', m', rfl, ?_⟩
        dsimp only
        rw [emitAll, emit_strict_of_none m' pc' hi]

end Assembly

end Handheld
