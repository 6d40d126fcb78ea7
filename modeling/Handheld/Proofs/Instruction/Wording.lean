/-
# Instructions and lines told apart by their texts

The text of an operand does not say what kind of operand it is: `C` is a register or a condition,
`$10` a byte or a restart address, `($FF10)` any address or one in the last page, and `1` an offset
or the number of a bit.  The kind of the instruction decides (`Operand.fits`), so operands are read
back from their texts (`Operand.ofText?_text`), and the instructions that have machine code are told
apart by theirs.  The main statement is `Instruction.text_identifies`, which adds that lines of a
listing are told apart by theirs.
-/
import Handheld.Proofs.Instruction.Listing

namespace Handheld

/-! ## Hexadecimal digits -/

namespace Text

lemma digitValue?_hexDigit {d : Nat} (h : d < 16) : digitValue? (hexDigit d) = some d := by
  have hall : ∀ d ∈ List.range 16, digitValue? (hexDigit d) = some d := by decide
  exact hall d (List.mem_range.mpr h)

/-- What is no digit is not written for a number. -/
lemma hexDigit_ne {d : Nat} {c : Char} (h : d < 16) (hc : digitValue? c = none) :
    hexDigit d ≠ c := by
  rintro rfl
  rw [digitValue?_hexDigit h] at hc
  cases hc

lemma toList_hex2 (b : UInt8) :
    (hex2 b).toList = [hexDigit (b.toNat / 16), hexDigit (b.toNat % 16)] :=
  String.toList_ofList

lemma toList_hex4 (w : UInt16) :
    (hex4 w).toList = [hexDigit (w.toNat / 4096), hexDigit (w.toNat / 256 % 16),
      hexDigit (w.toNat / 16 % 16), hexDigit (w.toNat % 16)] :=
  String.toList_ofList

lemma hexValue?_hex2 (b : UInt8) : hexValue? (hex2 b).toList = some b.toNat := by
  have hb := b.toNat_lt
  simp only [toList_hex2, hexValue?, List.foldlM_cons, List.foldlM_nil]
  rw [digitValue?_hexDigit (by omega), digitValue?_hexDigit (by omega)]
  simp
  omega

lemma hexValue?_hex4 (w : UInt16) : hexValue? (hex4 w).toList = some w.toNat := by
  have hw := w.toNat_lt
  simp only [toList_hex4, hexValue?, List.foldlM_cons, List.foldlM_nil]
  rw [digitValue?_hexDigit (by omega), digitValue?_hexDigit (by omega),
    digitValue?_hexDigit (by omega), digitValue?_hexDigit (by omega)]
  simp
  omega

/-- The value of an address in the last page. -/
lemma hexValue?_lastPage (b : UInt8) :
    hexValue? ('F' :: 'F' :: (hex2 b).toList) = some (0xFF00 + b.toNat) := by
  have hb := b.toNat_lt
  have hF : digitValue? 'F' = some 15 := by decide
  simp only [toList_hex2, hexValue?, List.foldlM_cons, List.foldlM_nil, hF]
  rw [digitValue?_hexDigit (by omega), digitValue?_hexDigit (by omega)]
  simp
  omega

lemma not_mem_hex2 {c : Char} (hc : digitValue? c = none) (b : UInt8) : c ∉ (hex2 b).toList := by
  have hb := b.toNat_lt
  have hhigh := hexDigit_ne (d := b.toNat / 16) (by omega) hc
  have hlow := hexDigit_ne (d := b.toNat % 16) (by omega) hc
  simp [toList_hex2, hhigh.symm, hlow.symm]

lemma not_mem_hex4 {c : Char} (hc : digitValue? c = none) (w : UInt16) : c ∉ (hex4 w).toList := by
  have hw := w.toNat_lt
  have h₃ := hexDigit_ne (d := w.toNat / 4096) (by omega) hc
  have h₂ := hexDigit_ne (d := w.toNat / 256 % 16) (by omega) hc
  have h₁ := hexDigit_ne (d := w.toNat / 16 % 16) (by omega) hc
  have h₀ := hexDigit_ne (d := w.toNat % 16) (by omega) hc
  simp [toList_hex4, h₃.symm, h₂.symm, h₁.symm, h₀.symm]

end Text

/-! ## Operands -/

/-- The kinds that may take a condition, and take no register. -/
def Kind.isConditional : Kind → Bool
  | jr | jp | call | ret => true
  | _ => false

/-- The kinds whose first operand is the number of a bit. -/
def Kind.numbersBits : Kind → Bool
  | bit | res | set => true
  | _ => false

lemma Kind.mem_all (kind : Kind) : kind ∈ all := by
  cases kind <;> decide

namespace Operand

/-- Whether an operand goes with a kind, as far as needed to tell apart operands of one text. -/
def fits (kind : Kind) : Operand → Bool
  | cond _ => kind.isConditional
  | reg _ => !kind.isConditional
  | vector _ => kind == .rst
  | imm8 _ => kind != .rst
  | highOffset _ => kind == .ldh
  | direct _ => kind != .ldh
  | bit _ => kind.numbersBits
  | rel8 _ => !kind.numbersBits
  | _ => true

/-- The operands with a name that go with a kind. -/
def named (kind : Kind) : List Operand :=
  (if kind.isConditional then Condition.all.map cond else Register.all.map reg) ++
    Pair.all.map pair ++ Indirect.all.map indirect ++ [highC]

/-- Whether a text starts as a decimal number does. -/
def isNumber : List Char → Bool
  | c :: _ => c == '-' || c.isDigit
  | [] => false

/-- The byte that a decimal number, which may be negative, stands for. -/
def byteOfNumber : List Char → UInt8
  | '-' :: digits => UInt8.ofNat (256 - Nat.ofDigitChars 10 digits 0)
  | digits => UInt8.ofNat (Nat.ofDigitChars 10 digits 0)

/-- Read an operand of an instruction of a given kind. -/
def ofText? (kind : Kind) : List Char → Option Operand
  | '$' :: digits =>
    (Text.hexValue? digits).map fun n =>
      if digits.length = 4 then imm16 (UInt16.ofNat n)
      else if kind = .rst then vector (UInt8.ofNat n)
      else imm8 (UInt8.ofNat n)
  | '(' :: '$' :: rest =>
    (Text.hexValue? (rest.take 4)).map fun n =>
      if kind = .ldh then highOffset (UInt8.ofNat n) else direct (UInt16.ofNat n)
  | 'S' :: 'P' :: '+' :: number => some (spRel (byteOfNumber number))
  | 'S' :: 'P' :: '-' :: number => some (spRel (byteOfNumber ('-' :: number)))
  | text =>
    if isNumber text then
      some (if kind.numbersBits then bit (byteOfNumber text) else rel8 (byteOfNumber text))
    else (named kind).find? (·.text.toList = text)

variable {kind : Kind} {o : Operand}

lemma ofText?_of_number {text : List Char} (h : isNumber text) : ofText? kind text =
    some (if kind.numbersBits then bit (byteOfNumber text) else rel8 (byteOfNumber text)) := by
  unfold ofText?
  split
  all_goals first
    | exact absurd h (by decide)
    | exact if_pos h

lemma ofText?_of_named (h : o ∈ named kind) : ofText? kind o.text.toList = some o := by
  have hall : ∀ kind ∈ Kind.all, ∀ o ∈ named kind, ofText? kind o.text.toList = some o := by
    decide +kernel
  exact hall kind kind.mem_all o h

lemma isNumber_toDigits (n : Nat) : isNumber (Nat.toDigits 10 n) := by
  cases h : Nat.toDigits 10 n with
  | nil => exact absurd h Nat.toDigits_ne_nil
  | cons c digits =>
    have hc : c.isDigit = true :=
      Nat.isDigit_of_mem_toDigits (by decide) (by decide) (h ▸ List.mem_cons_self)
    simp [isNumber, hc]

lemma byteOfNumber_toDigits (n : Nat) : byteOfNumber (Nat.toDigits 10 n) = UInt8.ofNat n := by
  have hvalue : Nat.ofDigitChars 10 (Nat.toDigits 10 n) 0 = n :=
    Nat.ofDigitChars_toDigits (by decide) (by decide)
  unfold byteOfNumber
  split
  · rename_i digits h
    -- a minus is no digit
    have hminus : '-'.isDigit = true :=
      Nat.isDigit_of_mem_toDigits (by decide) (by decide) (h ▸ List.mem_cons_self)
    exact absurd hminus (by decide)
  · rw [hvalue]

lemma toList_signed (b : UInt8) :
    (Text.signed b).toList =
      if b.toNat < 128 then Nat.toDigits 10 b.toNat
      else '-' :: Nat.toDigits 10 (256 - b.toNat) := by
  unfold Text.signed
  split
  · simp
  · simp

lemma byteOfNumber_minus (b : UInt8) :
    byteOfNumber ('-' :: Nat.toDigits 10 (256 - b.toNat)) = b := by
  have hb := b.toNat_lt
  have hvalue : Nat.ofDigitChars 10 (Nat.toDigits 10 (256 - b.toNat)) 0 = 256 - b.toNat :=
    Nat.ofDigitChars_toDigits (by decide) (by decide)
  rw [byteOfNumber, hvalue, show 256 - (256 - b.toNat) = b.toNat by omega, UInt8.ofNat_toNat]

/-- **Operands are read back from their texts**, if the kind of the instruction is known. -/
theorem ofText?_text (h : o.fits kind) : ofText? kind o.text.toList = some o := by
  cases o with
  | imm8 b =>
    have htext : (imm8 b).text.toList = '$' :: (Text.hex2 b).toList := by simp [text]
    have hlength : (Text.hex2 b).toList.length ≠ 4 := by simp [Text.toList_hex2]
    have hkind : kind ≠ .rst := by simpa [fits] using h
    rw [htext, ofText?, Text.hexValue?_hex2, Option.map_some, if_neg hlength, if_neg hkind,
      UInt8.ofNat_toNat]
  | vector b =>
    have htext : (vector b).text.toList = '$' :: (Text.hex2 b).toList := by simp [text]
    have hlength : (Text.hex2 b).toList.length ≠ 4 := by simp [Text.toList_hex2]
    have hkind : kind = .rst := by simpa [fits] using h
    rw [htext, ofText?, Text.hexValue?_hex2, Option.map_some, if_neg hlength, if_pos hkind,
      UInt8.ofNat_toNat]
  | imm16 w =>
    have htext : (imm16 w).text.toList = '$' :: (Text.hex4 w).toList := by simp [text]
    have hlength : (Text.hex4 w).toList.length = 4 := by simp [Text.toList_hex4]
    rw [htext, ofText?, Text.hexValue?_hex4, Option.map_some, if_pos hlength, UInt16.ofNat_toNat]
  | direct w =>
    have htext : (direct w).text.toList = '(' :: '$' :: ((Text.hex4 w).toList ++ [')']) := by
      simp [text]
    have hkind : kind ≠ .ldh := by simpa [fits] using h
    rw [htext, ofText?, List.take_left' (by simp [Text.toList_hex4]), Text.hexValue?_hex4,
      Option.map_some, if_neg hkind, UInt16.ofNat_toNat]
  | highOffset b =>
    have htext : (highOffset b).text.toList =
        '(' :: '$' :: ('F' :: 'F' :: (Text.hex2 b).toList ++ [')']) := by
      simp [text]
    have hkind : kind = .ldh := by simpa [fits] using h
    rw [htext, ofText?, List.take_left' (by simp [Text.toList_hex2]), Text.hexValue?_lastPage,
      Option.map_some, if_pos hkind, UInt8.ofNat_add, UInt8.ofNat_toNat]
    exact congrArg (fun b => some (highOffset b)) (UInt8.zero_add b)
  | spRel b =>
    by_cases hb : b.toNat < 128
    · have htext : (spRel b).text.toList = 'S' :: 'P' :: '+' :: Nat.toDigits 10 b.toNat := by
        simp [text, hb, toList_signed]
      rw [htext, ofText?, byteOfNumber_toDigits, UInt8.ofNat_toNat]
    · have htext : (spRel b).text.toList =
          'S' :: 'P' :: '-' :: Nat.toDigits 10 (256 - b.toNat) := by
        simp [text, hb, toList_signed]
      rw [htext, ofText?, byteOfNumber_minus]
  | bit n =>
    have hkind : kind.numbersBits = true := h
    have htext : (bit n).text.toList = Nat.toDigits 10 n.toNat := by simp [text]
    rw [htext, ofText?_of_number (isNumber_toDigits _), byteOfNumber_toDigits, if_pos hkind,
      UInt8.ofNat_toNat]
  | rel8 b =>
    have hkind : ¬ kind.numbersBits = true := by simpa [fits] using h
    rw [text, toList_signed]
    split
    · rw [ofText?_of_number (isNumber_toDigits _), byteOfNumber_toDigits, if_neg hkind,
        UInt8.ofNat_toNat]
    · rw [ofText?_of_number rfl, byteOfNumber_minus, if_neg hkind]
  | reg r =>
    have hkind : ¬ kind.isConditional = true := by simpa [fits] using h
    refine ofText?_of_named ?_
    rw [named, if_neg hkind]
    cases r <;> decide
  | cond condition =>
    have hkind : kind.isConditional = true := h
    refine ofText?_of_named ?_
    rw [named, if_pos hkind]
    cases condition <;> decide
  | pair p =>
    refine ofText?_of_named ?_
    cases p <;> simp [named, Pair.all, Indirect.all]
  | indirect i =>
    refine ofText?_of_named ?_
    cases i <;> simp [named, Pair.all, Indirect.all]
  | highC =>
    refine ofText?_of_named ?_
    simp [named]

/-- Commas stand between operands alone. -/
lemma comma_not_mem_text (o : Operand) : ',' ∉ o.text.toList := by
  have hhex : Text.digitValue? ',' = none := by decide
  have hdecimal (n : Nat) : ',' ∉ Nat.toDigits 10 n := by
    intro h
    have hcomma : ','.isDigit = true := Nat.isDigit_of_mem_toDigits (by decide) (by decide) h
    exact absurd hcomma (by decide)
  have hsigned (b : UInt8) : ',' ∉ (Text.signed b).toList := by
    rw [toList_signed]
    split
    · exact hdecimal _
    · simpa using hdecimal _
  cases o with
  | imm8 b | vector b | highOffset b => simp [text, Text.not_mem_hex2 hhex]
  | imm16 w | direct w => simp [text, Text.not_mem_hex4 hhex]
  | rel8 b => exact hsigned b
  | spRel b =>
    rw [text, String.toList_append, List.mem_append]
    rintro (h | h)
    · split at h <;> simp at h
    · exact hsigned b h
  | bit n => simpa [text] using hdecimal n.toNat
  | reg r => cases r <;> decide
  | pair p => cases p <;> decide
  | indirect i => cases i <;> decide
  | cond condition => cases condition <;> decide
  | highC => decide

end Operand

/-! ## Operands of the table -/

/-- Whether the operands of a slot go with a kind. -/
def Slot.fits (kind : Kind) : Slot → Bool
  | fixed o => o.fits kind
  | imm8 | padding => (Operand.imm8 0).fits kind
  | rel8 => (Operand.rel8 0).fits kind
  | imm16 => (Operand.imm16 0).fits kind
  | direct => (Operand.direct 0).fits kind
  | highOffset => (Operand.highOffset 0).fits kind
  | spRel => (Operand.spRel 0).fits kind

lemma Slot.fits_of_encode {kind : Kind} {s : Option Slot} {o : Operand} {bytes : List UInt8}
    (h : encode s (some o) = some bytes) (hs : ∀ s' ∈ s, s'.fits kind) : o.fits kind := by
  cases s with
  | none => cases h
  | some s =>
    have hfits : s.fits kind := hs s rfl
    cases s with
    | fixed o' =>
      obtain rfl := eq_of_encode_fixed h
      exact hfits
    | _ =>
      cases o <;> first
        | exact hfits
        | cases h

/-- In the table, operands go with their kind, and only where the first one is always there is a
second. -/
lemma Opcode.fits_entry {op : Opcode} (hop : op ∈ all) :
    (∀ s ∈ op.entry.first, s.fits op.entry.kind) ∧
      (∀ s ∈ op.entry.second, s.fits op.entry.kind) ∧
      (op.entry.second ≠ none → op.entry.first ≠ none ∧ op.entry.first ≠ some .padding) := by
  have hall : ∀ op ∈ all, (∀ s ∈ op.entry.first, s.fits op.entry.kind) ∧
      (∀ s ∈ op.entry.second, s.fits op.entry.kind) ∧
      (op.entry.second ≠ none → op.entry.first ≠ none ∧ op.entry.first ≠ some .padding) := by
    decide +kernel
  exact hall op hop

namespace Instruction

variable {i j : Instruction}

/-- Whether the operands of an instruction go with its kind, and none is left out before another. -/
structure Regular (i : Instruction) : Prop where
  fits : ∀ o ∈ i.operands, o.fits i.kind
  second : i.first = none → i.second = none

lemma Regular.getElem_operands (h : i.Regular) :
    i.operands[0]? = i.first ∧ i.operands[1]? = i.second := by
  obtain ⟨kind, first, second⟩ := i
  cases first with
  | none =>
    obtain rfl : second = none := h.second rfl
    exact ⟨rfl, rfl⟩
  | some o => cases second <;> exact ⟨rfl, rfl⟩

/-- What has machine code is regular. -/
lemma regular_of_hasCode (h : i.hasCode) : i.Regular := by
  obtain ⟨code, hcode⟩ := Option.isSome_iff_exists.mp h
  obtain ⟨op, hop, hi⟩ := Opcode.encode_eq_some_iff.mp hcode
  obtain ⟨hkind, bytes₁, bytes₂, h₁, h₂, -⟩ := Opcode.encode_iff.mp hi
  obtain ⟨hfirst, hsecond, horder⟩ := Opcode.fits_entry hop
  rw [hkind] at hfirst hsecond
  refine ⟨fun o ho => ?_, fun hnone => ?_⟩
  · rcases List.mem_append.mp ho with ho | ho
    · rw [Option.mem_toList.mp ho] at h₁
      exact Slot.fits_of_encode h₁ hfirst
    · rw [Option.mem_toList.mp ho] at h₂
      exact Slot.fits_of_encode h₂ hsecond
  · cases hs : i.second with
    | none => rfl
    | some o =>
      rw [hs] at h₂
      have hslot : op.entry.second ≠ none := by
        intro heq
        rw [heq] at h₂
        cases h₂
      obtain ⟨hsome, hpadding⟩ := horder hslot
      rw [hnone] at h₁
      -- of the slots only padding takes no operand
      cases hf : op.entry.first with
      | none => exact absurd hf hsome
      | some s =>
        rw [hf] at h₁
        cases s <;> first
          | exact absurd hf hpadding
          | cases h₁

/-! ## Texts of instructions -/

/-- What is written after the mnemonic. -/
def textOfOperands : List (List Char) → List Char
  | [] => []
  | texts => ' ' :: [','].intercalate texts

lemma operandText_none (kind : Kind) (o : Operand) : operandText kind none o = o.text := by
  unfold operandText
  split
  · contradiction
  · rfl

lemma toList_text (i : Instruction) :
    i.text.toList =
      i.kind.mnemonic.toList ++ textOfOperands (i.operands.map fun o => o.text.toList) := by
  rw [text, textWith]
  simp only [funext (operandText_none i.kind)]
  cases i.operands with
  | nil => simp [textOfOperands]
  | cons o rest => simp [textOfOperands, Function.comp_def]

/-- Operands without commas are told apart by what is written after the mnemonic. -/
lemma textOfOperands_injective {ws ws' : List (List Char)} (hws : ∀ w ∈ ws, ',' ∉ w)
    (hws' : ∀ w ∈ ws', ',' ∉ w) (h : textOfOperands ws = textOfOperands ws') : ws = ws' := by
  cases ws with
  | nil =>
    cases ws' with
    | nil => rfl
    | cons w' rest' => cases h
  | cons w rest =>
    cases ws' with
    | nil => cases h
    | cons w' rest' =>
      have htail : [','].intercalate (w :: rest) = [','].intercalate (w' :: rest') :=
        (List.cons.inj h).2
      rw [← List.splitOn_intercalate ',' hws (List.cons_ne_nil w rest), htail,
        List.splitOn_intercalate ',' hws' (List.cons_ne_nil w' rest')]

/-- No mnemonic has a blank in it, and they are all different. -/
lemma mnemonic_injective {kind kind' : Kind} {ws ws' : List (List Char)}
    (h : kind.mnemonic.toList ++ textOfOperands ws = kind'.mnemonic.toList ++ textOfOperands ws') :
    kind = kind' := by
  have hblank : ∀ kind ∈ Kind.all, ' ' ∉ kind.mnemonic.toList := by decide +kernel
  have hletter (kind : Kind) : ∀ c ∈ kind.mnemonic.toList, (c != ' ') = true := by
    intro c hc
    rw [bne_iff_ne]
    exact ne_of_mem_of_not_mem hc (hblank kind kind.mem_all)
  have hword (kind : Kind) (ws : List (List Char)) :
      (kind.mnemonic.toList ++ textOfOperands ws).takeWhile (· != ' ') = kind.mnemonic.toList := by
    rw [List.takeWhile_append_of_pos (hletter kind)]
    cases ws <;> simp [textOfOperands]
  have heq : kind.mnemonic.toList = kind'.mnemonic.toList := by
    rw [← hword kind ws, h, hword kind' ws']
  have hnodup : (Kind.all.map fun kind => kind.mnemonic.toList).Nodup := by decide +kernel
  exact List.inj_on_of_nodup_map hnodup kind.mem_all kind'.mem_all heq

/-- Regular instructions are told apart by their texts. -/
lemma Regular.eq_of_text (hi : i.Regular) (hj : j.Regular) (h : i.text = j.text) : i = j := by
  have hchars := congrArg String.toList h
  rw [toList_text, toList_text] at hchars
  have hkind : i.kind = j.kind := mnemonic_injective hchars
  rw [hkind] at hchars
  have hcomma (k : Instruction) :
      ∀ w ∈ k.operands.map fun o => o.text.toList, ',' ∉ w := by
    intro w hw
    obtain ⟨o, -, rfl⟩ := List.mem_map.mp hw
    exact o.comma_not_mem_text
  have htexts := textOfOperands_injective (hcomma i) (hcomma j) (List.append_cancel_left hchars)
  have hread (k : Instruction) (hk : k.Regular) :
      (k.operands.map fun o => o.text.toList).map (Operand.ofText? k.kind) =
        k.operands.map some := by
    rw [List.map_map]
    exact List.map_congr_left fun o ho => Operand.ofText?_text (hk.fits o ho)
  have hoperands : i.operands = j.operands := by
    refine List.map_injective_iff.mpr (fun _ _ => Option.some.inj) ?_
    rw [← hread i hi, ← hread j hj, htexts, hkind]
  have hfirst : i.first = j.first := by
    rw [← hi.getElem_operands.1, hoperands, hj.getElem_operands.1]
  have hsecond : i.second = j.second := by
    rw [← hi.getElem_operands.2, hoperands, hj.getElem_operands.2]
  obtain ⟨kind, first, second⟩ := i
  dsimp only at hkind hfirst hsecond
  rw [hkind, hfirst, hsecond]

end Instruction

/-! ## Lines of a listing -/

namespace Listing

variable {M : Type} [Memory M] {m : M} {a : Address} {l : Line} {bytes : List UInt8}

/-- Read the bytes of a line, each of two digits with a blank behind it. -/
def bytesOfField : List Char → List UInt8
  | ' ' :: _ => []
  | x :: y :: ' ' :: rest => byteOfDigits x y :: bytesOfField rest
  | x :: y :: _ => [byteOfDigits x y]
  | _ => []
where
  /-- The byte of two digits. -/
  byteOfDigits (x y : Char) : UInt8 :=
    UInt8.ofNat ((Text.hexValue? [x, y]).getD 0)

lemma bytesOfField_hex2 (b : UInt8) :
    bytesOfField (Text.hex2 b).toList = [b] ∧
      ∀ rest, bytesOfField ((Text.hex2 b).toList ++ ' ' :: rest) = b :: bytesOfField rest := by
  have hb := b.toNat_lt
  have hne : Text.hexDigit (b.toNat / 16) ≠ ' ' := Text.hexDigit_ne (by omega) (by decide)
  have hbyte : bytesOfField.byteOfDigits (Text.hexDigit (b.toNat / 16))
      (Text.hexDigit (b.toNat % 16)) = b := by
    rw [bytesOfField.byteOfDigits, ← Text.toList_hex2, Text.hexValue?_hex2, Option.getD_some,
      UInt8.ofNat_toNat]
  rw [Text.toList_hex2]
  constructor
  · simp [bytesOfField, hbyte]
  · simp [bytesOfField, hbyte]

/-- The digits of bytes with a blank between each two. -/
def digits (bytes : List UInt8) : List Char :=
  [' '].intercalate (bytes.map fun b => (Text.hex2 b).toList)

lemma bytesOfField_digits (h : bytes ≠ []) (n : Nat) :
    bytesOfField (digits bytes ++ List.replicate n ' ') = bytes := by
  induction bytes with
  | nil => exact absurd rfl h
  | cons b rest ih =>
    obtain ⟨hlast, hmore⟩ := bytesOfField_hex2 b
    cases rest with
    | nil =>
      cases n with
      | zero => simpa [digits] using hlast
      | succ n =>
        cases n <;> simp [digits, List.replicate_succ, hmore, bytesOfField]
    | cons c rest =>
      have hdigits : digits (b :: c :: rest) =
          (Text.hex2 b).toList ++ ' ' :: digits (c :: rest) := by
        simp [digits, List.intercalate]
      rw [hdigits, List.append_assoc, List.cons_append, hmore, ih (List.cons_ne_nil c rest)]

lemma length_digits_le (h : bytes.length ≤ 3) : (digits bytes).length ≤ 8 := by
  match bytes, h with
  | [], _ => exact Nat.zero_le 8
  | [b], _ => simp [digits, Text.toList_hex2]
  | [b, c], _ => simp [digits, Text.toList_hex2]
  | [b, c, d], _ => simp [digits, Text.toList_hex2]

/-- The text of a line starts with the address, two blanks, and the bytes in their field. -/
lemma exists_toList_text (l : Line) : ∃ rest, l.text.toList =
    (Text.hex4 l.address).toList ++ ([' ', ' '] ++
      (digits l.bytes ++ List.replicate (8 - (digits l.bytes).length) ' ' ++ rest)) := by
  refine ⟨' ' :: ' ' ::
    (l.instruction.textWith (l.instruction.branchTarget l.next)).toList, ?_⟩
  simp [Line.text, Text.padRight, digits, ← String.length_toList, Function.comp_def]

/-- No machine code is empty. -/
lemma bytes_ne_nil (h : l.Shows m) : l.bytes ≠ [] := by
  have hdecode := Instruction.decodeStream_of_encode h.encode (Stream.holds_ofList l.bytes)
  have hpos := (Instruction.length_of_decodeStream hdecode).1
  exact List.ne_nil_of_length_pos hpos

/-- A line shows a decodable instruction with its machine code. -/
lemma shows_of_line {next : Address} (h : line m a = .ok (l, next)) :
    l.Shows m ∧ l.instruction.Decodable := by
  obtain ⟨⟨i, next'⟩, hdecode, -⟩ := bind_eq_ok.mp h
  obtain ⟨bytes, hline, hshows, -⟩ := line_of_decode hdecode
  obtain ⟨rfl, rfl⟩ := Prod.mk.inj (Except.ok.inj (h.symm.trans hline))
  exact ⟨hshows, M, _, m, a, next, hdecode⟩

/-- Lines are told apart by their texts. -/
lemma line_eq_of_text {N : Type} [Memory N] {n : N} {b next next' : Address} {l' : Line}
    (h : line m a = .ok (l, next)) (h' : line n b = .ok (l', next'))
    (htext : l.text = l'.text) : l = l' := by
  obtain ⟨hshows, hdecodable⟩ := shows_of_line h
  obtain ⟨hshows', hdecodable'⟩ := shows_of_line h'
  have hle := Instruction.length_le_of_encode hshows.encode
  have hle' := Instruction.length_le_of_encode hshows'.encode
  obtain ⟨rest, hl⟩ := exists_toList_text l
  obtain ⟨rest', hl'⟩ := exists_toList_text l'
  rw [htext, hl'] at hl
  -- address and bytes stand in columns of their own
  obtain ⟨hdigits, hl⟩ := List.append_inj hl (by simp [Text.toList_hex4])
  have hfield := List.append_inj_left (List.append_cancel_left hl) (by
    have hfits := length_digits_le hle
    have hfits' := length_digits_le hle'
    simp only [List.length_append, List.length_replicate]
    omega)
  have haddress : l'.address = l.address := by
    have hvalue := congrArg Text.hexValue? hdigits
    rw [Text.hexValue?_hex4, Text.hexValue?_hex4] at hvalue
    exact UInt16.toNat.inj (Option.some.inj hvalue)
  have hbytes : l'.bytes = l.bytes := by
    have hread := congrArg bytesOfField hfield
    rwa [bytesOfField_digits (bytes_ne_nil hshows'), bytesOfField_digits (bytes_ne_nil hshows)]
      at hread
  have hinstruction : l'.instruction = l.instruction := by
    rw [← (Instruction.decodable_iff.mp hdecodable).2,
      ← (Instruction.decodable_iff.mp hdecodable').2]
    exact (Instruction.encode_eq_iff hshows.encode).mp (hbytes ▸ hshows'.encode)
  obtain ⟨address, instruction, bytes⟩ := l
  obtain ⟨address', instruction', bytes'⟩ := l'
  dsimp only at haddress hbytes hinstruction
  rw [haddress, hbytes, hinstruction]

end Listing

namespace Instruction

/-- **Instructions and lines are told apart by their texts.**  Instructions that have machine code
are the same if they are written the same, and so are lines of listings, whatever the memories. -/
theorem text_identifies :
    (∀ i j : Instruction, i.encode.isSome → j.encode.isSome → i.text = j.text → i = j) ∧
      ∀ {M N : Type} [Memory M] [Memory N] (m : M) (n : N) (a b next next' : Address)
        (l l' : Listing.Line),
        Listing.line m a = .ok (l, next) → Listing.line n b = .ok (l', next') →
          l.text = l'.text → l = l' :=
  ⟨fun _ _ hi hj h => (regular_of_hasCode hi).eq_of_text (regular_of_hasCode hj) h,
    fun _ _ _ _ _ _ _ _ h h' htext => Listing.line_eq_of_text h h' htext⟩

/-- A conditional call, as an instruction and as a line of two memories that go on differently. -/
theorem text_identifies_call :
    (encode ⟨.call, some (.cond .nz), some (.imm16 0x1234)⟩).isSome ∧
      text ⟨.call, some (.cond .nz), some (.imm16 0x1234)⟩ = "CALL NZ,$1234" ∧
      (⟨.call, some (.cond (Opcode.condition 0)), some (.imm16 0x1234)⟩ : Instruction) =
        ⟨.call, some (.cond .nz), some (.imm16 0x1234)⟩ ∧
      ∃ l l', Listing.line (Ram.ofCode [0xC4, 0x34, 0x12]) 0 = .ok (l, 3) ∧
        Listing.line (Ram.ofCode [0xC4, 0x34, 0x12, 0xFF]) 0 = .ok (l', 3) ∧
        l.text = "0000  C4 34 12  CALL NZ,$1234" ∧ l'.text = "0000  C4 34 12  CALL NZ,$1234" ∧
        l = l' := by
  have hencode : (encode ⟨.call, some (.cond .nz), some (.imm16 0x1234)⟩).isSome := by
    decide +kernel
  have hline : Listing.line (Ram.ofCode [0xC4, 0x34, 0x12]) 0 =
      .ok (⟨0, ⟨.call, some (.cond .nz), some (.imm16 0x1234)⟩, [0xC4, 0x34, 0x12]⟩, 3) := rfl
  have hline' : Listing.line (Ram.ofCode [0xC4, 0x34, 0x12, 0xFF]) 0 =
      .ok (⟨0, ⟨.call, some (.cond .nz), some (.imm16 0x1234)⟩, [0xC4, 0x34, 0x12]⟩, 3) := rfl
  have htext : text ⟨.call, some (.cond .nz), some (.imm16 0x1234)⟩ = "CALL NZ,$1234" := by
    decide +kernel
  refine ⟨hencode, htext, text_identifies.1 _ _ hencode hencode rfl, _, _, hline, hline', ?_, ?_,
    text_identifies.2 _ _ 0 0 _ _ _ _ hline hline' rfl⟩
  all_goals decide +kernel

end Instruction

end Handheld
