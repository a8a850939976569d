import Bench65.Cpu.Execution
import Bench65.Disassembly
import Bench65.Proofs.Execution.Footprint
import Bench65.Proofs.Memory
import Bench65.Proofs.Text.Hex

/-!
# What the text of an instruction says

Two complete instructions at the same address have the same text only if they are the same bytes
(`Instruction.disassemble_eq_iff`). The digits of an operand have a fixed number, so that the text
without its hexadecimal digits and its length tell how the operand is written
(`AddressingMode.shape`); no two instructions of a processor have both their name and their shape in
common (`Instruction.eq_of_name_of_shape`). With the shape known the operand is read off the text.

The text agrees with what is executed (`Instruction.shown_of_decode`): the next instruction comes
after the bytes shown, and where the text shows an address to go on at, this is where execution goes
on.
-/

namespace Bench65

namespace AddressingMode

/-! ### The parts of an operand's text -/

/-- What stands before and after the digits of an operand. -/
def marks : AddressingMode → String × String
  | implied => ("", "")
  | accumulator => (" a", "")
  | immediate => (" #$", "")
  | zeroPage | absolute | relative => (" $", "")
  | zeroPageX | absoluteX => (" $", ",x")
  | zeroPageY | absoluteY => (" $", ",y")
  | indexedIndirect | absoluteIndexedIndirect => (" ($", ",x)")
  | indirectIndexed => (" ($", "),y")
  | zeroPageIndirect | indirect => (" ($", ")")

/-- The digits of an operand, or `none` when operand bytes are missing. -/
def figures? (mode : AddressingMode) (pc : UInt16) (operand : List UInt8) : Option String :=
  match mode with
  | implied | accumulator => some ""
  | relative => operand.head?.map fun b => Hex.word (pc + 2 + signExtend b)
  | immediate | zeroPage | zeroPageX | zeroPageY | indexedIndirect | indirectIndexed
  | zeroPageIndirect => operand.head?.map Hex.byte
  | absolute | absoluteX | absoluteY | indirect | absoluteIndexedIndirect =>
    match operand with
    | l :: h :: _ => some (Hex.word (word l h))
    | _ => none

/-- The number of digits. -/
def figureCount : AddressingMode → Nat
  | implied | accumulator => 0
  | relative => 4
  | mode => 2 * mode.operandLength

variable {mode : AddressingMode} {pc : UInt16} {operand xs ys : List UInt8} {s : String}

theorem operandText_eq (mode : AddressingMode) (pc : UInt16) (operand : List UInt8) :
    mode.operandText pc operand =
      (mode.figures? pc operand).map fun s => mode.marks.1 ++ s ++ mode.marks.2 := by
  rcases operand with - | ⟨l, - | ⟨h, rest⟩⟩ <;> cases mode <;>
    simp [operandText, figures?, marks, String.append_assoc]

/-- Only the bytes of the operand matter. -/
theorem operandText_take (mode : AddressingMode) (pc : UInt16) (operand : List UInt8) :
    mode.operandText pc (operand.take mode.operandLength) = mode.operandText pc operand := by
  rcases operand with - | ⟨l, - | ⟨h, rest⟩⟩ <;> cases mode <;> simp [operandText, operandLength]

/-- There is a text if and only if the operand is complete. -/
theorem isSome_operandText (pc : UInt16) :
    (mode.operandText pc operand).isSome = true ↔ mode.operandLength ≤ operand.length := by
  rcases operand with - | ⟨l, - | ⟨h, rest⟩⟩ <;> cases mode <;> simp [operandText, operandLength]

theorem signExtend_inj {a b : UInt8} (h : signExtend a = signExtend b) : a = b := by
  have hlow : ∀ b : UInt8, lowByte (signExtend b) = b := by
    intro b
    apply UInt8.toNat_inj.mp
    rw [toNat_lowByte]
    unfold signExtend
    have hb := b.toNat_lt
    split
    · simp only [UInt16.toNat_add, UInt8.toNat_toUInt16, UInt16.reduceToNat]
      omega
    · simp only [UInt8.toNat_toUInt16]
      omega
  rw [← hlow a, h, hlow]

theorem take_one_eq {f : UInt8 → String} (hf : ∀ {a b}, f a = f b → a = b)
    (hxs : xs.head?.map f = some s) (hys : ys.head?.map f = some s) : xs.take 1 = ys.take 1 := by
  obtain ⟨a, ha, hfa⟩ := Option.map_eq_some_iff.mp hxs
  obtain ⟨b, hb, hfb⟩ := Option.map_eq_some_iff.mp hys
  obtain rfl := hf (hfa.trans hfb.symm)
  rw [List.take_one, List.take_one, ha, hb]

theorem exists_two_bytes
    (h : (match xs with | l :: h :: _ => some (Hex.word (word l h)) | _ => none) = some s) :
    ∃ low high rest, xs = low :: high :: rest ∧ s = Hex.word (word low high) := by
  rcases xs with - | ⟨low, - | ⟨high, rest⟩⟩
  · cases h
  · cases h
  · exact ⟨low, high, rest, rfl, (Option.some.inj h).symm⟩

theorem take_two_eq
    (hxs : (match xs with | l :: h :: _ => some (Hex.word (word l h)) | _ => none) = some s)
    (hys : (match ys with | l :: h :: _ => some (Hex.word (word l h)) | _ => none) = some s) :
    xs.take 2 = ys.take 2 := by
  obtain ⟨low, high, rest, rfl, rfl⟩ := exists_two_bytes hxs
  obtain ⟨low', high', rest', rfl, hs⟩ := exists_two_bytes hys
  have hword : word low high = word low' high' := Hex.word_inj.mp hs
  have hlow : low = low' := by rw [← lowByte_word low high, hword, lowByte_word]
  have hhigh : high = high' := by rw [← highByte_word low high, hword, highByte_word]
  rw [hlow, hhigh]
  rfl

/-- The digits of an operand show its bytes. -/
theorem take_eq_of_figures (hxs : mode.figures? pc xs = some s)
    (hys : mode.figures? pc ys = some s) :
    xs.take mode.operandLength = ys.take mode.operandLength := by
  cases mode with
  | implied | accumulator => rfl
  | relative =>
    -- at one address different displacements lead to different targets
    have htarget : ∀ {a b : UInt8}, Hex.word (pc + 2 + signExtend a) =
        Hex.word (pc + 2 + signExtend b) → a = b :=
      fun h => signExtend_inj ((UInt16.add_right_inj _).mp (Hex.word_inj.mp h))
    exact take_one_eq htarget hxs hys
  | immediate | zeroPage | zeroPageX | zeroPageY | indexedIndirect | indirectIndexed
  | zeroPageIndirect => exact take_one_eq Hex.byte_inj.mp hxs hys
  | absolute | absoluteX | absoluteY | indirect | absoluteIndexedIndirect =>
    exact take_two_eq hxs hys

/-! ### The shape of an operand's text -/

/-- The characters that are no digits. -/
def punctuation (s : List Char) : List Char :=
  s.filter fun c => (Number.digitValue? 16 c).isNone

/-- How an operand is written: the text without its digits, and its length. -/
def shape (mode : AddressingMode) : List Char × Nat :=
  (punctuation (mode.marks.1.toList ++ mode.marks.2.toList),
    mode.marks.1.toList.length + mode.figureCount + mode.marks.2.toList.length)

theorem punctuation_padded (upper : Bool) (width n : Nat) :
    punctuation (Hex.padded upper width n).toList = [] := by
  unfold punctuation
  rw [List.filter_eq_nil_iff, Hex.toList_padded]
  intro c hc
  obtain ⟨d, hd, rfl⟩ := List.mem_map.mp hc
  rw [Number.digitValue?_digitChar upper (Hex.paddedDigits_lt hd)]
  exact Bool.false_ne_true

theorem word_spec (w : UInt16) :
    punctuation (Hex.word w).toList = [] ∧ (Hex.word w).toList.length = 4 :=
  ⟨punctuation_padded false 4 w.toNat, Hex.length_word w⟩

theorem byte_spec (b : UInt8) :
    punctuation (Hex.byte b).toList = [] ∧ (Hex.byte b).toList.length = 2 :=
  ⟨punctuation_padded false 2 b.toNat, Hex.length_byte b⟩

theorem figures_spec (h : mode.figures? pc operand = some s) :
    punctuation s.toList = [] ∧ s.toList.length = mode.figureCount := by
  cases mode with
  | implied | accumulator =>
    cases h
    exact ⟨rfl, rfl⟩
  | relative =>
    obtain ⟨b, -, rfl⟩ := Option.map_eq_some_iff.mp h
    exact word_spec _
  | immediate | zeroPage | zeroPageX | zeroPageY | indexedIndirect | indirectIndexed
  | zeroPageIndirect =>
    obtain ⟨b, -, rfl⟩ := Option.map_eq_some_iff.mp h
    exact byte_spec b
  | absolute | absoluteX | absoluteY | indirect | absoluteIndexedIndirect =>
    obtain ⟨low, high, rest, -, rfl⟩ := exists_two_bytes h
    exact word_spec (word low high)

/-- The shape can be seen from the text. -/
theorem shape_of_operandText (h : mode.operandText pc operand = some s) :
    mode.shape = (punctuation s.toList, s.toList.length) := by
  rw [operandText_eq] at h
  obtain ⟨figures, hfigures, rfl⟩ := Option.map_eq_some_iff.mp h
  obtain ⟨hnone, hlength⟩ := figures_spec hfigures
  unfold punctuation at hnone
  unfold shape punctuation
  rw [String.toList_append, String.toList_append, List.filter_append, List.filter_append,
    List.filter_append, hnone, List.append_nil, List.length_append, List.length_append, hlength]

/-- In one mode the same text shows the same operand. -/
theorem take_eq_of_operandText (hxs : mode.operandText pc xs = some s)
    (hys : mode.operandText pc ys = some s) :
    xs.take mode.operandLength = ys.take mode.operandLength := by
  rw [operandText_eq] at hxs hys
  obtain ⟨figures, hfigures, htext⟩ := Option.map_eq_some_iff.mp hxs
  obtain ⟨figures', hfigures', htext'⟩ := Option.map_eq_some_iff.mp hys
  have hsame : figures = figures' := by
    have hlists := congrArg String.toList (htext.trans htext'.symm)
    simp only [String.toList_append, List.append_cancel_right_eq, List.append_cancel_left_eq]
      at hlists
    exact String.toList_inj.mp hlists
  rw [hsame] at hfigures
  exact take_eq_of_figures hfigures hfigures'

end AddressingMode

/-! ### Names and shapes -/

theorem Mnemonic.length_name (mnemonic : Mnemonic) : mnemonic.name.toList.length = 3 := by
  cases mnemonic <;> rfl

theorem Mnemonic.name_ne (mnemonic : Mnemonic) : mnemonic.name.toList ≠ ['.', 'b', 'y'] := by
  cases mnemonic <;> decide

namespace Instruction

variable {variant : Variant} {i j : Instruction}

/-- A checksum of that in the text of an instruction that does not depend on the operand. -/
def checksum (i : Instruction) : Nat :=
  (i.mnemonic.name.toList ++ i.mode.shape.1).foldl (fun sum c => (31 * sum + c.toNat) % 32768)
    i.mode.shape.2

theorem checksum_onCmos (i : Instruction) : i.onCmos.checksum = i.checksum := by
  rw [checksum, mnemonic_onCmos, mode_onCmos, checksum]

theorem distinct_checksums :
    distinct 0 ((nmosInstructions ++ cmosAdditions).map checksum) = true := by
  decide +kernel

/-- No two instructions of a variant are written with the same name and the same shape. -/
theorem eq_of_name_of_shape (hi : i ∈ all variant) (hj : j ∈ all variant)
    (hname : i.mnemonic.name = j.mnemonic.name) (hshape : i.mode.shape = j.mode.shape) :
    i = j := by
  have hnodup := nodup_map_all checksum_onCmos distinct_checksums variant
  have hsum : i.checksum = j.checksum := by rw [checksum, hname, hshape, checksum]
  exact List.inj_on_of_nodup_map hnodup hi hj hsum

/-! ### Complete instructions -/

variable {opcode : UInt8} {bytes operand xs ys : List UInt8} {pc : UInt16}

theorem length_pos (i : Instruction) : 0 < i.length :=
  Nat.le_add_right 1 _

/-- Bytes start with an instruction and all of its operand. -/
structure Heads (variant : Variant) (i : Instruction) (bytes : List UInt8) : Prop where
  /-- The first byte is the opcode. -/
  decode_eq : bytes.head?.bind (decode variant) = some i
  /-- There are enough bytes. -/
  length_le : i.length ≤ bytes.length

theorem heads_cons : i.Heads variant (opcode :: operand) ↔
    decode variant opcode = some i ∧ i.mode.operandLength ≤ operand.length := by
  have hlength : i.length ≤ (opcode :: operand).length ↔
      i.mode.operandLength ≤ operand.length := by
    rw [length, List.length_cons]
    omega
  exact ⟨fun h => ⟨h.decode_eq, hlength.mp h.length_le⟩, fun h => ⟨h.1, hlength.mpr h.2⟩⟩

theorem disassemble_cons (h : decode variant opcode = some i) (operand : List UInt8)
    (pc : UInt16) : disassemble variant (opcode :: operand) pc =
      ((i.mode.operandText pc operand).map (i.mnemonic.name ++ ·)).getD (dataByteText opcode) := by
  rw [disassemble, h]
  cases htext : i.mode.operandText pc operand with
  | none => simp [htext]
  | some t => simp [htext]

/-- The text of a complete instruction is its name with the text of its operand. -/
theorem Heads.exists_text (h : i.Heads variant bytes) (pc : UInt16) :
    ∃ operand t, bytes = i.opcode :: operand ∧ i ∈ all variant ∧
      i.mode.operandText pc operand = some t ∧
      disassemble variant bytes pc = i.mnemonic.name ++ t := by
  match bytes, h with
  | [], h => cases h.decode_eq
  | opcode :: operand, h =>
    obtain ⟨hdecode, hlength⟩ := heads_cons.mp h
    obtain ⟨hi, rfl⟩ := decode_eq_some_iff.mp hdecode
    obtain ⟨t, ht⟩ := Option.isSome_iff_exists.mp
      ((AddressingMode.isSome_operandText pc).mpr hlength)
    refine ⟨operand, t, rfl, hi, ht, ?_⟩
    rw [disassemble_cons hdecode, ht]
    rfl

theorem take_length (i : Instruction) (opcode : UInt8) (operand : List UInt8) :
    (opcode :: operand).take i.length = opcode :: operand.take i.mode.operandLength := by
  rw [length, Nat.add_comm, List.take_succ_cons]

/-- Two complete instructions at one address have the same text if and only if they are the same
bytes; what follows them does not matter. -/
theorem disassemble_eq_iff (hi : i.Heads variant xs) (hj : j.Heads variant ys) :
    disassemble variant xs pc = disassemble variant ys pc ↔
      xs.take i.length = ys.take j.length := by
  obtain ⟨operand, t, rfl, himem, ht, htext⟩ := hi.exists_text pc
  obtain ⟨operand', t', rfl, hjmem, ht', htext'⟩ := hj.exists_text pc
  rw [htext, htext', take_length, take_length]
  constructor
  · intro h
    have hlists := congrArg String.toList h
    rw [String.toList_append, String.toList_append] at hlists
    -- all names are equally long, so the texts can be cut after them
    obtain ⟨hname, hoperand⟩ := List.append_inj hlists
      (i.mnemonic.length_name.trans j.mnemonic.length_name.symm)
    obtain rfl := String.toList_inj.mp hoperand
    have hshape : i.mode.shape = j.mode.shape :=
      (AddressingMode.shape_of_operandText ht).trans (AddressingMode.shape_of_operandText ht').symm
    obtain rfl := eq_of_name_of_shape himem hjmem (String.toList_inj.mp hname) hshape
    rw [AddressingMode.take_eq_of_operandText ht ht']
  · intro h
    obtain ⟨hopcode, hoperand⟩ := List.cons.inj h
    obtain rfl : i = j := Option.some.inj <| by
      rw [← decode_eq_some_iff.mpr ⟨himem, rfl⟩, hopcode, decode_eq_some_iff.mpr ⟨hjmem, rfl⟩]
    rw [← AddressingMode.operandText_take, hoperand, AddressingMode.operandText_take, ht'] at ht
    rw [Option.some.inj ht]

/-- An opcode whose operand is not complete is shown as a byte, a complete instruction is not. -/
theorem byte_prefix_iff (h : decode variant opcode = some i) :
    ".byte".toList <+: (disassemble variant (opcode :: operand) pc).toList ↔
      operand.length < i.mode.operandLength := by
  rw [disassemble_cons h, ← Nat.not_le, ← AddressingMode.isSome_operandText pc]
  cases i.mode.operandText pc operand with
  | none =>
    have hprefix : ".byte".toList <+: (dataByteText opcode).toList := by
      have hmark : ".byte $".toList = ".byte".toList ++ " $".toList := rfl
      rw [dataByteText, String.toList_append, hmark, List.append_assoc]
      exact List.prefix_append _ _
    simpa using hprefix
  | some t =>
    -- mnemonics have three letters, and none has those of `.byte`
    have hnot : ¬ ".byte".toList <+: (i.mnemonic.name ++ t).toList := by
      rintro ⟨rest, hrest⟩
      have htake := congrArg (List.take 3) hrest
      rw [String.toList_append, List.take_left' i.mnemonic.length_name] at htake
      exact i.mnemonic.name_ne htake.symm
    simpa using hnot

/-! ### Executing what is shown -/

/-- Execution goes on at an address that is written in the text: a branch that is taken, a jump
that is not through a pointer, or a call. -/
def ShowsTarget (i : Instruction) (p : Status) : Prop :=
  i.mnemonic.isBranch = true ∧ i.mnemonic.Jumps p ∨
    i.mnemonic = .jmp ∧ i.mode = .absolute ∨ i.mnemonic = .jsr

/-- The text of the instruction at the program counter agrees with what executing it does. -/
structure Shown (variant : Variant) (i : Instruction) (r : Registers) (m : Memory) : Prop where
  /-- The bytes there start with the instruction, if there are enough of them. -/
  heads_iff : ∀ n, i.Heads variant (m.readBytes r.pc n) ↔ i.length ≤ n
  /-- Of fewer bytes than it has nothing but the first is shown. -/
  byte_iff : ∀ n, ".byte".toList <+: (disassemble variant (m.readBytes r.pc n) r.pc).toList ↔
    n < i.length
  /-- The next instruction is after the bytes shown, unless execution goes on elsewhere. -/
  pc_eq : ¬ i.mnemonic.Jumps r.p →
    (i.effect variant r m).registers.pc = r.pc + UInt16.ofNat i.length
  /-- Execution goes on where the text says. -/
  target_eq : i.ShowsTarget r.p →
    disassemble variant (m.readBytes r.pc i.length) r.pc =
      i.mnemonic.name ++ " $" ++ Hex.word (i.effect variant r m).registers.pc

variable {r : Registers} {m : Memory}

theorem relative_of_isBranch (variant : Variant) :
    ∀ i ∈ all variant, i.mnemonic.isBranch = true → i.mode = .relative := by
  cases variant with
  | nmos => decide +kernel
  | cmos => decide +kernel

theorem branchTaken_of_jumps {mnemonic : Mnemonic} {p : Status}
    (hbranch : mnemonic.isBranch = true) (h : mnemonic.Jumps p) :
    mnemonic.branchTaken p = true := by
  cases mnemonic with
  | bra => rfl
  | bcc | bne | bpl | bvc => exact (Bool.not_eq_true' _).mpr h
  | bcs | beq | bmi | bvs => exact h
  | _ => cases hbranch

/-- The address of a branch's or a jump's operand is the one written. -/
theorem operandText_of_resolve {mode : AddressingMode}
    (hmode : mode = .relative ∨ mode = .absolute) (r : Registers) (m : Memory) :
    ∃ target crossed, Operand.resolve variant mode r m = .address target crossed ∧
      mode.operandText r.pc (m.readBytes (r.pc + 1) mode.operandLength) =
        some (" $" ++ Hex.word target) := by
  rcases hmode with rfl | rfl
  · refine ⟨_, _, rfl, ?_⟩
    show AddressingMode.operandText .relative r.pc (m.readBytes (r.pc + 1) 1) = _
    rw [Memory.readBytes_succ, AddressingMode.operandText]
  · refine ⟨_, _, rfl, ?_⟩
    show AddressingMode.operandText .absolute r.pc (m.readBytes (r.pc + 1) 2) = _
    rw [Memory.readBytes_succ, Memory.readBytes_succ, AddressingMode.operandText, Memory.readWord]

theorem pc_of_showsTarget (h : i.ShowsTarget r.p) {target : UInt16} {crossed : Bool}
    (hoperand : Operand.resolve variant i.mode r m = .address target crossed) :
    (i.effect variant r m).registers.pc = target := by
  rw [effect_eq, operation, hoperand]
  rcases h with ⟨hbranch, hjumps⟩ | ⟨hjmp, -⟩ | hjsr
  · have htaken : i.mnemonic.branchTaken r.p = true := branchTaken_of_jumps hbranch hjumps
    rw [Effect.perform_of_isBranch hbranch]
    unfold Effect.branch
    rw [htaken]
    rfl
  · rw [Effect.perform, hjmp]
    rfl
  · rw [Effect.perform, hjsr]
    rfl

/-- What is executed is what is shown. -/
theorem shown_of_decode (h : decode variant (m.read r.pc) = some i) : i.Shown variant r m := by
  have hi := (decode_eq_some_iff.mp h).1
  have hlength : ∀ a n, (m.readBytes a n).length = n := by simp [Memory.readBytes]
  refine ⟨fun n => ?_, fun n => ?_, (effect_within hi r m).pc, fun htarget => ?_⟩
  · cases n with
    | zero =>
      have hlt : ¬ i.length ≤ 0 := Nat.not_le.mpr i.length_pos
      exact iff_of_false (fun hheads => by cases hheads.decode_eq) hlt
    | succ n =>
      rw [Memory.readBytes_succ, heads_cons, hlength, length, Nat.add_comm 1, Nat.succ_le_succ_iff]
      exact and_iff_right h
  · cases n with
    | zero => exact iff_of_true (List.prefix_refl _) i.length_pos
    | succ n =>
      rw [Memory.readBytes_succ, byte_prefix_iff h, hlength, length, Nat.add_comm 1,
        Nat.succ_lt_succ_iff]
  · have hmode : i.mode = .relative ∨ i.mode = .absolute := by
      -- only a branch, a jump or a call shows where it goes, each in a single mode
      rcases htarget with ⟨hbranch, -⟩ | ⟨-, habsolute⟩ | hjsr
      · exact .inl (relative_of_isBranch variant i hi hbranch)
      · exact .inr habsolute
      · exact .inr ((forms_of_mem variant i hi).2 hjsr)
    obtain ⟨target, crossed, hoperand, htext⟩ := operandText_of_resolve hmode r m
    rw [pc_of_showsTarget htarget hoperand, length, Nat.add_comm, Memory.readBytes_succ,
      disassemble_cons h, htext, String.append_assoc]
    rfl

end Instruction

end Bench65
