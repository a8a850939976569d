import Bench65.Image
import Bench65.Proofs.Check
import Mathlib.Tactic.SplitIfs

/-!
# Program files

* `Image.parse_specification`: which files are read, that a file and the program read from it
  determine each other, and how a file that is not read is refused.

Behind the magic a file that is long enough has seven bytes of header and the code
(`exists_fields`), and what is read depends on two of these bytes only (`parse_magic_append`).
`decides_parse` puts the checks in order; `parse_eq_ok_iff` says that a header and code are read
from exactly one file, the one they are written as.
-/

namespace Bench65

open Check (Decides)

namespace ImageHeader

variable {file : List UInt8}

@[simp]
theorem length_magic : magic.length = 5 := rfl

@[simp]
theorem length_bytes (h : ImageHeader) : h.bytes.length = size := rfl

/-! ### Reading a header -/

theorem parse_of_not_magic (h : ¬ file.take magic.length <+: magic) :
    parse file = .error (.badMagic (file.take magic.length)) := by
  rw [← List.isPrefixOf_iff_prefix, Bool.not_eq_true] at h
  simp only [parse, h, Bool.not_false, if_true]

theorem parse_of_length_lt (h : file.take magic.length <+: magic) (hlt : file.length < size) :
    parse file = .error (.truncatedHeader file.length size) := by
  rw [← List.isPrefixOf_iff_prefix] at h
  simp only [parse, h, Bool.not_true, Bool.false_eq_true, if_false]
  split
  · rename_i v cpu cell l₀ l₁ e₀ e₁ rest hdrop
    -- seven bytes behind the magic would make a whole header
    have hlength := congrArg List.length hdrop
    simp only [List.length_drop, length_magic, List.length_cons] at hlength
    rw [size] at hlt
    omega
  · rfl

/-- A header behind the magic is read field by field. -/
theorem parse_magic_append (v cpu cell l₀ l₁ e₀ e₁ : UInt8) (rest : List UInt8) :
    parse (magic ++ v :: cpu :: cell :: l₀ :: l₁ :: e₀ :: e₁ :: rest) =
      if v ≠ version then .error (.unsupportedVersion v)
      else
        match Variant.ofHeaderByte? cpu with
        | none => .error (.unsupportedCpu cpu)
        | some variant => .ok (⟨variant, cell, word l₀ l₁, word e₀ e₁⟩, rest) := by
  have hself : magic.isPrefixOf magic = true := List.isPrefixOf_iff_prefix.mpr List.prefix_rfl
  unfold parse
  rw [List.take_left, List.drop_left]
  dsimp only
  rw [hself]
  rfl

theorem exists_fields (h : file.take magic.length <+: magic) (hle : size ≤ file.length) :
    ∃ v cpu cell l₀ l₁ e₀ e₁ rest,
      file = magic ++ v :: cpu :: cell :: l₀ :: l₁ :: e₀ :: e₁ :: rest := by
  rw [size] at hle
  have hfront : file.take magic.length = magic :=
    h.eq_of_length (by rw [List.length_take_of_le]; rw [length_magic]; omega)
  have hlength : (file.drop magic.length).length + 5 = file.length := by
    rw [List.length_drop, length_magic]
    omega
  rw [← List.take_append_drop magic.length file, hfront]
  generalize file.drop magic.length = behind at hlength
  match behind with
  | v :: cpu :: cell :: l₀ :: l₁ :: e₀ :: e₁ :: rest =>
    exact ⟨v, cpu, cell, l₀, l₁, e₀, e₁, rest, rfl⟩
  | [] | [_] | [_, _] | [_, _, _] | [_, _, _, _] | [_, _, _, _, _] | [_, _, _, _, _, _] =>
    simp only [List.length_cons, List.length_nil] at hlength
    omega

/-- The checks of a header, in order. A byte is looked at only once the file is known to be long
enough. -/
def checks (file : List UInt8) : List Check :=
  [.of (file.take magic.length <+: magic) (.badMagic (file.take magic.length)),
   .of (size ≤ file.length) (.truncatedHeader file.length size),
   .of (file.getD 5 0 = version) (.unsupportedVersion (file.getD 5 0)),
   .of (∃ variant : Variant, file.getD 6 0 = variant.headerByte) (.unsupportedCpu (file.getD 6 0))]

theorem decides_parse (file : List UInt8) : Decides (checks file) (parse file) := by
  unfold checks
  by_cases hmagic : file.take magic.length <+: magic
  · refine .passing hmagic ?_
    rcases Nat.lt_or_ge file.length size with hlt | hle
    · rw [parse_of_length_lt hmagic hlt]
      exact .failing (Nat.not_le.mpr hlt) fun _ => Iff.rfl
    refine .passing hle ?_
    -- from here on the file is a magic number, seven bytes and the rest
    obtain ⟨v, cpu, cell, l₀, l₁, e₀, e₁, rest, rfl⟩ := exists_fields hmagic hle
    rw [parse_magic_append]
    refine .ite Decidable.not_not.symm rfl ?_
    cases hcpu : Variant.ofHeaderByte? cpu with
    | none =>
      refine .failing (fun ⟨variant, heq⟩ => ?_) fun _ => Iff.rfl
      have hbyte : cpu = variant.headerByte := heq
      rw [Variant.ofHeaderByte?_eq_some_iff.mpr hbyte] at hcpu
      cases hcpu
    | some variant =>
      exact .passing ⟨variant, Variant.ofHeaderByte?_eq_some_iff.mp hcpu⟩ (Check.decides_ok _)
  · rw [parse_of_not_magic hmagic]
    exact .failing hmagic fun _ => Iff.rfl

/-- A header and what lies behind it are read exactly from the file that they make up. -/
theorem parse_eq_ok_iff {h : ImageHeader} {rest : List UInt8} :
    parse file = .ok (h, rest) ↔ file = h.bytes ++ rest := by
  constructor
  · intro hparse
    have hholds := (decides_parse file).ok_iff.mp ⟨_, hparse⟩
    simp only [checks, List.forall_mem_cons, Check.of] at hholds
    obtain ⟨hmagic, hle, -⟩ := hholds
    obtain ⟨v, cpu, cell, l₀, l₁, e₀, e₁, rest', rfl⟩ := exists_fields hmagic hle
    rw [parse_magic_append] at hparse
    split_ifs at hparse with hversion
    cases hcpu : Variant.ofHeaderByte? cpu with
    | none =>
      rw [hcpu] at hparse
      cases hparse
    | some variant =>
      rw [hcpu] at hparse
      cases hparse
      rw [Decidable.not_not] at hversion
      simp [bytes, hversion, Variant.ofHeaderByte?_eq_some_iff.mp hcpu]
  · rintro rfl
    have hcpu : Variant.ofHeaderByte? h.variant.headerByte = some h.variant :=
      Variant.ofHeaderByte?_eq_some_iff.mpr rfl
    rw [bytes, List.append_assoc]
    refine (parse_magic_append ..).trans ?_
    rw [if_neg (Decidable.not_not.mpr rfl), hcpu]
    simp

end ImageHeader

namespace Image

open ImageHeader (magic size)

variable {file : List UInt8}

/-- The checks of a program file, in order. -/
def fileChecks (file : List UInt8) : List Check :=
  ImageHeader.checks file ++ [.of (size < file.length) .emptyPayload]

theorem decides_parse (file : List UInt8) : Decides (fileChecks file) (parse file) := by
  refine (ImageHeader.decides_parse file).bind fun ⟨h, payload⟩ hheader => ?_
  obtain rfl := ImageHeader.parse_eq_ok_iff.mp hheader
  refine .ite ?_ rfl (Check.decides_ok _)
  rw [List.length_append, ImageHeader.length_bytes, List.isEmpty_iff_length_eq_zero]
  omega

/-- A program with code and without labels is read exactly from the file it is written as. -/
theorem parse_eq_ok_iff {image : Image} :
    parse file = .ok image ↔
      file = image.bytes ∧ image.payload ≠ [] ∧ image.symbols = Symbols.empty := by
  constructor
  · intro h
    rw [parse] at h
    cases hheader : ImageHeader.parse file with
    | error e =>
      rw [hheader] at h
      cases h
    | ok read =>
      rw [hheader] at h
      have hfile := ImageHeader.parse_eq_ok_iff.mp hheader
      change (if read.2.isEmpty = true then throw _ else pure _) = _ at h
      split_ifs at h with hempty
      cases h
      exact ⟨hfile, fun hnil => hempty (List.isEmpty_iff.mpr hnil), rfl⟩
  · obtain ⟨header, payload, symbols⟩ := image
    rintro ⟨rfl, hpayload, rfl⟩
    have hheader : ImageHeader.parse (bytes ⟨header, payload, Symbols.empty⟩) =
        .ok (header, payload) := ImageHeader.parse_eq_ok_iff.mpr rfl
    rw [parse, hheader]
    exact if_neg fun hempty => hpayload (List.isEmpty_iff.mp hempty)

theorem holds_fileChecks_iff :
    (∀ c ∈ fileChecks file, c.holds) ↔
      13 ≤ file.length ∧ Ascii.bytes "sim65" <+: file ∧ file[5]? = some 2 ∧
        (file[6]? = some 0 ∨ file[6]? = some 1) := by
  simp only [fileChecks, ImageHeader.checks, List.forall_mem_append, List.forall_mem_cons,
    Check.of, List.not_mem_nil, false_implies, implies_true, and_true]
  constructor
  · rintro ⟨⟨hmagic, -, hversion, hcpu⟩, hlt⟩
    -- both conditions speak of single bytes of the header
    obtain ⟨v, cpu, cell, l₀, l₁, e₀, e₁, rest, rfl⟩ :=
      ImageHeader.exists_fields hmagic (Nat.le_of_lt hlt)
    refine ⟨hlt, List.prefix_append _ _, congrArg some hversion, ?_⟩
    obtain ⟨variant, hbyte⟩ := hcpu
    cases variant with
    | nmos => exact .inl (congrArg some hbyte)
    | cmos => exact .inr (congrArg some hbyte)
  · rintro ⟨hlt, hmagic, hversion, hcpu⟩
    have hfront : file.take magic.length = magic := (List.prefix_iff_eq_take.mp hmagic).symm
    refine ⟨⟨?_, Nat.le_of_lt hlt, ?_, ?_⟩, hlt⟩
    · exact ⟨[], by rw [List.append_nil, hfront]⟩
    · rw [List.getD_eq_getElem?_getD, hversion]
      rfl
    · rw [List.getD_eq_getElem?_getD]
      rcases hcpu with hnmos | hcmos
      · exact ⟨.nmos, by rw [hnmos]; rfl⟩
      · exact ⟨.cmos, by rw [hcmos]; rfl⟩

/-- **Program files.** A file is read if and only if it starts with a header of the right version
for a known processor and has some code behind it. What is read is written as the same file, and a
program that is written is read again, without its labels. A file that is not read is refused for
the first check that it fails. -/
theorem parse_specification (file : List UInt8) :
    ((∃ image, parse file = .ok image) ↔
      13 ≤ file.length ∧ Ascii.bytes "sim65" <+: file ∧ file[5]? = some 2 ∧
        (file[6]? = some 0 ∨ file[6]? = some 1)) ∧
    (∀ image, parse file = .ok image → image.bytes = file) ∧
    (∀ header payload symbols, payload ≠ [] →
      parse (bytes ⟨header, payload, symbols⟩) = .ok ⟨header, payload, Symbols.empty⟩) ∧
    (∀ e, parse file = .error e ↔ Check.FirstFailing e (fileChecks file)) := by
  refine ⟨(decides_parse file).ok_iff.trans holds_fileChecks_iff, ?_, ?_,
    (decides_parse file).error_iff⟩
  · intro image h
    exact (parse_eq_ok_iff.mp h).1.symm
  · intro header payload symbols hpayload
    -- labels are no part of the file
    exact parse_eq_ok_iff.mpr ⟨rfl, hpayload, rfl⟩

/-- A file for the 65C02 whose code is one byte, and its header alone. -/
theorem parse_specification_oneByte :
    (∃ image, parse (Ascii.bytes "sim65" ++ [2, 1, 0, 0, 2, 0, 2, 0x60]) = .ok image ∧
      image.header.variant = .cmos ∧
      image.bytes = Ascii.bytes "sim65" ++ [2, 1, 0, 0, 2, 0, 2, 0x60]) ∧
    parse (Ascii.bytes "sim65" ++ [2, 1, 0, 0, 2, 0, 2]) = .error .emptyPayload ∧
    Check.FirstFailing .emptyPayload
      (fileChecks (Ascii.bytes "sim65" ++ [2, 1, 0, 0, 2, 0, 2])) := by
  obtain ⟨image, hparse, hvariant⟩ : ∃ image,
      parse (Ascii.bytes "sim65" ++ [2, 1, 0, 0, 2, 0, 2, 0x60]) = .ok image ∧
        image.header.variant = .cmos := ⟨_, rfl, rfl⟩
  have herror : parse (Ascii.bytes "sim65" ++ [2, 1, 0, 0, 2, 0, 2]) = .error .emptyPayload := rfl
  exact ⟨⟨image, hparse, hvariant, (parse_specification _).2.1 image hparse⟩, herror,
    ((parse_specification _).2.2.2 _).mp herror⟩

end Image

end Bench65
