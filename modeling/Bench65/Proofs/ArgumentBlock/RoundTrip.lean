import Bench65.Proofs.Program

/-!
# Arguments arrive unchanged

The arguments written below a top are those read back, from the memory they were written to and from
the memory of a loaded program. `serialize_round_trip` says besides when the arguments are refused,
what is written where, and that the sixteen-bit arithmetic on the way never wraps.
-/

namespace Bench65.ArgumentBlock

open Memory

/-- What it is for a block of some arguments to have been written below `top`, in a memory that was
`m` and is `written` now. -/
structure Written (m written : Memory) (args : List (List UInt8)) (top : UInt16) (floor : Nat)
    (b : ArgumentBlock) : Prop where
  /-- The block ends at the top. -/
  stop_eq : b.stop = top
  /-- It has the size announced. -/
  start_add_size : b.start.toNat + size args = top.toNat
  /-- It does not reach below the floor. -/
  floor_le_start : floor ≤ b.start.toNat
  /-- It counts its arguments. -/
  toNat_count : b.count.toNat = args.length
  /-- Nothing outside it was written. -/
  read_outside : ∀ a : UInt16, a.toNat < b.start.toNat ∨ top.toNat ≤ a.toNat →
    written.read a = m.read a
  /-- The address of the table is the sum it is computed as. -/
  toNat_tableAddress : b.tableAddress.toNat = b.start.toNat + 2
  /-- So are the addresses of the pointers, that of the null pointer included. -/
  toNat_slot : ∀ i ≤ args.length, (b.slot i).toNat = b.start.toNat + 2 + 2 * i
  /-- So are the pointers. -/
  toNat_pointer : ∀ i < args.length, (b.pointer args i).toNat = textStart b.start args i
  /-- Every text ends, with its zero, inside the block. -/
  textStart_add_le : ∀ i (hi : i < args.length),
    textStart b.start args i + (args[i].length + 1) ≤ top.toNat
  /-- The count is stored at its address. -/
  readWord_countAddress : written.readWord b.countAddress = b.count
  /-- The table holds the pointers. -/
  readWord_slot : ∀ i < args.length, written.readWord (b.slot i) = b.pointer args i
  /-- They lie inside the block. -/
  pointer_mem : ∀ i < args.length, b.start ≤ b.pointer args i ∧ b.pointer args i < top
  /-- The null pointer closes the table. -/
  readWord_null : written.readWord (b.slot args.length) = 0
  /-- Every pointer leads to its argument and a zero. -/
  readBytes_pointer : ∀ i (hi : i < args.length),
    written.readBytes (b.pointer args i) (args[i].length + 1) = args[i] ++ [0]

theorem written_place (m : Memory) {args : List (List UInt8)} {top : UInt16} {floor : Nat}
    (hzero : ∀ arg ∈ args, 0 ∉ arg) (hroom : size args ≤ top.toNat - floor) :
    Written m (m.writeBytes (place args top).start (bytes (place args top).start args)) args top
      floor (place args top) := by
  have hle : size args ≤ top.toNat := Nat.le_trans hroom (Nat.sub_le _ _)
  have hin := inMemory_place m hzero hle
  have hs := toNat_start_place hle
  -- the block is not empty, so that its start is below the top
  have hpos : 0 < size args := by
    rw [size_eq, headerSize]
    omega
  exact
    { stop_eq := rfl
      start_add_size := hs
      floor_le_start := by omega
      toNat_count := hin.toNat_count
      read_outside := fun a ha => read_of_not_mem_place m hle ha
      toNat_tableAddress := hin.toNat_tableAddress
      toNat_slot := fun i hi => hin.toNat_slot hi
      toNat_pointer := fun i hi => hin.toNat_pointer hi
      textStart_add_le := fun i hi => hin.textStart_add_le hi
      readWord_countAddress := hin.readWord_countAddress
      readWord_slot := fun i hi => hin.readWord_slot hi
      pointer_mem := fun i hi => by
        have hend := hin.textStart_add_le hi
        have hp := hin.toNat_pointer hi
        rw [UInt16.le_iff_toNat_le, UInt16.lt_iff_toNat_lt, hp]
        refine ⟨?_, Nat.lt_of_lt_of_le (by omega) hend⟩
        rw [textStart]
        omega
      readWord_null := hin.readWord_null
      readBytes_pointer := fun i hi => by
        have ht := holds_iff_readBytes.mp (hin.holds_text hi)
        rwa [List.length_append] at ht }

/-- **Round trip of the arguments.** Arguments are accepted exactly if none has a zero byte and
their block fits between floor and top; if they are refused, then for the first zero byte, or else
for the lack of room, whatever memory holds, and memory stays as it is. If they are accepted, memory
changes to hold their block and nothing else, and they are read back from it. They are also read
back from the memory of a program loaded with them. -/
theorem serialize_round_trip (m : Memory) (args : List (List UInt8)) (top : UInt16) (floor : Nat) :
    ((∃ b written, (serialize args top floor).run m = .ok b written) ↔
      (∀ arg ∈ args, 0 ∉ arg) ∧
        2 + 2 * (args.length + 1) + (args.map (·.length + 1)).sum ≤ top.toNat - floor) ∧
    (∀ e left, (serialize args top floor).run m = .error e left ↔
      Refusal args top floor e ∧ left = m) ∧
    (∀ b written, (serialize args top floor).run m = .ok b written →
      Written m written args top floor b ∧ b.readBack written = args) ∧
    (∀ image settings program, Program.load image args settings = .ok program →
      program.arguments.readBack program.memory = args) := by
  refine ⟨⟨?_, ?_⟩, fun e left => run_serialize_eq_error_iff m left args top floor e, ?_, ?_⟩
  · rintro ⟨b, written, h⟩
    obtain ⟨hzero, hroom, -, -⟩ := (run_serialize_eq_ok_iff m args top floor b written).mp h
    exact ⟨hzero, hroom⟩
  · rintro ⟨hzero, hroom⟩
    exact ⟨_, _, (run_serialize_eq_ok_iff m args top floor _ _).mpr ⟨hzero, hroom, rfl, rfl⟩⟩
  · intro b written h
    have hback := (inMemory_serialize h).1.readBack_eq
    obtain ⟨hzero, hroom, rfl, rfl⟩ := (run_serialize_eq_ok_iff m args top floor b written).mp h
    exact ⟨written_place m hzero hroom, hback⟩
  · intro image settings program h
    exact (Program.inMemory_load h).readBack_eq

/-- A block that fills all the room between its floor and the last address but one, the second of
its arguments empty; and a program of one byte loaded with the same arguments. -/
theorem serialize_round_trip_tight :
    (∃ b written,
      (serialize [[112], []] 0xFFFF 0xFFF4).run (Memory.filled 0) = .ok b written ∧
        b.readBack written = [[112], []]) ∧
    (∃ program, Program.load (Image.raw [0x60] 0x200 0x200 .nmos) [[112], []] Settings.default =
        .ok program ∧ program.arguments.readBack program.memory = [[112], []]) := by
  obtain ⟨hok, -, hback, hload⟩ :=
    serialize_round_trip (Memory.filled 0) [[112], []] 0xFFFF 0xFFF4
  obtain ⟨b, written, h⟩ := hok.mpr (by decide)
  refine ⟨⟨b, written, h, (hback b written h).2⟩, ?_⟩
  obtain ⟨program, hprogram⟩ : ∃ program, Program.load (Image.raw [0x60] 0x200 0x200 .nmos)
      [[112], []] Settings.default = .ok program := ⟨_, rfl⟩
  exact ⟨program, hprogram, hload _ _ _ hprogram⟩

end Bench65.ArgumentBlock
