import Bench65.Proofs.Call.CStack
import Bench65.Proofs.Program.Checks
import Mathlib.Order.CompletePartialOrder
import Mathlib.Order.Interval.Set.Disjoint

/-!
# What a load leaves

* `load_specification`: a load succeeds if and only if its checks hold, and fails with the report of
  the first one that does not. When it succeeds, its program is laid out in memory as `MemoryMap`
  says: the code, the argument block and the C stack pointer do not meet, and whatever belongs to
  none of them nor to the reset vector holds the fill byte.

The reset vector is written before the argument block, which may cover it, and after the code, which
cannot: the block takes at least four bytes above the code.
-/

namespace Bench65

/-! ### Regions -/

namespace Layout

variable {l : Layout}

/-- The parts of a layout follow one another. -/
structure Ordered (l : Layout) : Prop where
  floor_le_start : 0x200 ≤ l.programStart.toNat
  start_le_end : l.programStart.toNat ≤ l.programEnd
  end_le_argumentStart : l.programEnd ≤ l.argumentStart.toNat
  argumentStart_le_top : l.argumentStart.toNat ≤ l.argumentTop.toNat

/-- The addresses of a region. -/
def addresses (l : Layout) : Region → Set Nat
  | .zeroPage => Set.Iio 0x100
  | .stack => Set.Ico 0x100 0x200
  | .program => Set.Ico l.programStart.toNat l.programEnd
  | .free =>
    Set.Ico 0x200 l.programStart.toNat ∪ Set.Ico l.programEnd l.argumentStart.toNat
  | .arguments => Set.Ico l.argumentStart.toNat l.argumentTop.toNat
  | .hooks => Set.Ici l.argumentTop.toNat

theorem mem_addresses_regionOf (l : Layout) (a : UInt16) :
    a.toNat ∈ l.addresses (l.regionOf a) := by
  unfold regionOf
  simp only [stackBase, programFloor, UInt16.lt_iff_toNat_lt, UInt16.le_iff_toNat_le,
    UInt16.reduceToNat]
  split_ifs with hzero hstack hhooks harguments hprogram
  · exact hzero
  · exact ⟨Nat.le_of_not_lt hzero, hstack⟩
  · exact hhooks
  · exact ⟨harguments, Nat.lt_of_not_le hhooks⟩
  · exact hprogram
  · -- an address that is not in the program lies on one side of it
    rcases Nat.lt_or_ge a.toNat l.programStart.toNat with hlt | hge
    · exact .inl ⟨Nat.le_of_not_lt hstack, hlt⟩
    · exact .inr ⟨Nat.le_of_not_lt fun hlt => hprogram ⟨hge, hlt⟩, Nat.lt_of_not_le harguments⟩

/-- No address lies in two regions. -/
theorem Ordered.eq_of_mem_addresses (h : l.Ordered) {r r' : Region} {n : Nat}
    (hr : n ∈ l.addresses r) (hr' : n ∈ l.addresses r') : r = r' := by
  obtain ⟨hfloor, hstart, hend, htop⟩ := h
  cases r <;> cases r' <;>
    simp only [addresses, Set.mem_Iio, Set.mem_Ico, Set.mem_Ici, Set.mem_union] at hr hr' <;>
    first | rfl | omega

/-- The region of an address is the one it lies in. -/
theorem Ordered.regionOf_eq_iff (h : l.Ordered) (a : UInt16) (r : Region) :
    l.regionOf a = r ↔ a.toNat ∈ l.addresses r := by
  constructor
  · rintro rfl
    exact l.mem_addresses_regionOf a
  · exact h.eq_of_mem_addresses (l.mem_addresses_regionOf a)

end Layout

/-! ### Where the parts lie -/

/-- The addresses of the code. -/
def Image.addresses (image : Image) : Set Nat :=
  Set.Ico image.header.load.toNat image.stop

/-- The addresses of the block. -/
def ArgumentBlock.addresses (b : ArgumentBlock) : Set Nat :=
  Set.Ico b.start.toNat b.stop.toNat

namespace Program

variable {image : Image} {args : List (List UInt8)} {settings : Settings} {program : Program}

/-- Where the parts of a loaded program lie, as numbers. -/
structure Bounds (image : Image) (args : List (List UInt8)) (settings : Settings)
    (program : Program) : Prop where
  floor_le_load : 0x200 ≤ image.header.load.toNat
  load_lt_stop : image.header.load.toNat < image.stop
  stop_le_start : image.stop ≤ program.arguments.start.toNat
  start_add_size :
    program.arguments.start.toNat + ArgumentBlock.size args = settings.argumentTop.toNat
  stop_eq : program.arguments.stop = settings.argumentTop
  stack_cell_lt : program.stack.pointerCell.toNat < 0xFF
  stack_eq : program.stack = ⟨image.header.pointerCell⟩
  layout_eq : program.layout =
    ⟨image.header.load, image.stop, program.arguments.start, settings.argumentTop⟩

/-- Even a block without arguments takes four bytes. -/
theorem four_le_size (args : List (List UInt8)) : 4 ≤ ArgumentBlock.size args := by
  rw [ArgumentBlock.size_eq, ArgumentBlock.headerSize]
  omega

theorem bounds_of_load (h : load image args settings = .ok program) :
    Bounds image args settings program := by
  obtain ⟨block, written, hplace, hblock, -, -, -, hlayout, rfl, hstack⟩ := load_eq_ok h
  obtain ⟨hzero, hroom, hplaced, -⟩ := (ArgumentBlock.run_serialize_eq_ok_iff ..).mp hblock
  have hstart := ArgumentBlock.toNat_start_place (hroom.trans (Nat.sub_le _ _))
  rw [← hplaced] at hstart
  have hfour := four_le_size args
  have hload : image.header.load.toNat ≤ image.header.entry.toNat :=
    UInt16.le_iff_toNat_le.mp hplace.load_le_entry
  exact {
    floor_le_load := UInt16.le_iff_toNat_le.mp hplace.floor_le_load
    load_lt_stop := hload.trans_lt hplace.entry_lt_stop
    stop_le_start := by omega
    start_add_size := hstart
    stop_eq := by rw [hplaced]; rfl
    stack_cell_lt := CStack.toNat_pointerCell_lt (by rw [hstack]; exact hplace.pointerCell_ne)
    stack_eq := hstack
    layout_eq := hlayout }

namespace Bounds

variable (h : Bounds image args settings program)
include h

theorem ordered : program.layout.Ordered := by
  have hsize := h.start_add_size
  rw [h.layout_eq]
  exact ⟨h.floor_le_load, h.load_lt_stop.le, h.stop_le_start, by dsimp only; omega⟩

/-- The block lies above the zero page and the stack page. -/
theorem floor_le_start : 0x200 ≤ program.arguments.start.toNat := by
  have hfloor := h.floor_le_load
  have hcode := h.load_lt_stop
  have hstop := h.stop_le_start
  omega

theorem code_disjoint_arguments : Disjoint image.addresses program.arguments.addresses :=
  Set.Ico_disjoint_Ico.mpr (by
    have := h.stop_le_start
    omega)

theorem not_mem_stack {n : Nat} (hn : 0x100 ≤ n) : n ∉ program.stack.addresses :=
  CStack.not_mem_addresses h.stack_cell_lt hn

theorem code_disjoint_stack : Disjoint image.addresses program.stack.addresses := by
  refine Set.disjoint_left.mpr fun n hn => h.not_mem_stack ?_
  have hfloor := h.floor_le_load
  have hle : image.header.load.toNat ≤ n := hn.1
  omega

theorem arguments_disjoint_stack :
    Disjoint program.arguments.addresses program.stack.addresses := by
  refine Set.disjoint_left.mpr fun n hn => h.not_mem_stack ?_
  have hfloor := h.floor_le_start
  have hle : program.arguments.start.toNat ≤ n := hn.1
  omega

end Bounds

/-! ### What memory holds -/

theorem memory_of_load (h : load image args settings = .ok program) :
    program.memory = program.stack.setPointer
        ((codeMemory image settings.fill).writeBytes program.arguments.start
          (ArgumentBlock.bytes program.arguments.start args)) program.arguments.start := by
  obtain ⟨block, written, hplace, hblock, -, -, hmemory, -, rfl, -⟩ := load_eq_ok h
  obtain ⟨-, -, heq, hwritten⟩ := (ArgumentBlock.run_serialize_eq_ok_iff ..).mp hblock
  rw [← heq] at hwritten
  rw [hmemory, hwritten]

section Reading

variable (hload : load image args settings = .ok program) {a : UInt16}
include hload

/-- Neither the block nor the stack pointer change what lies elsewhere. -/
theorem read_of_not_mem (harguments : a.toNat ∉ program.arguments.addresses)
    (hstack : a.toNat ∉ program.stack.addresses) :
    program.memory.read a = (codeMemory image settings.fill).read a := by
  have h := bounds_of_load hload
  have hsize := h.start_add_size
  have htop := settings.argumentTop.toNat_lt
  -- the block ends at the top of the arguments, so beside it is below its start or from there on
  have houtside : a.toNat < program.arguments.start.toNat ∨
      settings.argumentTop.toNat ≤ a.toNat := by
    rw [ArgumentBlock.addresses, Set.mem_Ico, h.stop_eq] at harguments
    omega
  rw [memory_of_load hload, CStack.read_setPointer h.stack_cell_lt _ _ hstack]
  apply Memory.read_writeBytes_of_le
  rw [ArgumentBlock.length_bytes]
  rcases houtside with hlt | hge
  · rw [toNat_sub_of_lt hlt]
    omega
  · rw [toNat_sub_of_le (by omega)]
    omega

theorem read_resetVector (harguments : resetVector.toNat ∉ program.arguments.addresses) :
    program.memory.read resetVector = lowByte image.header.entry := by
  have hstack := (bounds_of_load hload).not_mem_stack (n := resetVector.toNat) (by decide)
  rw [read_of_not_mem hload harguments hstack, codeMemory, Memory.writeWord,
    Memory.read_write_of_ne _ _ (by decide), Memory.read_write_self]

theorem read_resetVector_add_one
    (harguments : (resetVector + 1).toNat ∉ program.arguments.addresses) :
    program.memory.read (resetVector + 1) = highByte image.header.entry := by
  have hstack := (bounds_of_load hload).not_mem_stack (n := (resetVector + 1).toNat) (by decide)
  rw [read_of_not_mem hload harguments hstack, codeMemory, Memory.writeWord,
    Memory.read_write_self]

theorem read_fill (hcode : a.toNat ∉ image.addresses)
    (harguments : a.toNat ∉ program.arguments.addresses)
    (hstack : a.toNat ∉ program.stack.addresses) (hne : a ≠ resetVector)
    (hne' : a ≠ resetVector + 1) : program.memory.read a = settings.fill := by
  have h := bounds_of_load hload
  have hstop := h.stop_le_start
  have hsize := h.start_add_size
  have htop := settings.argumentTop.toNat_lt
  -- counted from the load address, an address below it lies behind the code as well
  have hfar : image.payload.length ≤ (a - image.header.load).toNat := by
    rw [Image.addresses, Set.mem_Ico, Image.stop] at hcode
    rw [Image.stop] at hstop
    rcases Nat.lt_or_ge a.toNat image.header.load.toNat with hlt | hge
    · rw [toNat_sub_of_lt hlt]
      omega
    · rw [toNat_sub_of_le hge]
      omega
  rw [read_of_not_mem hload harguments hstack, codeMemory,
    Memory.read_writeWord_of_ne _ _ hne.symm hne'.symm, Memory.read_writeBytes_of_le _ hfar,
    Memory.read_filled]

theorem holds_code : program.memory.Holds image.header.load image.payload := by
  have h := bounds_of_load hload
  have hfloor := h.floor_le_load
  have hstop := h.stop_le_start
  have hsize := h.start_add_size
  have hfour := four_le_size args
  have htop := settings.argumentTop.toNat_lt
  rw [Image.stop] at hstop
  refine (Memory.holds_writeBytes (Memory.filled settings.fill) image.header.load
    (by omega)).congr (fun c hc => ?_) (by omega)
  -- close behind the load address means in the code
  have hle : image.header.load.toNat ≤ c.toNat := by
    by_contra hlt
    rw [toNat_sub_of_lt (by omega)] at hc
    omega
  rw [toNat_sub_of_le hle] at hc
  have hcode : c.toNat ∈ image.addresses := ⟨hle, by rw [Image.stop]; omega⟩
  have hne : resetVector ≠ c := by
    rintro rfl
    have : resetVector.toNat = 0xFFFC := rfl
    omega
  have hne' : resetVector + 1 ≠ c := by
    rintro rfl
    have : (resetVector + 1).toNat = 0xFFFD := rfl
    omega
  rw [read_of_not_mem hload (Set.disjoint_left.mp h.code_disjoint_arguments hcode)
    (Set.disjoint_left.mp h.code_disjoint_stack hcode), codeMemory,
    Memory.read_writeWord_of_ne _ _ hne hne']

theorem pointer_of_load : program.stack.pointer program.memory = program.arguments.start := by
  rw [memory_of_load hload]
  exact CStack.pointer_setPointer _ _ _

end Reading

/-! ### The memory map -/

/-- How a loaded program lies in memory, and what else is set up. -/
structure MemoryMap (image : Image) (args : List (List UInt8)) (settings : Settings)
    (program : Program) : Prop where
  /-- The block has the size of the arguments and ends at the top given for it. -/
  start_add_size :
    program.arguments.start.toNat + ArgumentBlock.size args = settings.argumentTop.toNat
  stop_eq : program.arguments.stop = settings.argumentTop
  stack_eq : program.stack = ⟨image.header.pointerCell⟩
  code_disjoint_arguments : Disjoint image.addresses program.arguments.addresses
  code_disjoint_stack : Disjoint image.addresses program.stack.addresses
  arguments_disjoint_stack : Disjoint program.arguments.addresses program.stack.addresses
  /-- The code is intact. -/
  readBytes_code :
    program.memory.readBytes image.header.load image.payload.length = image.payload
  /-- The C stack grows downwards from the argument block. -/
  pointer_eq : program.stack.pointer program.memory = program.arguments.start
  inMemory : program.arguments.InMemory program.memory args
  read_resetVector : resetVector.toNat ∉ program.arguments.addresses →
    program.memory.read resetVector = lowByte image.header.entry
  read_resetVector_add_one : (resetVector + 1).toNat ∉ program.arguments.addresses →
    program.memory.read (resetVector + 1) = highByte image.header.entry
  /-- Nothing else was written. -/
  read_fill : ∀ a : UInt16, a.toNat ∉ image.addresses → a.toNat ∉ program.arguments.addresses →
    a.toNat ∉ program.stack.addresses → a ≠ resetVector → a ≠ resetVector + 1 →
      program.memory.read a = settings.fill
  registers_eq : program.cpu.registers =
    { a := 0, x := 0, y := 0
      s := settings.stackTop
      pc := image.header.entry
      p := ⟨Status.interrupt ||| Status.unused⟩ }
  layout_eq : program.layout =
    ⟨image.header.load, image.stop, program.arguments.start, settings.argumentTop⟩
  /-- Every address is in the region it belongs to. -/
  regionOf_eq_iff : ∀ a region,
    program.layout.regionOf a = region ↔ a.toNat ∈ program.layout.addresses region

theorem memoryMap_of_load (hload : load image args settings = .ok program) :
    MemoryMap image args settings program := by
  have h := bounds_of_load hload
  obtain ⟨_, _, -, -, -, hcpu, -⟩ := load_eq_ok hload
  exact {
    start_add_size := h.start_add_size
    stop_eq := h.stop_eq
    stack_eq := h.stack_eq
    code_disjoint_arguments := h.code_disjoint_arguments
    code_disjoint_stack := h.code_disjoint_stack
    arguments_disjoint_stack := h.arguments_disjoint_stack
    readBytes_code := Memory.holds_iff_readBytes.mp (holds_code hload)
    pointer_eq := pointer_of_load hload
    inMemory := inMemory_load hload
    read_resetVector := read_resetVector hload
    read_resetVector_add_one := read_resetVector_add_one hload
    read_fill := fun _ => read_fill hload
    registers_eq := by rw [hcpu]; rfl
    layout_eq := h.layout_eq
    regionOf_eq_iff := h.ordered.regionOf_eq_iff }

/-- **What loading does.** It succeeds if and only if all its checks hold, and otherwise reports the
first one that does not; and a program that was loaded is laid out in memory as it should be. -/
theorem load_specification (image : Image) (args : List (List UInt8)) (settings : Settings) :
    ((∃ program, load image args settings = .ok program) ↔
        ∀ c ∈ checks image args settings, c.holds) ∧
      (∀ e, load image args settings = .error e ↔
        Check.FirstFailing e (checks image args settings)) ∧
      ∀ program, load image args settings = .ok program →
        MemoryMap image args settings program :=
  ⟨(decides_load image args settings).ok_iff, (decides_load image args settings).error_iff,
    fun _ => memoryMap_of_load⟩

/-- A program of one instruction, with two routines on one address. -/
def clash : Image :=
  { Image.raw [0xEA] 0x200 0x200 .nmos with
    symbols := ⟨[("_putchar", 0x300), ("_puts", 0x300)]⟩ }

/-- Without its labels the program is loaded, below a block that covers the reset vector; with them
it is refused. -/
theorem load_specification_clash :
    (∃ program,
      load clash [[112]] { Settings.default with argumentTop := 0xFFFF, library := false } =
        .ok program ∧
      program.arguments.start = 0xFFF7 ∧
      MemoryMap clash [[112]] { Settings.default with argumentTop := 0xFFFF, library := false }
        program) ∧
    load clash [] Settings.default = .error (.routineConflict 0x300 .putchar .puts) ∧
    Check.FirstFailing (.routineConflict 0x300 .putchar .puts)
      (checks clash [] Settings.default) := by
  obtain ⟨program, hload, hstart⟩ : ∃ program,
      load clash [[112]] { Settings.default with argumentTop := 0xFFFF, library := false } =
        .ok program ∧ program.arguments.start = 0xFFF7 := ⟨_, rfl, by decide +kernel⟩
  have hclash : load clash [] Settings.default =
      .error (.routineConflict 0x300 .putchar .puts) := rfl
  exact ⟨⟨program, hload, hstart, (load_specification _ _ _).2.2 program hload⟩, hclash,
    ((load_specification _ _ _).2.1 _).mp hclash⟩

end Program

end Bench65
