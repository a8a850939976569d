import Bench65.ArgumentBlock
import Bench65.Call.CStack
import Bench65.Cpu
import Bench65.Image
import Bench65.Registry
import Bench65.Settings

/-!
# Loading

Turning a program image and its arguments into a machine ready to run. The checks come in a fixed
order and the first one that fails is reported. Then memory is filled, the code copied, the reset
vector pointed at the entry, the argument block written below its top, and the C stack pointer set
to the bottom of that block, from where the stack grows downwards.
-/

namespace Bench65

/-- A loaded program that has not started. -/
structure Program where
  /-- The processor. -/
  cpu : Cpu
  /-- The memory. -/
  memory : Memory
  /-- Where the parts of the program lie. -/
  layout : Layout
  /-- The routines answered. -/
  registry : Registry
  /-- The arguments. -/
  arguments : ArgumentBlock
  /-- The C stack. -/
  stack : CStack

namespace Program

/-- Where the processor would find its entry address at power-on. -/
def resetVector : UInt16 := 0xFFFC

/-- Checks where an image wants to go: it has code, its C stack pointer fits in the zero page, the
code lies between the stack page and the top of the arguments, and the entry lies in the code. -/
def checkPlacement (image : Image) (argumentTop : UInt16) : Except LoadError Unit := do
  let h := image.header
  if image.payload.isEmpty then throw .emptyPayload
  if h.pointerCell = 0xFF then throw (.badStackPointer h.pointerCell)
  if h.load < Layout.programFloor ∨ argumentTop.toNat < image.stop then
    throw (.imageOutOfBounds h.load image.payload.length Layout.programFloor argumentTop.toNat)
  if h.entry < h.load ∨ image.stop ≤ h.entry.toNat then
    throw (.entryOutOfBounds h.entry h.load image.stop)

/-- What a computation returns and the state it leaves. A load that fails drops what it has built
so far. -/
def outcome {σ α : Type} (x : EStateM LoadError σ α) (s : σ) : Except LoadError (α × σ) :=
  match x.run s with
  | .ok a s' => .ok (a, s')
  | .error e _ => .error e

/-- Registers the library routines among some labels. -/
def registerSymbols : List (String × UInt16) → EStateM LoadError Registry Unit
  | [] => pure ()
  | (name, a) :: rest => do
    if let some routine := Routine.ofSymbol? name then Registry.register a routine
    registerSymbols rest

/-- The routines answered in a run: the host hooks and the library routines that have labels, as
far as the settings ask for them. -/
def buildRegistry (symbols : Symbols) (settings : Settings) : Except LoadError Registry :=
  let hooks := if settings.hooks then Registry.ofHooks else Registry.empty
  let library := if settings.library then registerSymbols symbols.entries else pure ()
  (outcome library hooks).map (·.2)

/-- Stores the code, the reset vector and the argument block, which may use all memory between the
code and its top. -/
def place (image : Image) (args : List (List UInt8)) (argumentTop : UInt16) :
    EStateM LoadError Memory ArgumentBlock := do
  Memory.load image.header.load image.payload
  modify (·.writeWord resetVector image.header.entry)
  ArgumentBlock.serialize args argumentTop image.stop

/-- Loads a program with its arguments, its name first. -/
def load (image : Image) (args : List (List UInt8)) (settings : Settings) :
    Except LoadError Program := do
  checkPlacement image settings.argumentTop
  let header := image.header
  let (block, memory) ←
    outcome (place image args settings.argumentTop) (Memory.filled settings.fill)
  let stack : CStack := ⟨header.pointerCell⟩
  let registry ← buildRegistry image.symbols settings
  let registers := Registers.initial header.entry settings.stackTop
  pure {
    cpu := Cpu.start (settings.variant.getD header.variant) registers settings.stepBudget
      settings.tracing
    memory := stack.setPointer memory block.start
    layout := ⟨header.load, image.stop, block.start, settings.argumentTop⟩
    registry
    arguments := block
    stack }

end Program

end Bench65
