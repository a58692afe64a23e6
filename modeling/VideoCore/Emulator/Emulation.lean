import VideoCore.Bus
import VideoCore.Memory.Block
import VideoCore.Emulator.Layout

/-!
# Emulations

What an instruction-level model of the QPUs is given to run one dispatch, and what it leaves
behind: every live buffer under its bus address, where the kernel and the uniforms are, and how
many cycles it may take. The model works on the memory that it is given and gives it back.
-/

namespace VideoCore.Emulator

/-- One live buffer as the emulated QPUs see it. -/
structure Region where
  address : BusAddress
  block : Block

/-- Everything a model of the QPUs needs to run one dispatch. -/
structure Emulation where
  /-- Every live buffer, in ascending order of address. -/
  memory : List Region
  entry : BusAddress
  /-- The length of the kernel; its uniforms are laid out directly behind it. -/
  instructions : UInt32
  /-- One stream of uniforms for every QPU. -/
  uniforms : List BusAddress
  maxCycles : Nat

/-- How an emulation came out. -/
inductive Outcome where
  | passed
  | failed
  /-- The model itself gave up without an answer. -/
  | crashed
  deriving DecidableEq, Repr

/-- What a model of the QPUs leaves behind. -/
structure Emulated where
  outcome : Outcome
  memory : List Region

/-- The region that holds an address, and the distance of the address from its start. -/
def resolve (memory : List Region) (address : BusAddress) : Option (Region × Nat) :=
  let (index, offset) := locate address
  match memory.find? fun region => region.address == slotAddress index with
  | some region => if offset < region.block.size then some (region, offset) else none
  | none => none

/-- The memory with the contents of one region replaced. -/
def replaceRegion (memory : List Region) (address : BusAddress) (block : Block) : List Region :=
  memory.map fun region => if region.address = address then { region with block } else region

end VideoCore.Emulator
