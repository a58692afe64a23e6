import VideoCore.Handle
import VideoCore.Hardware
import VideoCore.Query
import VideoCore.Emulator.SlotTable

/-!
# The emulator

Stands in for the hardware, for tests and for machines without the GPU. Buffers live in a table
of slots; kernels are handed to a model of the QPUs if one is attached, and fail otherwise. The
emulator never looks at instructions itself.
-/

namespace VideoCore

/-- The state of the emulator. -/
structure Emulator where
  slots : Emulator.SlotTable := .empty
  /-- A model of the QPUs is attached. -/
  hasModel : Bool := false

namespace Emulator

open Hardware

/-! ## Answers to queries -/

def qpuClockHz : UInt32 := 250000000

def armClockHz : UInt32 := 1000000000

/-- The emulated machine answers every query, always in the same way. -/
def readValue : SystemQuery → UInt32
  | .currentQpuClockRateHz | .maximumQpuClockRateHz => qpuClockHz
  | .currentArmClockRateHz | .maximumArmClockRateHz => armClockHz
  | .qpuTemperatureMilliDegrees => 25000
  | .totalArmMemoryBytes | .totalGpuMemoryBytes => 0x40000000
  | .totalVpmMemoryBytes => 12 * 1024
  | .numQpus => 12

/-! ## Buffers -/

/-- The number of live buffers. -/
def liveBuffers (e : Emulator) : Nat := e.slots.live.length

def isAllocated (e : Emulator) (handle : UInt32) : Bool := e.slots.isLive handle

/-- The buffer that a slot holds. -/
def bufferAt (index : Nat) (size : UInt32) : Buffer :=
  { owner := .emulator, handle := SlotTable.handleOf index, address := slotAddress index,
    host := .slot index, size }

/-- Allocates a buffer; nothing is returned if it does not fit or no slot is free. A size whose
rounding overflows ends the call before the table is looked at. -/
def allocate (e : Emulator) (r : AllocationRequest) : Except Fault (Option Buffer × Emulator) := do
  r.check
  if fits : r.size.toNat ≤ largestSize then
    match e.slots.allocate? r.size fits with
    | none => return (none, e)
    | some (index, slots) => return (some (bufferAt index r.size), { e with slots })
  else throw .overflow

/-- What is handed out for a size whose rounding overflows if arithmetic goes unchecked: a buffer in
the lowest free slot, over as many bytes as are left of the rounded size. The buffer is larger than
the memory behind it, so nothing can be said of what becomes of it. -/
def unchecked? (e : Emulator) (r : AllocationRequest) : Option Buffer :=
  if window < (roundedWord r.size).toNat then none
  else e.slots.firstFree?.map fun index => bufferAt index r.size

/-- Takes a buffer back. The answer is whether the handle was known. -/
def deallocate (e : Emulator) (handle : UInt32) : Access (Bool × Emulator) := do
  match e.slots.release? handle with
  | some slots => return (true, { e with slots })
  | none =>
    report (.unknownHandle handle)
    return (false, e)

/-! ## Execution -/

/-- QPU cycles for each millisecond of a timeout. -/
def cyclesPerMillisecond : UInt64 := (qpuClockHz / 1000).toUInt64

/-- The longest timeout, in milliseconds, whose cycles fit 64 bits. -/
def longestTimeoutMs : UInt64 := 0xFFFFFFFFFFFFFFFF / cyclesPerMillisecond

/-- The cycles that a kernel may take. A timeout is cut before it becomes a word of 64 bits, and the
product of words is one again. -/
def cycleBudget (timeout : Duration) : Nat :=
  (UInt64.ofNat (min timeout.milliseconds longestTimeoutMs.toNat) * cyclesPerMillisecond).toNat

/-- The control pairs in a row of words. -/
def pairs : List UInt32 → List ControlPair
  | uniforms :: program :: rest => ⟨uniforms, program⟩ :: pairs rest
  | _ => []

/-- The difference of two words, and nothing if the second is the larger. -/
def saturatingSub (a b : UInt32) : UInt32 := if b ≤ a then a - b else 0

/-- What a model of the QPUs is given for the control pairs that were found in memory. -/
def emulationOf (memory : List Region) (control : List ControlPair) (timeout : Duration) :
    Emulation :=
  let uniforms := control.map fun pair => (BusAddress.mk pair.uniforms).unaliased
  let entry := (BusAddress.mk (control.head?.elim 0 (·.program))).unaliased
  let first := uniforms.head?.elim 0 (·.value)
  { memory
    entry
    instructions := saturatingSub first entry.value / 8
    uniforms
    maxCycles := cycleBudget timeout }

/-- Executes a dispatch. The control pairs are read from emulated memory; if they do not lie in
one live buffer, the dispatch fails. A model that crashes leaves a handle that never settles. -/
def execute {κ : Type} (e : Emulator) (d : Dispatch) : Attempt (Handle κ × Emulator) := do
  d.check
  match e.slots.words? d.controlAddress (2 * d.control.length) with
  | none => return (.settled false, e)
  | some words =>
    if !e.hasModel then return (.settled false, e)
    let emulated ← emulate (emulationOf e.slots.regions (pairs words) d.timeout)
    let e := { e with slots := e.slots.absorb emulated.memory }
    match emulated.outcome with
    | .passed => return (.settled true, e)
    | .failed => return (.settled false, e)
    | .crashed => return (.abandoned, e)

/-- Reports every buffer that was never released, and gives the emulator up. -/
def stop (e : Emulator) : Access Unit := do
  e.slots.live.forM fun (index, slot) =>
    report (.neverReleased (index + 1) slot.size (slotAddress index))
  retire .emulator

theorem toNat_saturatingSub (a b : UInt32) : (saturatingSub a b).toNat = a.toNat - b.toNat := by
  unfold saturatingSub
  split
  · next hle => exact UInt32.toNat_sub_of_le a b hle
  · next hlt =>
    have hbelow : ¬ b.toNat ≤ a.toNat := mt UInt32.le_iff_toNat_le.mpr hlt
    rw [UInt32.toNat_zero]
    omega

/-- The budget fits 64 bits. -/
theorem cycleBudget_lt (timeout : Duration) : cycleBudget timeout < UInt64.size :=
  UInt64.toNat_lt _

end Emulator

end VideoCore
