import VideoCore.Handle
import VideoCore.Hardware
import VideoCore.Query
import VideoCore.V3d.Layout

/-!
# Direct access to the V3D block

Every operation is a handful of register accesses. A kernel is dispatched by writing an address
pair for every program into the user program queue, and then polling the count of completed
programs until it matches or the time is up.
-/

namespace VideoCore

/-- The state of the register backend. -/
structure V3d where
  /-- How long to sleep between two polls of the completion count; zero spins. -/
  pollInterval : Duration := .zero
  deriving DecidableEq, Repr

namespace V3d

open Hardware

/-- The longest poll interval: what fits 64 bits in nanoseconds. -/
def maxPollInterval : Duration := ⟨UInt64.size - 1⟩

/-- Sets the poll interval; a longer one than can be kept is cut. -/
def setPollInterval (v3d : V3d) (interval : Duration) : V3d :=
  { v3d with pollInterval := interval.shorter maxPollInterval }

/-- Replaces the bits of a register that a mask selects. -/
def writeMasked (offset mask value : UInt32) : Access Unit := do
  let old ← readRegister offset
  writeRegister offset ((old &&& ~~~mask) ||| (value &&& mask))

/-! ## Identification and status -/

/-- The version of the technology. -/
def technologyVersion : Access UInt32 := do
  return (← readRegister Reg.ident0) >>> 24

/-- One value of the identification and status registers. -/
def info (i : Info) : Access UInt32 := do
  return i.decode (← readRegister i.register)

/-- Answers a system query; nothing is known of a block without power. -/
def readValue (q : SystemQuery) : Access (Option UInt32) := do
  if (← readRegister Reg.ident1) = gatedValue then return none
  match q with
  | .numQpus => return some (← info .qpuCount)
  | .totalVpmMemoryBytes => return some (← info .vpmMemorySize)
  | _ => return none

/-! ## Performance counters -/

/-- There are sixteen performance counters. -/
def checkCounter (index : UInt8) : Except Fault Unit :=
  if index < counterCount then .ok ()
  else .error (.counterIndexOutOfRange index (counterCount - 1))

/-- The bit of a counter in the enabling and clearing registers. -/
def counterBit (index : UInt8) : UInt32 := 1 <<< index.toUInt32

/-- Makes a counter count an event, from zero. -/
def setCounter (index : UInt8) (event : CounterEvent) : Attempt Unit := do
  checkCounter index
  let enabled ← readRegister Reg.pctre
  writeRegister Reg.pctre (enabled ||| countersEnabled ||| counterBit index)
  writeRegister (Reg.counterEvent index) (event.code &&& eventMask)
  writeRegister (Reg.counterValue index) 0

def resetCounter (index : UInt8) : Attempt Unit := do
  checkCounter index
  writeRegister Reg.pctrc (counterBit index)

def getCounter (index : UInt8) : Attempt UInt32 := do
  checkCounter index
  let value ← readRegister (Reg.counterValue index)
  if value = gatedValue then throw (.counterPowerGated index)
  return value

/-- Stops a counter. Counting as a whole stays on for the others. -/
def disableCounter (index : UInt8) : Attempt Unit := do
  checkCounter index
  writeMasked Reg.pctre (counterBit index) 0

/-! ## Reservations -/

/-- The register and the shift at which the reservation of a QPU stands. -/
def reservationPlace (qpu : UInt8) : Except Fault (UInt32 × UInt32) :=
  if qpu < reservationCount then
    let register := if qpu < reservationsPerRegister then Reg.sqrsv0 else Reg.sqrsv1
    .ok (register, (qpu % reservationsPerRegister).toUInt32 * 4)
  else .error (.qpuIndexOutOfRange qpu (reservationCount - 1))

/-- Reserves a QPU against the kinds of programs given as bits. -/
def setReservation (qpu : UInt8) (bits : UInt32) : Attempt Unit := do
  let (register, shift) ← reservationPlace qpu
  writeMasked register (reservationMask <<< shift) ((bits &&& reservationMask) <<< shift)

/-- The kinds of programs that a QPU is reserved against, as bits. -/
def reservation (qpu : UInt8) : Attempt UInt32 := do
  let (register, shift) ← reservationPlace qpu
  return ((← readRegister register) >>> shift) &&& reservationMask

/-! ## Errors -/

/-- Whether one of some error flags is latched; the ones that are, are cleared. -/
def hasError (flags : UInt32) : Access Bool := do
  let latched := (← readRegister Reg.errstat) &&& flags
  if latched ≠ 0 then writeRegister Reg.errstat latched
  return latched ≠ 0

/-- The known error flags that are latched; they are cleared. -/
def takeErrors : Access UInt32 := do
  let latched := (← readRegister Reg.errstat) &&& knownErrors
  if latched ≠ 0 then writeRegister Reg.errstat latched
  return latched

/-! ## Execution -/

/-- Clears the caches that a kernel's code, uniforms and textures may stand in. -/
def flushCaches : Access Unit := do
  writeRegister Reg.l2cactl l2Clear
  writeRegister Reg.slcactl slicesClear

/-- Clears the queue's error and counts, and queues one program for every pair. -/
def enqueue (control : List ControlPair) : Access Unit := do
  writeRegister Reg.srqcs (queueError ||| clearRequested ||| clearCompleted)
  control.forM fun pair => do
    writeRegister Reg.srqua pair.uniforms
    writeRegister Reg.srqpc pair.program

/-- One turn of the wait for completion: passes if the count matches, fails if the time is up,
and otherwise sleeps no longer than what is left. -/
def poll (expected : UInt32) (start : Instant) (timeout interval : Duration) :
    Access (Unit ⊕ Bool) := do
  if (← info .userProgramsCompleted) = expected then return .inr true
  if timeout ≤ (← readClock).since start then return .inr false
  if interval ≠ .zero then
    let elapsed := (← readClock).since start
    sleep (interval.shorter (timeout.minus elapsed))
  return .inl ()

/-- Dispatches one program for every pair and polls until all of them have completed or the
timeout, counted from the dispatch, is over. -/
def run (v3d : V3d) (control : List ControlPair) (flushCache : Bool) (timeout : Duration) :
    Access Bool := do
  let start ← readClock
  if flushCache then flushCaches
  enqueue control
  let expected := UInt32.ofNat control.length &&& countMask
  Dialog.iterate (fun () => poll expected start timeout v3d.pollInterval) ()

/-- Executes a dispatch. The handle is settled. -/
def execute {κ : Type} (v3d : V3d) (d : Dispatch) : Attempt (Handle κ) := do
  d.check
  return .settled (← v3d.run d.control d.flushCache d.timeout)

end V3d

end VideoCore
