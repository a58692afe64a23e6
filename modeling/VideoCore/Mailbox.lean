import VideoCore.Handle
import VideoCore.Hardware
import VideoCore.Query
import VideoCore.Firmware.MemoryFlags

/-!
# The mailbox backend

Everything here is a round trip of one property message to the firmware. A call that the
operating system fails is a fault; a message that the firmware answers negatively is an ordinary
answer: `false`, 0, a null address or nothing.

The firmware powers the QPUs for as long as somebody wants it to, so the backend switches them on
when it starts and off when it stops.
-/

namespace VideoCore.Mailbox

open Firmware Hardware

/-! ## Round trips -/

/-- Sends a message and gives it back with the reply in it. -/
def call (message : Message) : Attempt Message := do
  match ← property message with
  | .ok reply => return message.withReply reply
  | .error cause => throw (.transport message.tagId cause)

/-- Sends a request. The response is given only if the firmware accepted the request. -/
def request (tag : Tag) (words : List UInt32) (responseWords : Nat) : Attempt (Option Message) := do
  let reply ← call (.ofRequest tag words responseWords)
  return if reply.status.isSuccess then some reply else none

/-- Sends a request and picks one word of the response. -/
def requestWord (tag : Tag) (words : List UInt32) (responseWords index : Nat) :
    Attempt (Option UInt32) := do
  return (← request tag words responseWords).map (·.content index)

/-- Sends a request and picks the first two words of the response. -/
def requestPair (tag : Tag) (words : List UInt32) : Attempt (Option (UInt32 × UInt32)) := do
  return (← request tag words 2).map fun reply => (reply.content 0, reply.content 1)

/-! ## Power -/

/-- Switches the QPUs on or off. The firmware counts how often, so that they were on already
counts as success. -/
def enableQpus (on : Bool) : Attempt Bool := do
  let answer ← requestWord .enableQpu [if on then 1 else 0] 1 0
  return answer == some 0 || answer == some responseSuccess

/-- Switches the QPUs off and gives up the device. -/
def stop : Access Unit := do
  match ← (enableQpus false).run with
  | .ok true => pure ()
  | .ok false => report .disableRefused
  | .error fault => report (.disableFailed fault)
  retire .mailbox

/-- Switches the QPUs on. If they cannot be, the backend stops at once. -/
def start : Attempt Unit := do
  match ← outcome (enableQpus true) with
  | .ok true => return ()
  | .ok false => stop; throw (.firmware "enable QPUs" (-1))
  | .error fault => stop; throw fault

/-! ## Memory and code -/

/-- Allocates GPU memory. The answer is the firmware's handle, or 0. -/
def allocateMemory (size alignment : UInt32) (flags : MemoryFlags) : Attempt UInt32 := do
  return (← requestWord .allocateMemory [size, alignment, flags.bits] 1 0).getD 0

/-- Locks an allocation in place. The answer is its bus address, or null. -/
def lockMemory (handle : UInt32) : Attempt BusAddress := do
  return ⟨(← requestWord .lockMemory [handle] 1 0).getD 0⟩

def unlockMemory (handle : UInt32) : Attempt Bool := do
  return (← requestWord .unlockMemory [handle] 1 0) == some 0

def releaseMemory (handle : UInt32) : Attempt Bool := do
  return (← requestWord .releaseMemory [handle] 1 0) == some 0

/-- Runs code on the vector processor, with six registers set. The answer is what the first of
them holds at the end. -/
def executeCode (code : BusAddress) (registers : Vector UInt32 6) : Attempt (Option UInt32) :=
  requestWord .executeCode (code.value :: registers.toList) 1 0

/-! ## Questions -/

def firmwareRevision : Attempt (Option UInt32) := requestWord .firmwareRevision [] 1 0

def boardModel : Attempt (Option UInt32) := requestWord .boardModel [] 1 0

def boardRevision : Attempt (Option UInt32) := requestWord .boardRevision [] 1 0

/-- The serial number, of 64 bits. -/
def boardSerial : Attempt (Option Nat) := do
  return (← requestPair .boardSerial []).map fun (low, high) => low.toNat + UInt32.size * high.toNat

/-- The six bytes of the network address. -/
def macAddress : Attempt (Option (List UInt8)) := do
  return (← requestPair .macAddress []).map fun (low, high) =>
    (Word.toBytes low ++ Word.toBytes high).take 6

/-- The memory of the ARM, as base and size. -/
def armMemory : Attempt (Option (UInt32 × UInt32)) := requestPair .armMemory []

/-- The memory of the VideoCore, as base and size. -/
def vcMemory : Attempt (Option (UInt32 × UInt32)) := requestPair .vcMemory []

/-- The configured rate of a clock, in Hz. -/
def clockRate (clock : Clock) : Attempt (Option UInt32) := requestWord .getClockRate [clock.id] 2 1

/-- The rate of a clock as the firmware measures it, in Hz. -/
def measuredClockRate (clock : Clock) : Attempt (Option UInt32) :=
  requestWord .getClockRateMeasured [clock.id] 2 1

def maxClockRate (clock : Clock) : Attempt (Option UInt32) :=
  requestWord .getMaxClockRate [clock.id] 2 1

def minClockRate (clock : Clock) : Attempt (Option UInt32) :=
  requestWord .getMinClockRate [clock.id] 2 1

/-- The temperature, in thousandths of a degree. -/
def temperature : Attempt (Option UInt32) := requestWord .getTemperature [0] 2 1

def maxTemperature : Attempt (Option UInt32) := requestWord .getMaxTemperature [0] 2 1

/-- The voltage of a domain, as a distance from 1.2 V in microvolts. -/
def voltage (domain : UInt32) : Attempt (Option UInt32) := requestWord .getVoltage [domain] 2 1

/-- Whether the clocks are throttled or the voltage is low, as the firmware's bits. -/
def throttled : Attempt (Option UInt32) := requestWord .getThrottled [0xFFFF] 1 0

/-- The firmware's answer to a system query. -/
def query : SystemQuery → Attempt (Option UInt32)
  | .currentQpuClockRateHz => clockRate .v3d
  | .maximumQpuClockRateHz => maxClockRate .v3d
  | .currentArmClockRateHz => clockRate .arm
  | .maximumArmClockRateHz => maxClockRate .arm
  | .qpuTemperatureMilliDegrees => temperature
  | .totalArmMemoryBytes => do return (← armMemory).map (·.2)
  | .totalGpuMemoryBytes => do return (← vcMemory).map (·.2)
  | .totalVpmMemoryBytes | .numQpus => return none

/-- Answers a system query; a fault counts as no answer. -/
def readValue (q : SystemQuery) : Access (Option UInt32) := do
  match ← (query q).run with
  | .ok answer => return answer
  | .error _ => return none

/-! ## Buffers -/

/-- Allocates, locks and maps a buffer. Nothing is returned if the firmware refuses. -/
def allocate (r : AllocationRequest) : Attempt (Option Buffer) := do
  r.check
  -- the host maps whole pages
  let alignment := max r.alignment BusAddress.pageAlignment
  let handle ← allocateMemory r.size alignment (.ofCachePolicy r.cache)
  if handle = 0 then return none
  let address ← lockMemory handle
  if address.isNull then
    discard (releaseMemory handle)
    return none
  match ← outcome (mapPhysical address.physical r.size.toNat) with
  | .ok base => return some { owner := .mailbox, handle, address, host := .mapped base, size := r.size }
  | .error fault =>
    discard (unlockMemory handle)
    discard (releaseMemory handle)
    throw fault

/-- Takes an allocation back. The answer is whether the firmware unlocked and released it. -/
def deallocate (handle : UInt32) : Attempt Bool := do
  let unlocked ← unlockMemory handle
  let released ← releaseMemory handle
  return unlocked && released

/-! ## Execution -/

/-- Has the firmware execute a dispatch. The handle is settled; a timeout that does not fit the
message fails without a call. -/
def execute {κ : Type} (d : Dispatch) : Attempt (Handle κ) := do
  d.check
  match d.timeoutMs? with
  | none => return .settled false
  | some timeout =>
    let noFlush := if d.flushCache then 0 else 1
    let answer ← requestWord .executeQpu [d.programs, d.controlAddress.value, noFlush, timeout] 1 0
    return .settled (answer == some 0)

end VideoCore.Mailbox
