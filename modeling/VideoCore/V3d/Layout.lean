/-!
# The V3D registers

Where the registers of the V3D block lie, in bytes from the start of the block, and what their
bits mean, after the architecture reference guide of the VideoCore IV.
-/

namespace VideoCore.V3d

/-! ## The block -/

/-- Distance of the block from the start of the peripherals. -/
def blockOffset : UInt32 := 0x00C00000

/-- Bytes to map: everything up to the error status, and some slack. -/
def blockLength : Nat := (0xF20 / 4 + 16) * 4

/-- What every register reads as while the block has no power. -/
def gatedValue : UInt32 := 0xDEADBEEF

namespace Reg

/-! ## Offsets -/

def ident0 : UInt32 := 0x000
def ident1 : UInt32 := 0x004
/-- Control of the second level cache. -/
def l2cactl : UInt32 := 0x020
/-- Control of the slices' caches. -/
def slcactl : UInt32 := 0x024
/-- Reservations of QPUs 0 to 7. -/
def sqrsv0 : UInt32 := 0x410
/-- Reservations of QPUs 8 to 15. -/
def sqrsv1 : UInt32 := 0x414
/-- Program address of a user program; writing it queues the program. -/
def srqpc : UInt32 := 0x430
/-- Uniforms address of the next user program. -/
def srqua : UInt32 := 0x434
/-- Control and status of the user program queue. -/
def srqcs : UInt32 := 0x43C
/-- Vertex pipe memory reserved for user programs. -/
def vpmbase : UInt32 := 0x504
/-- Clears performance counters. -/
def pctrc : UInt32 := 0x670
/-- Enables performance counters. -/
def pctre : UInt32 := 0x674
/-- Value of the first performance counter. -/
def pctr0 : UInt32 := 0x680
/-- Event of the first performance counter. -/
def pctrs0 : UInt32 := 0x684
/-- Latched error flags. -/
def errstat : UInt32 := 0xF20

/-- Where the value of a performance counter is read. -/
def counterValue (index : UInt8) : UInt32 := pctr0 + index.toUInt32 * 8

/-- Where the event of a performance counter is chosen. -/
def counterEvent (index : UInt8) : UInt32 := pctrs0 + index.toUInt32 * 8

end Reg

/-! ## Bits -/

/-- The letters V, 3 and D, which the first identification register ends with. -/
def identLetters : UInt32 := 0x00443356

/-- Clears the second level cache. -/
def l2Clear : UInt32 := 4

/-- Clears the instruction, uniform and texture caches of every slice. -/
def slicesClear : UInt32 := 0xFFFFFFFF

/-- Queue error; writing 1 clears it. -/
def queueError : UInt32 := 0x80

/-- Writing this bit clears the count of requested programs. -/
def clearRequested : UInt32 := 0x100

/-- Writing this bit clears the count of completed programs. -/
def clearCompleted : UInt32 := 0x10000

/-- Where the count of requested programs starts. -/
def requestedShift : UInt32 := 8

/-- Where the count of completed programs starts. -/
def completedShift : UInt32 := 16

/-- The counts of programs are eight bits wide. -/
def countMask : UInt32 := 0xFF

/-- Turns the performance counters on as a whole. -/
def countersEnabled : UInt32 := 0x80000000

/-- The bits of a counter's event register that count. -/
def eventMask : UInt32 := 0x1F

/-- How many performance counters there are. -/
def counterCount : UInt8 := 16

/-- How many QPUs the reservation registers have room for. -/
def reservationCount : UInt8 := 16

/-- How many QPUs share a reservation register. -/
def reservationsPerRegister : UInt8 := 8

/-- The bits that one QPU has in its reservation register. -/
def reservationMask : UInt32 := 0xF

/-! ## Events, reservations and errors -/

/-- What a performance counter can count. -/
inductive CounterEvent where
  | idleCycles
  | vertexShadingCycles
  | fragmentShadingCycles
  | executionCycles
  | tmuStallCycles
  | scoreboardStallCycles
  | varyingsStallCycles
  | instructionCacheHits
  | instructionCacheMisses
  | uniformCacheHits
  | uniformCacheMisses
  | tmuTotalWords
  | tmuCacheMisses
  | vdwStallCycles
  | vcdStallCycles
  | l2CacheHits
  | l2CacheMisses
  deriving DecidableEq, Repr

namespace CounterEvent

def all : List CounterEvent :=
  [idleCycles, vertexShadingCycles, fragmentShadingCycles, executionCycles, tmuStallCycles,
   scoreboardStallCycles, varyingsStallCycles, instructionCacheHits, instructionCacheMisses,
   uniformCacheHits, uniformCacheMisses, tmuTotalWords, tmuCacheMisses, vdwStallCycles,
   vcdStallCycles, l2CacheHits, l2CacheMisses]

/-- The number of an event in a counter's event register. -/
def code : CounterEvent → UInt32
  | idleCycles => 13
  | vertexShadingCycles => 14
  | fragmentShadingCycles => 15
  | executionCycles => 16
  | tmuStallCycles => 17
  | scoreboardStallCycles => 18
  | varyingsStallCycles => 19
  | instructionCacheHits => 20
  | instructionCacheMisses => 21
  | uniformCacheHits => 22
  | uniformCacheMisses => 23
  | tmuTotalWords => 24
  | tmuCacheMisses => 25
  | vdwStallCycles => 26
  | vcdStallCycles => 27
  | l2CacheHits => 28
  | l2CacheMisses => 29

def name : CounterEvent → String
  | idleCycles => "IdleCycles"
  | vertexShadingCycles => "VertexShadingCycles"
  | fragmentShadingCycles => "FragmentShadingCycles"
  | executionCycles => "ExecutionCycles"
  | tmuStallCycles => "TmuStallCycles"
  | scoreboardStallCycles => "ScoreboardStallCycles"
  | varyingsStallCycles => "VaryingsStallCycles"
  | instructionCacheHits => "InstructionCacheHits"
  | instructionCacheMisses => "InstructionCacheMisses"
  | uniformCacheHits => "UniformCacheHits"
  | uniformCacheMisses => "UniformCacheMisses"
  | tmuTotalWords => "TmuTotalWords"
  | tmuCacheMisses => "TmuCacheMisses"
  | vdwStallCycles => "VdwStallCycles"
  | vcdStallCycles => "VcdStallCycles"
  | l2CacheHits => "L2CacheHits"
  | l2CacheMisses => "L2CacheMisses"

theorem mem_all (e : CounterEvent) : e ∈ all := by cases e <;> decide

/-- Every event fits the event register. -/
theorem code_masked (e : CounterEvent) : e.code &&& eventMask = e.code := by cases e <;> decide

end CounterEvent

/-- The kinds of programs that a QPU can be reserved against, as bits. -/
def reservations : List (String × UInt32) :=
  [("ALLOW_ALL", 0), ("NO_USER_PROGRAMS", 1), ("NO_FRAGMENT_SHADERS", 2),
   ("NO_VERTEX_SHADERS", 4), ("NO_COORDINATE_SHADERS", 8)]

/-- The error flags that the block can latch, as bits. -/
def errorFlags : List (String × UInt32) :=
  [("VPM_ALLOC_WHILE_BUSY", 0x1), ("VPM_REQUEST_TOO_BIG", 0x2), ("VPM_WRITE_RANGE", 0x10),
   ("VPM_READ_RANGE", 0x20), ("VPM_READ_NONALLOC", 0x40), ("VPM_WRITE_NONALLOC", 0x80),
   ("VPM_FREE_NONALLOC", 0x100), ("VPM_SIZE_ERROR", 0x200), ("VDW_OVERFLOW", 0x400),
   ("VCD_OUT_OF_SYNC", 0x800), ("VCD_IDLE", 0x1000), ("L2_CACHE_ALIAS_ERROR", 0x8000)]

/-- All known error flags together. -/
def knownErrors : UInt32 :=
  errorFlags.foldl (fun mask flag => mask ||| flag.2) 0

/-- What the identification and status registers tell. -/
inductive Info where
  | vpmMemorySize
  | vpmUserMemorySize
  | semaphoreCount
  | tmuPerSlice
  | qpuPerSlice
  | sliceCount
  | qpuCount
  | hdrSupport
  | v3dRevision
  | userProgramsCompleted
  | userProgramsRequested
  | userProgramQueueFull
  | userProgramQueueLength
  deriving DecidableEq, Repr

namespace Info

def all : List Info :=
  [vpmMemorySize, vpmUserMemorySize, semaphoreCount, tmuPerSlice, qpuPerSlice, sliceCount,
   qpuCount, hdrSupport, v3dRevision, userProgramsCompleted, userProgramsRequested,
   userProgramQueueFull, userProgramQueueLength]

def name : Info → String
  | vpmMemorySize => "VpmMemorySize"
  | vpmUserMemorySize => "VpmUserMemorySize"
  | semaphoreCount => "SemaphoreCount"
  | tmuPerSlice => "TmuPerSlice"
  | qpuPerSlice => "QpuPerSlice"
  | sliceCount => "SliceCount"
  | qpuCount => "QpuCount"
  | hdrSupport => "HdrSupport"
  | v3dRevision => "V3dRevision"
  | userProgramsCompleted => "UserProgramsCompleted"
  | userProgramsRequested => "UserProgramsRequested"
  | userProgramQueueFull => "UserProgramQueueFull"
  | userProgramQueueLength => "UserProgramQueueLength"

/-- The register that tells a value. -/
def register : Info → UInt32
  | vpmUserMemorySize => Reg.vpmbase
  | userProgramsCompleted | userProgramsRequested | userProgramQueueFull
  | userProgramQueueLength => Reg.srqcs
  | _ => Reg.ident1

/-- The number of QPUs to assume when the identification gives no plausible one. -/
def fallbackQpuCount : UInt32 := 12

/-- The number of semaphores when the identification leaves the field empty. -/
def fallbackSemaphoreCount : UInt32 := 16

/-- The value as it stands in the contents of its register. -/
def decode (info : Info) (contents : UInt32) : UInt32 :=
  match info with
  | vpmMemorySize =>
    -- a size of 0 means 16 KiB
    let kib := contents >>> 28
    if kib = 0 then 16 * 1024 else kib * 1024
  | vpmUserMemorySize => (contents &&& 0x1F) * 256
  | semaphoreCount =>
    let count := (contents >>> 16) &&& 0xFF
    if count = 0 then fallbackSemaphoreCount else count
  | tmuPerSlice => (contents >>> 12) &&& 0xF
  | qpuPerSlice => (contents >>> 8) &&& 0xF
  | sliceCount => (contents >>> 4) &&& 0xF
  | qpuCount =>
    let slices : UInt32 := (contents >>> 4) &&& 0xF
    let qpusPerSlice : UInt32 := (contents >>> 8) &&& 0xF
    let count := slices * qpusPerSlice
    if count = 0 || 12 < count then fallbackQpuCount else count
  | hdrSupport => (contents >>> 24) &&& 0x1
  | v3dRevision => contents &&& 0xF
  | userProgramsCompleted => (contents >>> completedShift) &&& countMask
  | userProgramsRequested => (contents >>> requestedShift) &&& countMask
  | userProgramQueueFull => (contents >>> 7) &&& 0x1
  | userProgramQueueLength => contents &&& 0x3F

end Info

end VideoCore.V3d
