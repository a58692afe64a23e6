import VideoCore.GpuService.Job
import VideoCore.Memory.Buffer

/-!
# Records of the userland libraries

The libraries that come with the firmware take some of their arguments as records with a layout
of their own. These are the two that carry more than a few numbers: a request to write the host's
caches back, and a job for the QPUs.
-/

namespace VideoCore.Linux

open GpuService (Job)

/-- Writes cache lines back without dropping them. -/
def cleanMode : UInt16 := 3

/-- One entry of a cache request: some blocks of a size, at a distance from each other. -/
structure CleanBlock where
  mode : UInt16 := cleanMode
  count : UInt16 := 1
  start : HostPointer
  size : UInt32
  stride : UInt32 := 0
  deriving DecidableEq, Repr

/-- A request to write the host's caches back. The header counts the entries in one byte. -/
structure CleanRequest where
  count : UInt8
  padding : UInt8 × UInt8 × UInt8 := (0, 0, 0)
  blocks : List CleanBlock
  deriving DecidableEq, Repr

/-- The most entries that one cache request can count. -/
def maxCleanBlocks : Nat := 255

/-- The request for some ranges, of which there must be few enough. -/
def CleanRequest.ofRanges (ranges : List (HostPointer × UInt32)) : CleanRequest where
  count := UInt8.ofNat ranges.length
  blocks := ranges.map fun (start, size) => { start, size }

/-- The job for the QPUs among the jobs that the GPU service takes. -/
def executeQpus : UInt32 := 2

/-- A job as the GPU service's library takes it. -/
structure JobRecord where
  command : UInt32 := executeQpus
  jobs : UInt32
  noFlush : UInt32
  timeout : UInt32
  unused : UInt32 := 0
  control : Vector ControlPair maxQpus
  references : Int32 := 0
  deriving DecidableEq, Repr

def JobRecord.ofJob (job : Job) : JobRecord where
  jobs := job.programs
  noFlush := if job.noFlush then 1 else 0
  timeout := job.timeoutMs
  control := job.control

@[simp] theorem CleanRequest.length_blocks (ranges : List (HostPointer × UInt32)) :
    (ofRanges ranges).blocks.length = ranges.length := by
  simp [ofRanges]

theorem CleanRequest.count_ofRanges {ranges : List (HostPointer × UInt32)}
    (h : ranges.length ≤ maxCleanBlocks) : (ofRanges ranges).count.toNat = ranges.length := by
  simp only [ofRanges, maxCleanBlocks, UInt8.toNat_ofNat'] at *
  omega

end VideoCore.Linux
