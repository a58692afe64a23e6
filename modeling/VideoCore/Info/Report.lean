import VideoCore.Board
import VideoCore.Bus
import VideoCore.Query
import VideoCore.Text.Decimal
import VideoCore.Text.Json

/-!
# The report

What the tool has to say about a machine, and the two forms in which it says it: lines of text
for a reader, and JSON for a program.
-/

namespace VideoCore.Info

open Text (Json)

/-- What the firmware says of the board. -/
structure BoardReport where
  board : Board
  firmwareRevision : Option UInt32
  /-- In Hz. -/
  coreClock : Option UInt32
  /-- As a distance from 1.2 V in microvolts. -/
  coreVoltage : Option UInt32
  throttled : Option UInt32
  deriving DecidableEq, Repr

/-- What the register block says of itself. -/
structure V3dReport where
  technologyVersion : UInt32
  revision : UInt32
  slices : UInt32
  qpusPerSlice : UInt32
  tmusPerSlice : UInt32
  semaphores : UInt32
  vpmBytes : UInt32
  vpmUserBytes : UInt32
  deriving DecidableEq, Repr

/-- What came of the allocation that was asked for. -/
structure AllocationReport where
  size : UInt32
  handle : UInt32
  address : BusAddress
  released : Bool
  deriving DecidableEq, Repr

/-- What there is to say about a machine. -/
structure Report where
  emulated : Bool
  memoryName : String
  executionName : String
  totalGpuMemory : UInt32
  numQpus : UInt32
  qpuClockRate : UInt32
  gpuTemperature : UInt32
  totalVpmMemory : UInt32
  /-- The answers to all queries, in their order. -/
  answers : List (SystemQuery × Option UInt32)
  board : Option BoardReport
  v3d : Option V3dReport
  allocation : Option AllocationReport
  deriving DecidableEq, Repr

/-! ## As text -/

/-- What is said of a board whose warranty is void. -/
def BoardReport.remark (b : BoardReport) : String :=
  if b.board.warrantyVoid then ", warranty void" else ""

def BoardReport.lines (b : BoardReport) : List String :=
  ("board:        " ++ b.board.describe b.remark)
    :: (b.firmwareRevision.map fun r => "firmware:     " ++ Text.decimal r.toNat).toList

def V3dReport.line (v : V3dReport) : String :=
  "V3D:          v" ++ Text.decimal v.technologyVersion.toNat
    ++ " rev " ++ Text.decimal v.revision.toNat
    ++ ", " ++ Text.decimal v.slices.toNat ++ " slices x "
    ++ Text.decimal v.qpusPerSlice.toNat ++ " QPUs, "
    ++ Text.decimal v.tmusPerSlice.toNat ++ " TMUs/slice, "
    ++ Text.decimal v.semaphores.toNat ++ " semaphores"

def AllocationReport.line (a : AllocationReport) : String :=
  "allocation:   " ++ Text.decimal a.size.toNat ++ " bytes at " ++ a.address.render
    ++ " (handle " ++ Text.decimal a.handle.toNat
    ++ ", released: " ++ (if a.released then "true" else "false") ++ ")"

namespace Report

/-- The report as lines of text. -/
def lines (r : Report) : List String :=
  [ "backends:     memory=" ++ r.memoryName ++ " execution=" ++ r.executionName
      ++ (if r.emulated then " (emulated)" else "") ]
    ++ (r.board.map BoardReport.lines).getD []
    ++ [ "QPUs:         " ++ Text.decimal r.numQpus.toNat,
         "QPU clock:    " ++ Text.decimal (r.qpuClockRate.toNat / 1000000) ++ " MHz",
         "temperature:  " ++ Text.renderThousandths r.gpuTemperature.toNat ++ " C",
         "GPU memory:   " ++ Text.decimal (r.totalGpuMemory.toNat / (1024 * 1024)) ++ " MiB",
         "VPM memory:   " ++ Text.decimal (r.totalVpmMemory.toNat / 1024) ++ " KiB" ]
    ++ (r.v3d.map V3dReport.line).toList
    ++ (r.allocation.map AllocationReport.line).toList

/-- The report as text: every line ends with a line feed. -/
def renderText (r : Report) : String :=
  String.join (r.lines.map (· ++ "\n"))

end Report

/-! ## As JSON -/

/-- The key under which the answer to a query stands. -/
def queryKey : SystemQuery → String
  | .currentQpuClockRateHz => "current_qpu_clock_rate_hz"
  | .maximumQpuClockRateHz => "maximum_qpu_clock_rate_hz"
  | .currentArmClockRateHz => "current_arm_clock_rate_hz"
  | .maximumArmClockRateHz => "maximum_arm_clock_rate_hz"
  | .qpuTemperatureMilliDegrees => "qpu_temperature_milli_degrees"
  | .totalArmMemoryBytes => "total_arm_memory_bytes"
  | .totalGpuMemoryBytes => "total_gpu_memory_bytes"
  | .totalVpmMemoryBytes => "total_vpm_memory_bytes"
  | .numQpus => "num_qpus"

/-- The answers under their keys, sorted by key. -/
def answersJson (answers : List (SystemQuery × Option UInt32)) : Json :=
  .ofMembers ((answers.map fun (q, answer) => (queryKey q, Json.numberOrNull answer)).mergeSort
    fun a b => a.1 ≤ b.1)

def BoardReport.toJson (b : BoardReport) : Json :=
  .ofMembers
    [ ("model", .text b.board.model),
      ("processor", .text b.board.processor.name),
      ("revision", .number b.board.revision.toNat),
      ("warranty_void", .boolean b.board.warrantyVoid),
      ("firmware_revision", .numberOrNull b.firmwareRevision),
      ("core_clock", .numberOrNull b.coreClock),
      ("core_voltage", .numberOrNull b.coreVoltage),
      ("throttled", .numberOrNull b.throttled) ]

def V3dReport.toJson (v : V3dReport) : Json :=
  .ofMembers
    [ ("technology_version", .number v.technologyVersion.toNat),
      ("revision", .number v.revision.toNat),
      ("slices", .number v.slices.toNat),
      ("qpus_per_slice", .number v.qpusPerSlice.toNat),
      ("tmus_per_slice", .number v.tmusPerSlice.toNat),
      ("semaphores", .number v.semaphores.toNat),
      ("vpm_bytes", .number v.vpmBytes.toNat),
      ("vpm_user_bytes", .number v.vpmUserBytes.toNat) ]

def AllocationReport.toJson (a : AllocationReport) : Json :=
  .ofMembers
    [ ("size", .number a.size.toNat),
      ("handle", .number a.handle.toNat),
      ("device_ptr", .number a.address.value.toNat),
      ("released", .boolean a.released) ]

namespace Report

def toJson (r : Report) : Json :=
  .ofMembers
    [ ("emulated", .boolean r.emulated),
      ("memory_backend", .text r.memoryName),
      ("execution_backend", .text r.executionName),
      ("total_gpu_memory", .number r.totalGpuMemory.toNat),
      ("num_qpus", .number r.numQpus.toNat),
      ("qpu_clock_rate", .number r.qpuClockRate.toNat),
      ("gpu_temperature", .number r.gpuTemperature.toNat),
      ("total_vpm_memory", .number r.totalVpmMemory.toNat),
      ("queries", answersJson r.answers),
      ("board", (r.board.map BoardReport.toJson).getD .null),
      ("v3d", (r.v3d.map V3dReport.toJson).getD .null),
      ("allocation", (r.allocation.map AllocationReport.toJson).getD .null) ]

/-- The report as JSON, with a line feed at the end. -/
def renderJson (r : Report) : String :=
  r.toJson.render 0 ++ "\n"

end Report

end VideoCore.Info
