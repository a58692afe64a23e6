/-!
# System queries

The scalar values that a backend may be able to report about the machine.
-/

namespace VideoCore

/-- A value that can be asked for. -/
inductive SystemQuery where
  | currentQpuClockRateHz
  | maximumQpuClockRateHz
  | currentArmClockRateHz
  | maximumArmClockRateHz
  | qpuTemperatureMilliDegrees
  | totalArmMemoryBytes
  | totalGpuMemoryBytes
  | totalVpmMemoryBytes
  | numQpus
  deriving DecidableEq, Repr

namespace SystemQuery

/-- Every query, in the order in which they are listed to the user. -/
def all : List SystemQuery :=
  [currentQpuClockRateHz, maximumQpuClockRateHz, currentArmClockRateHz, maximumArmClockRateHz,
   qpuTemperatureMilliDegrees, totalArmMemoryBytes, totalGpuMemoryBytes, totalVpmMemoryBytes,
   numQpus]

/-- The query's name. -/
def name : SystemQuery → String
  | currentQpuClockRateHz => "CurrentQpuClockRateHz"
  | maximumQpuClockRateHz => "MaximumQpuClockRateHz"
  | currentArmClockRateHz => "CurrentArmClockRateHz"
  | maximumArmClockRateHz => "MaximumArmClockRateHz"
  | qpuTemperatureMilliDegrees => "QpuTemperatureMilliDegrees"
  | totalArmMemoryBytes => "TotalArmMemoryBytes"
  | totalGpuMemoryBytes => "TotalGpuMemoryBytes"
  | totalVpmMemoryBytes => "TotalVpmMemoryBytes"
  | numQpus => "NumQpus"

/-- The number of QPUs to report when no backend knows better. -/
def defaultQpuCount : UInt32 := 12

/-- The vertex pipe memory usable by programs: 64 rows of 16 words. -/
def defaultVpmBytes : UInt32 := 64 * 16 * 4

/-- The value to report when no backend answers. -/
def default : SystemQuery → UInt32
  | numQpus => defaultQpuCount
  | totalVpmMemoryBytes => defaultVpmBytes
  | _ => 0

theorem mem_all (q : SystemQuery) : q ∈ all := by cases q <;> decide

end SystemQuery

end VideoCore
