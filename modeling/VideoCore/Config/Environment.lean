import VideoCore.Config
import VideoCore.Text.Blank
import VideoCore.Text.Numeral

/-!
# Configuration by environment variables

The variables that a configuration is read from. A flag is on if its variable is set, unless the
value says no; the modes have one flag each, of which the first that is on wins. Two variables
hold numbers: one that cannot be used is passed over with a warning.
-/

namespace VideoCore.Config

variable {α : Type}

/-- A variable that the configuration depends on. -/
inductive Setting where
  | emulator
  | executeRegisters
  | executeMailbox
  | executeGpuService
  | memoryPool
  | memoryShared
  | memoryMailbox
  | cacheForce
  | noMailbox
  | noV3d
  | noSharedMemory
  | noGpuService
  | performanceCounters
  | pollInterval
  deriving DecidableEq, Repr

namespace Setting

def all : List Setting :=
  [emulator, executeRegisters, executeMailbox, executeGpuService, memoryPool, memoryShared,
   memoryMailbox, cacheForce, noMailbox, noV3d, noSharedMemory, noGpuService, performanceCounters,
   pollInterval]

/-- The name of the variable. -/
def variableName : Setting → String
  | emulator => "VC4_EMULATOR"
  | executeRegisters => "VC4_EXECUTE_REGISTER_POKING"
  | executeMailbox => "VC4_EXECUTE_MAILBOX"
  | executeGpuService => "VC4_EXECUTE_VCHI"
  | memoryPool => "VC4_MEMORY_CMA"
  | memoryShared => "VC4_MEMORY_VCSM"
  | memoryMailbox => "VC4_MEMORY_MAILBOX"
  | cacheForce => "VC4_CACHE_FORCE"
  | noMailbox => "VC4_NO_MAILBOX"
  | noV3d => "VC4_NO_V3D"
  | noSharedMemory => "VC4_NO_VCSM"
  | noGpuService => "VC4_NO_VCHI"
  | performanceCounters => "VC4_PERFORMANCE_COUNTERS"
  | pollInterval => "VC4_V3D_POLL_INTERVAL_US"

theorem mem_all (s : Setting) : s ∈ all := by cases s <;> decide

/-- Every setting has a variable of its own. -/
theorem nodup_variableNames : (all.map variableName).Nodup := by
  decide

end Setting

/-- The values of the variables that are set. -/
abbrev Environment := String → Option String

/-- A variable whose value was passed over. -/
structure Warning where
  setting : Setting
  value : String
  deriving DecidableEq, Repr

def Warning.message (w : Warning) : String :=
  "ignoring invalid " ++ w.setting.variableName

/-- The values that say no, in lowercase. -/
def falsy : List (List Char) :=
  ["0".toList, "false".toList, "no".toList, "off".toList]

/-- Whether the value of a flag turns it on: any value does that does not say no. -/
def turnsOn (value : String) : Bool :=
  !falsy.contains ((Text.trim value.toList).map Char.toLower)

/-- Whether a flag is on. -/
def flag (env : Environment) (s : Setting) : Bool :=
  (env s.variableName).any turnsOn

/-- The first choice whose flag is on. -/
def choose (env : Environment) (choices : List (Setting × α)) (otherwise : α) : α :=
  ((choices.find? fun choice => flag env choice.1).map (·.2)).getD otherwise

/-- A value that is read from a variable, if it is set and can be read. A value that cannot be
read leaves a warning. -/
def readSetting (env : Environment) (s : Setting) (read : List Char → Option α) :
    Option α × List Warning :=
  match env s.variableName with
  | none => (none, [])
  | some value =>
    match read (Text.trim value.toList) with
    | some a => (some a, [])
    | none => (none, [⟨s, value⟩])

/-- Reads the number of a cache policy. -/
def readCache? (text : List Char) : Option CachePolicy :=
  (Text.readWord? 8 text).bind CachePolicy.ofIndex?

/-- Reads a number of microseconds. -/
def readMicroseconds? (text : List Char) : Option Duration :=
  (Text.readWord? 64 text).map Duration.ofMicroseconds

/-- The configuration that an environment gives, and the warnings. -/
def ofEnvironment (privileged : Bool) (env : Environment) : Config × List Warning :=
  let base := forPrivileges privileged
  let (cache, cacheWarnings) := readSetting env .cacheForce readCache?
  let (interval, intervalWarnings) := readSetting env .pollInterval readMicroseconds?
  ({ emulated := flag env .emulator
     execution := choose env
       [(.executeRegisters, .registers), (.executeMailbox, .mailbox),
        (.executeGpuService, .gpuService)] base.execution
     memory := choose env
       [(.memoryPool, .sharedPool), (.memoryShared, .shared), (.memoryMailbox, .mailbox)] base.memory
     forcedCache := cache
     disableMailbox := flag env .noMailbox
     disableV3d := flag env .noV3d
     disableSharedMemory := flag env .noSharedMemory
     disableGpuService := flag env .noGpuService
     performanceCounters := flag env .performanceCounters
     pollInterval := interval.getD base.pollInterval },
   cacheWarnings ++ intervalWarnings)

/-! ## The canonical environment -/

/-- The setting that chooses an execution mode. -/
def executionSetting : ExecutionMode → Setting
  | .registers => .executeRegisters
  | .mailbox => .executeMailbox
  | .gpuService => .executeGpuService

/-- The setting that chooses a memory mode. -/
def memorySetting : MemoryMode → Setting
  | .sharedPool => .memoryPool
  | .shared => .memoryShared
  | .mailbox => .memoryMailbox

/-- The value that a setting has in the canonical environment of a configuration. -/
def settingOf (c : Config) (s : Setting) : Option String :=
  let on (b : Bool) : Option String := if b then some "1" else none
  match s with
  | .emulator => on c.emulated
  | .executeRegisters | .executeMailbox | .executeGpuService => on (executionSetting c.execution == s)
  | .memoryPool | .memoryShared | .memoryMailbox => on (memorySetting c.memory == s)
  | .cacheForce => c.forcedCache.map fun cache => Text.decimal cache.index
  | .noMailbox => on c.disableMailbox
  | .noV3d => on c.disableV3d
  | .noSharedMemory => on c.disableSharedMemory
  | .noGpuService => on c.disableGpuService
  | .performanceCounters => on c.performanceCounters
  | .pollInterval => some (Text.decimal (c.pollInterval.nanoseconds / 1000))

/-- An environment that gives back a configuration, whatever the privileges. -/
def toEnvironment (c : Config) : Environment := fun name =>
  (Setting.all.find? fun s => s.variableName == name).bind (settingOf c)

end VideoCore.Config
