/-!
# Property tags

The firmware's property channel is a set of numbered questions and orders, the tags. The numbers
are the firmware's.
-/

namespace VideoCore.Firmware

/-- A property of the firmware that can be asked for or set. -/
inductive Tag where
  | firmwareRevision
  | boardModel
  | boardRevision
  | macAddress
  | boardSerial
  | armMemory
  | vcMemory
  | clocks
  | getPowerState
  | timing
  | setPowerState
  | getClockState
  | setClockState
  | getClockRate
  | getClockRateMeasured
  | setClockRate
  | getMaxClockRate
  | getMinClockRate
  | getTurbo
  | setTurbo
  | getVoltage
  | setVoltage
  | getMaxVoltage
  | getMinVoltage
  | getTemperature
  | getMaxTemperature
  | getStc
  | allocateMemory
  | lockMemory
  | unlockMemory
  | releaseMemory
  | executeCode
  | executeQpu
  | enableQpu
  | getThrottled
  | commandLine
  | dmaChannels
  deriving DecidableEq, Repr

namespace Tag

/-- The number under which the firmware knows a tag. -/
def id : Tag → UInt32
  | firmwareRevision => 0x00000001
  | boardModel => 0x00010001
  | boardRevision => 0x00010002
  | macAddress => 0x00010003
  | boardSerial => 0x00010004
  | armMemory => 0x00010005
  | vcMemory => 0x00010006
  | clocks => 0x00010007
  | getPowerState => 0x00020001
  | timing => 0x00020002
  | setPowerState => 0x00028001
  | getClockState => 0x00030001
  | setClockState => 0x00038001
  | getClockRate => 0x00030002
  | getClockRateMeasured => 0x00030047
  | setClockRate => 0x00038002
  | getMaxClockRate => 0x00030004
  | getMinClockRate => 0x00030007
  | getTurbo => 0x00030009
  | setTurbo => 0x00038009
  | getVoltage => 0x00030003
  | setVoltage => 0x00038003
  | getMaxVoltage => 0x00030005
  | getMinVoltage => 0x00030008
  | getTemperature => 0x00030006
  | getMaxTemperature => 0x0003000A
  | getStc => 0x0003000B
  | allocateMemory => 0x0003000C
  | lockMemory => 0x0003000D
  | unlockMemory => 0x0003000E
  | releaseMemory => 0x0003000F
  | executeCode => 0x00030010
  | executeQpu => 0x00030011
  | enableQpu => 0x00030012
  | getThrottled => 0x00030046
  | commandLine => 0x00050001
  | dmaChannels => 0x00060001

/-- The tag's name. -/
def name : Tag → String
  | firmwareRevision => "FirmwareRevision"
  | boardModel => "BoardModel"
  | boardRevision => "BoardRevision"
  | macAddress => "MacAddress"
  | boardSerial => "BoardSerial"
  | armMemory => "ArmMemory"
  | vcMemory => "VcMemory"
  | clocks => "Clocks"
  | getPowerState => "GetPowerState"
  | timing => "Timing"
  | setPowerState => "SetPowerState"
  | getClockState => "GetClockState"
  | setClockState => "SetClockState"
  | getClockRate => "GetClockRate"
  | getClockRateMeasured => "GetClockRateMeasured"
  | setClockRate => "SetClockRate"
  | getMaxClockRate => "GetMaxClockRate"
  | getMinClockRate => "GetMinClockRate"
  | getTurbo => "GetTurbo"
  | setTurbo => "SetTurbo"
  | getVoltage => "GetVoltage"
  | setVoltage => "SetVoltage"
  | getMaxVoltage => "GetMaxVoltage"
  | getMinVoltage => "GetMinVoltage"
  | getTemperature => "GetTemperature"
  | getMaxTemperature => "GetMaxTemperature"
  | getStc => "GetStc"
  | allocateMemory => "AllocateMemory"
  | lockMemory => "LockMemory"
  | unlockMemory => "UnlockMemory"
  | releaseMemory => "ReleaseMemory"
  | executeCode => "ExecuteCode"
  | executeQpu => "ExecuteQpu"
  | enableQpu => "EnableQpu"
  | getThrottled => "GetThrottled"
  | commandLine => "CommandLine"
  | dmaChannels => "DmaChannels"

/-- Every tag. -/
def all : List Tag :=
  [firmwareRevision, boardModel, boardRevision, macAddress, boardSerial, armMemory, vcMemory,
   clocks, getPowerState, timing, setPowerState, getClockState, setClockState, getClockRate,
   getClockRateMeasured, setClockRate, getMaxClockRate, getMinClockRate, getTurbo, setTurbo,
   getVoltage, setVoltage, getMaxVoltage, getMinVoltage, getTemperature, getMaxTemperature,
   getStc, allocateMemory, lockMemory, unlockMemory, releaseMemory, executeCode, executeQpu,
   enableQpu, getThrottled, commandLine, dmaChannels]

theorem mem_all (t : Tag) : t ∈ all := by cases t <;> decide

/-- No two tags share a number. -/
theorem id_injective {s t : Tag} (h : s.id = t.id) : s = t := by
  revert h
  cases s <;> cases t <;> decide

end Tag

/-! ## Clocks -/

/-- A clock of the system on a chip. -/
inductive Clock where
  | emmc
  | uart
  | arm
  | core
  | v3d
  | h264
  | isp
  | sdram
  | pixel
  | pwm
  deriving DecidableEq, Repr

namespace Clock

def all : List Clock := [emmc, uart, arm, core, v3d, h264, isp, sdram, pixel, pwm]

/-- The number under which the firmware knows a clock. -/
def id : Clock → UInt32
  | emmc => 1
  | uart => 2
  | arm => 3
  | core => 4
  | v3d => 5
  | h264 => 6
  | isp => 7
  | sdram => 8
  | pixel => 9
  | pwm => 10

def name : Clock → String
  | emmc => "Emmc"
  | uart => "Uart"
  | arm => "Arm"
  | core => "Core"
  | v3d => "V3d"
  | h264 => "H264"
  | isp => "Isp"
  | sdram => "Sdram"
  | pixel => "Pixel"
  | pwm => "Pwm"

end Clock

end VideoCore.Firmware
