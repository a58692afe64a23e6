import VideoCore.Info.Report
import VideoCore.Linux.Opening

/-!
# Collecting the report

Everything that the report says is asked of an open system. A system that does not use the
mailbox knows nothing of the board; unless it is emulated, the mailbox is then opened for the
report alone, if that is possible.
-/

namespace VideoCore.Info

open Linux (Opening Links ask across tryAcross)

/-- Why there is no report. -/
inductive Failure where
  /-- Something failed while the tool did what the text says, where it says anything. -/
  | fault (context : Option String) (fault : Fault)
  /-- The memory backend has no buffer of that size to give. -/
  | refused (size : UInt32)
  deriving DecidableEq, Repr

/-- A part of the work, which can fail. -/
abbrev Collecting (α : Type) : Type 1 := ExceptT Failure (Dialog Linux) α

variable {α : Type}

/-- Takes a fault for a failure. -/
def failing (context : Option String) (opening : Opening α) : Collecting α :=
  ExceptT.mk do
    match ← opening.run with
    | .ok a => return .ok a
    | .error fault => return .error (.fault context fault)

/-- The answers to all queries. -/
def answers (s : System) : List SystemQuery → Access (List (SystemQuery × Option UInt32))
  | [] => return []
  | q :: rest => do
    let answer ← s.query q
    return (q, answer) :: (← answers s rest)

/-! ## The board -/

/-- Voltage of the core. -/
def coreVoltage : UInt32 := 1

/-- What the mailbox says of the board; nothing if the firmware does not tell the revision. -/
def boardReport : Attempt (Option BoardReport) := do
  match ← Mailbox.boardRevision with
  | none => return none
  | some revision =>
    let firmwareRevision ← Mailbox.firmwareRevision
    let coreClock ← Mailbox.clockRate .core
    let voltage ← Mailbox.voltage coreVoltage
    let throttled ← Mailbox.throttled
    return some
      { board := .ofRevision revision, firmwareRevision, coreClock, coreVoltage := voltage, throttled }

/-- The link to a mailbox for the report: that of the system, or one of its own, if any. -/
structure ReportMailbox where
  links : Option Links
  own : Bool

/-- Finds a mailbox for the report. -/
def findMailbox (s : System) (links : Links) : Dialog Linux ReportMailbox := do
  if s.backends.mailbox then return { links := some links, own := false }
  if s.config.emulated then return { links := none, own := false }
  match ← Linux.openMailbox.run with
  | .ok file => return { links := some { mailbox := some file }, own := true }
  | .error _ => return { links := none, own := false }

/-- Gives the mailbox up if it was opened for the report. -/
def ReportMailbox.stop (m : ReportMailbox) : Dialog Linux Unit := do
  if let some links := m.links then
    if m.own then across links Mailbox.stop

/-! ## The parts -/

/-- What the register block says of itself. -/
def v3dReport : Access V3dReport := do
  let technologyVersion ← V3d.technologyVersion
  let revision ← V3d.info .v3dRevision
  let slices ← V3d.info .sliceCount
  let qpusPerSlice ← V3d.info .qpuPerSlice
  let tmusPerSlice ← V3d.info .tmuPerSlice
  let semaphores ← V3d.info .semaphoreCount
  let vpmBytes ← V3d.info .vpmMemorySize
  let vpmUserBytes ← V3d.info .vpmUserMemorySize
  return { technologyVersion, revision, slices, qpusPerSlice, tmusPerSlice, semaphores, vpmBytes,
           vpmUserBytes }

/-- Allocates a buffer and gives it back. The backends change by that. -/
def allocationReport (s : System) (links : Links) (size : UInt32) :
    Collecting (AllocationReport × System) := do
  let context := "allocate " ++ Text.decimal size.toNat ++ " bytes"
  let (buffer, s) ← failing (some context) (tryAcross links (s.allocate { size }))
  match buffer with
  | none => throw (.refused size)
  | some buffer =>
    let (released, backends) ← (across links (s.backends.release buffer) : Dialog Linux _)
    match released with
    | .error fault => throw (.fault none fault)
    | .ok released =>
      return ({ size, handle := buffer.handle, address := buffer.address, released },
        { s with backends })

/-- Makes the allocation that was asked for, if any. -/
def optionalAllocation (s : System) (links : Links) :
    Option UInt32 → Collecting (Option AllocationReport × System)
  | none => return (none, s)
  | some size => do
    let (report, s) ← allocationReport s links size
    return (some report, s)

/-- What comes after the queries. -/
def collectParts (s : System) (links : Links) (mailbox : ReportMailbox) (allocate : Option UInt32)
    (answers : List (SystemQuery × Option UInt32)) : Collecting Report := do
  let board ← match mailbox.links with
    | some links => failing none (tryAcross links boardReport)
    | none => pure none
  let v3d ← if s.backends.v3d.isSome then
      some <$> (across links v3dReport : Dialog Linux V3dReport)
    else pure none
  let (allocation, s) ← optionalAllocation s links allocate
  let totalGpuMemory ← (across links s.totalGpuMemory : Dialog Linux UInt32)
  let numQpus ← (across links s.numQpus : Dialog Linux UInt32)
  let qpuClockRate ← (across links s.qpuClockRate : Dialog Linux UInt32)
  let gpuTemperature ← (across links s.gpuTemperature : Dialog Linux UInt32)
  let totalVpmMemory ← (across links s.totalVpmMemory : Dialog Linux UInt32)
  return { emulated := s.config.emulated, memoryName := s.memoryName,
           executionName := s.executionName, totalGpuMemory, numQpus, qpuClockRate,
           gpuTemperature, totalVpmMemory, answers, board, v3d, allocation }

/-- Collects the report on an open system. -/
def collect (s : System) (links : Links) (allocate : Option UInt32) :
    Dialog Linux (Except Failure Report) := do
  let answers ← across links (answers s SystemQuery.all)
  let mailbox ← findMailbox s links
  let report ← (collectParts s links mailbox allocate answers).run
  mailbox.stop
  return report

end VideoCore.Info
