import VideoCore.Linux
import VideoCore.Text.Utf8
import VideoCore.V3d.Layout

/-!
# From backends to the machine

What the backends ask of the hardware, in terms of what the machine offers: the mailbox is a
device, the registers are mapped memory, the two services are libraries. `Linux.serve` answers
every request of a backend, over the links that were made when the backends were opened.
-/

namespace VideoCore.Linux

variable {α : Type}

/-- The ways to the hardware that are open. -/
structure Links where
  mailbox : Option File := none
  /-- Where the register block is mapped. -/
  registers : Option HostAddress := none
  sharedMemory : Option Library := none
  gpuService : Option (Library × Instance) := none
  deriving DecidableEq, Repr

/-! ## Physical memory -/

/-- Maps physical memory through its device. -/
def mapPhysical (address : UInt32) (length : Nat) :
    Dialog Linux (Except MapFailure HostAddress) := do
  match ← (ask (.openDevice Hardware.memoryDevice true) : Dialog Linux (Except Cause File)) with
  | .error cause => return .error (.opening cause)
  | .ok file =>
    let mapped ← (ask (.mapFile file address length) : Dialog Linux (Except Cause HostAddress))
    ask (.closeFile file)
    match mapped with
    | .ok base => return .ok base
    | .error cause => return .error (.mapping cause)

/-- Whether a register offset names a whole word of the block. -/
def isRegister (offset : UInt32) : Bool :=
  offset % 4 == 0 && offset.toNat + 4 ≤ V3d.blockLength

/-- Reads a register of a mapped block; 0 where there is none. -/
def readRegister (block : HostAddress) (offset : UInt32) : Dialog Linux UInt32 := do
  if !isRegister offset then return 0
  return (Block.wordOf? (← ask (.load block offset.toNat 4))).getD 0

/-- Writes a register of a mapped block; nothing happens where there is none. -/
def writeRegister (block : HostAddress) (offset value : UInt32) : Dialog Linux Unit := do
  if isRegister offset then ask (.store block offset.toNat (Block.ofWords [value]))

/-! ## Cache requests -/

/-- A list in pieces of some length; the last one may be shorter. -/
def pieces (length : Nat) (list : List α) : List (List α) :=
  if 0 < length ∧ list ≠ [] then
    list.take length :: pieces length (list.drop length)
  else []
termination_by list.length
decreasing_by
  rename_i h
  have : 0 < list.length := List.length_pos_iff.mpr h.2
  simp only [List.length_drop]
  omega

/-- Sends cache requests one after the other, until one fails or there is no memory for one. -/
def cleanEach : List (List (HostPointer × UInt32)) → Dialog Linux Bool
  | [] => return true
  | ranges :: rest => do
    let found ← (ask (.scratch ranges.length) : Dialog Linux Bool)
    if !found then return false
    let status ← (ask (.sharedClean (.ofRanges ranges)) : Dialog Linux Int32)
    if status = 0 then cleanEach rest else return false

/-- Writes the host's caches of any number of ranges back. -/
def cleanShared (ranges : List (HostPointer × UInt32)) : Dialog Linux Bool :=
  cleanEach (pieces maxCleanBlocks ranges)

/-! ## The command interpreter -/

/-- The length of the buffer for the interpreter's answers. -/
def answerCapacity : Nat := 1024

/-- The text in an answer buffer: what stands before the first zero byte, which the last byte of
the buffer counts as in any case. -/
def answerText (buffer : ByteArray) : String :=
  String.ofList
    (Text.decodeLossy ((buffer.data.toList.take (answerCapacity - 1)).takeWhile (· != 0)))

/-- Asks the command interpreter. The command is an argument of a fixed format, so nothing in it
is taken as a format. A command that cannot be passed, as it holds the character that ends texts,
is not asked. -/
def command (text : String) : Dialog Linux (Option String) := do
  if text.contains '\x00' then return none
  let (status, buffer) ←
    (ask (.interpret "%s" text answerCapacity) : Dialog Linux (Int32 × ByteArray))
  return if status = 0 then some (answerText buffer) else none

/-! ## Submissions -/

/-- Submits a job. -/
def submitJob (job : GpuService.Job) (id : GpuService.JobId) :
    Dialog Linux GpuService.Submission := do
  let (status, completed) ←
    (ask (.gpuExecute 1 (.ofJob job) id) : Dialog Linux (Int32 × List GpuService.JobId))
  return { accepted := status == 0, completed }

/-! ## Giving up -/

/-- Gives up the way to the hardware that a backend used. -/
def retire (links : Links) : BackendKind → Dialog Linux Unit
  | .mailbox => do
    if let some file := links.mailbox then ask (.closeFile file)
  | .v3d => do
    if let some block := links.registers then ask (.unmap block V3d.blockLength)
  | .sharedMemory => do
    if let some library := links.sharedMemory then
      ask .sharedExit
      ask (.closeLibrary library)
  | .gpuService => do
    if let some (library, service) := links.gpuService then
      ask .interpreterStop
      ask .gpuDeinit
      discard (ask (.messagesDisconnect service) : Dialog Linux Int32)
      ask (.closeLibrary library)
  | .emulator => return ()

/-! ## Serving -/

/-- Answers a request of a backend by means of the machine. -/
def serve (links : Links) : (q : Hardware.Request) → Dialog Linux (Hardware.Reply q)
  | .property message =>
    match links.mailbox with
    | some file => ask (.propertyCall file message)
    | none => return .error .notFound
  | .readRegister offset =>
    match links.registers with
    | some block => readRegister block offset
    | none => return 0
  | .writeRegister offset value =>
    match links.registers with
    | some block => writeRegister block offset value
    | none => return ()
  | .allocateShared size cache name => ask (.sharedAllocate size cache.pinnedFlags name)
  | .sharedAddress handle => ask (.sharedAddress handle)
  | .lockShared handle => ask (.sharedLock handle)
  | .unlockShared host => do
    return (← (ask (.sharedUnlock host 1) : Dialog Linux Int32)) == 0
  | .freeShared handle => ask (.sharedFree handle)
  | .cleanShared ranges => cleanShared ranges
  | .submitJob job id => submitJob job id
  | .command text => command text
  | .awaitCompletion limit => ask (.awaitCompletion limit)
  | .readClock => ask .readClock
  | .sleep length => ask (.sleep length)
  | .mapPhysical address length => mapPhysical address length
  | .unmapPhysical base length => ask (.unmap base length)
  | .load base offset length => ask (.load base offset length)
  | .store base offset bytes => ask (.store base offset bytes)
  | .fileContents path => ask (.fileContents path)
  -- no model of the QPUs is attached to an emulator that runs on the machine itself
  | .emulate emulation => return { outcome := .failed, memory := emulation.memory }
  | .report diagnostic => ask (.report diagnostic)
  | .overflow => ask .overflow
  | .retire backend => retire links backend

/-- A dialog with the hardware, over the links to it. -/
def across (links : Links) (access : Access α) : Dialog Linux α :=
  access.via (serve links)

/-- An attempt with the hardware, over the links to it. -/
def tryAcross (links : Links) (attempt : Attempt α) : Opening α :=
  ExceptT.mk (across links attempt.run)

theorem flatten_pieces {length : Nat} (h : 0 < length) (list : List α) :
    (pieces length list).flatten = list := by
  fun_induction pieces length list with
  | case1 list _ ih => simp [ih]
  | case2 list hne =>
    have : list = [] := by
      apply Classical.byContradiction
      intro hl
      exact hne ⟨h, hl⟩
    simp [this]

theorem length_le_of_mem_pieces {length : Nat} {list piece : List α}
    (h : piece ∈ pieces length list) : piece.length ≤ length := by
  fun_induction pieces length list with
  | case1 list _ ih =>
    rcases List.mem_cons.mp h with rfl | h
    · simp only [List.length_take]
      omega
    · exact ih h
  | case2 => cases h

end VideoCore.Linux
