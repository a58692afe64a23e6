import VideoCore.Config.Environment
import VideoCore.System
import VideoCore.Linux.Library
import VideoCore.Linux.Links

/-!
# Opening a system

The backends that a configuration activates are opened one after the other: the mailbox, shared
memory, the register block, the GPU service. If one of them cannot be opened, those that were are
stopped again and nothing after it is touched, so a system is opened as a whole or not at all.
Only the register block may be missing, when nothing executes through it.
-/

namespace VideoCore.Linux

/-- Backends that are open, with the links they are reached over. -/
structure Opened where
  backends : Backends := {}
  links : Links := {}

/-! ## The backends -/

/-- The device of the mailbox. -/
def mailboxDevice : String := "/dev/vcio"

/-- Opens a mailbox device. A name that cannot be passed, as it holds the character that ends
names, is not asked for. -/
def openMailboxDevice (path : String) : Opening File := do
  if path.contains '\x00' then throw (.deviceOpen path .unusableName)
  match ← (ask (.openDevice path false) : Dialog Linux (Except Cause File)) with
  | .ok file => return file
  | .error cause => throw (.deviceOpen path cause)

/-- Opens the mailbox and switches the QPUs on. -/
def openMailbox : Opening File := do
  let file ← openMailboxDevice mailboxDevice
  tryAcross { mailbox := some file } Mailbox.start
  return file

/-- The device of the shared memory service that draws on the pool of contiguous memory. -/
def poolDevice : String := "/dev/vcsm-cma"

/-- The device of the shared memory service with memory of its own. -/
def ownMemoryDevice : String := "/dev/vcsm"

/-- Which flavour of the service to use: the preferred one if it exists, else the other. -/
def chooseFlavour (preferPool poolExists ownExists : Bool) : Option Bool :=
  if preferPool && poolExists then some true
  else if ownExists then some false
  else if poolExists then some true
  else none

/-- Starts the shared memory service. -/
def openSharedMemory (preferPool : Bool) : Opening (SharedMemory × Library) := do
  let poolExists ← (ask (.fileExists poolDevice) : Dialog Linux Bool)
  let ownExists ← (ask (.fileExists ownMemoryDevice) : Dialog Linux Bool)
  match chooseFlavour preferPool poolExists ownExists with
  | none => throw (.deviceOpen (if preferPool then poolDevice else ownMemoryDevice) .notFound)
  | some usesPool =>
    let library ← loadLibrary .sharedMemory
    let status ← (ask (.sharedInit (if usesPool then 1 else 0) (-1)) : Dialog Linux Int32)
    if status ≠ 0 then
      ask (.closeLibrary library)
      throw (.firmware "vcsm_init_ex" status)
    return ({ usesPool }, library)

/-- Maps the register block, which lies at a fixed distance from the start of the peripherals. -/
def openV3d : Opening HostAddress := do
  let library ← loadLibrary .chip
  let peripherals ← (ask .peripheralAddress : Dialog Linux UInt32)
  let address := peripherals + V3d.blockOffset
  let mapped ← outcome (tryAcross {} (Hardware.mapPhysical address V3d.blockLength))
  ask (.closeLibrary library)
  ExceptT.mk (pure mapped)

/-- Connects to the GPU service, with the library already loaded. -/
def connectGpuService : Opening Instance := do
  let (status, service) ← (ask .messagesInitialise : Dialog Linux (Int32 × Instance))
  if status ≠ 0 then throw (.firmware "vchi_initialise" status)
  let status ← (ask (.messagesConnect 0 service) : Dialog Linux Int32)
  if status ≠ 0 then throw (.firmware "vchi_connect" status)
  let status ← (ask .gpuInit : Dialog Linux Int32)
  if status ≠ 0 then
    discard (ask (.messagesDisconnect service) : Dialog Linux Int32)
    throw (.firmware "vc_gpuserv_init" status)
  ask (.interpreterInit service 1)
  return service

/-- Connects to the GPU service and the command interpreter. -/
def openGpuService : Opening (Library × Instance) := do
  let library ← loadLibrary .messages
  match ← outcome connectGpuService with
  | .ok service => return (library, service)
  | .error fault =>
    ask (.closeLibrary library)
    throw fault

/-! ## The sequence -/

/-- A step that opens one more backend. -/
abbrev Stage : Type 1 := Opened → Opening Opened

/-- Opens the mailbox if the configuration activates it. -/
def mailboxStage (c : Config) : Stage := fun o => do
  if !c.activatesMailbox then return o
  let file ← openMailbox
  return { backends := { o.backends with mailbox := true }, links := { o.links with mailbox := some file } }

/-- Starts the shared memory service if the configuration activates it. -/
def sharedMemoryStage (c : Config) : Stage := fun o => do
  if !c.activatesSharedMemory then return o
  let (sharedMemory, library) ← openSharedMemory (c.memory == .sharedPool)
  return { backends := { o.backends with sharedMemory := some sharedMemory },
           links := { o.links with sharedMemory := some library } }

/-- Maps the register block if the configuration activates it. -/
def v3dStage (c : Config) : Stage := fun o => do
  if !c.activatesV3d then return o
  match ← outcome openV3d with
  | .ok block =>
    return { backends := { o.backends with v3d := some {} },
             links := { o.links with registers := some block } }
  | .error fault => if c.needsV3d then throw fault else return o

/-- Connects to the GPU service if the configuration activates it. -/
def gpuServiceStage (c : Config) : Stage := fun o => do
  if !c.activatesGpuService then return o
  let link ← openGpuService
  return { backends := { o.backends with gpuService := some {} },
           links := { o.links with gpuService := some link } }

/-- The steps of opening, in order. -/
def stages (c : Config) : List Stage :=
  [mailboxStage c, sharedMemoryStage c, v3dStage c, gpuServiceStage c]

/-- Stops everything that is open. -/
def abandon (o : Opened) : Dialog Linux Unit :=
  (Backends.kinds.filter o.backends.has).forM fun kind => across o.links (o.backends.stop kind)

/-- Takes the steps one after the other. When one fails, what the ones before it opened is
stopped. -/
def openStages : List Stage → Stage
  | [], o => return o
  | stage :: rest, o => do
    match ← outcome (stage o) with
    | .ok o => openStages rest o
    | .error fault =>
      abandon o
      throw fault

/-- What a configuration starts from: the emulator, if everything goes to it, and else nothing. -/
def Opened.initial (c : Config) : Opened :=
  { backends := { emulator := if c.emulated then some {} else none } }

/-- Opens the system that a configuration describes. -/
def openSystem (c : Config) : Opening (System × Links) := do
  let opened ← openStages (stages c) (.initial c)
  return (.ofBackends c opened.backends, opened.links)

/-! ## The system of the process -/

/-- The user who may do everything. -/
def privilegedUser : UInt32 := 0

/-- The values of some variables. A value that is not text counts as not set. -/
def readVariables : List String → Dialog Linux (List (String × String))
  | [] => return []
  | name :: rest => do
    let value ← (ask (.environment name) : Dialog Linux (Option ByteArray))
    let others ← readVariables rest
    return match value.bind String.fromUTF8? with
      | some text => (name, text) :: others
      | none => others

/-- Reads the configuration from the environment of the process. -/
def readConfig : Dialog Linux (Config × List Config.Warning) := do
  let user ← (ask .effectiveUser : Dialog Linux UInt32)
  let values ← readVariables (Config.Setting.all.map Config.Setting.variableName)
  return Config.ofEnvironment (user == privilegedUser) fun name => values.lookup name

/-- The system that all of a process shares, if it has been asked for. That it could not be opened
is kept too, and is not tried again. -/
structure SharedSystem where
  opened : Option (Except Fault (System × Links)) := none

/-- The system of the process, opened from the environment on first use. -/
def SharedSystem.get (s : SharedSystem) :
    Dialog Linux (Except Fault (System × Links) × SharedSystem) := do
  match s.opened with
  | some result => return (result, s)
  | none =>
    let (config, _) ← readConfig
    let result ← (openSystem config).run
    return (result, { opened := some result })

end VideoCore.Linux
