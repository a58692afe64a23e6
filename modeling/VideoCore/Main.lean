import VideoCore.Info

/-!
# The command line

Runs the report tool on the machine that the process runs on. Files, the environment, the clock and
the user are the operating system's own. A process that cannot map memory, send property messages
or call into the firmware's libraries has every such request refused, the way a machine without
that hardware would refuse it: without `--emulated` the tool then says which device it misses.
-/

namespace VideoCore.Linux

/-- The number that the system gave an error, or its words where it gave none. -/
def causeOf : IO.Error → Cause
  | .alreadyExists _ number _ | .invalidArgument _ number _ | .permissionDenied _ number _
  | .resourceExhausted _ number _ | .inappropriateType _ number _ | .noSuchThing _ number _
  | .interrupted _ number _ | .noFileOrDirectory _ number _ | .otherError number _
  | .resourceBusy number _ | .resourceVanished number _ | .unsupportedOperation number _
  | .hardwareFault number _ | .unsatisfiedConstraints number _ | .illegalOperation number _
  | .protocolError number _ | .timeExpired number _ => .system number.toInt32
  | .unexpectedEof => .other "unexpected end of file"
  | .userError text => .other text

/-- Performs an operation and keeps the cause if it fails. -/
def attempt {α : Type} (operation : IO α) : IO (Except Cause α) := do
  match ← operation.toBaseIO with
  | .ok value => return .ok value
  | .error e => return .error (causeOf e)

/-- The effective user that a status report of a process names: the second number of the line
that starts with `Uid:`. -/
def effectiveUser? (status : String) : Option UInt32 := do
  let line ← (status.splitOn "\n").find? fun line => "Uid:".toList.isPrefixOf line.toList
  let number ← (line.splitOn "\t")[2]?
  return UInt32.ofNat (← Text.readWord? 32 number.toList)

/-- The reply of the operating system to a request. A user that cannot be found out has no
privileges. -/
def answer : (q : Request) → IO (Reply q)
  | .environment name => do return (← IO.getEnv name).map String.toUTF8
  | .effectiveUser => do
    match ← attempt (IO.FS.readFile "/proc/self/status") with
    | .ok status => return (effectiveUser? status).getD 1000
    | .error _ => return 1000
  | .openDevice path _ => attempt do
    let _ ← IO.FS.Handle.mk path .readWrite
    return ⟨0⟩
  | .fileExists path => do
    match ← attempt (IO.FS.Handle.mk path .read) with
    | .error cause => return cause != .system 2
    | .ok _ => return true
  | .fileContents path => attempt (IO.FS.readBinFile path)
  | .readClock => do return ⟨← IO.monoNanosNow⟩
  | .sleep length => IO.sleep (UInt32.ofNat (length.nanoseconds / 1000000))
  | .awaitCompletion limit => do
    IO.sleep (UInt32.ofNat (limit.nanoseconds / 1000000))
    return []
  | .mapFile _ _ _ => return .error (.system 19)
  | .propertyCall _ _ => return .error (.system 25)
  | .openLibrary path _ => return .error (path ++ ": cannot open shared object file")
  | .findSymbol _ name => return .error ("undefined symbol: " ++ name)
  | .load _ _ length => return ⟨Array.replicate length 0⟩
  | .sharedAllocate _ _ _ | .sharedAddress _ | .peripheralAddress => return 0
  | .sharedLock _ => return none
  | .sharedInit _ _ | .sharedUnlock _ _ | .sharedClean _ | .messagesConnect _ _
  | .messagesDisconnect _ | .gpuInit => return -1
  | .messagesInitialise => return (-1, ⟨0⟩)
  | .gpuExecute _ _ _ => return (-1, [])
  | .interpret _ _ _ => return (-1, ⟨#[]⟩)
  | .scratch _ => return true
  | .closeFile _ | .unmap _ _ | .store _ _ _ | .closeLibrary _ | .sharedExit | .sharedFree _
  | .gpuDeinit | .interpreterInit _ _ | .interpreterStop | .report _ | .overflow => return ()

/-- Repeats a step until it yields a result. -/
partial def turns {σ β : Type} (step : σ → IO (σ ⊕ β)) (state : σ) : IO β := do
  match ← step state with
  | .inl next => turns step next
  | .inr value => return value

/-- Holds a dialog with the operating system. -/
def converse : {α : Type} → Dialog Linux α → IO α
  | _, .done value => return value
  | _, .ask q next => do converse (next (← answer q))
  | _, .repeatUntil step start next => do
    converse (next (← turns (fun s => converse (step s)) start))

end VideoCore.Linux

open VideoCore in
/-- Runs the tool on the words of the command line and ends with its status. -/
def main (words : List String) : IO UInt32 := do
  let outcome ← Linux.converse (Info.run words)
  IO.print outcome.output
  IO.eprint outcome.errors
  return outcome.exit.toUInt32
