import VideoCore.Hardware
import VideoCore.Linux.Records

/-!
# Linux, as the program sees it

The vocabulary of the machine that the program runs on: files and devices, mapped memory, the
shared libraries that come with the firmware and the functions in them, time, the environment.

Calls into a library are requests of their own. They are made only after the library was opened
and every function that a backend needs was found in it.
-/

namespace VideoCore

namespace Linux

open Firmware (Message)
open GpuService (JobId)

/-- An open file. -/
structure File where
  number : Nat
  deriving DecidableEq, Repr

/-- A loaded library. -/
structure Library where
  number : Nat
  deriving DecidableEq, Repr

/-- A session with the message service, as its library names it. -/
structure Instance where
  number : Nat
  deriving DecidableEq, Repr

/-- What the program may ask of the machine. -/
inductive Request where
  /-- The value of an environment variable. -/
  | environment (name : String)
  /-- The number of the user in whose name the program acts. -/
  | effectiveUser
  /-- Opens a device for reading and writing, past the caches if it is synchronous. -/
  | openDevice (path : String) (synchronous : Bool)
  | closeFile (file : File)
  /-- Maps a file into memory. The offset need not be page aligned. -/
  | mapFile (file : File) (offset : UInt32) (length : Nat)
  | unmap (base : HostAddress) (length : Nat)
  | load (base : HostAddress) (offset length : Nat)
  | store (base : HostAddress) (offset : Nat) (bytes : ByteArray)
  /-- One round trip of a property message through the device. -/
  | propertyCall (file : File) (message : Message)
  | fileExists (path : String)
  | fileContents (path : String)
  | openLibrary (path : String) (flags : UInt32)
  | findSymbol (library : Library) (name : String)
  | closeLibrary (library : Library)
  /-- Where the registers of the peripherals lie in physical memory. -/
  | peripheralAddress
  /-- Starts the shared memory service on a device, or on its own choice for a negative number. -/
  | sharedInit (pool : Int32) (device : Int32)
  | sharedExit
  | sharedAllocate (size : UInt32) (flags : UInt32) (name : String)
  | sharedFree (handle : UInt32)
  | sharedAddress (handle : UInt32)
  | sharedLock (handle : UInt32)
  | sharedUnlock (host : HostPointer) (noFlush : Int32)
  | sharedClean (request : CleanRequest)
  /-- Memory of zeros for a cache request of some entries, which is given back after the request. The
  reply is whether there was any. -/
  | scratch (entries : Nat)
  | messagesInitialise
  | messagesConnect (connections : UInt32) (service : Instance)
  | messagesDisconnect (service : Instance)
  | gpuInit
  | gpuDeinit
  /-- Submits jobs, which are known to the program under a number. -/
  | gpuExecute (count : Int32) (record : JobRecord) (id : JobId)
  | interpreterInit (service : Instance) (connections : UInt32)
  | interpreterStop
  /-- Has a command interpreted and its answer put into a buffer of some length. -/
  | interpret (format : String) (argument : String) (capacity : Nat)
  /-- Blocks until a job completes or the time is up. -/
  | awaitCompletion (limit : Duration)
  | readClock
  | sleep (length : Duration)
  | report (diagnostic : Diagnostic)
  /-- A product did not fit its word. -/
  | overflow

/-- The type of the reply to each request. -/
abbrev Reply : Request → Type
  | .environment _ => Option ByteArray
  | .effectiveUser => UInt32
  | .openDevice _ _ => Except Cause File
  | .closeFile _ => Unit
  | .mapFile _ _ _ => Except Cause HostAddress
  | .unmap _ _ => Unit
  | .load _ _ _ => ByteArray
  | .store _ _ _ => Unit
  | .propertyCall _ message => Except Cause (Vector UInt32 (message.contentWords + 6))
  | .fileExists _ => Bool
  | .fileContents _ => Except Cause ByteArray
  | .openLibrary _ _ => Except String Library
  | .findSymbol _ _ => Except String Unit
  | .closeLibrary _ => Unit
  | .peripheralAddress => UInt32
  | .sharedInit _ _ => Int32
  | .sharedExit => Unit
  | .sharedAllocate _ _ _ => UInt32
  | .sharedFree _ => Unit
  | .sharedAddress _ => UInt32
  | .sharedLock _ => Option HostAddress
  | .sharedUnlock _ _ => Int32
  | .sharedClean _ => Int32
  | .scratch _ => Bool
  | .messagesInitialise => Int32 × Instance
  | .messagesConnect _ _ => Int32
  | .messagesDisconnect _ => Int32
  | .gpuInit => Int32
  | .gpuDeinit => Unit
  | .gpuExecute _ _ _ => Int32 × List JobId
  | .interpreterInit _ _ => Unit
  | .interpreterStop => Unit
  | .interpret _ _ _ => Int32 × ByteArray
  | .awaitCompletion _ => List JobId
  | .readClock => Instant
  | .sleep _ => Unit
  | .report _ => Unit
  | .overflow => Unit

end Linux

/-- The vocabulary of the machine that the program runs on. -/
abbrev Linux : Vocabulary := ⟨Linux.Request, Linux.Reply⟩

namespace Linux

/-- Asks one thing of the machine. -/
def ask (q : Request) : Dialog Linux (Reply q) := Dialog.request (V := Linux) q

/-- A dialog with the machine that can end in a fault. -/
abbrev Opening (α : Type) : Type 1 := ExceptT Fault (Dialog Linux) α

/-- Goes on either way, with what came of it. -/
def outcome {α : Type} (opening : Opening α) : Opening (Except Fault α) := ExceptT.lift opening.run

end Linux

end VideoCore
