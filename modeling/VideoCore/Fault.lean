import VideoCore.Fault.Errno

/-!
# Faults

Everything that can go wrong at the boundary to the hardware. A well-formed refusal by the
hardware (memory exhausted, a job that timed out) is not a fault: it is an ordinary answer. A
fault is either *fatal*, a device, mapping, library or transport that is broken, or a mistake of
the caller that is turned away before any hardware is touched. Apart from both stands the overflow
of a word, which nothing looks out for: arithmetic that is checked stops the call there.
-/

namespace VideoCore

/-- Why an operation of the operating system failed. -/
inductive Cause where
  /-- The operating system gave an error number. -/
  | system (number : Int32)
  /-- There is nothing of that name; found out without asking for it. -/
  | notFound
  /-- The name holds the character that ends names, so there is no asking for it. -/
  | unusableName
  /-- A file that should hold text does not. -/
  | notText
  /-- Some other reason, in its own words. -/
  | other (text : String)
  deriving DecidableEq, Repr

/-- The cause in words. -/
def Cause.text : Cause → String
  | system number =>
    Fault.systemErrorText number ++ " (os error " ++ Text.signedDecimal number.toInt ++ ")"
  | notFound => "entity not found"
  | unusableName => "file name contained an unexpected NUL byte"
  | notText => "stream did not contain valid UTF-8"
  | other text => text

/-- A mistake in the arguments of a call. -/
inductive Misuse where
  | emptyBuffer
  | alignment (bytes : UInt32)
  | dispatchWidth (programs : Nat)
  | other (text : String)
  deriving DecidableEq, Repr

/-- The most QPUs that one dispatch can use, which is how many there are. -/
def maxQpus : Nat := 12

/-- The mistake in words. -/
def Misuse.text : Misuse → String
  | emptyBuffer => "buffer size must not be zero"
  | alignment bytes => "buffer alignment " ++ Text.decimal bytes.toNat ++ " is not a power of two"
  | dispatchWidth programs =>
    "cannot dispatch to " ++ Text.decimal programs ++ " QPUs (1..=" ++ Text.decimal maxQpus ++ ")"
  | other text => text

/-- Something that the chosen backends cannot do. -/
inductive Lack where
  | allocation
  | execution
  | poolSizeWithoutPool
  | poolSizeUnlisted
  | other (text : String)
  deriving DecidableEq, Repr

/-- What is lacking, in words. -/
def Lack.text : Lack → String
  | allocation => "buffer allocation without a memory backend"
  | execution => "kernel execution without an execution backend"
  | poolSizeWithoutPool => "total GPU memory without CMA"
  | poolSizeUnlisted => "total GPU memory without CmaTotal"
  | other text => text

/-- A failed operation. -/
inductive Fault where
  | deviceOpen (path : String) (cause : Cause)
  | map (address : UInt32) (length : Nat) (cause : Cause)
  | transport (tag : UInt32) (cause : Cause)
  | library (name : String) (reason : String)
  | firmware (call : String) (status : Int32)
  | unsupported (lack : Lack)
  | invalidArgument (misuse : Misuse)
  | counterIndexOutOfRange (index max : UInt8)
  | qpuIndexOutOfRange (index max : UInt8)
  | counterPowerGated (index : UInt8)
  /-- A product did not fit its word. -/
  | overflow
  deriving DecidableEq, Repr

namespace Fault

/-- Whether a system resource is broken, so that the device should be given up. -/
def isFatal : Fault → Bool
  | deviceOpen .. | map .. | transport .. | library .. | firmware .. => true
  | _ => false

/-- The name of the kind of a fault. -/
def kind : Fault → String
  | deviceOpen .. => "DeviceOpen"
  | map .. => "Map"
  | transport .. => "Transport"
  | library .. => "Library"
  | firmware .. => "Firmware"
  | unsupported .. => "Unsupported"
  | invalidArgument .. => "InvalidArgument"
  | counterIndexOutOfRange .. => "CounterIndexOutOfRange"
  | qpuIndexOutOfRange .. => "QpuIndexOutOfRange"
  | counterPowerGated .. => "CounterPowerGated"
  | overflow => "Panic"

/-- What lies behind a fault, in words, where something does. -/
def cause? : Fault → Option String
  | deviceOpen _ cause | map _ _ cause | transport _ cause => some cause.text
  | library _ reason => some reason
  | _ => none

/-- The fault in words. -/
def message : Fault → String
  | deviceOpen path cause => "failed to open " ++ path ++ ": " ++ cause.text
  | map address length cause =>
    "failed to map " ++ Text.hex length ++ " bytes of physical memory at "
      ++ Text.hexWord address.toNat ++ ": " ++ cause.text
  | transport tag cause =>
    "mailbox ioctl for tag " ++ Text.hex tag.toNat ++ " failed: " ++ cause.text
  | library name reason => "failed to load " ++ name ++ ": " ++ reason
  | firmware call status =>
    "firmware call " ++ call ++ " failed with status " ++ Text.signedDecimal status.toInt
  | unsupported lack => lack.text ++ " is not supported by this backend configuration"
  | invalidArgument misuse => "invalid argument: " ++ misuse.text
  | counterIndexOutOfRange index max =>
    "performance counter index " ++ Text.decimal index.toNat ++ " out of range (max "
      ++ Text.decimal max.toNat ++ ")"
  | qpuIndexOutOfRange index max =>
    "QPU index " ++ Text.decimal index.toNat ++ " out of range (max " ++ Text.decimal max.toNat
      ++ ")"
  | counterPowerGated index =>
    "performance counter " ++ Text.decimal index.toNat ++ " is not readable (V3D power-gated)"
  | overflow => "attempt to multiply with overflow"

end Fault

end VideoCore
