import VideoCore.Session
import VideoCore.Info.Collect
import VideoCore.Info.Options

/-!
# The report tool

Opens the system that the environment and the options describe, collects the report, writes it
and lets go of the system. If there is no report, what failed is written instead, followed by
what was behind it.
-/

namespace VideoCore.Info

open Linux (Links across)

/-- What a run of the tool leaves behind. -/
structure Outcome where
  exit : UInt8
  output : String := ""
  errors : String := ""
  deriving DecidableEq, Repr

/-! ## Failures in words -/

namespace Failure

/-- What failed. -/
def headline : Failure → String
  | fault (some context) _ => context
  | fault none f => f.message
  | refused size =>
    "the memory backend refused to allocate " ++ Text.decimal size.toNat ++ " bytes"

/-- Whether it is no failure of an operation but the end of the process. -/
def isCrash : Failure → Bool
  | fault _ f => f = .overflow
  | refused _ => false

/-- What was behind it, one cause behind the other. -/
def causes : Failure → List String
  | fault (some _) f => f.message :: f.cause?.toList
  | fault none f => f.cause?.toList
  | refused _ => []

/-- The lines for the causes, numbered if there are several. -/
def causeLines : List String → List String
  | [cause] => ["    " ++ cause]
  | causes => causes.zipIdx.map fun (cause, i) => "    " ++ Text.decimal i ++ ": " ++ cause

/-- A failure in words. -/
def render (f : Failure) : String :=
  let behind := if f.causes.isEmpty then [] else "" :: "Caused by:" :: causeLines f.causes
  String.join ((("Error: " ++ f.headline) :: behind).map (· ++ "\n"))

end Failure

/-! ## A run -/

/-- The configuration that the options and the environment give. -/
def configure (o : Options) : Dialog Linux Config := do
  if o.emulated then return .fullyEmulated
  return (← Linux.readConfig).1

/-- Lets go of a system from which no buffer is held any more. -/
def letGo (s : System) (links : Links) : Dialog Linux Unit :=
  discard (across links (Session.detach { system := s }))

/-- Opens the system and collects the report. -/
def report (o : Options) : Dialog Linux (Except Failure Report) := do
  let config ← configure o
  match ← (Linux.openSystem config).run with
  | .error fault => return .error (.fault (some "initialise hardware access") fault)
  | .ok (s, links) =>
    let result ← collect s links o.allocate
    letGo s links
    return result

/-- What a run leaves behind after its report. An overflow ends the process with status 101 and leaves
nothing to read, anything else that fails ends it with status 1. -/
def outcomeOf (json : Bool) : Except Failure Report → Outcome
  | .ok r => { exit := 0, output := if json then r.renderJson else r.renderText }
  | .error failure =>
    if failure.isCrash then { exit := 101 } else { exit := 1, errors := failure.render }

/-- Runs the tool on the words of a command line. A command line that cannot be read ends it with
status 2. -/
def run (words : List String) : Dialog Linux Outcome := do
  match Options.read? words with
  | none => return { exit := 2 }
  | some options => return outcomeOf options.json (← report options)

end VideoCore.Info
