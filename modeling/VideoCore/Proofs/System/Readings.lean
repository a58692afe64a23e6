import VideoCore.Proofs.Mailbox.Calls
import VideoCore.Proofs.Session.Reach

/-!
# What the backends know of the machine

A backend is asked for a value in at most two exchanges, and whatever goes wrong in them is no answer.
For each of the four backends of the hardware this module lists every way in which that can go: what is
exchanged, and the answer. The mailbox answers if the firmware accepts its message, the register block
if it has power, shared memory if it can read the size of its pool, and the GPU service if its command
interpreter replies with a number.
-/

namespace VideoCore

open Firmware Hardware
open Dialog (Transcript)

variable {events : List (Exchange Hardware)} {answer : Option UInt32} {q : SystemQuery}

/-- A request whose reply is all that matters is one exchange. -/
theorem Hardware.transcript_ask_done {α : Type} {request : Request} {f : Reply request → α} {a : α} :
    Transcript (Dialog.ask (V := Hardware) request fun reply => .done (f reply)) events a ↔
      ∃ reply, events = [⟨request, reply⟩] ∧ a = f reply := by
  rw [Dialog.transcript_ask]
  constructor
  · rintro ⟨reply, rest, rfl, hrest⟩
    obtain ⟨rfl, rfl⟩ := Dialog.transcript_done.mp hrest
    exact ⟨reply, rfl, rfl⟩
  · rintro ⟨reply, rfl, rfl⟩
    exact ⟨reply, [], rfl, .done _⟩

/-! ## The mailbox -/

namespace Mailbox

/-- The message that puts a query to the firmware. Its response is of two words, and the second one is
the answer. -/
def queryMessage? : SystemQuery → Option Message
  | .currentQpuClockRateHz => some (.ofRequest .getClockRate [Clock.v3d.id] 2)
  | .maximumQpuClockRateHz => some (.ofRequest .getMaxClockRate [Clock.v3d.id] 2)
  | .currentArmClockRateHz => some (.ofRequest .getClockRate [Clock.arm.id] 2)
  | .maximumArmClockRateHz => some (.ofRequest .getMaxClockRate [Clock.arm.id] 2)
  | .qpuTemperatureMilliDegrees => some (.ofRequest .getTemperature [0] 2)
  | .totalArmMemoryBytes => some (.ofRequest .armMemory [] 2)
  | .totalGpuMemoryBytes => some (.ofRequest .vcMemory [] 2)
  | .totalVpmMemoryBytes | .numQpus => none

/-- Every way in which the firmware can be asked a query. -/
inductive Reads (q : SystemQuery) : List (Exchange Hardware) → Option UInt32 → Prop where
  /-- No message puts the query. -/
  | unknown (hquestion : queryMessage? q = none) : Reads q [] none
  /-- The operating system fails the call. -/
  | failed {m : Message} (hquestion : queryMessage? q = some m) (cause : Cause) :
      Reads q [⟨.property m, .error cause⟩] none
  /-- The firmware refuses the message, or has not worked on it. -/
  | refused {m : Message} (hquestion : queryMessage? q = some m)
      (words : Vector UInt32 (m.contentWords + 6))
      (hstatus : (m.withReply words).status.isSuccess = false) :
      Reads q [⟨.property m, .ok words⟩] none
  | answered {m : Message} (hquestion : queryMessage? q = some m)
      (words : Vector UInt32 (m.contentWords + 6))
      (hstatus : (m.withReply words).status.isSuccess = true) :
      Reads q [⟨.property m, .ok words⟩] (some ((m.withReply words).content 1))

/-- The answer in the reply to a message. -/
def answerIn? (m : Message) : Reply (.property m) → Option UInt32
  | .error _ => none
  | .ok words =>
    if (m.withReply words).status.isSuccess then some ((m.withReply words).content 1) else none

/-- Asking for the second word of a response is asking for both and leaving the first one. -/
theorem requestPair_snd (tag : Tag) (words : List UInt32) :
    (do return (← requestPair tag words).map Prod.snd) = requestWord tag words 2 1 := by
  unfold requestPair requestWord
  rw [bind_assoc]
  congr 1
  funext response
  cases response with
  | none => rfl
  | some reply => rfl

/-- A query that the firmware knows is a request for one word. -/
theorem query_eq {m : Message} (h : queryMessage? q = some m) :
    ∃ tag words, m = .ofRequest tag words 2 ∧ query q = requestWord tag words 2 1 := by
  cases q with
  | totalVpmMemoryBytes | numQpus => cases h
  | totalArmMemoryBytes | totalGpuMemoryBytes =>
    cases h
    exact ⟨_, _, rfl, requestPair_snd _ _⟩
  | _ =>
    cases h
    exact ⟨_, _, rfl, rfl⟩

theorem query_of_unknown (h : queryMessage? q = none) : query q = pure none := by
  cases q with
  | totalVpmMemoryBytes | numQpus => rfl
  | _ => cases h

/-- All that a request for one word makes of its reply. -/
theorem run_requestWord (tag : Tag) (words : List UInt32) (room index : Nat) :
    (requestWord tag words room index).run =
      .ask (.property (.ofRequest tag words room)) fun reply => .done (wordOf _ index reply) := by
  refine congrArg (Dialog.ask _) (funext fun reply => ?_)
  rcases reply with cause | reply
  · rfl
  · have haccepted : ∀ (m : Message) (accepted : Bool),
        (if accepted then some m else none).map (fun m => m.content index) =
          if accepted then some (m.content index) else none := by
      rintro m (_ | _)
      · rfl
      · rfl
    exact congrArg (fun word => (pure word : Attempt (Option UInt32)).run)
      (haccepted ((Message.ofRequest tag words room).withReply reply) _)

theorem requestWord_plain {allowed : Request → Prop} (h : ∀ m, allowed (.property m)) (tag : Tag)
    (words : List UInt32) (room index : Nat) :
    Trial.Plain allowed (requestWord tag words room index) := by
  constructor
  rw [run_requestWord]
  exact ⟨h _, fun _ => trivial⟩

/-- A query is one message or nothing, and all that matters of the reply is the answer in it. -/
theorem readValue_eq (q : SystemQuery) :
    readValue q = match queryMessage? q with
      | none => .done none
      | some m => .ask (.property m) fun reply => .done (answerIn? m reply) := by
  unfold readValue
  cases hquestion : queryMessage? q with
  | none =>
    rw [query_of_unknown hquestion]
    rfl
  | some m =>
    obtain ⟨tag, words, rfl, hquery⟩ := query_eq hquestion
    rw [hquery, run_requestWord]
    refine congrArg (Dialog.ask _) (funext fun reply => ?_)
    cases reply with
    | error cause => rfl
    | ok words => rfl

theorem transcript_readValue : Transcript (readValue q) events answer ↔ Reads q events answer := by
  rw [readValue_eq]
  cases hquestion : queryMessage? q with
  | none =>
    refine Dialog.transcript_done.trans ?_
    constructor
    · rintro ⟨rfl, rfl⟩
      exact .unknown hquestion
    · intro h
      cases h with
      | unknown => exact ⟨rfl, rfl⟩
      | failed h' | refused h' | answered h' => simp [hquestion] at h'
  | some m =>
    refine transcript_ask_done.trans ?_
    constructor
    · rintro ⟨cause | words, rfl, rfl⟩
      · exact .failed hquestion cause
      · simp only [answerIn?]
        split
        · next hstatus => exact .answered hquestion words hstatus
        · next hstatus => exact .refused hquestion words (by simpa using hstatus)
    · intro h
      cases h with
      | unknown h' => simp [hquestion] at h'
      | failed h' cause =>
        obtain rfl := Option.some.inj (hquestion.symm.trans h')
        exact ⟨.error cause, rfl, rfl⟩
      | refused h' words hstatus =>
        obtain rfl := Option.some.inj (hquestion.symm.trans h')
        exact ⟨.ok words, rfl, by simp [answerIn?, hstatus]⟩
      | answered h' words hstatus =>
        obtain rfl := Option.some.inj (hquestion.symm.trans h')
        exact ⟨.ok words, rfl, by simp [answerIn?, hstatus]⟩

end Mailbox

/-! ## The register block -/

namespace V3d

/-- The value of the identification that answers a query. -/
def infoFor? : SystemQuery → Option Info
  | .numQpus => some .qpuCount
  | .totalVpmMemoryBytes => some .vpmMemorySize
  | _ => none

/-- Every way in which the register block can be asked a query. -/
inductive Reads (q : SystemQuery) : List (Exchange Hardware) → Option UInt32 → Prop where
  /-- The block has no power. -/
  | gated : Reads q [⟨.readRegister Reg.ident1, gatedValue⟩] none
  /-- The identification does not tell. -/
  | unknown (ident : UInt32) (hpower : ident ≠ gatedValue) (hinfo : infoFor? q = none) :
      Reads q [⟨.readRegister Reg.ident1, ident⟩] none
  | answered (ident : UInt32) (hpower : ident ≠ gatedValue) {i : Info} (hinfo : infoFor? q = some i)
      (contents : UInt32) :
      Reads q [⟨.readRegister Reg.ident1, ident⟩, ⟨.readRegister i.register, contents⟩]
        (some (i.decode contents))

/-- A block with power is read a second time if the query is one that it answers. -/
theorem readValue_eq (q : SystemQuery) :
    readValue q = .ask (.readRegister Reg.ident1) fun ident =>
      if ident = gatedValue then .done none
      else match infoFor? q with
        | none => .done none
        | some i => .ask (.readRegister i.register) fun contents => .done (some (i.decode contents)) := by
  refine congrArg (Dialog.ask _) (funext fun ident => ?_)
  show (if ident = gatedValue then _ else _) = _
  split
  · rfl
  · cases q
    all_goals rfl

theorem transcript_readValue : Transcript (readValue q) events answer ↔ Reads q events answer := by
  rw [readValue_eq]
  refine Dialog.transcript_ask.trans ?_
  constructor
  · rintro ⟨ident, rest, rfl, hrest⟩
    split at hrest
    · next hgated =>
      obtain ⟨rfl, rfl⟩ := Dialog.transcript_done.mp hrest
      rw [hgated]
      exact .gated
    · next hpower =>
      split at hrest
      · next hinfo =>
        obtain ⟨rfl, rfl⟩ := Dialog.transcript_done.mp hrest
        exact .unknown ident hpower hinfo
      · next i hinfo =>
        obtain ⟨contents, rfl, rfl⟩ := transcript_ask_done.mp hrest
        exact .answered ident hpower hinfo contents
  · intro h
    cases h with
    | gated => exact ⟨gatedValue, [], rfl, .done _⟩
    | unknown ident hpower hinfo =>
      refine ⟨ident, [], rfl, ?_⟩
      rw [if_neg hpower, hinfo]
      exact .done _
    | answered ident hpower hinfo contents =>
      refine ⟨ident, _, rfl, ?_⟩
      rw [if_neg hpower, hinfo]
      exact transcript_ask_done.mpr ⟨contents, rfl, rfl⟩

end V3d

/-! ## Shared memory -/

namespace SharedMemory

/-- The size of the pool in the contents of a memory report, at most what fits a word. -/
def sizeIn? (contents : ByteArray) : Option UInt32 := do
  let report ← String.fromUTF8? contents
  let size ← poolSize? report
  return UInt32.ofNat (min size.toNat (UInt32.size - 1))

/-- Whether the size in the contents of a memory report loses its high bits. -/
def sizeOverflows (contents : ByteArray) : Bool := (String.fromUTF8? contents).any poolOverflows

/-- A memory report lists a pool of some units of 1024 bytes. -/
def ListsUnits (contents : ByteArray) (kib : UInt64) : Prop :=
  ∃ report, String.fromUTF8? contents = some report ∧ poolUnits? report = some kib

/-- The low bits of the bytes are what counts as the size. -/
theorem ListsUnits.sizeIn?_eq {contents : ByteArray} {kib : UInt64} (h : ListsUnits contents kib) :
    sizeIn? contents =
      some (.ofNat (min (kib.toNat * 1024 % UInt64.size) (UInt32.size - 1))) := by
  obtain ⟨report, hreport, hunits⟩ := h
  have hproduct : (kib * 1024).toNat = kib.toNat * 1024 % UInt64.size := UInt64.toNat_mul ..
  simp only [sizeIn?, hreport, poolSize?, hunits, Option.bind_eq_bind, Option.bind_some,
    Option.map_some, hproduct]
  rfl

/-- The other bits are lost exactly if they are not all 0. -/
theorem sizeOverflows_iff {contents : ByteArray} :
    sizeOverflows contents = true ↔
      ∃ kib, ListsUnits contents kib ∧ UInt64.size ≤ kib.toNat * 1024 := by
  simp only [sizeOverflows, poolOverflows, overflows, Option.any_eq_true, decide_eq_true_eq, ListsUnits]
  constructor
  · rintro ⟨report, hreport, kib, hunits, hlarge⟩
    exact ⟨kib, ⟨report, hreport, hunits⟩, hlarge⟩
  · rintro ⟨kib, ⟨report, hreport, hunits⟩, hlarge⟩
    exact ⟨report, hreport, kib, hunits, hlarge⟩

/-- What is exchanged about a product, if it does not fit. -/
def noted (overflowed : Bool) : List (Exchange Hardware) :=
  if overflowed then [⟨.overflow, ()⟩] else []

theorem mem_noted {overflowed : Bool} {e : Exchange Hardware} :
    e ∈ noted overflowed ↔ overflowed = true ∧ e = ⟨.overflow, ()⟩ := by
  cases overflowed <;> simp [noted]

/-- A value that is told after the overflow of a product, if it did not fit. -/
def noting {α : Type} (overflowed : Bool) (a : α) : Access α :=
  if overflowed then .ask .overflow fun _ => .done a else .done a

theorem transcript_noting {α : Type} {overflowed : Bool} {a told : α} :
    Transcript (noting overflowed a) events told ↔ events = noted overflowed ∧ told = a := by
  cases overflowed with
  | true =>
    refine transcript_ask_done.trans ⟨fun ⟨_, hevents, htold⟩ => ⟨hevents, htold⟩, ?_⟩
    exact fun ⟨hevents, htold⟩ => ⟨(), hevents, htold⟩
  | false => exact Dialog.transcript_done

theorem plain_noting {α : Type} {allowed : Request → Prop} (h : allowed .overflow)
    (overflowed : Bool) (a : α) : (noting overflowed a).Plain allowed := by
  cases overflowed with
  | true => exact ⟨h, fun _ => trivial⟩
  | false => trivial

/-- What is made of the value in the end does not matter. -/
theorem bind_noting {α β : Type} (overflowed : Bool) (a : α) (f : α → β) :
    (noting overflowed a).bind (fun a => .done (f a)) = noting overflowed (f a) := by
  cases overflowed with
  | true => rfl
  | false => rfl

/-- A request whose reply may lead to an overflow, and is all that matters otherwise. -/
theorem transcript_ask_noting {α : Type} {request : Request} {lost : Reply request → Bool}
    {f : Reply request → α} {a : α} :
    Transcript (Dialog.ask (V := Hardware) request fun reply => noting (lost reply) (f reply)) events a ↔
      ∃ reply, events = ⟨request, reply⟩ :: noted (lost reply) ∧ a = f reply := by
  rw [Dialog.transcript_ask]
  refine exists_congr fun reply => ?_
  simp only [transcript_noting]
  constructor
  · rintro ⟨rest, rfl, rfl, ha⟩
    exact ⟨rfl, ha⟩
  · rintro ⟨rfl, ha⟩
    exact ⟨_, rfl, rfl, ha⟩

variable {s : SharedMemory}

/-- Whether the service goes to its memory report with a query. The legacy service has no pool whose
size could be listed, and no file has a name with the character that ends names. -/
def consults (s : SharedMemory) (q : SystemQuery) : Bool :=
  q == .totalGpuMemoryBytes && s.usesPool && !s.memoryReport.contains '\x00'

/-- Every way in which shared memory can be asked a query. -/
inductive Reads (s : SharedMemory) (q : SystemQuery) :
    List (Exchange Hardware) → Option UInt32 → Prop where
  | unknown (hconsults : s.consults q = false) : Reads s q [] none
  /-- The memory report is missing or cannot be read. -/
  | unreadable (hconsults : s.consults q = true) (cause : Cause) :
      Reads s q [⟨.fileContents s.memoryReport, .error cause⟩] none
  /-- It is no text, or lists no size. -/
  | unlisted (hconsults : s.consults q = true) (contents : ByteArray) (hsize : sizeIn? contents = none) :
      Reads s q [⟨.fileContents s.memoryReport, .ok contents⟩] none
  | answered (hconsults : s.consults q = true) (contents : ByteArray) {size : UInt32}
      (hsize : sizeIn? contents = some size) :
      Reads s q (⟨.fileContents s.memoryReport, .ok contents⟩ :: noted (sizeOverflows contents))
        (some size)

/-- What is made of the contents of the memory report. -/
def totalIn (s : SharedMemory) : Except Cause ByteArray → Except Fault UInt32
  | .error cause => .error (.deviceOpen s.memoryReport cause)
  | .ok contents =>
    match String.fromUTF8? contents with
    | none => .error (.deviceOpen s.memoryReport .notText)
    | some report =>
      match poolSize? report with
      | none => .error (.unsupported .poolSizeUnlisted)
      | some size => .ok (UInt32.ofNat (min size.toNat (UInt32.size - 1)))

/-- Whether the size in what came back for the memory report loses its high bits. -/
def replyOverflows (reply : Except Cause ByteArray) : Bool := reply.toOption.any sizeOverflows

/-- A service that draws on the pool looks into the memory report, and at nothing else. -/
theorem run_totalGpuMemory (hpool : s.usesPool = true) (hname : s.memoryReport.contains '\x00' = false) :
    s.totalGpuMemory.run = .ask (.fileContents s.memoryReport) fun reply =>
      noting (replyOverflows reply) (s.totalIn reply) := by
  unfold totalGpuMemory Hardware.fileContents
  rw [hpool, hname]
  refine congrArg (Dialog.ask _) (funext fun reply => ?_)
  cases reply with
  | error cause => rfl
  | ok contents =>
    simp only [Dialog.bind_done, ExceptT.bindCont, Function.comp_apply, totalIn, replyOverflows,
      Except.toOption, Option.any_some, sizeOverflows]
    cases String.fromUTF8? contents with
    | none => rfl
    | some report =>
      dsimp only
      rw [Option.any_some, poolOverflows]
      unfold poolSize?
      cases poolUnits? report with
      | none => rfl
      | some kib =>
        rw [Option.any_some]
        cases overflows kib with
        | true => rfl
        | false => rfl

theorem toOption_totalIn (s : SharedMemory) (reply : Except Cause ByteArray) :
    (s.totalIn reply).toOption = reply.toOption.bind sizeIn? := by
  cases reply with
  | error cause => rfl
  | ok contents =>
    show (s.totalIn (.ok contents)).toOption = sizeIn? contents
    simp only [totalIn, sizeIn?, Option.bind_eq_bind]
    cases String.fromUTF8? contents with
    | none => rfl
    | some report =>
      rw [Option.bind_some]
      dsimp only
      cases poolSize? report with
      | none => rfl
      | some size => rfl

/-- What is not listed does not overflow. -/
theorem sizeOverflows_of_unlisted {contents : ByteArray} (h : sizeIn? contents = none) :
    sizeOverflows contents = false := by
  unfold sizeOverflows
  cases hreport : String.fromUTF8? contents with
  | none => rfl
  | some report =>
    rw [sizeIn?, hreport] at h
    rw [Option.any_some, poolOverflows]
    cases hunits : poolUnits? report with
    | none => rfl
    | some kib => simp [poolSize?, hunits] at h

/-- All that matters of the memory report is the size that it lists. -/
theorem readValue_eq (s : SharedMemory) (q : SystemQuery) :
    s.readValue q =
      if s.consults q then
        .ask (.fileContents s.memoryReport) fun reply =>
          noting (replyOverflows reply) (reply.toOption.bind sizeIn?)
      else .done none := by
  unfold readValue consults
  split
  · next hquery => simp [hquery, Dialog.pure_eq]
  next hquery =>
  cases hpool : s.usesPool with
  | false =>
    simp only [totalGpuMemory, hpool, Bool.and_false, Bool.false_and, Bool.false_eq_true, if_false]
    rfl
  | true =>
    cases hname : s.memoryReport.contains '\x00' with
    | true =>
      simp only [totalGpuMemory, Hardware.fileContents, hpool, hname, Bool.not_true, Bool.and_false,
        Bool.false_eq_true, if_false]
      rfl
    | false =>
      simp only [run_totalGpuMemory hpool hname, not_not.mp hquery, beq_self_eq_true, Bool.not_false,
        Bool.and_self, if_true]
      refine congrArg (Dialog.ask _) (funext fun reply => ?_)
      rw [← toOption_totalIn, ← bind_noting]
      refine congrArg (Dialog.bind _) (funext fun total => ?_)
      cases total with
      | ok size => rfl
      | error fault => rfl

theorem transcript_readValue :
    Transcript (s.readValue q) events answer ↔ Reads s q events answer := by
  rw [readValue_eq]
  split
  · next hconsults =>
    refine transcript_ask_noting.trans ?_
    constructor
    · rintro ⟨cause | contents, rfl, rfl⟩
      · exact .unreadable hconsults cause
      · show Reads s q (_ :: noted (sizeOverflows contents)) (sizeIn? contents)
        cases hsize : sizeIn? contents with
        | none =>
          rw [sizeOverflows_of_unlisted hsize]
          exact .unlisted hconsults contents hsize
        | some size => exact .answered hconsults contents hsize
    · intro h
      cases h with
      | unknown h' => simp [hconsults] at h'
      | unreadable _ cause => exact ⟨.error cause, rfl, rfl⟩
      | unlisted _ contents hsize =>
        refine ⟨.ok contents, ?_, hsize.symm⟩
        rw [show replyOverflows (.ok contents) = sizeOverflows contents from rfl,
          sizeOverflows_of_unlisted hsize]
        rfl
      | answered _ contents hsize => exact ⟨.ok contents, rfl, hsize.symm⟩
  · next hconsults =>
    have hconsults : s.consults q = false := by simpa using hconsults
    refine Dialog.transcript_done.trans ?_
    constructor
    · rintro ⟨rfl, rfl⟩
      exact .unknown hconsults
    · intro h
      cases h with
      | unknown => exact ⟨rfl, rfl⟩
      | unreadable h' | unlisted h' | answered h' => simp [hconsults] at h'

/-- Nothing overflows but a size that is listed. -/
theorem Reads.listed_of_overflow (h : s.Reads q events answer) (hmem : ⟨.overflow, ()⟩ ∈ events) :
    ∃ path contents kib, ⟨.fileContents path, .ok contents⟩ ∈ events ∧ ListsUnits contents kib ∧
      UInt64.size ≤ kib.toNat * 1024 := by
  cases h with
  | unknown => cases hmem
  | unreadable | unlisted => simp at hmem
  | answered _ contents hsize =>
    have hnoted := (List.mem_cons.mp hmem).resolve_left (by simp)
    obtain ⟨kib, hlisted, hlarge⟩ := sizeOverflows_iff.mp (mem_noted.mp hnoted).1
    exact ⟨_, contents, kib, List.mem_cons_self, hlisted, hlarge⟩

/-- A size that is listed is the answer. -/
theorem Reads.of_listed (h : s.Reads q events answer) {path : String} {contents : ByteArray}
    {kib : UInt64} (hmem : ⟨.fileContents path, .ok contents⟩ ∈ events)
    (hlisted : ListsUnits contents kib) :
    (UInt64.size ≤ kib.toNat * 1024 → ⟨.overflow, ()⟩ ∈ events) ∧
      answer = some (.ofNat (min (kib.toNat * 1024 % UInt64.size) (UInt32.size - 1))) := by
  cases h with
  | unknown => cases hmem
  | unreadable => simp at hmem
  | unlisted _ contents' hsize =>
    cases List.mem_singleton.mp hmem
    rw [hlisted.sizeIn?_eq] at hsize
    cases hsize
  | answered _ contents' hsize =>
    rcases List.mem_cons.mp hmem with hfile | hnoted
    · cases hfile
      rw [hlisted.sizeIn?_eq] at hsize
      refine ⟨fun hlarge => List.mem_cons_of_mem _ ?_, hsize.symm⟩
      exact mem_noted.mpr ⟨sizeOverflows_iff.mpr ⟨kib, hlisted, hlarge⟩, rfl⟩
    · cases (mem_noted.mp hnoted).2

end SharedMemory

/-! ## The GPU service -/

namespace GpuService

/-- Every way in which the GPU service can be asked a query. -/
inductive Reads (q : SystemQuery) : List (Exchange Hardware) → Option UInt32 → Prop where
  /-- No command answers the query. -/
  | unknown (hcommand : commandFor q = none) : Reads q [] none
  /-- The command interpreter does not reply. -/
  | silent {text : String} {unit : CommandUnit} (hcommand : commandFor q = some (text, unit)) :
      Reads q [⟨.command text, none⟩] none
  /-- There is no number in its reply, or none that fits. -/
  | garbled {text : String} {unit : CommandUnit} (hcommand : commandFor q = some (text, unit))
      (reply : String) (hreply : readReply? q reply = none) :
      Reads q [⟨.command text, some reply⟩] none
  | answered {text : String} {unit : CommandUnit} (hcommand : commandFor q = some (text, unit))
      (reply : String) {value : UInt32} (hreply : readReply? q reply = some value) :
      Reads q [⟨.command text, some reply⟩] (some value)

/-- A query is one command or nothing. -/
theorem readValue_eq (q : SystemQuery) :
    readValue q = match commandFor q with
      | none => .done none
      | some (text, _) => .ask (.command text) fun reply => .done (reply.bind (readReply? q)) := by
  unfold readValue
  cases commandFor q with
  | none => rfl
  | some command =>
    refine congrArg (Dialog.ask _) (funext fun reply => ?_)
    cases reply with
    | none => rfl
    | some reply => rfl

theorem transcript_readValue : Transcript (readValue q) events answer ↔ Reads q events answer := by
  rw [readValue_eq]
  cases hcommand : commandFor q with
  | none =>
    refine Dialog.transcript_done.trans ?_
    constructor
    · rintro ⟨rfl, rfl⟩
      exact .unknown hcommand
    · intro h
      cases h with
      | unknown => exact ⟨rfl, rfl⟩
      | silent h' | garbled h' | answered h' => simp [hcommand] at h'
  | some command =>
    obtain ⟨text, unit⟩ := command
    refine transcript_ask_done.trans ?_
    constructor
    · rintro ⟨_ | reply, rfl, rfl⟩
      · exact .silent hcommand
      · rw [Option.bind_some]
        cases hreply : readReply? q reply with
        | none => exact .garbled hcommand reply hreply
        | some value => exact .answered hcommand reply hreply
    · intro h
      cases h with
      | unknown h' => simp [hcommand] at h'
      | silent h' =>
        cases hcommand.symm.trans h'
        exact ⟨none, rfl, rfl⟩
      | garbled h' reply hreply =>
        cases hcommand.symm.trans h'
        exact ⟨some reply, rfl, hreply.symm⟩
      | answered h' reply hreply =>
        cases hcommand.symm.trans h'
        exact ⟨some reply, rfl, hreply.symm⟩

end GpuService

end VideoCore
