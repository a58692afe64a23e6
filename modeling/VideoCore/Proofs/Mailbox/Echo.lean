import VideoCore.Proofs.Mailbox.Calls

/-!
# What the mailbox takes for an answer

The firmware answers a message in place, so a word that is read back after a round trip may be one
that the request itself put there. The firmware says in word 4 of the reply whether it answered the tag
and how long its response is. The mailbox does not look at that word: whether a word of the content is
an answer is decided by word 1 alone, which speaks of the message as a whole.

An `Operation` is one order or question with its arguments. All of them are one round trip
(`performs_operation`), and all read the content of the reply in a way of their own. A reply that
leaves the content as it was sent is an echo, and `failure_of_echo_iff` says which operations report
their failure for one: those to which their own request reads as a refusal. For the others the request
passes for the answer (`request_taken_for_answer`).
-/

namespace VideoCore.Mailbox

open Firmware Hardware

/-! ## Operations -/

/-- A question whose answer is one word. -/
inductive Question where
  | firmwareRevision
  | boardModel
  | boardRevision
  | clockRate (clock : Clock)
  | measuredClockRate (clock : Clock)
  | maxClockRate (clock : Clock)
  | minClockRate (clock : Clock)
  | temperature
  | maxTemperature
  | voltage (domain : UInt32)
  | throttled

/-- A question whose answer is two words. -/
inductive PairQuestion where
  | boardSerial
  | macAddress
  | armMemory
  | vcMemory

/-- An order or a question, with its arguments. A dispatch is one that the mailbox sends: not too wide,
and with a timeout that fits the message. -/
inductive Operation where
  | enableQpus (on : Bool)
  | allocateMemory (size alignment : UInt32) (flags : MemoryFlags)
  | lockMemory (handle : UInt32)
  | unlockMemory (handle : UInt32)
  | releaseMemory (handle : UInt32)
  | executeCode (code : BusAddress) (registers : Vector UInt32 6)
  | question (q : Question)
  | pairQuestion (q : PairQuestion)
  | execute (d : Dispatch) (timeout : UInt32) (valid : d.check = .ok ())
      (fits : d.timeoutMs? = some timeout)

namespace Question

def tag : Question → Tag
  | firmwareRevision => .firmwareRevision
  | boardModel => .boardModel
  | boardRevision => .boardRevision
  | clockRate _ => .getClockRate
  | measuredClockRate _ => .getClockRateMeasured
  | maxClockRate _ => .getMaxClockRate
  | minClockRate _ => .getMinClockRate
  | temperature => .getTemperature
  | maxTemperature => .getMaxTemperature
  | voltage _ => .getVoltage
  | throttled => .getThrottled

/-- What the question is about. -/
def words : Question → List UInt32
  | firmwareRevision | boardModel | boardRevision => []
  | clockRate clock | measuredClockRate clock | maxClockRate clock | minClockRate clock => [clock.id]
  | temperature | maxTemperature => [0]
  | voltage domain => [domain]
  | throttled => [0xFFFF]

/-- The word of the content that the answer stands in. It is the second one where the first names what
the question is about. -/
def index : Question → Nat
  | firmwareRevision | boardModel | boardRevision | throttled => 0
  | _ => 1

def ask : Question → Attempt (Option UInt32)
  | firmwareRevision => Mailbox.firmwareRevision
  | boardModel => Mailbox.boardModel
  | boardRevision => Mailbox.boardRevision
  | clockRate clock => Mailbox.clockRate clock
  | measuredClockRate clock => Mailbox.measuredClockRate clock
  | maxClockRate clock => Mailbox.maxClockRate clock
  | minClockRate clock => Mailbox.minClockRate clock
  | temperature => Mailbox.temperature
  | maxTemperature => Mailbox.maxTemperature
  | voltage domain => Mailbox.voltage domain
  | throttled => Mailbox.throttled

theorem ask_eq (q : Question) : q.ask = requestWord q.tag q.words (q.index + 1) q.index := by
  cases q <;> rfl

end Question

namespace PairQuestion

def tag : PairQuestion → Tag
  | boardSerial => .boardSerial
  | macAddress => .macAddress
  | armMemory => .armMemory
  | vcMemory => .vcMemory

abbrev Answer : PairQuestion → Type
  | boardSerial => Nat
  | macAddress => List UInt8
  | armMemory | vcMemory => UInt32 × UInt32

/-- What the two words say. -/
def read : (q : PairQuestion) → UInt32 × UInt32 → q.Answer
  | boardSerial => fun (low, high) => low.toNat + UInt32.size * high.toNat
  | macAddress => fun (low, high) => (Word.toBytes low ++ Word.toBytes high).take 6
  | armMemory | vcMemory => id

def ask : (q : PairQuestion) → Attempt (Option q.Answer)
  | boardSerial => Mailbox.boardSerial
  | macAddress => Mailbox.macAddress
  | armMemory => Mailbox.armMemory
  | vcMemory => Mailbox.vcMemory

end PairQuestion

namespace Operation

/-- The type of what an operation reports. -/
abbrev Report : Operation → Type
  | enableQpus _ | unlockMemory _ | releaseMemory _ => Bool
  | allocateMemory _ _ _ => UInt32
  | lockMemory _ => BusAddress
  | executeCode _ _ | question _ => Option UInt32
  | pairQuestion q => Option q.Answer
  | execute _ _ _ _ => Handle Unit

def perform : (op : Operation) → Attempt op.Report
  | enableQpus on => Mailbox.enableQpus on
  | allocateMemory size alignment flags => Mailbox.allocateMemory size alignment flags
  | lockMemory handle => Mailbox.lockMemory handle
  | unlockMemory handle => Mailbox.unlockMemory handle
  | releaseMemory handle => Mailbox.releaseMemory handle
  | executeCode code registers => Mailbox.executeCode code registers
  | question q => q.ask
  | pairQuestion q => q.ask
  | execute d _ _ _ => Mailbox.execute d

def tag : Operation → Tag
  | enableQpus _ => .enableQpu
  | allocateMemory _ _ _ => .allocateMemory
  | lockMemory _ => .lockMemory
  | unlockMemory _ => .unlockMemory
  | releaseMemory _ => .releaseMemory
  | executeCode _ _ => .executeCode
  | question q => q.tag
  | pairQuestion q => q.tag
  | execute _ _ _ _ => .executeQpu

/-- The words that an operation sends. -/
def words : Operation → List UInt32
  | enableQpus on => [if on then 1 else 0]
  | allocateMemory size alignment flags => [size, alignment, flags.bits]
  | lockMemory handle | unlockMemory handle | releaseMemory handle => [handle]
  | executeCode code registers => code.value :: registers.toList
  | question q => q.words
  | pairQuestion _ => []
  | execute d timeout _ _ =>
    [d.programs, d.controlAddress.value, if d.flushCache then 0 else 1, timeout]

/-- How many words of the content an operation reads up to, which is also the room for the response
that it sends along. -/
def reach : Operation → Nat
  | question q => q.index + 1
  | pairQuestion _ => 2
  | _ => 1

/-- The message that an operation sends. -/
def message (op : Operation) : Message := .ofRequest op.tag op.words op.reach

/-- What an operation reports of an accepted reply, from the words of its content. -/
def read : (op : Operation) → (Nat → UInt32) → op.Report
  | enableQpus _, content => content 0 == 0 || content 0 == responseSuccess
  | allocateMemory _ _ _, content => content 0
  | lockMemory _, content => ⟨content 0⟩
  | unlockMemory _, content | releaseMemory _, content => content 0 == 0
  | executeCode _ _, content => some (content 0)
  | question q, content => some (content q.index)
  | pairQuestion q, content => some (q.read (content 0, content 1))
  | execute _ _ _ _, content => .settled (content 0 == 0)

/-- What an operation reports when the firmware did not do as it was asked. -/
def failure : (op : Operation) → op.Report
  | enableQpus _ | unlockMemory _ | releaseMemory _ => false
  | allocateMemory _ _ _ => (0 : UInt32)
  | lockMemory _ => .null
  | executeCode _ _ | question _ => (none : Option UInt32)
  | pairQuestion q => (none : Option q.Answer)
  | execute _ _ _ _ => .settled false

/-- What an operation makes of the reply to its message. -/
def resultOf (op : Operation) : Reply (.property op.message) → Except Fault op.Report
  | .error cause => .error (.transport op.tag.id cause)
  | .ok words =>
    let answer := op.message.withReply words
    .ok (if answer.status.isSuccess then op.read answer.content else op.failure)

end Operation

/-! ## Every operation is one round trip -/

/-- What the round trip of a message gives: the reply, if the firmware accepted the message. -/
def responseOf (m : Message) : Reply (.property m) → Except Fault (Option Message)
  | .error cause => .error (.transport m.tagId cause)
  | .ok words =>
    let answer := m.withReply words
    .ok (if answer.status.isSuccess then some answer else none)

theorem performs_request {tag : Tag} {words : List UInt32} {room : Nat}
    {events : List (Exchange Hardware)} {r : Except Fault (Option Message)} :
    Performs (request tag words room) events r ↔
      ∃ reply : Reply (.property (.ofRequest tag words room)),
        events = [⟨.property (.ofRequest tag words room), reply⟩] ∧
        r = responseOf (.ofRequest tag words room) reply := by
  rw [request, performs_map]
  constructor
  · rintro ⟨q, h, rfl⟩
    obtain ⟨reply, rfl, rfl⟩ := performs_call.mp h
    refine ⟨reply, rfl, ?_⟩
    cases reply with
    | error cause => rfl
    | ok words => rfl
  · rintro ⟨reply, rfl, rfl⟩
    refine ⟨_, performs_call.mpr ⟨reply, rfl, rfl⟩, ?_⟩
    cases reply with
    | error cause => rfl
    | ok words => rfl

namespace Operation

/-- What an operation makes of a response, if there is one. -/
def reading (op : Operation) : Option Message → op.Report
  | some answer => op.read answer.content
  | none => op.failure

/-- An operation sends its request and reads the response. -/
theorem perform_eq (op : Operation) :
    op.perform = do return op.reading (← request op.tag op.words op.reach) := by
  have hreads : ∀ {f : Option Message → op.Report} {x : Attempt (Option Message)},
      (∀ response, f response = op.reading response) →
      (do return f (← x)) = (do return op.reading (← x)) := by
    intro f x hf
    rw [funext hf]
  cases op with
  | enableQpus | allocateMemory | lockMemory | unlockMemory | releaseMemory | executeCode =>
    simp only [perform, Mailbox.enableQpus, Mailbox.allocateMemory, Mailbox.lockMemory,
      Mailbox.unlockMemory, Mailbox.releaseMemory, Mailbox.executeCode, requestWord, bind_assoc,
      pure_bind]
    refine hreads fun response => ?_
    cases response <;> rfl
  | question q =>
    simp only [perform, q.ask_eq, requestWord]
    refine hreads fun response => ?_
    cases response <;> rfl
  | pairQuestion q =>
    cases q with
    | boardSerial | macAddress =>
      simp only [perform, PairQuestion.ask, Mailbox.boardSerial, Mailbox.macAddress, requestPair,
        bind_assoc, pure_bind]
      refine hreads fun response => ?_
      cases response <;> rfl
    | armMemory | vcMemory =>
      simp only [perform, PairQuestion.ask, Mailbox.armMemory, Mailbox.vcMemory, requestPair]
      refine hreads fun response => ?_
      cases response <;> rfl
  | execute d timeout valid fits =>
    have hexecute : (Mailbox.execute d : Attempt (Handle Unit)) = do
        return .settled ((← requestWord .executeQpu (words (.execute d timeout valid fits)) 1 0)
          == some 0) := by
      rw [Mailbox.execute, valid, fits]
      rfl
    simp only [perform, hexecute, requestWord, bind_assoc, pure_bind]
    refine hreads fun response => ?_
    cases response <;> rfl

/-- An operation is one round trip of its message, and reports what it makes of the reply. -/
theorem performs_operation {op : Operation} {events : List (Exchange Hardware)}
    {r : Except Fault op.Report} :
    Performs op.perform events r ↔
      ∃ reply : Reply (.property op.message), events = [⟨.property op.message, reply⟩] ∧
        r = op.resultOf reply := by
  have hresult : ∀ reply, (responseOf op.message reply).map op.reading = op.resultOf reply := by
    intro reply
    cases reply with
    | error cause => rfl
    | ok words =>
      simp only [responseOf, resultOf, Except.map]
      split <;> rfl
  rw [perform_eq, performs_map]
  constructor
  · rintro ⟨q, h, rfl⟩
    obtain ⟨reply, rfl, rfl⟩ := performs_request.mp h
    exact ⟨reply, rfl, hresult reply⟩
  · rintro ⟨reply, rfl, rfl⟩
    exact ⟨_, performs_request.mpr ⟨reply, rfl, rfl⟩, (hresult reply).symm⟩

end Operation

/-! ## Echoes -/

/-- The words before the content are no part of it. -/
theorem content_set_header (m : Message) (words : Vector UInt32 (m.contentWords + 6)) {i : Nat}
    (h : i < headerWords) (word : UInt32) (index : Nat) :
    (m.withReply (words.set i word (Nat.lt_of_lt_of_le h (by simp only [headerWords]; omega)))).content
      index = (m.withReply words).content index := by
  simp only [headerWords] at h
  have hne : i ≠ 5 + index := by omega
  show (if hindex : index < m.contentWords then (words.set i word (by omega))[5 + index] else 0) =
    if hindex : index < m.contentWords then words[5 + index] else 0
  split
  · exact Vector.getElem_set_ne _ _ hne
  · rfl

namespace Operation

/-- The firmware does not say of a reply that it answered the tag, or its response ends before the
words that the operation reads. -/
def Unanswered (op : Operation) (answer : Message) : Prop :=
  answer.tagAnswered = false ∨ answer.responseBytes.toNat < 4 * op.reach

/-- A reply with the content that was sent. -/
def Echoed (op : Operation) (answer : Message) : Prop :=
  ∀ index, answer.content index = op.message.content index

/-- An operation whose own request reads as a refusal. An order to switch on, and a dispatch, begin
with a word that is not 0, and neither does the order to give a block back if there is such a block;
an empty block and no block at all stand for a failure themselves. -/
def ReadsAsRefusal : Operation → Prop
  | enableQpus on => on = true
  | allocateMemory size _ _ => size = 0
  | lockMemory handle => handle = 0
  | unlockMemory handle | releaseMemory handle => handle ≠ 0
  | executeCode _ _ | question _ | pairQuestion _ => False
  | execute _ _ _ _ => True

theorem content_message (op : Operation) (index : Nat) :
    op.message.content index = op.words.getD index 0 :=
  Message.content_ofRequest op.tag op.words op.reach index

/-- A dispatch that is sent uses at least one program. -/
theorem programs_ne_zero {d : Dispatch} (valid : d.check = .ok ()) : d.programs ≠ 0 := by
  obtain ⟨hfew, hmany⟩ := Dispatch.check_eq_ok_iff.mp valid
  have hlength : d.programs.toNat = d.control.length := by
    rw [Dispatch.programs, UInt32.toNat_ofNat']
    simp only [maxQpus] at hmany
    omega
  intro hzero
  rw [hzero] at hlength
  simp only [UInt32.toNat_zero] at hlength
  omega

/-- What an operation reads from its own request is its failure exactly if that reads as a refusal. -/
theorem read_message_eq_failure_iff (op : Operation) :
    op.read op.message.content = op.failure ↔ op.ReadsAsRefusal := by
  have hcontent : op.message.content = fun index => op.words.getD index 0 :=
    funext op.content_message
  rw [hcontent]
  cases op with
  | enableQpus on => cases on <;> simp [read, failure, words, ReadsAsRefusal, responseSuccess]
  | allocateMemory | unlockMemory | releaseMemory => simp [read, failure, words, ReadsAsRefusal]
  | lockMemory handle => simp [read, failure, words, ReadsAsRefusal, BusAddress.null]
  | executeCode | question | pairQuestion => simp [read, failure, ReadsAsRefusal]
  | execute d timeout valid fits =>
    simp [read, failure, words, ReadsAsRefusal, programs_ne_zero valid]

/-- The result of an operation depends on word 1 of the reply and on the content. -/
theorem resultOf_congr {op : Operation} {first second : Vector UInt32 (op.message.contentWords + 6)}
    (hstatus : (op.message.withReply first).status = (op.message.withReply second).status)
    (hcontent : ∀ index, (op.message.withReply first).content index =
      (op.message.withReply second).content index) :
    op.resultOf (.ok first) = op.resultOf (.ok second) := by
  simp only [resultOf, hstatus, funext hcontent]

/-- What the firmware says about the tag is in word 4, which is neither the response code nor
content. -/
theorem resultOf_set (op : Operation) (words : Vector UInt32 (op.message.contentWords + 6))
    (word : UInt32) : op.resultOf (.ok (words.set 4 word)) = op.resultOf (.ok words) := by
  refine resultOf_congr ?_ (content_set_header op.message words (by decide) word)
  simp [Message.status, Message.withReply]

end Operation

/-! ## The result -/

/-- What the mailbox takes for an answer. An operation reports the same whatever the firmware says
about the tag and the length of its response. If the reply is an echo, the operation reports its failure
exactly if the firmware did not accept the message, or the request reads as a refusal; of an accepted
echo it reports what it reads from its own request. -/
theorem failure_of_echo_iff {op : Operation} {words : Vector UInt32 (op.message.contentWords + 6)}
    {r : Except Fault op.Report}
    (h : Performs op.perform [⟨.property op.message, .ok words⟩] r) :
    (∀ word, Performs op.perform [⟨.property op.message, .ok (words.set 4 word)⟩] r) ∧
    (op.Echoed (op.message.withReply words) →
      (r = .ok op.failure ↔
        (op.message.withReply words).status.isSuccess = false ∨ op.ReadsAsRefusal) ∧
      ((op.message.withReply words).status.isSuccess = true →
        r = .ok (op.read op.message.content))) := by
  obtain ⟨reply, hreply, rfl⟩ := Operation.performs_operation.mp h
  obtain rfl : reply = .ok words := by
    simp only [List.cons.injEq, Exchange.mk.injEq, and_true, true_and, heq_eq_eq] at hreply
    exact hreply.symm
  constructor
  · intro word
    rw [← op.resultOf_set words word]
    exact Operation.performs_operation.mpr ⟨_, rfl, rfl⟩
  · intro hecho
    have hcontent : (op.message.withReply words).content = op.message.content := funext hecho
    simp only [Operation.resultOf, hcontent]
    cases (op.message.withReply words).status.isSuccess with
    | false => simp
    | true => simp [op.read_message_eq_failure_iff]

/-- The firmware accepts a message and leaves the rest of it as it was. -/
def untouched (op : Operation) : Vector UInt32 (op.message.contentWords + 6) :=
  op.message.words.set 1 responseSuccess

/-- A request for two pages of memory. -/
def twoPages : Operation := .allocateMemory 8192 4096 ⟨12⟩

theorem performs_untouched :
    Performs twoPages.perform [⟨.property twoPages.message, .ok (untouched twoPages)⟩]
      (.ok (8192 : UInt32)) :=
  Operation.performs_operation.mpr ⟨.ok (untouched twoPages), rfl, rfl⟩

/-- The size that was asked for passes for the handle of a block. -/
theorem failure_of_echo_iff_untouched :
    Performs twoPages.perform [⟨.property twoPages.message, .ok (untouched twoPages)⟩]
      (.ok (8192 : UInt32)) ∧
    (.ok (8192 : UInt32) : Except Fault twoPages.Report) =
      .ok (twoPages.read twoPages.message.content) := by
  have hecho : twoPages.Echoed (twoPages.message.withReply (untouched twoPages)) :=
    content_set_header twoPages.message twoPages.message.words (by decide) responseSuccess
  exact ⟨performs_untouched, ((failure_of_echo_iff performs_untouched).2 hecho).2 rfl⟩

/-- It is not so that an operation reports its failure whenever the firmware did not answer. -/
theorem request_taken_for_answer :
    ¬ ∀ (op : Operation) (words : Vector UInt32 (op.message.contentWords + 6))
        (r : Except Fault op.Report),
      Performs op.perform [⟨.property op.message, .ok words⟩] r →
      op.Unanswered (op.message.withReply words) → r = .ok op.failure := by
  intro hall
  have hunanswered : twoPages.Unanswered (twoPages.message.withReply (untouched twoPages)) :=
    .inl rfl
  have hfailure := hall twoPages _ _ performs_untouched hunanswered
  cases hfailure

end VideoCore.Mailbox
