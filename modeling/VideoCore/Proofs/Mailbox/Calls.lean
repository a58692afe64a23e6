import VideoCore.Mailbox
import VideoCore.Proofs.Attempt

/-!
# Round trips of the mailbox

Every operation of the mailbox is one exchange with the firmware. This module says which message it
sends and what it makes of the reply, once for all operations (`performs_requestWord`) and then for
the four that deal with memory and for a dispatch. A reply is read by `wordOf`: a call that the operating system failed
is a fault, and a word of the response is given only if the firmware accepted the message.
-/

namespace VideoCore.Mailbox

open Firmware Hardware

/-- What the round trip of a message gives for word `index` of the response. -/
def wordOf (m : Message) (index : Nat) : Reply (.property m) → Except Fault (Option UInt32)
  | .ok words =>
    let answer := m.withReply words
    .ok (if answer.status.isSuccess then some (answer.content index) else none)
  | .error cause => .error (.transport m.tagId cause)

/-- The exchange of a request that has room for one word of response. -/
def trip (tag : Tag) (words : List UInt32)
    (reply : Reply (.property (.ofRequest tag words 1))) : Exchange Hardware :=
  ⟨.property (.ofRequest tag words 1), reply⟩

/-- Exchanges that are the same have sent the same. -/
theorem trip_inj {tag tag' : Tag} {words words' : List UInt32}
    {reply : Reply (.property (.ofRequest tag words 1))}
    {reply' : Reply (.property (.ofRequest tag' words' 1))}
    (h : trip tag words reply = trip tag' words' reply') :
    tag.id = tag'.id ∧ ∀ i, words.getD i 0 = words'.getD i 0 := by
  have hmessage := Request.property.inj (congrArg Exchange.request h)
  constructor
  · exact congrArg Message.tagId hmessage
  · intro i
    rw [← Message.content_ofRequest tag words 1, hmessage, Message.content_ofRequest]

/-- A reply that accepts a request and answers it with one word. -/
def accepting (contentWords : Nat) (word : UInt32) : Vector UInt32 (contentWords + 6) :=
  ((Vector.replicate (contentWords + 6) 0).set 1 responseSuccess).set 5 word

theorem performs_call {m : Message} {events : List (Exchange Hardware)}
    {r : Except Fault Message} :
    Performs (call m) events r ↔
      ∃ reply : Reply (.property m), events = [⟨.property m, reply⟩] ∧
        r = match reply with
          | .ok words => .ok (m.withReply words)
          | .error cause => .error (.transport m.tagId cause) := by
  rw [call]
  refine Iff.trans performs_ask ?_
  constructor
  · rintro ⟨reply, rest, rfl, k⟩
    refine ⟨reply, ?_⟩
    cases reply with
    | error cause =>
      obtain ⟨rfl, rfl⟩ := performs_throw.mp k
      exact ⟨rfl, rfl⟩
    | ok words =>
      obtain ⟨rfl, rfl⟩ := performs_pure.mp k
      exact ⟨rfl, rfl⟩
  · rintro ⟨reply, rfl, rfl⟩
    refine ⟨reply, [], rfl, ?_⟩
    cases reply with
    | error cause => exact performs_throw.mpr ⟨rfl, rfl⟩
    | ok words => exact performs_pure.mpr ⟨rfl, rfl⟩

/-- Asking for one word is one exchange, and its result is what the reply gives for that word. -/
theorem performs_requestWord {tag : Tag} {words : List UInt32} {responseWords index : Nat}
    {events : List (Exchange Hardware)} {r : Except Fault (Option UInt32)} :
    Performs (requestWord tag words responseWords index) events r ↔
      ∃ reply : Reply (.property (.ofRequest tag words responseWords)),
        events = [⟨.property (.ofRequest tag words responseWords), reply⟩] ∧
        r = wordOf (.ofRequest tag words responseWords) index reply := by
  rw [requestWord, performs_map]
  constructor
  · rintro ⟨q, h, rfl⟩
    rw [request, performs_map] at h
    obtain ⟨p, h, rfl⟩ := h
    obtain ⟨reply, rfl, rfl⟩ := performs_call.mp h
    refine ⟨reply, rfl, ?_⟩
    cases reply with
    | error cause => rfl
    | ok words => simp only [wordOf, Except.map]; split <;> simp_all
  · rintro ⟨reply, rfl, rfl⟩
    refine ⟨_, performs_map.mpr ⟨_, performs_call.mpr ⟨reply, rfl, rfl⟩, rfl⟩, ?_⟩
    cases reply with
    | error cause => rfl
    | ok words => simp only [wordOf, Except.map]; split <;> simp_all

/-- Asking for one word and working on it is one exchange as well. -/
theorem performs_requestWord_map {β : Type} {tag : Tag} {words : List UInt32}
    {responseWords index : Nat} {g : Option UInt32 → β} {events : List (Exchange Hardware)}
    {r : Except Fault β} :
    Performs (do return g (← requestWord tag words responseWords index)) events r ↔
      ∃ reply : Reply (.property (.ofRequest tag words responseWords)),
        events = [⟨.property (.ofRequest tag words responseWords), reply⟩] ∧
        r = (wordOf (.ofRequest tag words responseWords) index reply).map g := by
  rw [performs_map]
  constructor
  · rintro ⟨q, h, rfl⟩
    obtain ⟨reply, rfl, rfl⟩ := performs_requestWord.mp h
    exact ⟨reply, rfl, rfl⟩
  · rintro ⟨reply, rfl, rfl⟩
    exact ⟨_, performs_requestWord.mpr ⟨reply, rfl, rfl⟩, rfl⟩

/-! ## The four memory operations -/

theorem performs_allocateMemory {size alignment : UInt32} {flags : MemoryFlags}
    {events : List (Exchange Hardware)} {r : Except Fault UInt32} :
    Performs (allocateMemory size alignment flags) events r ↔
      ∃ reply, events = [trip .allocateMemory [size, alignment, flags.bits] reply] ∧
        r = (wordOf _ 0 reply).map (·.getD 0) :=
  performs_requestWord_map

theorem performs_lockMemory {handle : UInt32} {events : List (Exchange Hardware)}
    {r : Except Fault BusAddress} :
    Performs (lockMemory handle) events r ↔
      ∃ reply, events = [trip .lockMemory [handle] reply] ∧
        r = (wordOf _ 0 reply).map fun word => ⟨word.getD 0⟩ :=
  performs_requestWord_map

theorem performs_unlockMemory {handle : UInt32} {events : List (Exchange Hardware)}
    {r : Except Fault Bool} :
    Performs (unlockMemory handle) events r ↔
      ∃ reply, events = [trip .unlockMemory [handle] reply] ∧
        r = (wordOf _ 0 reply).map (· == some 0) :=
  performs_requestWord_map

theorem performs_releaseMemory {handle : UInt32} {events : List (Exchange Hardware)}
    {r : Except Fault Bool} :
    Performs (releaseMemory handle) events r ↔
      ∃ reply, events = [trip .releaseMemory [handle] reply] ∧
        r = (wordOf _ 0 reply).map (· == some 0) :=
  performs_requestWord_map

/-! ## Dispatches -/

/-- The message that has the firmware execute a dispatch. -/
def executeOrder (d : Dispatch) (timeout : UInt32) : Message :=
  .ofRequest .executeQpu
    [d.programs, d.controlAddress.value, if d.flushCache then 0 else 1, timeout] 1

/-- A dispatch is turned away, or fails without a call because its timeout does not fit, or is one
message. -/
theorem performs_execute {κ : Type} {d : Dispatch} {events : List (Exchange Hardware)}
    {r : Except Fault (Handle κ)} :
    Performs (execute d) events r ↔
      (∃ fault, d.check = .error fault ∧ events = [] ∧ r = .error fault) ∨
      (d.check = .ok () ∧ d.timeoutMs? = none ∧ events = [] ∧ r = .ok (.settled false)) ∨
      ∃ timeout reply, d.check = .ok () ∧ d.timeoutMs? = some timeout ∧
        events = [⟨.property (executeOrder d timeout), reply⟩] ∧
        r = (wordOf _ 0 reply).map fun answer => .settled (answer == some 0) := by
  rw [execute, performs_check]
  cases hcheck : d.check with
  | error fault =>
    constructor
    · rintro (h | ⟨_, hok, -⟩)
      · exact .inl h
      · cases hok
    · rintro (h | ⟨hok, -⟩ | ⟨_, _, hok, -⟩)
      · exact .inl h
      · cases hok
      · cases hok
  | ok _ =>
    cases htimeout : d.timeoutMs? with
    | none => simp
    | some timeout =>
      constructor
      · rintro (⟨fault, hfault, -⟩ | ⟨_, -, h⟩)
        · cases hfault
        obtain ⟨reply, rfl, rfl⟩ := performs_requestWord_map.mp h
        exact .inr (.inr ⟨timeout, reply, rfl, rfl, rfl, rfl⟩)
      · rintro (⟨fault, hfault, -⟩ | ⟨-, hnone, -⟩ | ⟨t, reply, -, ht, rfl, rfl⟩)
        · cases hfault
        · cases hnone
        cases ht
        exact .inr ⟨(), rfl, performs_requestWord_map.mpr ⟨reply, rfl, rfl⟩⟩

/-- The message can be answered in any way. -/
theorem performs_order {κ : Type} {d : Dispatch} {timeout : UInt32} (hcheck : d.check = .ok ())
    (htimeout : d.timeoutMs? = some timeout)
    (reply : Reply (.property (executeOrder d timeout))) :
    Performs (execute (κ := κ) d) [⟨.property (executeOrder d timeout), reply⟩]
      ((wordOf _ 0 reply).map fun answer => .settled (answer == some 0)) :=
  performs_execute.mpr (.inr (.inr ⟨timeout, reply, hcheck, htimeout, rfl, rfl⟩))

end VideoCore.Mailbox
