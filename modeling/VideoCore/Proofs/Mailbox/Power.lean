import VideoCore.Proofs.Mailbox.Buffers

/-!
# The mailbox and the power of the QPUs

The firmware counts how often the QPUs were switched on and off, over all processes, and powers them
while the count is positive. A mailbox switches them on when it starts and off when it stops, so its
share of the count should come out even over its life. A `Life` is everything that is exchanged from
the attempt to start to the end, with any uses in between, of any number of threads.

A mailbox that starts comes out even: one order to switch on was accepted, and the only order to
switch off is the last message (`power_balance`). A mailbox that does not start sends the order to
switch off all the same. It gives back what it never took (`refused_start_switches_off`).
-/

namespace VideoCore.Mailbox

open Firmware Hardware
open Dialog (Transcript)

/-! ## Orders -/

/-- The order to switch the QPUs on or off. -/
def powerOrder (on : Bool) : Message := .ofRequest .enableQpu [if on then 1 else 0] 1

/-- A request with a message about the power of the QPUs. -/
def ConcernsPower : Request → Prop
  | .property m => m.tagId = Tag.enableQpu.id
  | _ => False

/-- The firmware accepted an order: it answers that it was obeyed, or that the QPUs were on. -/
def accepts (m : Message) (reply : Reply (.property m)) : Bool :=
  match wordOf m 0 reply with
  | .ok (some word) => word == 0 || word == responseSuccess
  | _ => false

/-- An order to switch the QPUs on that the firmware accepted. -/
def takesPower : Exchange Hardware → Bool
  | ⟨.property m, reply⟩ => m.tagId == Tag.enableQpu.id && m.content 0 == 1 && accepts m reply
  | _ => false

/-- An order to switch the QPUs off, whatever the firmware made of it. -/
def givesPower : Exchange Hardware → Bool
  | ⟨.property m, _⟩ => m.tagId == Tag.enableQpu.id && m.content 0 == 0
  | _ => false

/-- The message that an exchange carried to the firmware. -/
def messageOf : Exchange Hardware → Option Message
  | ⟨.property m, _⟩ => some m
  | _ => none

/-- How many orders to switch on were accepted. -/
def taken (events : List (Exchange Hardware)) : Nat := events.countP takesPower

/-- How many orders to switch off were sent. -/
def given (events : List (Exchange Hardware)) : Nat := events.countP givesPower

/-- The messages that were sent, in order. -/
def messages (events : List (Exchange Hardware)) : List Message := events.filterMap messageOf

@[simp] theorem taken_append (first rest : List (Exchange Hardware)) :
    taken (first ++ rest) = taken first + taken rest :=
  List.countP_append

@[simp] theorem given_append (first rest : List (Exchange Hardware)) :
    given (first ++ rest) = given first + given rest :=
  List.countP_append

@[simp] theorem messages_append (first rest : List (Exchange Hardware)) :
    messages (first ++ rest) = messages first ++ messages rest :=
  List.filterMap_append

/-- A request that carries no message. -/
def Silent : Request → Prop
  | .property _ => False
  | _ => True

theorem messages_of_silent {events : List (Exchange Hardware)}
    (h : ∀ e ∈ events, Silent e.request) : messages events = [] := by
  apply List.filterMap_eq_nil_iff.mpr
  rintro ⟨request, reply⟩ he
  have hsilent := h _ he
  cases request with
  | property m => exact hsilent.elim
  | _ => rfl

theorem Silent.not_concernsPower {q : Request} (h : Silent q) : ¬ ConcernsPower q := by
  cases q with
  | property m => exact h.elim
  | _ => exact id

/-! ## Starting and stopping -/

theorem performs_enableQpus {on : Bool} {events : List (Exchange Hardware)}
    {r : Except Fault Bool} :
    Performs (enableQpus on) events r ↔
      ∃ reply : Reply (.property (powerOrder on)), events = [⟨.property (powerOrder on), reply⟩] ∧
        r = (wordOf (powerOrder on) 0 reply).map fun answer =>
          answer == some 0 || answer == some responseSuccess :=
  performs_requestWord_map

/-- The answer of the operation is whether the firmware accepted the order. -/
theorem accepts_iff {m : Message} {reply : Reply (.property m)} :
    accepts m reply = true ↔
      (wordOf m 0 reply).map (fun answer => answer == some 0 || answer == some responseSuccess) =
        .ok true := by
  unfold accepts
  rcases wordOf m 0 reply with fault | (_ | word)
  · simp [Except.map]
  · simp [Except.map]
  · simp [Except.map]

/-- Stopping sends the order to switch off and no other message. -/
theorem stop_sends {events : List (Exchange Hardware)} (h : Transcript stop events ()) :
    ∃ reply rest, events = ⟨.property (powerOrder false), reply⟩ :: rest ∧
      ∀ e ∈ rest, Silent e.request := by
  obtain ⟨first, rest, answer, rfl, hswitch, hrest⟩ := Dialog.transcript_bind.mp h
  obtain ⟨reply, rfl, -⟩ := performs_enableQpus.mp hswitch
  refine ⟨reply, rest, rfl, Dialog.Asks.of_transcript ?_ hrest⟩
  have hend : (retire .mailbox).Asks Silent := ⟨trivial, fun _ => trivial⟩
  rcases answer with fault | agreed
  · exact ⟨trivial, fun _ => hend⟩
  · cases agreed with
    | false => exact ⟨trivial, fun _ => hend⟩
    | true => exact hend

/-- Starting sends the order to switch on. It ends well exactly if that is accepted, and otherwise the
mailbox stops before the fault is given. -/
theorem performs_start {events : List (Exchange Hardware)} {r : Except Fault Unit}
    (h : Performs start events r) :
    ∃ reply rest, events = ⟨.property (powerOrder true), reply⟩ :: rest ∧
      ((r = .ok () ∧ accepts (powerOrder true) reply = true ∧ rest = []) ∨
        (r ≠ .ok () ∧ accepts (powerOrder true) reply = false ∧ Transcript stop rest ())) := by
  obtain ⟨first, rest, answer, rfl, hswitch, hrest⟩ : ∃ first rest answer, _ := by
    rcases performs_bind.mp h with ⟨fault, hfault, -⟩ | hboth
    · obtain ⟨q, -, hq⟩ := performs_outcome.mp hfault
      cases hq
    · exact hboth
  obtain ⟨q, henable, hq⟩ := performs_outcome.mp hswitch
  cases hq
  obtain ⟨reply, rfl, rfl⟩ := performs_enableQpus.mp henable
  refine ⟨reply, rest, rfl, ?_⟩
  rw [← Bool.not_eq_true, accepts_iff]
  generalize Except.map _ _ = answer at hrest
  have hstops : ∀ fault, Performs (do liftM stop; throw fault) rest r →
      r ≠ .ok () ∧ Transcript stop rest () := by
    intro fault k
    rcases performs_bind.mp k with ⟨fault, hlift, -⟩ | ⟨stopping, last, u, rfl, hlift, hthrow⟩
    · obtain ⟨u, -, hu⟩ := performs_lift.mp hlift
      cases hu
    · obtain ⟨u, hstop, -⟩ := performs_lift.mp hlift
      obtain ⟨rfl, rfl⟩ := performs_throw.mp hthrow
      refine ⟨by simp, ?_⟩
      rw [List.append_nil]
      exact hstop
  rcases answer with fault | (_ | _)
  · obtain ⟨hr, hstop⟩ := hstops _ hrest
    exact .inr ⟨hr, by simp, hstop⟩
  · obtain ⟨hr, hstop⟩ := hstops _ hrest
    exact .inr ⟨hr, by simp, hstop⟩
  · obtain ⟨rfl, rfl⟩ := performs_pure.mp hrest
    exact .inl ⟨rfl, rfl, rfl⟩

/-! ## Uses -/

/-- What a process does with a mailbox that is up. -/
inductive Use where
  /-- Sends a message of its own making. -/
  | call (message : Message)
  /-- Sends a request. The single orders and questions differ only in how they read the answer. -/
  | request (tag : Tag) (words : List UInt32) (responseWords : Nat)
  | enableQpus (on : Bool)
  | readValue (q : SystemQuery)
  | allocate (r : AllocationRequest)
  | deallocate (handle : UInt32)
  /-- Ends a buffer that came from the mailbox. -/
  | release (buffer : Buffer) (owned : buffer.owner = .mailbox)
  | execute (d : Dispatch)

namespace Use

/-- The dialog of a use. What it answers does not matter here. -/
def perform : Use → Access Unit
  | call m => do discard (Mailbox.call m).run
  | request tag words responseWords => do discard (Mailbox.request tag words responseWords).run
  | enableQpus on => do discard (Mailbox.enableQpus on).run
  | readValue q => do discard (Mailbox.readValue q)
  | allocate r => do discard (Mailbox.allocate r).run
  | deallocate handle => do discard (Mailbox.deallocate handle).run
  | release buffer _ => do discard (Backends.release { mailbox := true } buffer)
  | execute d => do discard (Mailbox.execute (κ := Unit) d).run

/-- A use that leaves the power of the QPUs to the mailbox. -/
def LeavesPower : Use → Prop
  | call m => m.tagId ≠ Tag.enableQpu.id
  | request tag _ _ => tag ≠ .enableQpu
  | enableQpus _ => False
  | _ => True

end Use

/-! ### What the uses exchange -/

/-- Exchanges that do not concern the power. -/
def Quiet (events : List (Exchange Hardware)) : Prop := ∀ e ∈ events, ¬ ConcernsPower e.request

@[simp] theorem quiet_nil : Quiet [] := by
  simp [Quiet]

@[simp] theorem quiet_cons {e : Exchange Hardware} {events : List (Exchange Hardware)} :
    Quiet (e :: events) ↔ ¬ ConcernsPower e.request ∧ Quiet events := by
  simp [Quiet]

theorem Quiet.append {first rest : List (Exchange Hardware)} (h : Quiet first) (k : Quiet rest) :
    Quiet (first ++ rest) :=
  List.forall_mem_append.mpr ⟨h, k⟩

@[simp] theorem concernsPower_ofRequest {tag : Tag} {words : List UInt32} {responseWords : Nat} :
    ConcernsPower (.property (.ofRequest tag words responseWords)) ↔ tag = .enableQpu := by
  constructor
  · exact Tag.id_injective
  · rintro rfl
    rfl

@[simp] theorem concernsPower_trip {tag : Tag} {words : List UInt32}
    {reply : Reply (.property (.ofRequest tag words 1))} :
    ConcernsPower (trip tag words reply).request ↔ tag = .enableQpu :=
  concernsPower_ofRequest

@[simp] theorem not_concernsPower_map {address : UInt32} {length : Nat} :
    ¬ ConcernsPower (.mapPhysical address length) :=
  id

variable {events : List (Exchange Hardware)}

theorem quiet_call {m : Message} {r : Except Fault Message} (h : m.tagId ≠ Tag.enableQpu.id)
    (performed : Performs (call m) events r) : Quiet events := by
  obtain ⟨reply, rfl, -⟩ := performs_call.mp performed
  exact quiet_cons.mpr ⟨h, quiet_nil⟩

theorem quiet_request {tag : Tag} {words : List UInt32} {responseWords : Nat}
    {r : Except Fault (Option Message)} (h : tag ≠ .enableQpu)
    (performed : Performs (request tag words responseWords) events r) : Quiet events := by
  obtain ⟨q, hcall, -⟩ := performs_map.mp performed
  have hother : (Message.ofRequest tag words responseWords).tagId ≠ Tag.enableQpu.id :=
    fun hsame => h (Tag.id_injective hsame)
  exact quiet_call hother hcall

theorem quiet_requestWord {tag : Tag} {words : List UInt32} {responseWords index : Nat}
    {r : Except Fault (Option UInt32)} (h : tag ≠ .enableQpu)
    (performed : Performs (requestWord tag words responseWords index) events r) : Quiet events := by
  obtain ⟨q, hrequest, -⟩ := performs_map.mp performed
  exact quiet_request h hrequest

theorem quiet_requestPair {tag : Tag} {words : List UInt32}
    {r : Except Fault (Option (UInt32 × UInt32))} (h : tag ≠ .enableQpu)
    (performed : Performs (requestPair tag words) events r) : Quiet events := by
  obtain ⟨q, hrequest, -⟩ := performs_map.mp performed
  exact quiet_request h hrequest

theorem quiet_query {q : SystemQuery} {r : Except Fault (Option UInt32)}
    (performed : Performs (query q) events r) : Quiet events := by
  cases q with
  | totalArmMemoryBytes | totalGpuMemoryBytes =>
    obtain ⟨answer, hpair, -⟩ := performs_map.mp performed
    exact quiet_requestPair (by decide) hpair
  | totalVpmMemoryBytes | numQpus =>
    obtain ⟨rfl, -⟩ := performs_pure.mp performed
    exact quiet_nil
  | currentQpuClockRateHz | maximumQpuClockRateHz | currentArmClockRateHz
  | maximumArmClockRateHz | qpuTemperatureMilliDegrees =>
    exact quiet_requestWord (by decide) performed

theorem LocksAndMaps.quiet {size handle : UInt32} {result : Except Fault (Option Buffer)}
    (h : LocksAndMaps size handle events result) : Quiet events := by
  cases h with
  | lockFailed | notLocked | mapped | unlockFailed | notMapped => simp

theorem quiet_allocate {r : AllocationRequest} {result : Except Fault (Option Buffer)}
    (performed : Performs (allocate r) events result) : Quiet events := by
  cases allocates_of_performs performed with
  | invalid | grantFailed | refused => simp
  | granted _ _ rest => simp [rest.quiet]

theorem quiet_deallocate {handle : UInt32} {result : Except Fault Bool}
    (performed : Performs (deallocate handle) events result) : Quiet events := by
  rcases performs_deallocate performed with ⟨cause, rfl, -⟩ | ⟨unlock, release, rfl, -⟩
  · simp
  · simp

theorem quiet_release {b b' : Backends} {buffer : Buffer} {result : Except Fault Bool}
    (owned : buffer.owner = .mailbox)
    (h : Transcript (b.release buffer) events (result, b')) : Quiet events := by
  obtain ⟨unmapping, rest, rfl, hunmapping, hrest⟩ := release_deallocates owned h
  refine Quiet.append ?_ (quiet_deallocate hrest)
  intro e he
  obtain ⟨base, length, hrequest⟩ := hunmapping e he
  rw [hrequest]
  exact id

theorem quiet_execute {κ : Type} {d : Dispatch} {r : Except Fault (Handle κ)}
    (performed : Performs (execute d) events r) : Quiet events := by
  rcases performs_execute.mp performed with
    ⟨fault, -, rfl, -⟩ | ⟨-, -, rfl, -⟩ | ⟨timeout, reply, -, -, rfl, -⟩
  · exact quiet_nil
  · exact quiet_nil
  · exact quiet_cons.mpr ⟨mt concernsPower_ofRequest.mp (by decide), quiet_nil⟩

/-- A use that leaves the power to the mailbox exchanges nothing that concerns it. -/
theorem Use.LeavesPower.quiet {u : Use} (h : u.LeavesPower)
    (performed : Transcript u.perform events ()) : Quiet events := by
  cases u with
  | call m =>
    obtain ⟨r, hr, -⟩ := Dialog.transcript_map.mp performed
    exact quiet_call h hr
  | request tag words responseWords =>
    obtain ⟨r, hr, -⟩ := Dialog.transcript_map.mp performed
    exact quiet_request h hr
  | enableQpus on => exact h.elim
  | readValue q =>
    obtain ⟨answer, hread, -⟩ := Dialog.transcript_map.mp performed
    obtain ⟨first, rest, r, rfl, hquery, hrest⟩ := Dialog.transcript_bind.mp hread
    refine (quiet_query hquery).append ?_
    cases r with
    | ok value => rw [(Dialog.transcript_done.mp hrest).1]; exact quiet_nil
    | error fault => rw [(Dialog.transcript_done.mp hrest).1]; exact quiet_nil
  | allocate r =>
    obtain ⟨result, hr, -⟩ := Dialog.transcript_map.mp performed
    exact quiet_allocate hr
  | deallocate handle =>
    obtain ⟨result, hr, -⟩ := Dialog.transcript_map.mp performed
    exact quiet_deallocate hr
  | release buffer owned =>
    obtain ⟨⟨result, b'⟩, hr, -⟩ := Dialog.transcript_map.mp performed
    exact quiet_release owned hr
  | execute d =>
    obtain ⟨result, hr, -⟩ := Dialog.transcript_map.mp performed
    exact quiet_execute hr

/-! ## Lives -/

/-- Exchanges of a mailbox in use. Uses of several threads may be under way at the same time, so all
that is said is that every exchange is one of some use. -/
def InUse (events : List (Exchange Hardware)) : Prop :=
  ∀ e ∈ events, ∃ u : Use, u.LeavesPower ∧ ∃ whole, Transcript u.perform whole () ∧ e ∈ whole

theorem InUse.quiet (h : InUse events) : Quiet events := by
  intro e he
  obtain ⟨u, hleaves, whole, hwhole, hmem⟩ := h e he
  exact hleaves.quiet hwhole e hmem

/-- A use on its own is in use. -/
theorem inUse_of_use {u : Use} (h : u.LeavesPower) (performed : Transcript u.perform events ()) :
    InUse events :=
  fun _ he => ⟨u, h, events, performed, he⟩

/-- All that a mailbox exchanges from the attempt to start to the end, and how the attempt ended. -/
inductive Life : Except Fault Unit → List (Exchange Hardware) → Prop where
  /-- The mailbox did not start. -/
  | failed {fault : Fault} {events : List (Exchange Hardware)}
      (starting : Performs start events (.error fault)) : Life (.error fault) events
  /-- The mailbox started, was used and stopped. -/
  | lived {first uses last : List (Exchange Hardware)} (starting : Performs start first (.ok ()))
      (inUse : InUse uses) (stopping : Transcript stop last ()) :
      Life (.ok ()) (first ++ uses ++ last)

/-! ## Counting -/

/-- What does not concern the power leaves both counts as they are. -/
theorem Quiet.counts (h : Quiet events) : taken events = 0 ∧ given events = 0 := by
  have hneither : ∀ e ∈ events, takesPower e = false ∧ givesPower e = false := by
    rintro ⟨request, reply⟩ he
    have hquiet := h _ he
    cases request with
    | property m => simp_all [ConcernsPower, takesPower, givesPower]
    | _ => exact ⟨rfl, rfl⟩
  constructor
  · exact List.countP_eq_zero.mpr fun e he => by simp [(hneither e he).1]
  · exact List.countP_eq_zero.mpr fun e he => by simp [(hneither e he).2]

theorem counts_switchOn (reply : Reply (.property (powerOrder true))) :
    taken [⟨.property (powerOrder true), reply⟩] =
        (if accepts (powerOrder true) reply then 1 else 0) ∧
      given [⟨.property (powerOrder true), reply⟩] = 0 := by
  have hword : (powerOrder true).content 0 = 1 := rfl
  have htag : (powerOrder true).tagId = Tag.enableQpu.id := rfl
  constructor
  · simp [taken, takesPower, hword, htag, List.countP_cons]
  · simp [given, givesPower, hword]

theorem counts_switchOff (reply : Reply (.property (powerOrder false))) :
    taken [⟨.property (powerOrder false), reply⟩] = 0 ∧
      given [⟨.property (powerOrder false), reply⟩] = 1 := by
  have hword : (powerOrder false).content 0 = 0 := rfl
  have htag : (powerOrder false).tagId = Tag.enableQpu.id := rfl
  constructor
  · simp [taken, takesPower, hword]
  · simp [given, givesPower, hword, htag]

/-- Stopping gives once and takes nothing, and the order for that is the only message. -/
theorem counts_stop (h : Transcript stop events ()) :
    taken events = 0 ∧ given events = 1 ∧ messages events = [powerOrder false] := by
  obtain ⟨reply, rest, rfl, hsilent⟩ := stop_sends h
  have hrest : Quiet rest := fun e he => (hsilent e he).not_concernsPower
  have horder := counts_switchOff reply
  rw [← List.singleton_append, taken_append, given_append, messages_append, horder.1, horder.2,
    hrest.counts.1, hrest.counts.2, messages_of_silent hsilent]
  exact ⟨rfl, rfl, rfl⟩

theorem counts_start {r : Except Fault Unit} (h : Performs start events r) :
    (r = .ok () → taken events = 1 ∧ given events = 0) ∧
      (r ≠ .ok () → taken events = 0 ∧ given events = 1 ∧
        messages events = [powerOrder true, powerOrder false]) := by
  obtain ⟨reply, rest, rfl, hways⟩ := performs_start h
  have horder := counts_switchOn reply
  rw [← List.singleton_append, taken_append, given_append, messages_append, horder.1, horder.2]
  rcases hways with ⟨rfl, haccepted, rfl⟩ | ⟨hr, hrefused, hstop⟩
  · rw [if_pos haccepted]
    exact ⟨fun _ => ⟨rfl, rfl⟩, fun hne => absurd rfl hne⟩
  · obtain ⟨htaken, hgiven, hmessages⟩ := counts_stop hstop
    rw [hrefused, htaken, hgiven, hmessages]
    exact ⟨fun hok => absurd hok hr, fun _ => ⟨rfl, rfl, rfl⟩⟩

/-! ## The result -/

/-- What a mailbox does to the count of the firmware over its life, if its users leave the power to
it. It orders the QPUs off exactly once, and that is its last message. That is no more often than an
order to switch on was accepted exactly if the mailbox started; if it did not start, it has sent the
two orders and nothing else, and none to switch on was accepted. -/
theorem power_balance {r : Except Fault Unit} {events : List (Exchange Hardware)}
    (life : Life r events) :
    given events = 1 ∧ (messages events).getLast? = some (powerOrder false) ∧
      (given events ≤ taken events ↔ r = .ok ()) ∧
      (r ≠ .ok () → taken events = 0 ∧ messages events = [powerOrder true, powerOrder false]) := by
  cases life with
  | @failed fault _ starting =>
    have hfailed : (.error fault : Except Fault Unit) ≠ .ok () := by simp
    obtain ⟨htaken, hgiven, hmessages⟩ := (counts_start starting).2 hfailed
    refine ⟨hgiven, by rw [hmessages]; rfl, ?_, fun _ => ⟨htaken, hmessages⟩⟩
    rw [htaken, hgiven]
    simp
  | @lived first uses last starting inUse stopping =>
    obtain ⟨htaken, hgiven⟩ := (counts_start starting).1 rfl
    obtain ⟨htaken', hgiven', hmessages⟩ := counts_stop stopping
    have huses := inUse.quiet.counts
    have hgivenAll : given (first ++ uses ++ last) = 1 := by
      rw [given_append, given_append, hgiven, huses.2, hgiven']
    have htakenAll : taken (first ++ uses ++ last) = 1 := by
      rw [taken_append, taken_append, htaken, huses.1, htaken']
    refine ⟨hgivenAll, ?_, ?_, fun hne => absurd rfl hne⟩
    · rw [messages_append, hmessages, List.getLast?_concat]
    · rw [hgivenAll, htakenAll]
      simp

/-- The QPUs were on already, an allocation finds no memory, and the call to switch off fails. -/
def crowdedLife : List (Exchange Hardware) :=
  [⟨.property (powerOrder true), .ok (accepting 1 responseSuccess)⟩] ++
    [trip .allocateMemory [4096, 4096, 12] (.ok (accepting 3 0))] ++
    [⟨.property (powerOrder false), .error (.system 5)⟩,
      ⟨.report (.disableFailed (.transport Tag.enableQpu.id (.system 5))), ()⟩,
      ⟨.retire .mailbox, ()⟩]

theorem life_crowded : Life (.ok ()) crowdedLife := by
  refine .lived ?_ (inUse_of_use (u := .allocate { size := 4096 }) trivial ?_) ?_
  · exact .ask _ (.done _)
  · exact .ask _ (.done _)
  · exact .ask _ (.ask _ (.ask _ (.done _)))

/-- A mailbox that finds the QPUs on takes its share, and gives it back even if that call fails. -/
theorem power_balance_crowded :
    Life (.ok ()) crowdedLife ∧ given crowdedLife = 1 ∧ given crowdedLife ≤ taken crowdedLife := by
  have hbalance := power_balance life_crowded
  exact ⟨life_crowded, hbalance.1, hbalance.2.2.1.mpr rfl⟩

/-- The firmware answers the order to switch on with 1, which is no consent, and the order to switch
off with consent. -/
def refusedLife : List (Exchange Hardware) :=
  [⟨.property (powerOrder true), .ok (accepting 1 1)⟩,
    ⟨.property (powerOrder false), .ok (accepting 1 0)⟩, ⟨.retire .mailbox, ()⟩]

theorem life_refused : Life (.error (.firmware "enable QPUs" (-1))) refusedLife := by
  refine .failed ?_
  exact .ask _ (.ask _ (.ask _ (.done _)))

/-- It is not so that a mailbox switches off no more often than it was allowed to switch on: one that
the firmware refuses to start switches off all the same. -/
theorem refused_start_switches_off :
    ¬ ∀ r events, Life r events → given events ≤ taken events := by
  intro hall
  have hcounts : given refusedLife = 1 ∧ taken refusedLife = 0 := by decide
  have hle := hall _ _ life_refused
  omega

end VideoCore.Mailbox
