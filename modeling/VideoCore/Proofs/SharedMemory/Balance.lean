import Mathlib.Data.Fintype.EquivFin
import Mathlib.Logic.Function.Basic
import VideoCore.Proofs.Session.Reach

/-!
# The balance of shared memory

Every block that the service gives out is a lease: a handle, and where the host sees the block once it
is locked. What is taken is given back in reverse order, each part once, when the allocation cannot go
on or when the buffer ends, and until then nothing of it is given back.

The service may answer as it likes. It may give out a handle that is in use, lock two blocks at one
place, and refuse to unlock, so neither handles nor places tell the leases apart. The ledger numbers
them instead: every event is entered under the number of the lease that it belongs to, and `Accounted`
says that what stands under a number is the course of one lease, complete or held by a buffer.
-/

namespace VideoCore.SharedMemory

open Hardware
open Dialog (Transcript)
open Session (Verb Run Ended EndedByName Kept Alike Housekeeping)

/-! ## Leases -/

/-- What happens to the blocks of the service. -/
inductive BlockEvent where
  /-- A block was given out, under a handle that is not 0. -/
  | granted (handle : UInt32)
  /-- A block was locked, and the host sees it at a place. -/
  | locked (handle : UInt32) (host : HostAddress)
  /-- The block at a place was to be unlocked, whatever came of that. -/
  | unlocked (host : HostPointer)
  | freed (handle : UInt32)
  deriving DecidableEq, Repr

/-- What an exchange does to the blocks. -/
def BlockEvent.ofExchange : Exchange Hardware → Option BlockEvent
  | ⟨.allocateShared _ _ _, handle⟩ => if handle = 0 then none else some (.granted handle)
  | ⟨.lockShared handle, reply⟩ => reply.map (.locked handle)
  | ⟨.unlockShared host, _⟩ => some (.unlocked host)
  | ⟨.freeShared handle, _⟩ => some (.freed handle)
  | _ => none

/-- What happened to the blocks, in order. -/
def blockEvents (events : List (Exchange Hardware)) : List BlockEvent :=
  events.filterMap BlockEvent.ofExchange

@[simp] theorem blockEvents_append (first rest : List (Exchange Hardware)) :
    blockEvents (first ++ rest) = blockEvents first ++ blockEvents rest :=
  List.filterMap_append

/-- A block that was given out, and where the host sees it if it was locked. -/
structure Lease where
  handle : UInt32
  host : Option HostAddress
  deriving DecidableEq, Repr

/-- What was taken for a lease, in order. -/
def Lease.taken (l : Lease) : List BlockEvent :=
  .granted l.handle :: (l.host.map (.locked l.handle)).toList

/-- What gives a lease back: the lock if there is one, and then the block. -/
def Lease.returned (l : Lease) : List BlockEvent :=
  (l.host.map fun host => .unlocked (.address host)).toList ++ [.freed l.handle]

/-- How a lease stands after a course of events: there is none, it is over, or a buffer holds it. -/
inductive Fits : List BlockEvent → Option Buffer → Prop where
  | fresh : Fits [] none
  | over (l : Lease) : Fits (l.taken ++ l.returned) none
  | live {b : Buffer} {host : HostAddress} (owner : b.owner = .sharedMemory)
      (seen : b.host = .borrowed host) : Fits (Lease.taken ⟨b.handle, some host⟩) (some b)

/-! ## Calls -/

variable {events more : List (Exchange Hardware)}

/-- Exchanges that reach no shared memory do nothing to the blocks. -/
theorem blockEvents_of_backend_ne
    (h : ∀ e ∈ events, e.request.backend? ≠ some .sharedMemory) : blockEvents events = [] := by
  rw [blockEvents, List.filterMap_eq_nil_iff]
  rintro ⟨request, reply⟩ he
  have hother := h _ he
  cases request with
  | allocateShared | lockShared | unlockShared | freeShared => exact absurd rfl hother
  | _ => rfl

theorem blockEvents_of_uses {kind : BackendKind} (hkind : kind ≠ .sharedMemory)
    (h : ∀ e ∈ events, Uses kind e.request) : blockEvents events = [] := by
  apply blockEvents_of_backend_ne
  intro e he hshared
  exact hkind ((h e he).within.eq hshared)

theorem blockEvents_housekeeping (h : ∀ e ∈ events, Housekeeping e.request) :
    blockEvents events = [] := by
  rw [blockEvents, List.filterMap_eq_nil_iff]
  rintro ⟨request, reply⟩ he
  have hrequest := h _ he
  cases request with
  | allocateShared | lockShared | unlockShared | freeShared => exact hrequest.elim
  | _ => rfl

/-- What came of a block that was given out. -/
theorem LocksAndPlaces.fits {r : AllocationRequest} {handle : UInt32} {result : Option Buffer}
    (h : LocksAndPlaces r handle events result) :
    Fits (.granted handle :: blockEvents events) result := by
  cases h with
  | notLocked => exact .over ⟨handle, none⟩
  | @unusable host address unlocked bad => exact .over ⟨handle, some host⟩
  | @placed host address good => exact .live (b := bufferAt r handle address host) rfl rfl

/-- An allocation leaves a lease to the buffer that it returns, and none behind if it returns none. -/
theorem Allocates.fits {r : AllocationRequest} {result : Except Fault (Option Buffer)}
    (h : Allocates r events result) : Fits (blockEvents events) result.toOption.join := by
  cases h with
  | invalid => exact .fresh
  | refused valid => exact .fresh
  | @granted handle events result valid nonzero rest =>
    have hgranted : blockEvents (granting r handle :: events) =
        .granted handle :: blockEvents events :=
      List.filterMap_cons_some (if_neg nonzero)
    rw [hgranted]
    exact rest.fits

/-- The end of a buffer gives its lease back. -/
theorem blockEvents_release {b b' : Backends} {buffer : Buffer} {host : HostAddress}
    {result : Except Fault Bool} (howner : buffer.owner = .sharedMemory)
    (hseen : buffer.host = .borrowed host)
    (h : Transcript (b.release buffer) events (result, b')) :
    blockEvents events = Lease.returned ⟨buffer.handle, some host⟩ := by
  unfold Backends.release at h
  simp only [hseen] at h
  unfold Backends.deallocate at h
  simp only [howner] at h
  obtain ⟨unlocked, hdeallocate, -⟩ := Dialog.transcript_map.mp h
  rw [hseen] at hdeallocate
  rw [transcript_deallocate.mp hdeallocate]
  cases unlocked with
  | true => rfl
  | false => rfl

/-! ## The ledger -/

/-- Events, each under the number of the lease that it belongs to. -/
abbrev Ledger : Type := List (Nat × BlockEvent)

namespace Ledger

/-- What stands under a number, in order. -/
def course (ledger : Ledger) (n : Nat) : List BlockEvent :=
  (ledger.filter (·.1 = n)).map (·.2)

/-- The ledger with some more events under a number. -/
def enter (ledger : Ledger) (n : Nat) (events : List BlockEvent) : Ledger :=
  ledger ++ events.map fun e => (n, e)

variable (ledger : Ledger) (events : List BlockEvent)

@[simp] theorem events_enter (n : Nat) :
    (ledger.enter n events).map Prod.snd = ledger.map Prod.snd ++ events := by
  simp [enter, Function.comp_def]

theorem course_enter (n m : Nat) :
    (ledger.enter n events).course m =
      if m = n then ledger.course m ++ events else ledger.course m := by
  by_cases h : n = m
  · simp [course, enter, List.filter_map, Function.comp_def, h]
  · simp [course, enter, List.filter_map, Function.comp_def, h, Ne.symm h]

/-- There is always a number that is not in use. -/
theorem exists_unused : ∃ n, ledger.course n = [] := by
  obtain ⟨n, hn⟩ := Infinite.exists_notMem_finset (ledger.map Prod.fst).toFinset
  refine ⟨n, ?_⟩
  rw [course, List.map_eq_nil_iff, List.filter_eq_nil_iff]
  intro entry hentry
  simp only [List.mem_toFinset, List.mem_map, not_exists, not_and] at hn
  simpa using hn entry hentry

end Ledger

/-- Under every number stands the course of one lease, and the buffer that holds it is known. -/
def Accounted (ledger : Ledger) (held : Nat → Option Buffer) : Prop :=
  ∀ n, Fits (ledger.course n) (held n)

/-- Every buffer that is held under a name holds a lease of its own, and nothing else holds one. -/
structure Seated (buffers : String → Option Buffer) (held : Nat → Option Buffer)
    (number : String → Nat) : Prop where
  holds : ∀ name b, buffers name = some b → held (number name) = some b
  only : ∀ n b, held n = some b → ∃ name, buffers name = some b ∧ number name = n
  apart : ∀ name other b c, buffers name = some b → buffers other = some c →
    number name = number other → name = other

/-- The history of the blocks can be told apart into leases. The buffers that are held hold one
each, of which nothing was given back; all others are over, and were given back part by part, in
reverse order. -/
def Balanced (history : List BlockEvent) (buffers : String → Option Buffer) : Prop :=
  ∃ (ledger : Ledger) (held : Nat → Option Buffer) (number : String → Nat),
    ledger.map Prod.snd = history ∧ Accounted ledger held ∧ Seated buffers held number

section Books

variable {ledger : Ledger} {held : Nat → Option Buffer} {number : String → Nat}
  {buffers : String → Option Buffer} {history first last : List BlockEvent} {name : String}
  {now : Option Buffer} {n : Nat}

theorem Accounted.enter (k : Accounted ledger held) (h : Fits (ledger.course n ++ first) now) :
    Accounted (ledger.enter n first) (Function.update held n now) := by
  intro m
  rw [Ledger.course_enter]
  by_cases hm : m = n
  · subst hm
    rwa [if_pos rfl, Function.update_self]
  · rw [if_neg hm, Function.update_of_ne hm]
    exact k m

/-- A number that is not in use is held by nobody. -/
theorem Accounted.unused (k : Accounted ledger held) (h : ledger.course n = []) :
    held n = none := by
  have hfits := k n
  rw [h] at hfits
  generalize held n = b at hfits
  cases hfits
  rfl

/-- A lease that is held by a buffer has been taken with a lock, and nothing else has happened. -/
theorem Accounted.taken {b : Buffer} (k : Accounted ledger held) (h : held n = some b) :
    ∃ host, b.host = .borrowed host ∧ ledger.course n = Lease.taken ⟨b.handle, some host⟩ := by
  have hfits := k n
  rw [h] at hfits
  generalize ledger.course n = word at hfits ⊢
  cases hfits with
  | live owner seen => exact ⟨_, seen, rfl⟩

/-- The end of a buffer vacates its name and its lease. -/
theorem Seated.vacate {b : Buffer} (k : Seated buffers held number) (h : buffers name = some b) :
    Seated (Function.update buffers name none) (Function.update held (number name) none) number := by
  -- what is held under another name has another number
  have helse : ∀ other c, Function.update buffers name none other = some c →
      buffers other = some c ∧ number other ≠ number name := by
    intro other c hc
    rw [Function.update_apply] at hc
    split at hc
    · cases hc
    · next hother => exact ⟨hc, fun heq => hother (k.apart other name c b hc h heq)⟩
  constructor
  case holds =>
    intro other c hc
    obtain ⟨hold, hne⟩ := helse other c hc
    rw [Function.update_of_ne hne]
    exact k.holds other c hold
  case only =>
    intro m c hc
    rw [Function.update_apply] at hc
    split at hc
    · cases hc
    · next hm =>
      obtain ⟨other, hother, rfl⟩ := k.only m c hc
      refine ⟨other, ?_, rfl⟩
      rwa [Function.update_of_ne]
      rintro rfl
      exact hm rfl
  case apart =>
    intro one other c c' hc hc'
    exact k.apart one other c c' (helse one c hc).1 (helse other c' hc').1

/-- What is given out, if anything, goes under a free name and a free number. -/
theorem Seated.place (k : Seated buffers held number) (hname : buffers name = none)
    (hn : held n = none) (now : Option Buffer) :
    Seated (Function.update buffers name now) (Function.update held n now)
      (Function.update number name n) := by
  have hother : ∀ other c, buffers other = some c → other ≠ name ∧ number other ≠ n := by
    intro other c hc
    constructor
    · rintro rfl
      rw [hname] at hc
      cases hc
    · intro heq
      have hheld := k.holds other c hc
      rw [heq, hn] at hheld
      cases hheld
  have hcases : ∀ other c, Function.update buffers name now other = some c →
      (other = name ∧ now = some c) ∨ (other ≠ name ∧ buffers other = some c) := by
    intro other c hc
    rw [Function.update_apply] at hc
    split at hc
    · next heq => exact .inl ⟨heq, hc⟩
    · next hne => exact .inr ⟨hne, hc⟩
  constructor
  case holds =>
    intro other c hc
    rcases hcases other c hc with ⟨rfl, hnow⟩ | ⟨hne, hold⟩
    · rw [Function.update_self, Function.update_self, hnow]
    · rw [Function.update_of_ne hne, Function.update_of_ne (hother other c hold).2]
      exact k.holds other c hold
  case only =>
    intro m c hc
    rw [Function.update_apply] at hc
    split at hc
    · next hm =>
      exact ⟨name, by rw [Function.update_self, hc], by rw [Function.update_self, hm]⟩
    · obtain ⟨other, hold, rfl⟩ := k.only m c hc
      have hne := (hother other c hold).1
      exact ⟨other, by rw [Function.update_of_ne hne, hold], Function.update_of_ne hne ..⟩
  case apart =>
    intro one other c c' hc hc' heq
    rcases hcases one c hc with ⟨rfl, -⟩ | ⟨hne, hold⟩ <;>
      rcases hcases other c' hc' with ⟨rfl, -⟩ | ⟨hne', hold'⟩
    · rfl
    · rw [Function.update_self, Function.update_of_ne hne'] at heq
      exact absurd heq.symm (hother other c' hold').2
    · rw [Function.update_self, Function.update_of_ne hne] at heq
      exact absurd heq (hother one c hold).2
    · rw [Function.update_of_ne hne, Function.update_of_ne hne'] at heq
      exact k.apart one other c c' hold hold' heq

/-- A lease that was taken and given back at once changes nothing. -/
theorem Balanced.refused (k : Balanced history buffers) (h : Fits first none) :
    Balanced (history ++ first) buffers := by
  obtain ⟨ledger, held, number, rfl, haccounted, hseated⟩ := k
  obtain ⟨n, hn⟩ := ledger.exists_unused
  have hsame : Function.update held n none = held :=
    Function.update_eq_self_iff.mpr (haccounted.unused hn).symm
  refine ⟨ledger.enter n first, held, number, by simp, ?_, hseated⟩
  rw [← hsame]
  exact haccounted.enter (by rwa [hn, List.nil_append])

/-- What was taken goes under a name, and what was there before is given back. -/
theorem Balanced.replaced (k : Balanced history buffers) (hfirst : Fits first now)
    (hvacant : buffers name = none → last = [])
    (hended : ∀ b host, buffers name = some b → b.host = .borrowed host →
      last = Lease.returned ⟨b.handle, some host⟩) :
    Balanced (history ++ first ++ last) (Function.update buffers name now) := by
  obtain ⟨ledger, held, number, rfl, haccounted, hseated⟩ := k
  obtain ⟨n, hn⟩ := ledger.exists_unused
  have hentered : Accounted (ledger.enter n first) (Function.update held n now) :=
    haccounted.enter (by rwa [hn, List.nil_append])
  have hfree := haccounted.unused hn
  cases hname : buffers name with
  | none =>
    rw [hvacant hname, List.append_nil]
    exact ⟨_, _, _, Ledger.events_enter .., hentered, hseated.place hname hfree now⟩
  | some b =>
    have hheld := hseated.holds name b hname
    obtain ⟨host, hseen, hcourse⟩ := haccounted.taken hheld
    have hne : number name ≠ n := by
      rintro heq
      rw [heq, hfree] at hheld
      cases hheld
    rw [hended b host hname hseen]
    refine ⟨(ledger.enter n first).enter (number name) (Lease.returned ⟨b.handle, some host⟩),
      Function.update (Function.update held n now) (number name) none, Function.update number name n,
      by simp, ?_, ?_⟩
    · apply hentered.enter
      rw [Ledger.course_enter, if_neg hne, hcourse]
      exact .over ⟨b.handle, some host⟩
    · rw [Function.update_comm hne.symm]
      have hvacated := hseated.vacate hname
      have hplaced := hvacated.place (Function.update_self ..)
        (by rw [Function.update_of_ne hne.symm, hfree]) now
      rwa [Function.update_idem] at hplaced

end Books

/-! ## Sessions -/

/-- The buffers of the service that a session holds, under their names. -/
def leased (s : Session) (name : String) : Option Buffer :=
  (s.buffers.get? name).filter (·.owner = .sharedMemory)

variable {s s' : Session} {history : List BlockEvent} {name : String}

theorem leased_alike (h : Alike s s') : leased s' = leased s := by
  funext name
  rw [leased, h.buffers, leased]

theorem leased_erase (s : Session) (name : String) :
    leased { s with buffers := s.buffers.erase name } = Function.update (leased s) name none := by
  funext other
  rw [leased, Directory.get?_erase, Function.update_apply, leased]
  split <;> rfl

theorem leased_put (s : Session) (name : String) (b : Buffer) :
    leased { s with buffers := s.buffers.put name b } =
      Function.update (leased s) name ((some b).filter (·.owner = .sharedMemory)) := by
  funext other
  rw [leased, Directory.get?_put, Function.update_apply, leased]
  split <;> rfl

/-- The end of a buffer gives its lease back, if it holds one. -/
theorem blockEvents_ended {buffer : Buffer} (h : Ended s buffer events s') :
    (buffer.owner ≠ .sharedMemory → blockEvents events = []) ∧
    ∀ host, buffer.owner = .sharedMemory → buffer.host = .borrowed host →
      blockEvents events = Lease.returned ⟨buffer.handle, some host⟩ := by
  obtain ⟨first, rest, result, backends, rfl, hrelease, hquiet, -⟩ := h
  rw [blockEvents_append, blockEvents_housekeeping hquiet, List.append_nil]
  refine ⟨fun howner => ?_, fun host howner hseen => blockEvents_release howner hseen hrelease⟩
  have huses := (Backends.release_uses _ buffer).of_transcript hrelease
  exact blockEvents_of_uses (Owner.kind_ne howner) huses

/-- A buffer that is put under a name, or nothing, with the end of what was there. -/
theorem Balanced.ended {first : List BlockEvent} {now : Option Buffer} {buffer : Buffer}
    {t : Session} (k : Balanced history (leased s)) (hfirst : Fits first now)
    (hsome : s.buffers.get? name = some buffer) (h : Ended t buffer events s') :
    Balanced (history ++ first ++ blockEvents events) (Function.update (leased s) name now) := by
  obtain ⟨hother, hshared⟩ := blockEvents_ended h
  have hleased : leased s name = if buffer.owner = .sharedMemory then some buffer else none := by
    rw [leased, hsome, Option.filter_some]
    simp
  refine k.replaced hfirst ?_ ?_
  · intro hnone
    apply hother
    intro howner
    rw [hleased, if_pos howner] at hnone
    cases hnone
  · intro b host hb hseen
    rw [hleased] at hb
    split at hb
    · next howner =>
      cases hb
      exact hshared host howner hseen
    · cases hb

theorem Balanced.endedByName (k : Balanced history (leased s))
    (h : EndedByName s name events s') : Balanced (history ++ blockEvents events) (leased s') := by
  rcases h with ⟨-, rfl, rfl⟩ | ⟨buffer, hsome, hended⟩
  · rwa [blockEvents, List.filterMap_nil, List.append_nil]
  · obtain ⟨_, _, _, _, -, -, -, halike⟩ := id hended
    have hbooks := k.ended .fresh hsome hended
    rw [List.append_nil] at hbooks
    rw [leased_alike halike]
    show Balanced _ (leased { s with buffers := s.buffers.erase name })
    rwa [leased_erase]

/-- What an allocation from one of the backends does to the blocks. -/
theorem fits_allocate {b : Backends} {owner : Owner} {r : AllocationRequest}
    {result : Except Fault (Option Buffer × Backends)}
    (h : Performs (b.allocate owner r) events result) :
    Fits (blockEvents events)
      ((result.map Prod.fst).toOption.join.filter (·.owner = .sharedMemory)) := by
  by_cases howner : owner = .sharedMemory
  · subst howner
    obtain ⟨q, hq, rfl⟩ := performs_map.mp h
    have hfits := (performs_allocate.mp hq).fits
    rcases q with fault | _ | buffer
    · exact hfits
    · exact hfits
    · have hself : (some buffer).filter (·.owner = .sharedMemory) = some buffer := by
        simp [allocate_owner hq]
      show Fits _ ((some buffer).filter _)
      rw [hself]
      exact hfits
  · have hkind : owner.kind ≠ .sharedMemory := Owner.kind_ne howner
    rw [blockEvents_of_uses hkind ((Backends.allocate_uses b owner r).run.of_transcript h)]
    rcases result with fault | ⟨_ | buffer, b'⟩
    · exact .fresh
    · exact .fresh
    · have hnone : (some buffer).filter (·.owner = .sharedMemory) = none := by
        simp [Backends.allocate_owner h, howner]
      show Fits _ ((some buffer).filter _)
      rw [hnone]
      exact .fresh

theorem Balanced.allocated {source : Option Owner} {r : AllocationRequest}
    (k : Balanced history (leased s))
    (h : Transcript (s.perform (.allocate name source r)) events s') :
    Balanced (history ++ blockEvents events) (leased s') := by
  obtain ⟨first, rest, outcome, rfl, hattempt, hafter⟩ := Session.allocate_kept h
  have hfits : Fits (blockEvents first)
      ((outcome.map Prod.fst).toOption.join.filter (·.owner = .sharedMemory)) := by
    rcases Session.allocating_ways hattempt with ⟨rfl, fault, rfl⟩ | ⟨owner, r', hbackend⟩
    · exact .fresh
    · exact fits_allocate hbackend
  rw [blockEvents_append, ← List.append_assoc]
  match outcome with
  | .error fault =>
    obtain ⟨rfl, hs⟩ := hafter
    rw [hs, blockEvents, blockEvents, List.filterMap_nil, List.append_nil]
    exact k.refused hfits
  | .ok (none, backends) =>
    obtain ⟨rfl, rfl⟩ := hafter
    rw [blockEvents, blockEvents, List.filterMap_nil, List.append_nil]
    exact k.refused hfits
  | .ok (some buffer, backends) =>
    have hput := leased_put s name buffer
    rcases hafter with ⟨hnone, rfl, rfl⟩ | ⟨previous, hsome, hended⟩
    · show Balanced _ (leased { s with buffers := s.buffers.put name buffer })
      rw [hput]
      refine k.replaced hfits (fun _ => rfl) ?_
      intro b host hb
      rw [leased, show s.buffers.get? name = none from hnone] at hb
      cases hb
    · obtain ⟨_, _, _, _, -, -, -, halike⟩ := id hended
      rw [leased_alike halike]
      show Balanced _ (leased { s with buffers := s.buffers.put name buffer })
      rw [hput]
      exact k.ended hfits hsome hended

/-- Every verb keeps the balance. -/
theorem Balanced.verb {verb : Verb} (k : Balanced history (leased s)) (hverb : verb.Orderly)
    (h : Transcript (s.perform verb) events s') :
    Balanced (history ++ blockEvents events) (leased s') := by
  have hquiet : blockEvents events = [] → leased s' = leased s →
      Balanced (history ++ blockEvents events) (leased s') := by
    intro hnone hsame
    rwa [hnone, hsame, List.append_nil]
  cases verb with
  | allocate name source r => exact k.allocated h
  | release name => exact k.endedByName (Session.release_ended h)
  | drop name => exact k.endedByName (Session.drop_ended h)
  | forget | surrender | deallocate => exact hverb.elim
  | detach =>
    obtain ⟨halike, hhouse⟩ := Session.detach_alike h
    exact hquiet (blockEvents_housekeeping hhouse) (leased_alike halike)
  | write name offset bytes =>
    have hasks : (s.perform (.write name offset bytes)).Plain (Uses .mailbox) := s.write_uses ..
    refine hquiet (blockEvents_of_uses (by decide) (hasks.of_transcript h)) ?_
    rcases Session.write_backend h with rfl | ⟨_, backends, -, -, rfl⟩ <;> rfl
  | execute name path d =>
    obtain ⟨kind, hkind, huses⟩ := Session.execute_uses h
    refine hquiet (blockEvents_of_uses hkind huses) ?_
    rcases Session.execute_backend h with rfl | ⟨_, _, backends, -, halike⟩
    · rfl
    · have hsame := leased_alike halike
      exact hsame
  | wait name =>
    have hasks : (s.perform (.wait name)).Asks (Uses .mailbox) := s.wait_uses name
    refine hquiet (blockEvents_of_uses (by decide) (hasks.of_transcript h)) ?_
    rcases Session.wait_tracker h with rfl | ⟨tracker, halike⟩
    · rfl
    · have hsame := leased_alike halike
      exact hsame
  | notify id =>
    obtain ⟨rfl, rfl⟩ := Dialog.transcript_done.mp h
    exact hquiet rfl rfl

/-- The blocks are in balance wherever a session gets to. -/
theorem balanced_of_run {start s : Session} {events : List (Exchange Hardware)}
    (hstart : ∀ name, start.buffers.get? name = none)
    (run : Run (fun _ verb => verb.Orderly) start events s) :
    Balanced (blockEvents events) (leased s) := by
  refine run.induct (P := fun events s => Balanced (blockEvents events) (leased s)) ?_ ?_
  · have hnothing : ∀ name, leased start name = none := by
      intro name
      rw [leased, hstart name, Option.filter_none]
    refine ⟨[], fun _ => none, fun _ => 0, rfl, fun _ => .fresh, ?_, nofun, ?_⟩
    · simp [hnothing]
    · simp [hnothing]
  · intro events s verb more s' k hverb hstep
    rw [blockEvents_append]
    exact k.verb hverb hstep

/-- The balance of shared memory, over every session and every answer of the service. What the service
gave out can be told apart into leases: a lease that a live buffer holds has been granted and locked
and nothing else, and every other one was given back, the lock at the place where it was and then the
block, each once. An allocation always ends. It goes one of the ways of `Allocates`, and leaves the
one lease that its buffer holds, or none. -/
theorem lease_balance {start s : Session} {events : List (Exchange Hardware)}
    (hstart : ∀ name, start.buffers.get? name = none)
    (run : Run (fun _ verb => verb.Orderly) start events s) :
    Balanced (blockEvents events) (leased s) ∧
    ∀ r : AllocationRequest,
      (∀ {σ : Type} (service : Surroundings Hardware σ) (turns : Nat) (state : σ),
        ∃ result state', (allocate r).run.run service turns state = some (result, state')) ∧
      ∀ calls result, Performs (allocate r) calls result →
        Allocates r calls result ∧ Fits (blockEvents calls) result.toOption.join := by
  refine ⟨balanced_of_run hstart run, fun r => ⟨?_, ?_⟩⟩
  · intro σ service turns state
    exact (allocate_works r).run.exists_run service turns state
  · intro calls result h
    have hway := performs_allocate.mp h
    exact ⟨hway, hway.fits⟩

/-! ### A service that repeats itself -/

def sampleRequest : AllocationRequest := { size := 4096 }

def sampleStart : Session :=
  { system := { config := .standard, backends := { sharedMemory := some { usesPool := true } } } }

def sampleBuffer : Buffer := bufferAt sampleRequest 5 0xC0001000 ⟨0x7000⟩

def sampleHeld : Session := { sampleStart with buffers := ⟨[("a", sampleBuffer)]⟩ }

/-- A block that is given out, locked and used. -/
def sampleAllocation : List (Exchange Hardware) :=
  [granting sampleRequest 5, ⟨.lockShared 5, some ⟨0x7000⟩⟩, ⟨.sharedAddress 5, 0xC0001000⟩]

/-- The same handle and the same place once more, at an address that cannot be used. -/
def sampleRefusal : List (Exchange Hardware) :=
  [granting sampleRequest 5, ⟨.lockShared 5, some ⟨0x7000⟩⟩, ⟨.sharedAddress 5, 0x1234⟩,
    ⟨.unlockShared (.address ⟨0x7000⟩), true⟩, ⟨.freeShared 5, ()⟩]

/-- The end of the buffer, whose unlock fails. -/
def sampleRelease : List (Exchange Hardware) :=
  [⟨.unlockShared (.address ⟨0x7000⟩), false⟩, ⟨.report (.unlockFailed 5), ()⟩, ⟨.freeShared 5, ()⟩]

theorem run_sample :
    Run (fun _ verb => verb.Orderly) sampleStart
      ([] ++ sampleAllocation ++ sampleRefusal ++ sampleRelease) sampleStart := by
  have hallocate : Transcript
      (sampleStart.perform (.allocate "a" (some .sharedMemory) sampleRequest))
      sampleAllocation sampleHeld :=
    .ask _ (.ask _ (.ask _ (.done _)))
  have hrefuse : Transcript
      (sampleHeld.perform (.allocate "b" (some .sharedMemory) sampleRequest))
      sampleRefusal sampleHeld :=
    .ask _ (.ask _ (.ask _ (.ask _ (.ask _ (.done _)))))
  have hrelease : Transcript (sampleHeld.perform (.release "a")) sampleRelease sampleStart :=
    .ask _ (.ask _ (.ask _ (.done _)))
  exact .step (.step (.step .start (by trivial) hallocate) (by trivial) hrefuse) (by trivial) hrelease

/-- The two leases of the one handle are told apart, and both are over. -/
theorem lease_balance_sample :
    Balanced (blockEvents ([] ++ sampleAllocation ++ sampleRefusal ++ sampleRelease))
      (leased sampleStart) :=
  (lease_balance (fun _ => rfl) run_sample).1

end VideoCore.SharedMemory
