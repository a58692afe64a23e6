import VideoCore.Proofs.Session.Holding
import VideoCore.Proofs.System.Faults
import VideoCore.Proofs.System.Queries

/-!
# Backends that are absent

A system asks nothing of a backend that it does not have. `KeepsTo` says so of queries, of the allocation
and the end of a buffer, and of letting go of the system. Physical memory is mapped in none of them but
the allocation, and there at an address where the firmware has locked the buffer.
-/

namespace VideoCore

open Firmware Hardware
open Dialog (Transcript Ensures)

variable {kind : BackendKind} {events first rest : List (Exchange Hardware)}

/-! ## Mapping -/

section Mapping

variable {V : Vocabulary} {mapped? : V.Request → Option UInt32} {locks : UInt32 → Exchange V → Prop}
  {first rest : List (Exchange V)}

/-- Physical memory is mapped only at addresses that are locked. -/
def MapsLocked (mapped? : V.Request → Option UInt32) (locks : UInt32 → Exchange V → Prop)
    (events : List (Exchange V)) : Prop :=
  ∀ e ∈ events, ∀ address, mapped? e.request = some address → ∃ lock ∈ events, locks address lock

theorem mapsLocked_nil : MapsLocked mapped? locks [] :=
  List.forall_mem_nil _

theorem mapsLocked_of_none {events : List (Exchange V)}
    (h : ∀ e ∈ events, mapped? e.request = none) : MapsLocked mapped? locks events := by
  intro e he address hmapped
  rw [h e he] at hmapped
  cases hmapped

theorem MapsLocked.append (h : MapsLocked mapped? locks first) (k : MapsLocked mapped? locks rest) :
    MapsLocked mapped? locks (first ++ rest) := by
  intro e he address hmapped
  rcases List.mem_append.mp he with he | he
  · obtain ⟨lock, hlock, hlocks⟩ := h e he address hmapped
    exact ⟨lock, List.mem_append_left _ hlock, hlocks⟩
  · obtain ⟨lock, hlock, hlocks⟩ := k e he address hmapped
    exact ⟨lock, List.mem_append_right _ hlock, hlocks⟩

end Mapping

/-- The firmware locks a buffer at a physical address. -/
def Mailbox.LocksAt (address : UInt32) (e : Exchange Hardware) : Prop :=
  ∃ (handle : UInt32) (answer : Vector UInt32 _) (bus : BusAddress),
    e = trip .lockMemory [handle] (.ok answer) ∧ answerOf _ (.ok answer) = bus.value ∧
      bus.physical = address

namespace Hardware

/-- Physical memory is mapped only where the firmware has locked a buffer. -/
abbrev MapsBuffers (events : List (Exchange Hardware)) : Prop :=
  MapsLocked Request.mapped? Mailbox.LocksAt events

/-- Only backends that are up are reached, and physical memory is mapped for buffers alone. -/
structure KeepsTo (b : Backends) (events : List (Exchange Hardware)) : Prop where
  reached : ∀ e ∈ events, ∀ kind, e.request.backend? = some kind → b.has kind = true
  mapped : MapsBuffers events

theorem keepsTo_nil {b : Backends} : KeepsTo b [] :=
  ⟨List.forall_mem_nil _, mapsLocked_nil⟩

theorem KeepsTo.append {b : Backends} (h : KeepsTo b first) (k : KeepsTo b rest) :
    KeepsTo b (first ++ rest) where
  reached := List.forall_mem_append.mpr ⟨h.reached, k.reached⟩
  mapped := h.mapped.append k.mapped

theorem KeepsTo.congr {b b' : Backends} (h : KeepsTo b events) (hhas : b.has = b'.has) :
    KeepsTo b' events where
  reached e he kind hkind := hhas ▸ h.reached e he kind hkind
  mapped := h.mapped

/-- Requests to one backend that is up, none of which maps memory. -/
theorem ensures_within {α : Type} {b : Backends} {access : Access α} (hup : b.has kind = true)
    (hwithin : access.Plain (Within kind)) (hmapped : access.Plain fun q : Request => q.mapped? = none) :
    Ensures (KeepsTo b) (fun _ => True) access where
  plain := hwithin.imp fun _ _ => trivial
  all t := by
    refine ⟨⟨?_, mapsLocked_of_none (hmapped.of_transcript t)⟩, trivial⟩
    intro e he other hother
    rwa [← (hwithin.of_transcript t e he).eq hother]

end Hardware

namespace Mailbox

/-- Memory that was locked may be mapped where it lies. -/
theorem mapsBuffers_of_locked {handle : UInt32} {answer : Vector UInt32 _} {bus : BusAddress}
    (locked : answerOf _ (.ok answer) = bus.value)
    (h : ∀ e ∈ rest, e.request.mapped? = none ∨ e.request.mapped? = some bus.physical) :
    MapsBuffers (trip .lockMemory [handle] (.ok answer) :: rest) := by
  intro e he address hmapped
  have hlock : LocksAt bus.physical (trip .lockMemory [handle] (.ok answer)) :=
    ⟨handle, answer, bus, rfl, locked, rfl⟩
  rcases List.mem_cons.mp he with rfl | he
  · cases hmapped
  · rcases h e he with hnone | hsome
    · rw [hnone] at hmapped
      cases hmapped
    · obtain rfl : bus.physical = address := Option.some.inj (hsome.symm.trans hmapped)
      exact ⟨_, List.mem_cons_self, hlock⟩

theorem LocksAndMaps.mapsBuffers {size handle : UInt32} {result : Except Fault (Option Buffer)}
    (h : LocksAndMaps size handle events result) : MapsBuffers events := by
  cases h with
  | lockFailed | notLocked => exact mapsLocked_of_none (by simp [trip, Request.mapped?])
  | mapped locked | unlockFailed locked | notMapped locked =>
    exact mapsBuffers_of_locked locked (by simp [trip, Request.mapped?])

/-- The memory of a buffer is mapped where the firmware has locked it. -/
theorem mapsBuffers_allocate {r : AllocationRequest} {result : Except Fault (Option Buffer)}
    (h : Performs (allocate r) events result) : MapsBuffers events := by
  cases allocates_of_performs h with
  | invalid => exact mapsLocked_nil
  | grantFailed | refused => exact mapsLocked_of_none (by simp [trip, Request.mapped?])
  | granted given nonzero hrest =>
    rw [← List.singleton_append]
    exact (mapsLocked_of_none (by simp [trip, Request.mapped?])).append hrest.mapsBuffers

/-- The end of a buffer maps nothing. -/
theorem deallocate_unmapped (handle : UInt32) :
    Trial.Plain (fun q : Request => q.mapped? = none) (deallocate handle) := by
  have hmessage (tag : Tag) (words : List UInt32) (room index : Nat) :
      Trial.Plain (fun q : Request => q.mapped? = none) (requestWord tag words room index) :=
    requestWord_plain (fun _ => rfl) tag words room index
  refine Trial.plain_bind (Trial.plain_map (hmessage ..)) fun _ => ?_
  exact Trial.plain_bind (Trial.plain_map (hmessage ..)) fun _ => Trial.plain_pure _

end Mailbox

namespace Backends

variable {b : Backends}

theorem mapsBuffers_allocate {owner : Owner} {r : AllocationRequest}
    {result : Except Fault (Option Buffer × Backends)} (h : Performs (b.allocate owner r) events result) :
    MapsBuffers events := by
  cases owner with
  | mailbox =>
    obtain ⟨_, hallocate, -⟩ := performs_map.mp h
    exact Mailbox.mapsBuffers_allocate hallocate
  | sharedMemory =>
    obtain ⟨_, hallocate, -⟩ := performs_map.mp h
    cases SharedMemory.performs_allocate.mp hallocate with
    | invalid => exact mapsLocked_nil
    | refused => exact mapsLocked_of_none (by simp [SharedMemory.granting, Request.mapped?])
    | granted _ _ hrest =>
      apply mapsLocked_of_none
      cases hrest
      all_goals simp [SharedMemory.granting, Request.mapped?]
  | emulator =>
    -- the emulator asks nobody
    have hsilent : events = [] := by
      unfold allocate at h
      cases he : b.emulator with
      | none =>
        simp only [he] at h
        exact (performs_pure.mp h).1
      | some e =>
        simp only [he] at h
        rcases performs_check.mp h with ⟨_, _, hnil, _⟩ | ⟨_, _, hlast⟩
        · exact hnil
        · exact (performs_pure.mp hlast).1
    rw [hsilent]
    exact mapsLocked_nil

theorem release_unmapped (b : Backends) (buffer : Buffer) :
    (b.release buffer).Plain fun q : Request => q.mapped? = none := by
  have hback : (b.deallocate buffer).Plain fun q : Request => q.mapped? = none := by
    unfold deallocate
    cases buffer.owner with
    | mailbox =>
      apply Dialog.Plain.bind
      · exact (Mailbox.deallocate_unmapped buffer.handle).run
      · exact fun _ => trivial
    | sharedMemory =>
      refine Dialog.Plain.bind ?_ fun _ => trivial
      refine Dialog.Plain.bind (plain_ask rfl) fun unlocked => ?_
      cases unlocked with
      | false => exact ⟨rfl, fun _ => ⟨rfl, fun _ => trivial⟩⟩
      | true => exact ⟨rfl, fun _ => trivial⟩
    | emulator =>
      dsimp only
      split
      · trivial
      · next e _ =>
        refine Dialog.Plain.bind ?_ fun _ => trivial
        unfold Emulator.deallocate
        split
        · trivial
        · exact ⟨rfl, fun _ => trivial⟩
  unfold release
  split
  · exact Dialog.Plain.bind (plain_ask rfl) fun _ => hback
  · exact hback

end Backends

/-! ## Systems -/

theorem Inquires.mapped? {q : Request} (h : Inquires q) : q.mapped? = none := by
  cases q with
  | mapPhysical => exact h.elim
  | _ => rfl

namespace System

open Backends

variable {s : System}

/-- A query is put to backends that are up. -/
theorem query_uses {q : SystemQuery} {answer : Option UInt32}
    (h : Transcript (s.query q) events answer) :
    ∀ e ∈ events, ∃ kind, s.backends.has kind = true ∧ Uses kind e.request := by
  intro e he
  cases hemulated : s.config.emulated with
  | true =>
    rw [query, if_pos hemulated] at h
    obtain ⟨rfl, -⟩ := Dialog.transcript_done.mp h
    cases he
  | false =>
    have hasked : ∃ kind ∈ s.backends.queryOrder, Uses kind e.request := by
      rcases (transcript_query hemulated).mp h with
        ⟨-, hpassed⟩ | ⟨earlier, kind, later, before, last, value, horder, rfl, -, hpassed, hlast⟩
      · exact hpassed.uses e he
      · rw [horder]
        rcases List.mem_append.mp he with he | he
        · obtain ⟨other, hother, huses⟩ := hpassed.uses e he
          exact ⟨other, List.mem_append_left _ hother, huses⟩
        · exact ⟨kind, by simp, hlast.uses e he⟩
    obtain ⟨kind, hkind, huses⟩ := hasked
    exact ⟨kind, (mem_queryOrder.mp hkind).1, huses⟩

/-- An allocation is turned away, or it is made from a backend that is up. -/
theorem allocate_ways {r : AllocationRequest} {result : Except Fault (Option Buffer × System)}
    (h : Performs (s.allocate r) events result) :
    (events = [] ∧ ∃ fault, result = .error fault) ∨
      ∃ owner outcome, s.backends.has owner.kind = true ∧
        Performs (s.backends.allocate owner (adjust s.config r)) events outcome ∧
        result = outcome.map fun given => (given.1, { s with backends := given.2 }) := by
  unfold allocate at h
  rcases performs_check.mp h with ⟨fault, -, rfl, rfl⟩ | ⟨_, -, hrest⟩
  · exact .inl ⟨rfl, fault, rfl⟩
  cases hmemory : s.memory with
  | none =>
    simp only [hmemory] at hrest
    obtain ⟨rfl, rfl⟩ := performs_throw.mp hrest
    exact .inl ⟨rfl, _, rfl⟩
  | some owner =>
    simp only [hmemory] at hrest
    obtain ⟨outcome, hallocate, rfl⟩ := performs_map.mp hrest
    exact .inr ⟨owner, outcome, has_of_memory hmemory, hallocate, rfl⟩

theorem allocate_plain (s : System) (r : AllocationRequest) :
    Trial.Plain (fun _ => True) (s.allocate r) := by
  unfold allocate
  refine Trial.plain_check fun _ => ?_
  split
  · exact Trial.plain_throw _
  · next owner _ =>
    exact Trial.plain_map ((s.backends.allocate_uses owner _).imp fun _ _ => trivial)

theorem query_keeps (s : System) (q : SystemQuery) :
    Ensures (KeepsTo s.backends) (fun _ => True) (s.query q) where
  plain := (s.query_inquires q).imp fun _ _ => trivial
  all t := by
    refine ⟨⟨?_, ?_⟩, trivial⟩
    · intro e he kind hkind
      obtain ⟨other, hup, huses⟩ := query_uses t e he
      rwa [← huses.within.eq hkind]
    · exact mapsLocked_of_none fun e he => ((s.query_inquires q).of_transcript t e he).mapped?

theorem queryOrDefault_keeps (s : System) (q : SystemQuery) :
    Ensures (KeepsTo s.backends) (fun _ => True) (s.queryOrDefault q) :=
  (s.query_keeps q).bind KeepsTo.append fun _ _ => .done keepsTo_nil trivial

/-- After an allocation the same backends are up, and a buffer came from one of them. -/
theorem allocate_keeps (s : System) (r : AllocationRequest) :
    Ensures (KeepsTo s.backends)
      (Trial.Valued fun given => given.2.backends.has = s.backends.has ∧
        ∀ buffer, given.1 = some buffer → s.backends.has buffer.owner.kind = true)
      (s.allocate r).run where
  plain := (s.allocate_plain r).run
  all t := by
    rcases allocate_ways t with ⟨rfl, fault, rfl⟩ | ⟨owner, outcome, hup, hallocate, rfl⟩
    · exact ⟨keepsTo_nil, trivial⟩
    refine ⟨⟨?_, mapsBuffers_allocate hallocate⟩, ?_⟩
    · intro e he kind hkind
      have huses := (s.backends.allocate_uses owner _).run.of_transcript hallocate e he
      rwa [← huses.within.eq hkind]
    · rcases outcome with fault | ⟨given, backends⟩
      · trivial
      · refine ⟨has_allocate hallocate, ?_⟩
        rintro buffer rfl
        rw [allocate_owner hallocate]
        exact hup

end System

/-- The end of a buffer reaches the backend that it came from, and stops none. -/
theorem Backends.release_keeps {b : Backends} {buffer : Buffer} (hup : b.has buffer.owner.kind = true) :
    Ensures (KeepsTo b) (fun result => result.2.has = b.has) (b.release buffer) where
  plain := (b.release_uses buffer).imp fun _ _ => trivial
  all t := by
    have hkeeps := ensures_within hup ((b.release_uses buffer).imp fun _ h => h.within)
      (b.release_unmapped buffer)
    exact ⟨(hkeeps.all t).1, has_release t⟩

/-- A backend that is stopped was up. -/
theorem Session.stopUnheld_keeps {s s' : Session} (h : Transcript (s.stopUnheld kind) events s') :
    KeepsTo s.system.backends events ∧ s'.system = s.system := by
  rcases stopUnheld_cases h with ⟨rfl, rfl, -⟩ | ⟨-, -, hup, hstops, rfl⟩
  · exact ⟨keepsTo_nil, rfl⟩
  · have hstop := ensures_within hup (s.system.backends.stop_within kind)
      (s.system.backends.stop_plain (fun _ => rfl) (fun _ => rfl) rfl)
    exact ⟨(hstop.all hstops).1, rfl⟩

/-- A system that is let go of stops no other backends than its own. -/
theorem Session.detach_keeps (s : System) :
    Ensures (KeepsTo s.backends) (fun _ => True) (Session.detach { system := s }) where
  plain := Dialog.Plain.foldlM (fun t kind => t.stopUnheld_plain kind) _ _
  all t := by
    have hkept := Dialog.transcript_foldlM
      (P := fun events t => KeepsTo s.backends events ∧ t.system = s) [] ?_ ⟨keepsTo_nil, rfl⟩ t
    · exact ⟨hkept.1, trivial⟩
    rintro before u kind more u' ⟨hkeeps, rfl⟩ hstop
    obtain ⟨hmore, hsystem⟩ := stopUnheld_keeps hstop
    exact ⟨hkeeps.append hmore, hsystem⟩

end VideoCore
