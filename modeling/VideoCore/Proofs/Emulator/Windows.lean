import VideoCore.Proofs.Emulator.Buffers
import VideoCore.Proofs.Emulator.Regions

/-!
# Buffers in their windows

The emulator takes no request that is larger than a window, and nothing that happens to a buffer
later changes its size. So wherever a session gets to, whatever was done with whose handles, the
memory of every live buffer ends inside the window of its slot (`fits_of_run`). Then an address lies
in the memory of at most one buffer, the one that it leads to.
-/

namespace VideoCore.Emulator

open Hardware
open Dialog (Transcript)
open Session (Verb Run Ended EndedByName Alike)

/-! ## Sizes -/

/-- The buffers of a table are small enough for their windows. -/
def Fits (t : SlotTable) : Prop := ∀ i slot, t.get? i = some slot → roundedSize slot.size ≤ window

theorem Fits.sameSizes {t u : SlotTable} (h : Fits t) (hsizes : SlotTable.SameSizes t u) :
    Fits u := by
  intro i slot hslot
  obtain ⟨old, hold, hsize, -⟩ := hsizes.slot hslot
  rw [← hsize]
  exact h i old hold

/-- Every buffer with a handle is small enough for a window. -/
def Fitting (size? : UInt32 → Option UInt32) : Prop :=
  ∀ handle size, size? handle = some size → roundedSize size ≤ window

namespace Fitting

variable {size? : UInt32 → Option UInt32}

theorem freed (k : Fitting size?) (handle : UInt32) : Fitting (Function.update size? handle none) := by
  intro other size hsize
  by_cases h : other = handle
  · rw [h, Function.update_self] at hsize
    cases hsize
  · rw [Function.update_of_ne h] at hsize
    exact k other size hsize

theorem added (k : Fitting size?) {size : UInt32} (hfits : roundedSize size ≤ window)
    (handle : UInt32) : Fitting (Function.update size? handle (some size)) := by
  intro other size' hsize
  by_cases h : other = handle
  · rw [h, Function.update_self] at hsize
    cases hsize
    exact hfits
  · rw [Function.update_of_ne h] at hsize
    exact k other size' hsize

end Fitting

/-! ## Runs -/

variable {start s s' : Session} {events : List (Exchange Hardware)}

/-- Every live buffer of a session's emulator is small enough for a window. -/
abbrev AllFitting (s : Session) : Prop := Fitting s.system.backends.sizeAt?

theorem AllFitting.stocked (k : AllFitting s) (h : SameStock s s') : AllFitting s' := by
  show Fitting s'.system.backends.sizeAt?
  rw [h.sizes]
  exact k

theorem AllFitting.alike (k : AllFitting s) (h : Alike s s') : AllFitting s' :=
  k.stocked (.ofAlike h)

theorem AllFitting.freed {backends : Backends} {buffer : Buffer} (k : AllFitting s)
    (h : backends.sizeAt? = if buffer.owner = .emulator then
      Function.update s.system.backends.sizeAt? buffer.handle none
      else s.system.backends.sizeAt?) : AllFitting (s.withBackends backends) := by
  show Fitting backends.sizeAt?
  rw [h]
  split
  · exact Fitting.freed k buffer.handle
  · exact k

theorem AllFitting.ended {buffer : Buffer} (k : AllFitting s) (h : Ended s buffer events s') :
    AllFitting s' := by
  obtain ⟨first, rest, result, backends, -, hrelease, -, halike⟩ := h
  exact AllFitting.alike (AllFitting.freed k (Backends.sizeAt?_release hrelease)) halike

theorem AllFitting.endedByName {name : String} (k : AllFitting s)
    (h : EndedByName s name events s') : AllFitting s' := by
  rcases h with ⟨-, -, rfl⟩ | ⟨buffer, -, hended⟩
  · exact k
  · exact AllFitting.ended (s := { s with buffers := s.buffers.erase name }) k hended

theorem AllFitting.allocated {name : String} {source : Option Owner} {r : AllocationRequest}
    (k : AllFitting s) (h : Transcript (s.perform (.allocate name source r)) events s') :
    AllFitting s' := by
  obtain ⟨first, rest, outcome, -, hattempt, hafter⟩ := Session.allocate_kept h
  -- the backends fit after the attempt, and what is done to a former buffer of the name is no news
  have hbackends : ∀ result backends, outcome = .ok (result, backends) →
      AllFitting (s.withBackends backends) := by
    rintro result backends rfl
    obtain ⟨owner, r', hbackend⟩ := Session.allocating_backend hattempt
    show Fitting backends.sizeAt?
    rcases Backends.sizeAt?_allocate hbackend with ⟨hsame, -⟩ | ⟨index, -, -, hfits, -, hupdate⟩
    · rw [hsame]
      exact k
    · rw [hupdate]
      exact Fitting.added k hfits _
  match outcome with
  | .error fault =>
    obtain ⟨-, rfl⟩ := hafter
    exact k
  | .ok (none, backends) =>
    obtain ⟨-, rfl⟩ := hafter
    exact hbackends none backends rfl
  | .ok (some buffer, backends) =>
    have hfits := hbackends (some buffer) backends rfl
    rcases hafter with ⟨-, -, rfl⟩ | ⟨previous, -, hended⟩
    · exact hfits
    · refine AllFitting.ended ?_ hended
      exact hfits

theorem AllFitting.verb {verb : Verb} (k : AllFitting s)
    (h : Transcript (s.perform verb) events s') : AllFitting s' := by
  cases verb with
  | allocate name source r => exact k.allocated h
  | release name => exact k.endedByName (Session.release_ended h)
  | drop name => exact k.endedByName (Session.drop_ended h)
  | forget name =>
    rcases Session.forget_alike h with ⟨-, rfl⟩ | halike
    · exact k
    · exact AllFitting.alike (s := { s with buffers := s.buffers.erase name }) k halike
  | surrender owner => exact k.alike (Session.surrender_alike h)
  | deallocate buffer =>
    obtain ⟨result, backends, hgive, rfl⟩ := Session.deallocate_backend h
    exact k.freed (Backends.sizeAt?_deallocate hgive)
  | write name offset bytes => exact k.stocked (write_sameStock h)
  | execute name path d => exact k.stocked (execute_sameStock h)
  | wait name => exact k.stocked (wait_sameStock h)
  | notify id =>
    cases (Dialog.transcript_done.mp h).2
    exact k
  | detach => exact k.alike (Session.detach_alike h).1

/-- A session whose emulator holds no buffers, if it has one. -/
def Vacant (s : Session) : Prop := ∀ e, s.system.backends.emulator = some e → e.slots = .empty

theorem sizeAt?_of_vacant (h : Vacant s) (handle : UInt32) :
    s.system.backends.sizeAt? handle = none := by
  rw [Option.eq_none_iff_forall_ne_some]
  intro size hsize
  obtain ⟨e, he, hsize⟩ := Option.bind_eq_some_iff.mp hsize
  obtain ⟨slot, hfind, -⟩ := Option.map_eq_some_iff.mp hsize
  obtain ⟨index, -, hget⟩ := Option.bind_eq_some_iff.mp hfind
  rw [h e he, SlotTable.get?_empty] at hget
  cases hget

/-- Wherever a session gets to, every live buffer of its emulator fits the window of its slot. -/
theorem fits_of_run {allowed : Session → Verb → Prop} {e : Emulator} (hstart : Vacant start)
    (run : Run allowed start events s) (he : s.system.backends.emulator = some e) :
    Fits e.slots := by
  have hfirst : AllFitting start := by
    intro handle size hsize
    rw [sizeAt?_of_vacant hstart] at hsize
    cases hsize
  have hfitting : AllFitting s :=
    run.induct (P := fun _ s => AllFitting s) hfirst fun _ s verb _ s' k _ h => k.verb h
  intro i slot hslot
  have hsize : s.system.backends.sizeAt? (SlotTable.handleOf i) = some slot.size := by
    rw [Backends.sizeAt?_emulator he, size?, find?_handleOf e (SlotTable.lt_of_get? hslot), hslot,
      Option.map_some]
  exact hfitting (SlotTable.handleOf i) slot.size hsize

end VideoCore.Emulator
