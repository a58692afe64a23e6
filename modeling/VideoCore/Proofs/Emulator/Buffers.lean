import VideoCore.Proofs.Emulator.SlotMap
import VideoCore.Proofs.Mailbox.Buffers
import VideoCore.Proofs.Session.Run
import VideoCore.Proofs.SharedMemory.Allocation

/-!
# Buffers of the emulator

A session may hold buffers of the emulator besides others, allocate and end them in any order, write
to them and run kernels. As long as nobody gives the handle of a live buffer back behind its back,
every live buffer sits in a slot of its own (`Placed`), so no two of them have the same handle or
overlap on the bus.
-/

namespace VideoCore

open Hardware
open Dialog (Transcript)
open Emulator (SlotTable slotCount roundedSize window bufferAt)

/-! ## What the backends do to the sizes -/

namespace Backends

variable {b b' : Backends}

/-- The size of the emulator's buffer with a handle. -/
def sizeAt? (b : Backends) (handle : UInt32) : Option UInt32 :=
  b.emulator.bind fun e => e.size? handle

theorem sizeAt?_emulator {e : Emulator} (h : b.emulator = some e) : b.sizeAt? = e.size? := by
  funext handle
  rw [sizeAt?, h, Option.bind_some]

theorem sizeAt?_congr (h : b'.emulator = b.emulator) : b'.sizeAt? = b.sizeAt? := by
  funext handle
  rw [sizeAt?, h, sizeAt?]

end Backends

namespace Backends

variable {b b' : Backends} {events : List (Exchange Hardware)}

/-- An allocation leaves the emulator alone, or takes one of its free slots. -/
theorem sizeAt?_allocate {owner : Owner} {r : AllocationRequest} {result : Option Buffer}
    (h : Performs (b.allocate owner r) events (.ok (result, b'))) :
    (b'.sizeAt? = b.sizeAt? ∧ ∀ buffer, result = some buffer → buffer.owner ≠ .emulator) ∨
    ∃ index < slotCount, b.sizeAt? (SlotTable.handleOf index) = none ∧
      roundedSize r.size ≤ window ∧ result = some (bufferAt index r.size) ∧
      b'.sizeAt? = Function.update b.sizeAt? (SlotTable.handleOf index) (some r.size) := by
  cases owner with
  | mailbox =>
    obtain ⟨given, hgiven, hr⟩ := performs_map_ok.mp h
    cases hr
    refine .inl ⟨rfl, ?_⟩
    rintro buffer rfl
    rw [Mailbox.allocate_owner hgiven]
    exact nofun
  | sharedMemory =>
    obtain ⟨given, hgiven, hr⟩ := performs_map_ok.mp h
    cases hr
    refine .inl ⟨rfl, ?_⟩
    rintro buffer rfl
    rw [SharedMemory.allocate_owner hgiven]
    exact nofun
  | emulator =>
    obtain ⟨-, ⟨-, rfl, rfl⟩ | ⟨e, e', he, hallocate, rfl⟩⟩ := emulator_ways h
    · exact .inl ⟨rfl, nofun⟩
    · rcases Emulator.allocate_cases hallocate with
        ⟨rfl, rfl⟩ | ⟨index, hindex, hfree, hfits, rfl, hupdate⟩
      · exact .inl ⟨sizeAt?_congr he.symm, nofun⟩
      · refine .inr ⟨index, hindex, ?_, hfits, rfl, ?_⟩
        · rw [sizeAt?_emulator he, Emulator.size?, hfree]
          rfl
        · rw [sizeAt?_emulator he, sizeAt?_emulator (e := e') rfl]
          exact Emulator.size?_of_update hupdate

/-- The return of a buffer of the emulator frees its handle; that of another leaves the emulator
alone. -/
theorem sizeAt?_deallocate {buffer : Buffer} {result : Except Fault Bool}
    (h : Transcript (b.deallocate buffer) events (result, b')) :
    b'.sizeAt? = if buffer.owner = .emulator then Function.update b.sizeAt? buffer.handle none
      else b.sizeAt? := by
  unfold deallocate at h
  cases howner : buffer.owner with
  | mailbox | sharedMemory =>
    simp only [howner] at h
    obtain ⟨_, -, hr⟩ := Dialog.transcript_map.mp h
    cases hr
    rfl
  | emulator =>
    simp only [howner] at h
    rw [if_pos rfl]
    cases he : b.emulator with
    | none =>
      simp only [he] at h
      cases (Dialog.transcript_done.mp h).2
      -- without an emulator nothing is known at the handle to begin with
      rw [Function.update_eq_self_iff.mpr]
      rw [sizeAt?, he, Option.bind_none]
    | some e =>
      simp only [he] at h
      obtain ⟨⟨known, e'⟩, hfree, hr⟩ := Dialog.transcript_map.mp h
      cases hr
      obtain ⟨-, hupdate⟩ := Emulator.find?_deallocate hfree
      rw [sizeAt?_emulator he, sizeAt?_emulator (e := e') rfl]
      exact Emulator.size?_of_update hupdate

theorem sizeAt?_release {buffer : Buffer} {result : Except Fault Bool}
    (h : Transcript (b.release buffer) events (result, b')) :
    b'.sizeAt? = if buffer.owner = .emulator then Function.update b.sizeAt? buffer.handle none
      else b.sizeAt? := by
  unfold release at h
  split at h
  · obtain ⟨first, rest, _, -, -, hrest⟩ := Dialog.transcript_bind.mp h
    exact sizeAt?_deallocate hrest
  · exact sizeAt?_deallocate h

/-- No backend allocates or frees when it executes. -/
theorem sizeAt?_execute {kind : BackendKind} {d : Dispatch} {handle : Handle GpuService.JobWait}
    (h : Performs (b.execute kind d) events (.ok (handle, b'))) : b'.sizeAt? = b.sizeAt? := by
  unfold execute at h
  cases kind with
  | sharedMemory => cases (performs_throw.mp h).2
  | mailbox =>
    obtain ⟨_, -, hr⟩ := performs_map_ok.mp h
    cases hr
    rfl
  | v3d =>
    cases hv : b.v3d with
    | none =>
      simp only [hv] at h
      cases (performs_throw.mp h).2
    | some v =>
      simp only [hv] at h
      obtain ⟨_, -, hr⟩ := performs_map_ok.mp h
      cases hr
      rfl
  | gpuService =>
    cases hg : b.gpuService with
    | none =>
      simp only [hg] at h
      cases (performs_throw.mp h).2
    | some g =>
      simp only [hg] at h
      obtain ⟨_, -, hr⟩ := performs_map_ok.mp h
      cases hr
      rfl
  | emulator =>
    cases he : b.emulator with
    | none =>
      simp only [he] at h
      cases (performs_throw.mp h).2
    | some e =>
      simp only [he] at h
      obtain ⟨⟨_, e'⟩, hrun, hr⟩ := performs_map_ok.mp h
      cases hr
      rw [sizeAt?_emulator he, sizeAt?_emulator (e := e') rfl]
      exact Emulator.execute_size? hrun

/-- A write of the host neither allocates nor frees. -/
theorem sizeAt?_write {buffer : Buffer} {offset : Nat} {bytes : ByteArray}
    (h : Transcript (b.writeBuffer? buffer offset bytes) events (some b')) :
    b'.sizeAt? = b.sizeAt? := by
  unfold writeBuffer? at h
  split at h
  · cases (Dialog.transcript_done.mp h).2
  split at h
  · obtain ⟨_, -, hr⟩ := Dialog.transcript_map.mp h
    cases hr
    rfl
  · obtain ⟨_, -, hr⟩ := Dialog.transcript_map.mp h
    cases hr
    rfl
  · next index hslot =>
    obtain ⟨-, hb⟩ := Dialog.transcript_done.mp h
    cases he : b.emulator with
    | none =>
      rw [he] at hb
      cases hb
    | some e =>
      rw [he] at hb
      cases hb
      rw [sizeAt?_emulator he, sizeAt?_emulator rfl]
      exact (Emulator.find?_modify e index _).1

end Backends

namespace Emulator

/-! ## Where the buffers of a session are -/

/-- A buffer of the emulator sits in a slot, with the handle and the address of that slot. -/
def InSlot (size? : UInt32 → Option UInt32) (buffer : Buffer) : Prop :=
  ∃ index < slotCount, buffer = bufferAt index buffer.size ∧ roundedSize buffer.size ≤ window ∧
    size? buffer.handle = some buffer.size

/-- What happens at another handle is of no concern to a buffer. -/
theorem InSlot.update {size? : UInt32 → Option UInt32} {buffer : Buffer} {handle : UInt32}
    (h : InSlot size? buffer) (hne : buffer.handle ≠ handle) (size : Option UInt32) :
    InSlot (Function.update size? handle size) buffer := by
  obtain ⟨index, hindex, heq, hfits, hsize⟩ := h
  refine ⟨index, hindex, heq, hfits, ?_⟩
  rw [Function.update_of_ne hne, hsize]

/-- Every buffer of the emulator that is held sits in a slot of its own. -/
structure Placed (d : Directory Buffer) (size? : UInt32 → Option UInt32) : Prop where
  in_slot : ∀ name b, d.get? name = some b → b.owner = .emulator → InSlot size? b
  apart : ∀ name other b c, d.get? name = some b → d.get? other = some c →
    b.owner = .emulator → c.owner = .emulator → b.handle = c.handle → name = other

namespace Placed

variable {d d' : Directory Buffer} {size? : UInt32 → Option UInt32}

/-- Nothing is lost when fewer buffers are held. -/
theorem anti (k : Placed d size?) (h : ∀ name b, d'.get? name = some b → d.get? name = some b) :
    Placed d' size? where
  in_slot name b hb := k.in_slot name b (h name b hb)
  apart name other b c hb hc := k.apart name other b c (h name b hb) (h other c hc)

theorem erase (k : Placed d size?) (name : String) : Placed (d.erase name) size? := by
  apply k.anti
  intro other b hb
  rw [Directory.get?_erase] at hb
  split at hb
  · cases hb
  · exact hb

/-- A handle that no buffer has may be freed. -/
theorem freed (k : Placed d size?) {handle : UInt32}
    (hunheld : ∀ name b, d.get? name = some b → b.owner = .emulator → b.handle ≠ handle) :
    Placed d (Function.update size? handle none) where
  in_slot name b hb howner :=
    (k.in_slot name b hb howner).update (hunheld name b hb howner) none
  apart := k.apart

/-- A new buffer goes into a free slot. -/
theorem added (k : Placed d size?) {index : Nat} {size : UInt32} (hindex : index < slotCount)
    (hfits : roundedSize size ≤ window) (hfree : size? (SlotTable.handleOf index) = none)
    (name : String) :
    Placed (d.put name (bufferAt index size))
      (Function.update size? (SlotTable.handleOf index) (some size)) := by
  -- a buffer that is held has a handle that is not free
  have hold : ∀ other b, other ≠ name → (d.put name (bufferAt index size)).get? other = some b →
      d.get? other = some b ∧ (b.owner = .emulator → b.handle ≠ SlotTable.handleOf index) := by
    intro other b hne hb
    rw [Directory.get?_put_of_ne d _ hne] at hb
    refine ⟨hb, ?_⟩
    intro howner heq
    obtain ⟨-, -, -, -, hsize⟩ := k.in_slot other b hb howner
    rw [heq, hfree] at hsize
    cases hsize
  have hnew : ∀ b, (d.put name (bufferAt index size)).get? name = some b →
      b = bufferAt index size := by
    intro b hb
    rw [Directory.get?_put_self] at hb
    exact (Option.some.inj hb).symm
  constructor
  case in_slot =>
    intro other b hb howner
    by_cases hne : other = name
    · subst hne
      rw [hnew b hb]
      exact ⟨index, hindex, rfl, hfits, Function.update_self ..⟩
    · obtain ⟨hb, hhandle⟩ := hold other b hne hb
      exact (k.in_slot other b hb howner).update (hhandle howner) (some size)
  case apart =>
    intro one other b c hb hc hbo hco heq
    by_cases hone : one = name <;> by_cases hother : other = name
    · rw [hone, hother]
    · subst hone
      rw [hnew b hb] at heq
      exact absurd heq.symm ((hold other c hother hc).2 hco)
    · subst hother
      rw [hnew c hc] at heq
      exact absurd heq ((hold one b hone hb).2 hbo)
    · exact k.apart one other b c (hold one b hone hb).1 (hold other c hother hc).1 hbo hco heq

/-- A buffer of another backend takes no slot. -/
theorem put_other (k : Placed d size?) {b : Buffer} (hb : b.owner ≠ .emulator) (name : String) :
    Placed (d.put name b) size? := by
  have hold : ∀ other c, (d.put name b).get? other = some c → c.owner = .emulator →
      d.get? other = some c := by
    intro other c hc howner
    rw [Directory.get?_put] at hc
    split at hc
    · cases hc
      exact absurd howner hb
    · exact hc
  constructor
  case in_slot => exact fun other c hc howner => k.in_slot other c (hold other c hc howner) howner
  case apart =>
    intro one other c c' hc hc' hco hco'
    exact k.apart one other c c' (hold one c hc hco) (hold other c' hc' hco') hco hco'

end Placed

/-! ## Runs -/

open Session (Verb Run Ended EndedByName Kept Alike)

variable {s s' : Session} {events : List (Exchange Hardware)}

/-- Every buffer of the emulator that a session holds sits in a slot of its own. -/
abbrev AllPlaced (s : Session) : Prop := Placed s.buffers s.system.backends.sizeAt?

/-- No buffer of the emulator that a session holds has the handle of another one. -/
def Unheld (s : Session) (buffer : Buffer) : Prop :=
  buffer.owner = .emulator →
    ∀ name b, s.buffers.get? name = some b → b.owner = .emulator → b.handle ≠ buffer.handle

/-- Sessions that hold the same buffers, and whose emulators have the same. -/
structure SameStock (s s' : Session) : Prop where
  buffers : s'.buffers = s.buffers
  sizes : s'.system.backends.sizeAt? = s.system.backends.sizeAt?

theorem SameStock.ofAlike (h : Alike s s') : SameStock s s' :=
  ⟨h.buffers, by rw [h.system]⟩

theorem write_sameStock {name : String} {offset : Nat} {bytes : ByteArray}
    (h : Transcript (s.perform (.write name offset bytes)) events s') : SameStock s s' := by
  rcases Session.write_backend h with rfl | ⟨buffer, backends, -, hwrite, rfl⟩
  · exact ⟨rfl, rfl⟩
  · exact ⟨rfl, Backends.sizeAt?_write hwrite⟩

theorem execute_sameStock {name : String} {path : Option BackendKind} {d : Dispatch}
    (h : Transcript (s.perform (.execute name path d)) events s') : SameStock s s' := by
  rcases Session.execute_backend h with rfl | ⟨kind, handle, backends, hrun, halike⟩
  · exact ⟨rfl, rfl⟩
  · refine ⟨halike.buffers, ?_⟩
    rw [halike.system]
    exact Backends.sizeAt?_execute hrun

theorem wait_sameStock {name : String} (h : Transcript (s.perform (.wait name)) events s') :
    SameStock s s' := by
  rcases Session.wait_tracker h with rfl | ⟨tracker, halike⟩
  · exact ⟨rfl, rfl⟩
  · refine ⟨halike.buffers, ?_⟩
    rw [halike.system]
    rfl

theorem AllPlaced.stocked (k : AllPlaced s) (h : SameStock s s') : AllPlaced s' := by
  unfold AllPlaced at *
  rw [h.buffers, h.sizes]
  exact k

theorem AllPlaced.alike (k : AllPlaced s) (h : Alike s s') : AllPlaced s' :=
  k.stocked (.ofAlike h)

/-- The sizes after a handle was freed, or left alone if it was another backend's. -/
theorem AllPlaced.freed {backends : Backends} {buffer : Buffer} (k : AllPlaced s)
    (hunheld : Unheld s buffer)
    (h : backends.sizeAt? = if buffer.owner = .emulator then
      Function.update s.system.backends.sizeAt? buffer.handle none
      else s.system.backends.sizeAt?) : AllPlaced (s.withBackends backends) := by
  show Placed s.buffers backends.sizeAt?
  rw [h]
  split
  · next howner => exact Placed.freed k (hunheld howner)
  · exact k

theorem AllPlaced.ended {buffer : Buffer} (k : AllPlaced s) (hunheld : Unheld s buffer)
    (h : Ended s buffer events s') : AllPlaced s' := by
  obtain ⟨first, rest, result, backends, -, hrelease, -, halike⟩ := h
  exact (k.freed hunheld (Backends.sizeAt?_release hrelease)).alike halike

theorem AllPlaced.endedByName {name : String} (k : AllPlaced s)
    (h : EndedByName s name events s') : AllPlaced s' := by
  rcases h with ⟨-, -, rfl⟩ | ⟨buffer, hsome, hended⟩
  · exact k
  · -- once it is struck off the list, no other buffer has its handle
    refine AllPlaced.ended (Placed.erase k name) ?_ hended
    intro howner other b hb hbo heq
    rw [show Session.buffers _ = s.buffers.erase name from rfl, Directory.get?_erase] at hb
    split at hb
    · cases hb
    · next hne => exact hne (k.apart other name b buffer hb hsome hbo howner heq)

/-- A buffer that had the name of a new one is not in the way, as the new one got a free slot. -/
theorem unheld_previous {name : String} {previous buffer : Buffer} (k : AllPlaced s)
    (hsome : s.buffers.get? name = some previous)
    (hnew : buffer.owner = .emulator → s.system.backends.sizeAt? buffer.handle = none) :
    Unheld { s with buffers := s.buffers.put name buffer } previous := by
  intro howner other b hb hbo heq
  rw [show Session.buffers _ = s.buffers.put name buffer from rfl, Directory.get?_put] at hb
  split at hb
  · cases hb
    obtain ⟨-, -, -, -, hsize⟩ := k.in_slot name previous hsome howner
    rw [← heq, hnew hbo] at hsize
    cases hsize
  · next hne => exact hne (k.apart other name b previous hb hsome hbo howner heq)

theorem AllPlaced.allocated {name : String} {source : Option Owner} {r : AllocationRequest}
    (k : AllPlaced s) (h : Transcript (s.perform (.allocate name source r)) events s') :
    AllPlaced s' := by
  obtain ⟨first, rest, outcome, -, hattempt, hafter⟩ := Session.allocate_kept h
  match outcome with
  | .error fault =>
    obtain ⟨-, rfl⟩ := hafter
    exact k
  | .ok (none, backends) =>
    obtain ⟨-, rfl⟩ := hafter
    obtain ⟨owner, r', hbackend⟩ := Session.allocating_backend hattempt
    rcases Backends.sizeAt?_allocate hbackend with ⟨hsame, -⟩ | ⟨_, _, _, _, hnone, -⟩
    · show Placed s.buffers backends.sizeAt?
      rw [hsame]
      exact k
    · cases hnone
  | .ok (some buffer, backends) =>
    obtain ⟨owner, r', hbackend⟩ := Session.allocating_backend hattempt
    -- the new buffer has its place once it is listed, and its handle was free before
    have hplaced : Placed (s.buffers.put name buffer) backends.sizeAt? ∧
        (buffer.owner = .emulator → s.system.backends.sizeAt? buffer.handle = none) := by
      rcases Backends.sizeAt?_allocate hbackend with
        ⟨hsame, hother⟩ | ⟨index, hindex, hfree, hfits, hbuffer, hupdate⟩
      · rw [hsame]
        exact ⟨k.put_other (hother buffer rfl) name, fun howner => absurd howner (hother buffer rfl)⟩
      · cases hbuffer
        rw [hupdate]
        exact ⟨k.added hindex hfits hfree name, fun _ => hfree⟩
    obtain ⟨hlisted, hnew⟩ := hplaced
    rcases hafter with ⟨-, -, rfl⟩ | ⟨previous, hsome, hended⟩
    · exact hlisted
    · refine AllPlaced.ended hlisted ?_ hended
      exact unheld_previous (s := s) k hsome hnew

/-- The verbs of a session in which nobody gives back the handle of a buffer that somebody holds. -/
def OwnHandles (s : Session) : Verb → Prop
  | .deallocate buffer => Unheld s buffer
  | _ => True

theorem AllPlaced.verb {verb : Verb} (k : AllPlaced s) (hverb : OwnHandles s verb)
    (h : Transcript (s.perform verb) events s') : AllPlaced s' := by
  cases verb with
  | allocate name source r => exact k.allocated h
  | release name => exact k.endedByName (Session.release_ended h)
  | drop name => exact k.endedByName (Session.drop_ended h)
  | forget name =>
    rcases Session.forget_alike h with ⟨-, rfl⟩ | halike
    · exact k
    · exact AllPlaced.alike (Placed.erase k name) halike
  | surrender owner => exact k.alike (Session.surrender_alike h)
  | deallocate buffer =>
    obtain ⟨result, backends, hgive, rfl⟩ := Session.deallocate_backend h
    exact k.freed hverb (Backends.sizeAt?_deallocate hgive)
  | write name offset bytes => exact k.stocked (write_sameStock h)
  | execute name path d => exact k.stocked (execute_sameStock h)
  | wait name => exact k.stocked (wait_sameStock h)
  | notify id =>
    cases (Dialog.transcript_done.mp h).2
    exact k
  | detach => exact k.alike (Session.detach_alike h).1

/-- Wherever a session gets to, every buffer of the emulator sits in a slot of its own. -/
theorem allPlaced_of_run {start : Session} (hstart : ∀ name, start.buffers.get? name = none)
    (run : Run OwnHandles start events s) : AllPlaced s := by
  refine run.induct (P := fun _ s => AllPlaced s) ?_ fun _ s verb _ s' k hverb h => k.verb hverb h
  constructor
  case in_slot =>
    intro name b hb
    rw [hstart] at hb
    cases hb
  case apart =>
    intro name other b c hb
    rw [hstart] at hb
    cases hb

end Emulator

end VideoCore
