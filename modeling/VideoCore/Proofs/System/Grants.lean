import VideoCore.Proofs.Emulator.Access
import VideoCore.Proofs.System.Alignment

/-!
# What an allocation gives

A buffer is taken at its word: the host reads and overwrites as many bytes as it says, wherever it says
that they are. Three allocators see to it that they are there, and each of them from answers that it
cannot check. The mailbox maps as much physical memory as was asked for, at the address at which the
firmware locked the block; the shared memory service says itself where the host sees the block that it
locks; the emulator puts a block of its own into a slot, with a margin behind it (`Backed`).

`Granted` says what every allocation that succeeds has seen to, and `StaysInside` what that is good for:
no access to the buffer reaches beyond it. The memory of a slot has to be there still, and it is as long
as nobody gives the handle back behind the buffer's back.
-/

namespace VideoCore

open Hardware
open Dialog (Transcript)
open Mailbox (trip answerOf)
open Emulator (Slot SlotTable bufferAt roundedSize slotAddress slotCount OwnHandles)
open Session (Verb Run Ended EndedByName Alike)

/-! ## Grants -/

/-- The memory that the host has of a new buffer, and where it comes from in the allocation. -/
inductive Backed (buffer : Buffer) (events : List (Exchange Hardware)) (b : Backends) :
    Owner → Prop where
  /-- A mapping of as many bytes, at the address at which the firmware locked the handle, without its
  two alias bits. -/
  | mapped {answer : Vector UInt32 _} {base : HostAddress}
      (locked : trip .lockMemory [buffer.handle] (.ok answer) ∈ events)
      (address : answerOf _ (.ok answer) = buffer.address.value)
      (mapping : ⟨.mapPhysical (buffer.address.value &&& 0x3FFFFFFF) buffer.size.toNat, .ok base⟩ ∈
        events)
      (host : buffer.host = .mapped base) : Backed buffer events b .mailbox
  /-- What the service gave for the lock of the handle. -/
  | lent {base : HostAddress} (locked : ⟨.lockShared buffer.handle, some base⟩ ∈ events)
      (host : buffer.host = .borrowed base) : Backed buffer events b .sharedMemory
  /-- A block of zeros in a slot, with room behind the buffer. -/
  | slot {e : Emulator} {i : Nat} {slot : Slot} (running : b.emulator = some e)
      (filled : e.slots.get? i = some slot) (host : buffer.host = .slot i)
      (zeroed : slot.block = .zeroed (roundedSize buffer.size))
      (margin : buffer.size.toNat + 128 ≤ slot.block.size) : Backed buffer events b .emulator

/-- What an allocation has seen to when it gives out a buffer. -/
structure Granted (owner : Owner) (r : AllocationRequest) (events : List (Exchange Hardware))
    (buffer : Buffer) (b : Backends) : Prop where
  allocator : buffer.owner = owner
  size : buffer.size = r.size
  handle : buffer.handle ≠ 0
  /-- No buffer has a null address but that in the first slot of the emulator. -/
  address : buffer.address.value = 0 ↔ buffer.host = .slot 0
  backed : Backed buffer events b owner

section Grants

variable {b b' : Backends} {owner : Owner} {r : AllocationRequest}
  {events : List (Exchange Hardware)} {buffer : Buffer}

theorem BusAddress.physical_eq (address : BusAddress) :
    address.physical = address.value &&& 0x3FFFFFFF := by
  have hmask : ~~~aliasMask = 0x3FFFFFFF := by decide
  rw [physical, hmask]

theorem Mailbox.granted (h : Performs (Mailbox.allocate r) events (.ok (some buffer))) :
    Granted .mailbox r events buffer b := by
  generalize hresult : Except.ok (some buffer) = result at h
  cases Mailbox.allocates_of_performs h with
  | invalid | grantFailed | refused => cases hresult
  | @granted grant handle later _ given nonzero rest =>
    cases rest with
    | lockFailed | unlockFailed => cases hresult
    | @notLocked _ release => cases release <;> cases hresult
    | @notMapped _ _ _ _ release => cases release <;> cases hresult
    | @mapped answer address base locked notNull =>
      cases hresult
      refine ⟨rfl, rfl, nonzero, iff_of_false notNull nofun, ?_⟩
      refine .mapped ?_ locked ?_ rfl
      · exact List.mem_cons_of_mem _ List.mem_cons_self
      · rw [← BusAddress.physical_eq]
        exact List.mem_cons_of_mem _ (List.mem_cons_of_mem _ List.mem_cons_self)

theorem SharedMemory.granted (h : Performs (SharedMemory.allocate r) events (.ok (some buffer))) :
    Granted .sharedMemory r events buffer b := by
  cases SharedMemory.performs_allocate.mp h with
  | granted _ nonzero rest =>
    cases rest with
    | @placed base address good =>
      refine ⟨rfl, rfl, nonzero, iff_of_false (not_or.mp good).1 nofun, ?_⟩
      exact .lent (List.mem_cons_of_mem _ List.mem_cons_self) rfl

/-- The slots lie one behind the other, so that only the first of them lies at 0. -/
theorem Emulator.slotAddress_eq_zero {i : Nat} (hi : i < slotCount) :
    (slotAddress i).value = 0 ↔ i = 0 := by
  rw [← UInt32.toNat_inj, toNat_slotAddress hi]
  show i * window = 0 ↔ i = 0
  unfold window
  omega

theorem Emulator.bufferAt_host (i : Nat) (size : UInt32) : (bufferAt i size).host = .slot i := rfl

theorem Emulator.granted {e e' : Emulator} (h : e.allocate r = .ok (some buffer, e'))
    (hrunning : b.emulator = some e') : Granted .emulator r [] buffer b := by
  rcases allocate_cases h with ⟨hnone, -⟩ | ⟨i, hi, -, hfits, hsome, hupdate⟩
  · cases hnone
  cases hsome
  have hsize := Emulator.le_largestSize hfits
  have hfilled : e'.slots.get? i = some (.zeroed r.size hsize) := by
    rw [← find?_handleOf e' hi, hupdate, Function.update_self]
  refine ⟨rfl, rfl, ?_, ?_, ?_⟩
  · intro hzero
    have hhandle : (SlotTable.handleOf i).toNat = 0 := congrArg UInt32.toNat hzero
    rw [SlotTable.toNat_handleOf hi] at hhandle
    omega
  · rw [bufferAt_host, HostMemory.slot.injEq]
    exact slotAddress_eq_zero hi
  · have hzeroed : (Slot.zeroed r.size hsize).block = .zeroed (roundedSize r.size) :=
      congrArg Block.zeroed (Emulator.toNat_roundedWord_iff.mpr hsize)
    refine .slot hrunning hfilled (bufferAt_host i r.size) hzeroed ?_
    rw [Slot.block_size]
    exact (roundedSize_bounds r.size).1

theorem Backends.granted (h : Performs (b.allocate owner r) events (.ok (some buffer, b'))) :
    Granted owner r events buffer b' := by
  cases owner with
  | mailbox =>
    obtain ⟨given, hgiven, hsome⟩ := performs_map_ok.mp h
    cases hsome
    exact Mailbox.granted hgiven
  | sharedMemory =>
    obtain ⟨given, hgiven, hsome⟩ := performs_map_ok.mp h
    cases hsome
    exact SharedMemory.granted hgiven
  | emulator =>
    obtain ⟨rfl, e, e', -, hallocate, hrunning⟩ := emulator_allocated h
    exact Emulator.granted hallocate hrunning

/-- A request that is changed in all but its size may stand for another. -/
theorem Granted.resized {r' : AllocationRequest} (h : Granted owner r' events buffer b)
    (hsize : r'.size = r.size) : Granted owner r events buffer b :=
  ⟨h.allocator, h.size.trans hsize, h.handle, h.address, h.backed⟩

/-- A system allocates from its memory backend, and as many bytes as it was asked for. -/
theorem System.allocated_backend {s s' : System}
    (h : Performs (s.allocate r) events (.ok (some buffer, s'))) :
    ∃ owner, s.memory = some owner ∧ ∃ r' : AllocationRequest,
      Performs (s.backends.allocate owner r') events (.ok (some buffer, s'.backends)) ∧
      r'.size = r.size := by
  unfold System.allocate at h
  obtain ⟨_, -, hsystem⟩ := performs_check_ok.mp h
  cases howner : s.memory with
  | none =>
    rw [howner] at hsystem
    cases (performs_throw.mp hsystem).2
  | some owner =>
    rw [howner] at hsystem
    obtain ⟨⟨given, backends⟩, hbackend, hgiven⟩ := performs_map_ok.mp hsystem
    cases hgiven
    exact ⟨owner, rfl, _, hbackend, rfl⟩

end Grants

/-! ## Accesses of the host -/

/-- A request of the host that stays in its memory of a buffer. -/
def Inside (buffer : Buffer) : Request → Prop
  | .load base offset length =>
    (buffer.host = .mapped base ∨ buffer.host = .borrowed base) ∧ offset + length ≤ buffer.size.toNat
  | .store base offset bytes =>
    (buffer.host = .mapped base ∨ buffer.host = .borrowed base) ∧
      offset + bytes.size ≤ buffer.size.toNat
  | _ => False

/-- The host reaches no memory through a buffer but that of the buffer. -/
structure StaysInside (b : Backends) (buffer : Buffer) : Prop where
  slice : (b.allBytes? buffer).Plain (Inside buffer)
  word : ∀ offset, (b.readWord? buffer offset).Plain (Inside buffer)
  words : ∀ offset words, (b.writeWords? buffer offset words).Plain (Inside buffer)
  /-- A word that does not lie in the buffer is not looked at. -/
  noWord : ∀ offset, buffer.size.toNat < offset + 4 → b.readWord? buffer offset = pure none
  /-- Words that do not all lie in the buffer are not written, and none of them is. -/
  noWords : ∀ offset words, buffer.size.toNat < offset + 4 * words.length →
    b.writeWords? buffer offset words = pure none
  /-- In a slot, everything up to the end of the buffer is there, with a margin behind it. -/
  slot : ∀ i, buffer.host = .slot i → ∃ e slot, b.emulator = some e ∧ e.slots.get? i = some slot ∧
    buffer.size.toNat + 128 ≤ slot.block.size ∧
    (∀ offset length, offset + length ≤ buffer.size.toNat →
      ∃ bytes, slot.block.read? offset length = some bytes ∧
        b.readBuffer? buffer offset length = pure (some bytes)) ∧
    ∀ offset bytes, offset + bytes.size ≤ buffer.size.toNat →
      ∃ block, slot.block.write? offset bytes = some block ∧
        b.writeBuffer? buffer offset bytes = pure (some
          { b with emulator := some { e with slots := e.slots.setBlock i slot block } })

section Accesses

variable {b : Backends} {buffer : Buffer} {offset length : Nat}

theorem Backends.readBuffer?_inside (b : Backends) (buffer : Buffer) (offset length : Nat) :
    (b.readBuffer? buffer offset length).Plain (Inside buffer) := by
  unfold readBuffer?
  split
  · trivial
  · next hrange =>
    have hinside := Nat.not_lt.mp hrange
    split
    · next base hhost => exact ⟨⟨.inl hhost, hinside⟩, fun _ => trivial⟩
    · next base hhost => exact ⟨⟨.inr hhost, hinside⟩, fun _ => trivial⟩
    · trivial

theorem Backends.writeBuffer?_inside (b : Backends) (buffer : Buffer) (offset : Nat)
    (bytes : ByteArray) : (b.writeBuffer? buffer offset bytes).Plain (Inside buffer) := by
  unfold writeBuffer?
  split
  · trivial
  · next hrange =>
    have hinside := Nat.not_lt.mp hrange
    split
    · next base hhost => exact ⟨⟨.inl hhost, hinside⟩, fun _ => trivial⟩
    · next base hhost => exact ⟨⟨.inr hhost, hinside⟩, fun _ => trivial⟩
    · trivial

theorem Backends.readBuffer?_outside (h : buffer.size.toNat < offset + length) :
    b.readBuffer? buffer offset length = pure none := by
  unfold readBuffer?
  rw [if_pos h]

theorem Backends.writeBuffer?_outside {bytes : ByteArray}
    (h : buffer.size.toNat < offset + bytes.size) :
    b.writeBuffer? buffer offset bytes = pure none := by
  unfold writeBuffer?
  rw [if_pos h]

/-- A buffer stays inside its memory as long as it is there, which only a slot may not be. -/
theorem staysInside (hslot : ∀ i, buffer.host = .slot i → ∃ e slot, b.emulator = some e ∧
    e.slots.get? i = some slot ∧ buffer = bufferAt i slot.size) : StaysInside b buffer where
  slice := b.readBuffer?_inside buffer 0 _
  word offset := (b.readBuffer?_inside buffer offset 4).bind fun _ => trivial
  words offset words := b.writeBuffer?_inside buffer offset _
  noWord offset h := by
    unfold Backends.readWord?
    rw [Backends.readBuffer?_outside h]
    rfl
  noWords offset words h := by
    refine Backends.writeBuffer?_outside ?_
    rwa [Block.size_ofWords]
  slot i hhost := by
    obtain ⟨e, slot, he, hfilled, rfl⟩ := hslot i hhost
    have hbounds := Emulator.roundedSize_bounds slot.size
    refine ⟨e, slot, he, hfilled, ?_, ?_, ?_⟩
    · rw [slot.block_size]
      exact hbounds.1
    · intro offset length hrange
      have hrange' : offset + length ≤ slot.size.toNat := hrange
      have hinside : offset + length ≤ slot.block.size := by
        rw [slot.block_size]
        omega
      refine ⟨_, if_pos hinside, ?_⟩
      rw [Emulator.readBuffer?_slot he hfilled hrange']
      exact congrArg pure (if_pos hinside)
    · intro offset bytes hrange
      have hfits : ∃ block, slot.block.write? offset bytes = some block :=
        Emulator.exists_write?_slot hrange
      obtain ⟨block, hwrite⟩ := hfits
      exact ⟨block, hwrite, Emulator.writeBuffer?_slot he hfilled hrange hwrite⟩

end Accesses

/-! ## Buffers as long as they are held -/

section Held

variable {b b' : Backends} {owner : Owner} {r : AllocationRequest}
  {events : List (Exchange Hardware)} {buffer : Buffer}

/-- Only the emulator keeps its buffers in slots. -/
theorem Granted.emulator_of_slot {i : Nat} (h : Granted owner r events buffer b)
    (hhost : buffer.host = .slot i) : owner = .emulator := by
  cases h.backed with
  | mapped _ _ _ host | lent _ host =>
    rw [hhost] at host
    cases host
  | slot => rfl

theorem Backends.allocated_staysInside
    (h : Performs (b.allocate owner r) events (.ok (some buffer, b'))) : StaysInside b' buffer := by
  refine staysInside fun i hhost => ?_
  obtain rfl := (Backends.granted h).emulator_of_slot hhost
  obtain ⟨-, e, e', -, hallocate, hrunning⟩ := emulator_allocated h
  obtain ⟨j, slot, hfilled, rfl⟩ := Emulator.live_of_allocate hallocate
  cases hhost
  exact ⟨e', slot, hrunning, hfilled, rfl⟩

/-- The slot of a buffer that is held has the memory of that buffer. -/
theorem Emulator.InSlot.filled {i : Nat} (h : InSlot b.sizeAt? buffer)
    (hhost : buffer.host = .slot i) : ∃ e slot, b.emulator = some e ∧ e.slots.get? i = some slot ∧
      buffer = bufferAt i slot.size := by
  obtain ⟨j, hj, hbuffer, -, hsize⟩ := h
  rw [hbuffer] at hhost
  cases hhost
  obtain ⟨e, he, hfound⟩ := Option.bind_eq_some_iff.mp hsize
  obtain ⟨slot, hslot, hsame⟩ := Option.map_eq_some_iff.mp hfound
  rw [hbuffer, show (bufferAt i buffer.size).handle = SlotTable.handleOf i from rfl,
    find?_handleOf e hj] at hslot
  refine ⟨e, slot, he, hslot, ?_⟩
  rw [hsame]
  exact hbuffer

theorem held_staysInside {start s : Session} {name : String}
    (hstart : ∀ name, start.buffers.get? name = none) (run : Run OwnHandles start events s)
    (hheld : s.buffers.get? name = some buffer) : StaysInside s.system.backends buffer := by
  have hslots : Session.AllHeld
      (fun buffer => ∀ i, buffer.host = .slot i → buffer.owner = .emulator) s := by
    refine Session.allHeld_of_run (fun b b' owner r events buffer h i hhost => ?_) hstart run
    have hgranted := Backends.granted h
    exact hgranted.allocator.trans (hgranted.emulator_of_slot hhost)
  refine staysInside fun i hhost => ?_
  have hplaced := Emulator.allPlaced_of_run hstart run
  exact (hplaced.in_slot name buffer hheld (hslots name buffer hheld i hhost)).filled hhost

end Held

/-! ## All allocations -/

/-- What a successful allocation is worth, whatever the machine replies and whatever is asked for. -/
structure AllocationsSound : Prop where
  /-- A backend gives out what was asked for, and accesses stay inside. -/
  backend : ∀ (b b' : Backends) owner r events buffer,
    Performs (b.allocate owner r) events (.ok (some buffer, b')) →
    Granted owner r events buffer b' ∧ StaysInside b' buffer
  /-- So does a system, from its memory backend. -/
  system : ∀ (s s' : System) r events buffer,
    Performs (s.allocate r) events (.ok (some buffer, s')) →
    ∃ owner, s.memory = some owner ∧ Granted owner r events buffer s'.backends ∧
      StaysInside s'.backends buffer
  /-- Accesses stay inside as long as a buffer is held, if nobody gives back its handle meanwhile. -/
  held : ∀ (system : System) (s : Session) events name buffer,
    Run OwnHandles { system } events s → s.buffers.get? name = some buffer →
    StaysInside s.system.backends buffer

/-- Every allocation that succeeds gives a buffer that can be used as it says. -/
theorem allocations_sound : AllocationsSound where
  backend _ _ _ _ _ _ h := ⟨Backends.granted h, Backends.allocated_staysInside h⟩
  system s s' r events buffer h := by
    obtain ⟨owner, hmemory, r', hbackend, hsize⟩ := System.allocated_backend h
    exact ⟨owner, hmemory, (Backends.granted hbackend).resized hsize,
      Backends.allocated_staysInside hbackend⟩
  held _ _ _ _ _ run hheld := held_staysInside (fun _ => rfl) run hheld

/-- The buffer of 64 bytes that the mailbox gives out at an alignment of two pages. -/
def sampleGrant : Buffer := ⟨.mailbox, 5, ⟨0xC0002000⟩, .mapped ⟨0x7000⟩, 64⟩

/-- Its last word lies at 60. A word at 61 would reach beyond the mapping, and is not looked at. -/
theorem allocations_sound_sample :
    Performs (Backends.allocate { mailbox := true } .mailbox { size := 64, alignment := 8192 })
      sampleTwoPages (.ok (some sampleGrant, { mailbox := true })) ∧
    Transcript (Backends.readWord? { mailbox := true } sampleGrant 60)
      [⟨.load ⟨0x7000⟩ 60 4, ⟨#[1, 0, 0, 0]⟩⟩] (some 1) ∧
    Backends.readWord? { mailbox := true } sampleGrant 61 = pure none := by
  have hallocate : Performs
      (Backends.allocate { mailbox := true } .mailbox { size := 64, alignment := 8192 })
      sampleTwoPages (.ok (some sampleGrant, { mailbox := true })) := by
    refine .ask _ ?_
    refine .ask _ ?_
    refine .ask _ ?_
    exact .done _
  have hinside := (allocations_sound.backend _ _ _ _ _ _ hallocate).2
  exact ⟨hallocate, .ask _ (.done _), hinside.noWord 61 (by decide)⟩

end VideoCore
