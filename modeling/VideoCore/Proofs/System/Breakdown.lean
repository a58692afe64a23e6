import VideoCore.Proofs.Emulator.Access
import VideoCore.Proofs.Emulator.Refinement
import VideoCore.Proofs.GpuService.Completion
import VideoCore.Proofs.Mailbox.Allocation
import VideoCore.Proofs.SharedMemory.Allocation
import VideoCore.Proofs.V3d.Dispatch

/-!
# Breakdowns and refusals, backend by backend

What a backend asks can fail in two ways. The way to the hardware can break down, which only the
calls of the operating system do: a property message that is not delivered, and physical memory that
cannot be opened or mapped (`BreaksDown`). Or the hardware is there and says no (`RefusesMemory`,
`Declines`). Every operation of every backend tells the two apart (`ToldApart`): it ends with a fatal
fault exactly if something broke down, and otherwise with a result that says no exactly if it was
refused.
-/

namespace VideoCore

open Firmware Hardware
open Dialog (Transcript)
open Emulator (SlotTable slotCount roundedSize window)
open GpuService (JobWait)

/-! ## What can go wrong -/

/-- A call of the operating system that failed. No other request can fail that way. -/
def BreaksDown : Exchange Hardware → Prop
  | ⟨.property _, reply⟩ => ∃ cause, reply = .error cause
  | ⟨.mapPhysical _ _, reply⟩ => ∃ failure, reply = .error failure
  | _ => False

/-- An answer by which a buffer is refused: the firmware does not accept a message, or answers with no
handle or with a null address; the service of shared memory has no block, does not lock it, or has it
where it cannot be used. -/
def RefusesMemory (r : AllocationRequest) : Exchange Hardware → Prop
  | ⟨.property m, reply⟩ => ∃ words, reply = .ok words ∧
      ((m.withReply words).status.isSuccess = false ∨
        m.tagId ∈ [Tag.allocateMemory.id, Tag.lockMemory.id] ∧ (m.withReply words).content 0 = 0)
  | ⟨.allocateShared _ _ _, handle⟩ => handle = 0
  | ⟨.lockShared _, host⟩ => host = none
  | ⟨.sharedAddress _, address⟩ => SharedMemory.Unusable r address
  | _ => False

/-- An answer by which an order is declined: the firmware does not accept the message, or answers with
something else than zero; the GPU service does not take the job; a block of shared memory cannot be
unlocked; a model of the QPUs says that the kernel failed. -/
def Declines : Exchange Hardware → Prop
  | ⟨.property m, reply⟩ => ∃ words, reply = .ok words ∧
      ((m.withReply words).status.isSuccess = false ∨ (m.withReply words).content 0 ≠ 0)
  | ⟨.submitJob _ _, answer⟩ => answer.accepted = false
  | ⟨.unlockShared _, unlocked⟩ => unlocked = false
  | ⟨.emulate _, emulated⟩ => emulated.outcome = .failed
  | _ => False

/-- Something broke down in the course of some exchanges. -/
def Broken (events : List (Exchange Hardware)) : Prop := ∃ e ∈ events, BreaksDown e

/-- A call ends with a fatal fault exactly if something broke down in it. Otherwise its result says no
exactly if it was refused. -/
def ToldApart {α : Type} (saysNo : α → Prop) (refused broken : Prop) : Except Fault α → Prop
  | .error fault => fault.isFatal = true ∧ broken
  | .ok a => ¬ broken ∧ (saysNo a ↔ refused)

section ToldApart

variable {α β : Type} {saysNo : α → Prop} {refused refused' broken broken' : Prop}
  {result : Except Fault α}

theorem ToldApart.congr (h : ToldApart saysNo refused broken result) (hrefused : refused ↔ refused')
    (hbroken : broken ↔ broken') : ToldApart saysNo refused' broken' result := by
  rw [← hrefused, ← hbroken]
  exact h

/-- What is made of a result in the end does not matter. -/
theorem ToldApart.map {f : α → β} {saysNo' : β → Prop} (h : ToldApart saysNo refused broken result)
    (hf : ∀ a, saysNo' (f a) ↔ saysNo a) : ToldApart saysNo' refused broken (result.map f) := by
  cases result with
  | error fault => exact h
  | ok a => exact ⟨h.1, (hf a).trans h.2⟩

end ToldApart

section Broken

variable {e : Exchange Hardware} {events rest : List (Exchange Hardware)}

@[simp] theorem not_broken_nil : ¬ Broken [] := by
  simp [Broken]

@[simp] theorem broken_cons : Broken (e :: events) ↔ BreaksDown e ∨ Broken events := by
  simp [Broken]

@[simp] theorem broken_append : Broken (events ++ rest) ↔ Broken events ∨ Broken rest := by
  simp [Broken, or_and_right, exists_or]

end Broken

/-! ## Answers of the firmware -/

section Firmware

variable {m : Message} {words : Vector UInt32 (m.contentWords + 6)} {cause : Cause}

@[simp] theorem not_breaksDown_property : ¬ BreaksDown ⟨.property m, .ok words⟩ := by
  rintro ⟨cause, h⟩
  cases h

@[simp] theorem breaksDown_property : BreaksDown ⟨.property m, .error cause⟩ := ⟨cause, rfl⟩

@[simp] theorem declines_property :
    Declines ⟨.property m, .ok words⟩ ↔
      (m.withReply words).status.isSuccess = false ∨ (m.withReply words).content 0 ≠ 0 := by
  constructor
  · rintro ⟨_, hsame, h⟩
    cases hsame
    exact h
  · intro h
    exact ⟨words, rfl, h⟩

/-- An order is one message, and the answer to it says yes by a zero. -/
theorem toldApart_order (reply : Reply (.property m)) :
    ToldApart (· = false) (Declines ⟨.property m, reply⟩) (BreaksDown ⟨.property m, reply⟩)
      ((Mailbox.wordOf m 0 reply).map (· == some 0)) := by
  cases reply with
  | error cause => exact ⟨rfl, breaksDown_property⟩
  | ok words =>
    refine ⟨not_breaksDown_property, ?_⟩
    rw [declines_property]
    cases hsuccess : (m.withReply words).status.isSuccess <;> simp

/-- An allocation gets no handle, and no address, exactly if its message is refused. -/
theorem answerOf_eq_zero_iff :
    Mailbox.answerOf m (.ok words) = 0 ↔
      (m.withReply words).status.isSuccess = false ∨ (m.withReply words).content 0 = 0 := by
  simp only [Mailbox.answerOf, Mailbox.wordOf, Except.toOption, Option.join_some]
  split
  · next h => simp [h]
  · next h => simp [h]

end Firmware

/-! ## Allocations -/

section Allocation

variable {r : AllocationRequest} {events : List (Exchange Hardware)}
  {result : Except Fault (Option Buffer)}

/-- The answer that refuses one of the messages of an allocation. -/
theorem refusesMemory_trip {tag : Tag} {words : List UInt32} {answer : Vector UInt32 _}
    (htag : tag = .allocateMemory ∨ tag = .lockMemory) :
    RefusesMemory r (Mailbox.trip tag words (.ok answer)) ↔ Mailbox.answerOf _ (.ok answer) = 0 := by
  have hmem : (Message.ofRequest tag words 1).tagId ∈ [Tag.allocateMemory.id, Tag.lockMemory.id] := by
    rcases htag with rfl | rfl
    · exact List.mem_cons_self
    · exact List.mem_cons_of_mem _ List.mem_cons_self
  rw [answerOf_eq_zero_iff]
  constructor
  · rintro ⟨_, hsame, h⟩
    cases hsame
    exact h.imp_right And.right
  · intro h
    exact ⟨answer, rfl, h.imp_right fun hzero => ⟨hmem, hzero⟩⟩

/-- Every fault of a mapping that failed is fatal. -/
theorem isFatal_mapFault (address : UInt32) (length : Nat) (failure : MapFailure) :
    (mapFault address length failure).isFatal = true := by
  cases failure with
  | opening | mapping => rfl

theorem Mailbox.LocksAndMaps.toldApart {size handle : UInt32}
    (h : LocksAndMaps size handle events result) :
    ToldApart (· = none) (∃ e ∈ events, RefusesMemory r e) (Broken events) result := by
  cases h with
  | lockFailed => exact ⟨rfl, by simp [trip]⟩
  | @notLocked answer release null =>
    -- the block is given back, which can break down where the lock did not
    cases release with
    | error cause => exact ⟨rfl, by simp [trip]⟩
    | ok words =>
      have hno := (refusesMemory_trip (r := r) (.inr rfl)).mpr null
      exact ⟨by simp [trip], iff_of_true rfl ⟨_, List.mem_cons_self, hno⟩⟩
  | @mapped answer address base locked notNull =>
    have hyes : ¬ RefusesMemory r (trip .lockMemory [handle] (.ok answer)) := by
      rw [refusesMemory_trip (.inr rfl), locked]
      exact notNull
    exact ⟨by simp [trip, BreaksDown], by simpa [RefusesMemory] using hyes⟩
  | unlockFailed => exact ⟨rfl, by simp [trip]⟩
  | @notMapped answer unlock address failure release =>
    have hbroken : BreaksDown ⟨.mapPhysical address.physical size.toNat, .error failure⟩ :=
      ⟨failure, rfl⟩
    cases release with
    | error cause => exact ⟨rfl, by simp [trip]⟩
    | ok words => exact ⟨isFatal_mapFault _ _ failure, by simp [hbroken]⟩

theorem Mailbox.allocate_toldApart (hcheck : r.check = .ok ())
    (h : Performs (Mailbox.allocate r) events result) :
    ToldApart (· = none) (∃ e ∈ events, RefusesMemory r e) (Broken events) result := by
  cases allocates_of_performs h with
  | invalid check =>
    rw [hcheck] at check
    cases check
  | grantFailed => exact ⟨rfl, by simp [trip]⟩
  | refused zero =>
    have hno := (refusesMemory_trip (r := r) (.inl rfl)).mpr zero
    exact ⟨by simp [trip], iff_of_true rfl ⟨_, List.mem_cons_self, hno⟩⟩
  | @granted answer handle rest result given nonzero way =>
    have hyes : ¬ RefusesMemory r (trip .allocateMemory (grantWords r) (.ok answer)) := by
      rw [refusesMemory_trip (.inl rfl), given]
      exact nonzero
    exact (way.toldApart (r := r)).congr (by simp [hyes]) (by simp [trip])

theorem SharedMemory.allocate_toldApart (hcheck : r.check = .ok ())
    (h : Performs (SharedMemory.allocate r) events result) :
    ToldApart (· = none) (∃ e ∈ events, RefusesMemory r e) (Broken events) result := by
  cases performs_allocate.mp h with
  | invalid turnedAway =>
    rw [hcheck] at turnedAway
    cases turnedAway
  | refused =>
    exact ⟨by simp [granting, BreaksDown], iff_of_true rfl (by simp [granting, RefusesMemory])⟩
  | @granted handle _ _ _ nonzero way =>
    have hyes : ¬ RefusesMemory r (granting r handle) := nonzero
    cases way with
    | notLocked =>
      exact ⟨by simp [granting, BreaksDown], iff_of_true rfl (by simp [RefusesMemory])⟩
    | unusable bad =>
      exact ⟨by simp [granting, BreaksDown], iff_of_true rfl (by simp [RefusesMemory, bad])⟩
    | placed good =>
      refine ⟨by simp [granting, BreaksDown], iff_of_false nofun ?_⟩
      simpa [RefusesMemory, good] using hyes

/-- A request that the emulator has no room for: it is larger than a window, or every slot is
taken. -/
def Emulator.Full (e : Emulator) (r : AllocationRequest) : Prop :=
  window < roundedSize r.size ∨
    ∀ i < slotCount, (e.find? (SlotTable.handleOf i)).isSome

/-- The emulator gives an answer to every request that is well formed and does not overflow. -/
theorem Emulator.exists_allocate (e : Emulator) (hcheck : r.check = .ok ())
    (hsize : r.size.toNat ≤ largestSize) : ∃ pair, e.allocate r = .ok pair := by
  unfold allocate
  rw [hcheck, dif_pos hsize]
  cases e.slots.allocate? r.size hsize with
  | none => exact ⟨_, rfl⟩
  | some taken => exact ⟨_, rfl⟩

theorem Emulator.allocate_eq_none_iff {e e' : Emulator} {given : Option Buffer}
    (hcheck : r.check = .ok ()) (hsize : r.size.toNat ≤ largestSize)
    (h : e.allocate r = .ok (given, e')) : given = none ↔ e.Full r := by
  by_cases hfull : e.Full r
  · rw [allocate_of_full hcheck hsize hfull] at h
    cases h
    exact iff_of_true rfl hfull
  · refine iff_of_false ?_ hfull
    obtain ⟨hfits, hsome⟩ := not_or.mp hfull
    simp only [not_forall, Bool.not_eq_true, Option.isSome_eq_false_iff, Option.isNone_iff_eq_none]
      at hsome
    obtain ⟨i, hi, hfree⟩ := hsome
    obtain ⟨_, -, -, -, buffer, _, _, hallocate, -⟩ :=
      takes_lowest hcheck (Nat.le_of_not_lt hfits) ⟨i, hi, hfree⟩
    rw [hallocate] at h
    cases h
    exact nofun

namespace Backends

/-- Whether a backend refuses a request, as its state or the answers of the hardware say. -/
def MemoryRefused (b : Backends) (owner : Owner) (r : AllocationRequest)
    (events : List (Exchange Hardware)) : Prop :=
  match owner with
  | .mailbox | .sharedMemory => ∃ e ∈ events, RefusesMemory r e
  | .emulator => ∃ e, b.emulator = some e ∧ e.Full r

theorem allocate_toldApart {b : Backends} {owner : Owner}
    {result : Except Fault (Option Buffer × Backends)} (hhas : b.has owner.kind = true)
    (hcheck : r.check = .ok ()) (hsize : owner = .emulator → r.size.toNat ≤ Emulator.largestSize)
    (h : Performs (b.allocate owner r) events result) :
    ToldApart (fun pair => pair.1 = none) (b.MemoryRefused owner r events) (Broken events) result := by
  cases owner with
  | mailbox =>
    obtain ⟨given, hgiven, rfl⟩ := performs_map.mp h
    exact (Mailbox.allocate_toldApart hcheck hgiven).map fun _ => Iff.rfl
  | sharedMemory =>
    obtain ⟨given, hgiven, rfl⟩ := performs_map.mp h
    exact (SharedMemory.allocate_toldApart hcheck hgiven).map fun _ => Iff.rfl
  | emulator =>
    obtain ⟨e, he⟩ := Option.isSome_iff_exists.mp hhas
    unfold allocate at h
    simp only [he] at h
    have hrefused : b.MemoryRefused .emulator r events ↔ e.Full r := by
      unfold MemoryRefused
      rw [he]
      simp
    obtain ⟨⟨given, e'⟩, hallocate⟩ := e.exists_allocate hcheck (hsize rfl)
    rw [hallocate] at h
    rcases performs_check.mp h with ⟨fault, hfault, -⟩ | ⟨_, hpair, hlast⟩
    · cases hfault
    · cases hpair
      obtain ⟨rfl, rfl⟩ := performs_pure.mp hlast
      exact ⟨not_broken_nil, (Emulator.allocate_eq_none_iff hcheck (hsize rfl) hallocate).trans
        hrefused.symm⟩

end Backends

end Allocation

end VideoCore
