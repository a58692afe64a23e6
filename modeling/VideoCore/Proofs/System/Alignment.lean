import Mathlib.Data.Nat.Bitwise
import VideoCore.Proofs.Emulator.Refinement
import VideoCore.Proofs.Mailbox.Allocation

/-!
# Alignment of buffers

A buffer is asked for at an alignment, and three allocators see to it in three ways. The mailbox
passes it on to the firmware, which is trusted to keep to it (`FirmwareAligns`). The shared memory
service is not told, but a block that lies elsewhere is given back. The emulator looks at no alignment
at all: its slots are 8 MiB apart, so it keeps every alignment up to that, and a larger one only in
the slots that happen to lie right (`SlotSuits`).
-/

namespace VideoCore

open Hardware
open Mailbox (trip trip_inj answerOf grantWords)
open Emulator (window slotAddress slotCount SlotTable bufferAt sampleSlots)

/-! ## Powers of two -/

/-- An address is a multiple of an alignment. -/
def BusAddress.AlignedTo (address : BusAddress) (alignment : UInt32) : Prop :=
  alignment.toNat ∣ address.value.toNat

instance (address : BusAddress) (alignment : UInt32) : Decidable (address.AlignedTo alignment) :=
  inferInstanceAs (Decidable (_ ∣ _))

theorem isPowerOfTwo_iff {n : UInt32} : isPowerOfTwo n = true ↔ n.toNat.isPowerOfTwo := by
  have hzero : n = 0 ↔ n.toNat = 0 := UInt32.toNat_inj.symm
  simp only [isPowerOfTwo, Bool.and_eq_true, bne_iff_ne, beq_iff_eq, ne_eq, hzero]
  by_cases hn : n.toNat = 0
  · refine iff_of_false (fun h => h.1 hn) ?_
    rintro ⟨k, hk⟩
    exact absurd (hk.symm.trans hn) (Nat.ne_of_gt (Nat.two_pow_pos k))
  · have hone : (1 : UInt32) ≤ n := by
      rw [UInt32.le_iff_toNat_le]
      exact Nat.one_le_iff_ne_zero.mpr hn
    have hand : n &&& (n - 1) = 0 ↔ n.toNat &&& (n.toNat - 1) = 0 := by
      rw [← UInt32.toNat_inj, UInt32.toNat_and, UInt32.toNat_sub_of_le n 1 hone]
      rfl
    rw [hand, Nat.and_sub_one_eq_zero_iff_isPowerOfTwo hn]
    exact and_iff_right hn

/-- The larger of two powers of two is a multiple of either. -/
theorem dvd_max {n m : UInt32} (hn : isPowerOfTwo n = true) (hm : isPowerOfTwo m = true) :
    n.toNat ∣ (max n m).toNat := by
  obtain ⟨j, hj⟩ := isPowerOfTwo_iff.mp hn
  obtain ⟨k, hk⟩ := isPowerOfTwo_iff.mp hm
  show n.toNat ∣ (if n ≤ m then m else n).toNat
  split
  · next hle =>
    rw [UInt32.le_iff_toNat_le, hj, hk, Nat.pow_le_pow_iff_right (by omega)] at hle
    rw [hj, hk]
    exact Nat.pow_dvd_pow 2 hle
  · exact Nat.dvd_refl _

/-! ## The allocators -/

/-- The firmware keeps to the alignments that it is sent: the address at which it locks a block is a
multiple of the one that the block was asked for with. -/
def FirmwareAligns (events : List (Exchange Hardware)) : Prop :=
  ∀ size alignment flags handle (answer locked : Vector UInt32 _),
    trip .allocateMemory [size, alignment, flags] (.ok answer) ∈ events →
    answerOf _ (.ok answer) = handle → trip .lockMemory [handle] (.ok locked) ∈ events →
    (BusAddress.mk (answerOf _ (.ok locked))).AlignedTo alignment

/-- The slots that lie right for an alignment, by the handles of their buffers. -/
def SlotSuits (alignment handle : UInt32) : Prop :=
  alignment.toNat ≤ window ∨ alignment.toNat / window ∣ handle.toNat - 1

section Allocators

variable {r : AllocationRequest} {events : List (Exchange Hardware)} {buffer : Buffer}

theorem Mailbox.aligned_of_allocated (h : Performs (Mailbox.allocate r) events (.ok (some buffer)))
    (hfirmware : FirmwareAligns events) :
    buffer.address.AlignedTo (max r.alignment BusAddress.pageAlignment) := by
  generalize hresult : Except.ok (some buffer) = result at h
  cases Mailbox.allocates_of_performs h with
  | invalid | grantFailed | refused => cases hresult
  | @granted answer handle later _ given nonzero rest =>
    cases rest with
    | lockFailed | unlockFailed => cases hresult
    | @notLocked _ release => cases release <;> cases hresult
    | @notMapped _ _ _ _ release => cases release <;> cases hresult
    | @mapped locked address base haddress =>
      cases hresult
      have hlocked := hfirmware _ _ _ handle answer locked List.mem_cons_self given
        (List.mem_cons_of_mem _ List.mem_cons_self)
      rw [haddress] at hlocked
      exact hlocked

theorem SharedMemory.aligned_of_allocated
    (h : Performs (SharedMemory.allocate r) events (.ok (some buffer))) :
    buffer.address.AlignedTo r.alignment := by
  cases SharedMemory.performs_allocate.mp h with
  | granted _ _ rest =>
    cases rest with
    | @placed host address good =>
      simp only [SharedMemory.Unusable, not_or, not_not] at good
      have hmod : address.toNat % r.alignment.toNat = 0 := by
        rw [← UInt32.toNat_mod, good.2]
        rfl
      exact Nat.dvd_of_mod_eq_zero hmod

/-- The address of a slot is a multiple of every alignment that the slot suits, and of no other. -/
theorem Emulator.alignedTo_slotAddress {i : Nat} {alignment : UInt32} (hi : i < slotCount)
    (hpower : isPowerOfTwo alignment = true) :
    (slotAddress i).AlignedTo alignment ↔ SlotSuits alignment (SlotTable.handleOf i) := by
  obtain ⟨k, hk⟩ := isPowerOfTwo_iff.mp hpower
  have hwindow : window = 2 ^ 23 := rfl
  rw [BusAddress.AlignedTo, SlotSuits, Emulator.toNat_slotAddress hi, SlotTable.toNat_handleOf hi,
    Nat.add_sub_cancel, hk, hwindow, Nat.pow_le_pow_iff_right (by omega)]
  by_cases hsmall : k ≤ 23
  · refine iff_of_true ?_ (.inl hsmall)
    exact Nat.dvd_mul_left_of_dvd (Nat.pow_dvd_pow 2 hsmall) i
  · -- as many windows as the alignment has must divide the number of the slot
    have hsplit : 2 ^ k = 2 ^ (k - 23) * 2 ^ 23 := by
      rw [← Nat.pow_add, Nat.sub_add_cancel (by omega)]
    rw [or_iff_right hsmall, hsplit, Nat.mul_div_cancel _ (by omega),
      Nat.mul_dvd_mul_iff_right (by omega)]

end Allocators

/-! ## Backends and systems -/

section Systems

variable {b b' : Backends} {owner : Owner} {r : AllocationRequest}
    {events : List (Exchange Hardware)} {buffer : Buffer}

/-- Only a request that is in order gets a buffer. -/
theorem Backends.check_of_allocated
    (h : Performs (b.allocate owner r) events (.ok (some buffer, b'))) : r.check = .ok () := by
  cases owner with
  | mailbox | sharedMemory =>
    obtain ⟨given, hgiven, -⟩ := performs_map_ok.mp h
    obtain ⟨_, hcheck, -⟩ := performs_check_ok.mp hgiven
    exact hcheck
  | emulator =>
    obtain ⟨-, e, e', -, hallocate, -⟩ := emulator_allocated h
    cases hcheck : r.check with
    | ok _ => rfl
    | error fault =>
      rw [Emulator.allocate_of_invalid hcheck] at hallocate
      cases hallocate

/-- A buffer lies right for every alignment that divides the one it was asked for with, unless it is
in a slot of the emulator that does not suit it. -/
theorem Backends.alignedTo_iff {alignment : UInt32}
    (h : Performs (b.allocate owner r) events (.ok (some buffer, b')))
    (hfirmware : FirmwareAligns events) (hpower : isPowerOfTwo alignment = true)
    (hdvd : alignment.toNat ∣ r.alignment.toNat) :
    buffer.address.AlignedTo alignment ↔
      (owner = .emulator → SlotSuits alignment buffer.handle) := by
  obtain ⟨-, hvalid⟩ := AllocationRequest.check_eq_ok_iff.mp (check_of_allocated h)
  cases owner with
  | mailbox =>
    obtain ⟨given, hgiven, hsome⟩ := performs_map_ok.mp h
    cases hsome
    refine iff_of_true ?_ nofun
    have hpage : r.alignment.toNat ∣ (max r.alignment BusAddress.pageAlignment).toNat :=
      dvd_max hvalid (by decide)
    exact (hdvd.trans hpage).trans (Mailbox.aligned_of_allocated hgiven hfirmware)
  | sharedMemory =>
    obtain ⟨given, hgiven, hsome⟩ := performs_map_ok.mp h
    cases hsome
    refine iff_of_true ?_ nofun
    exact hdvd.trans (SharedMemory.aligned_of_allocated hgiven)
  | emulator =>
    obtain ⟨-, e, e', -, hallocate, -⟩ := emulator_allocated h
    rcases Emulator.allocate_cases hallocate with ⟨hnone, -⟩ | ⟨index, hindex, -, -, hsome, -⟩
    · cases hnone
    · cases hsome
      rw [show (bufferAt index r.size).address = slotAddress index from rfl,
        Emulator.alignedTo_slotAddress hindex hpower]
      exact ⟨fun hsuits _ => hsuits, fun hsuits => hsuits rfl⟩

end Systems

/-- A buffer from a backend or from a system lies at a multiple of the alignment that it was asked for
with, provided that the firmware keeps to what it is sent, and with the exception of the emulator:
there it does exactly if the alignment is no larger than a window, or the slot lies right. -/
theorem alignment_kept_iff {r : AllocationRequest} {events : List (Exchange Hardware)}
    {buffer : Buffer} (hfirmware : FirmwareAligns events) :
    (∀ (b b' : Backends) (owner : Owner),
      Performs (b.allocate owner r) events (.ok (some buffer, b')) →
      (buffer.address.AlignedTo r.alignment ↔
        (owner = .emulator → SlotSuits r.alignment buffer.handle))) ∧
    ∀ s s' : System, Performs (s.allocate r) events (.ok (some buffer, s')) →
      (buffer.address.AlignedTo r.alignment ↔
        (s.memory = some .emulator → SlotSuits r.alignment buffer.handle)) := by
  constructor
  · intro b b' owner h
    obtain ⟨-, hvalid⟩ := AllocationRequest.check_eq_ok_iff.mp (Backends.check_of_allocated h)
    exact Backends.alignedTo_iff h hfirmware hvalid (Nat.dvd_refl _)
  · intro s s' h
    unfold System.allocate at h
    obtain ⟨_, hcheck, hsystem⟩ := performs_check_ok.mp h
    obtain ⟨-, hvalid⟩ := AllocationRequest.check_eq_ok_iff.mp hcheck
    cases howner : s.memory with
    | none =>
      rw [howner] at hsystem
      cases (performs_throw.mp hsystem).2
    | some owner =>
      rw [howner] at hsystem
      obtain ⟨⟨given, backends⟩, hbackend, hgiven⟩ := performs_map_ok.mp hsystem
      cases hgiven
      have hdvd : r.alignment.toNat ∣ (System.adjust s.config r).alignment.toNat :=
        dvd_max hvalid (by decide)
      rw [Backends.alignedTo_iff hbackend hfirmware hvalid hdvd, Option.some.injEq]

/-- An allocation at an alignment of two pages, which the firmware keeps to. -/
def sampleTwoPages : List (Exchange Hardware) :=
  [trip .allocateMemory [64, 8192, 12] (.ok (Mailbox.accepting 3 5)),
   trip .lockMemory [5] (.ok (Mailbox.accepting 1 0xC0002000)),
   ⟨.mapPhysical 0x2000 64, .ok ⟨0x7000⟩⟩]

theorem firmwareAligns_sampleTwoPages : FirmwareAligns sampleTwoPages := by
  intro size alignment flags handle answer locked hgrant _ hlock
  simp only [sampleTwoPages, List.mem_cons, List.not_mem_nil, or_false] at hgrant hlock
  have halignment : alignment = 8192 := by
    rcases hgrant with h | h | h
    · exact (trip_inj h).2 1
    · exact absurd (trip_inj h).1 (by decide)
    · cases congrArg Exchange.request h
  have hhandle : handle = 5 := by
    rcases hlock with h | h | h
    · exact absurd (trip_inj h).1 (by decide)
    · exact (trip_inj h).2 0
    · cases congrArg Exchange.request h
  subst halignment hhandle
  rcases hlock with h | h | h
  · exact absurd (trip_inj h).1 (by decide)
  · cases h
    decide
  · cases congrArg Exchange.request h

theorem alignment_kept_iff_sample :
    FirmwareAligns sampleTwoPages ∧ (BusAddress.mk 0xC0002000).AlignedTo 8192 := by
  have hallocate : Performs
      (Backends.allocate { mailbox := true } .mailbox { size := 64, alignment := 8192 })
      sampleTwoPages
      (.ok (some ⟨.mailbox, 5, ⟨0xC0002000⟩, .mapped ⟨0x7000⟩, 64⟩, { mailbox := true })) := by
    refine .ask _ ?_
    refine .ask _ ?_
    refine .ask _ ?_
    exact .done _
  refine ⟨firmwareAligns_sampleTwoPages, ?_⟩
  exact ((alignment_kept_iff firmwareAligns_sampleTwoPages).1 _ _ _ hallocate).mpr nofun

set_option maxRecDepth 8000 in
/-- The emulator gives out a slot that does not lie right: the second slot is 8 MiB into the address
space, where no buffer with an alignment of 16 MiB can be. -/
theorem alignment_not_kept :
    ∃ buffer b', Performs
      (Backends.allocate { emulator := some { slots := sampleSlots } } .emulator
        { size := 64, alignment := 0x1000000 }) [] (.ok (some buffer, b')) ∧
      isPowerOfTwo 0x1000000 = true ∧ FirmwareAligns [] ∧
      ¬ buffer.address.AlignedTo 0x1000000 := by
  refine ⟨bufferAt 1 64, _, .done _, by decide, nofun, by decide⟩

end VideoCore
