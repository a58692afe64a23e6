import VideoCore.Proofs.Emulator.Refinement
import VideoCore.Proofs.Emulator.Windows

/-!
# The margin behind a buffer

The emulator rounds the size of a buffer up to whole cache lines and adds two, so that a reader that goes
by lines can go on for two more after the last line with anything in it. The rounding is in words of 32
bits, and comes to what it is in natural numbers for all sizes up to `largestSize` and for no others
(`toNat_roundedWord_iff`).

The margin counts in the window of a slot as well: the emulator refuses a buffer as too large as soon as
its nominal size is within two lines of the window. What it accepts lies in one window with its margin,
and stays there: so it is apart from the windows of all other slots, and below the end of the address
space (`margins_in_windows`).
-/

namespace VideoCore.Emulator

open Session (Run Verb)
open SlotTable (handleOf)

variable {size : UInt32} {e e' : Emulator} {r : AllocationRequest} {buffer : Buffer}

/-! ## Lines -/

/-- The line of an offset in the buffer and the two lines after it end within the rounded size. -/
theorem lines_le_roundedSize {offset : Nat} (h : offset < size.toNat) :
    (offset / 64 + 3) * 64 ≤ roundedSize size := by
  simp only [roundedSize, cacheLine, marginLines]
  omega

/-- So they can be read from the memory behind the buffer. -/
theorem Slot.read?_lines (slot : Slot) {offset : Nat} (h : offset < slot.size.toNat) :
    (slot.block.read? (offset / 64 * 64) (3 * 64)).isSome := by
  have hfits : offset / 64 * 64 + 3 * 64 ≤ slot.block.size := by
    rw [slot.block_size, ← Nat.add_mul]
    exact lines_le_roundedSize h
  rw [Block.read?, if_pos hfits]
  rfl

/-! ## Windows -/

/-- A buffer is too large for a window exactly if the margin does not fit behind it any more. -/
theorem window_lt_roundedSize_iff : window < roundedSize size ↔ 2 ^ 23 - 128 < size.toNat := by
  simp only [window, roundedSize, cacheLine, marginLines]
  omega

/-- A request that is in order is refused if it is too large or no slot is free, and for no other
reason. A refusal changes nothing. -/
theorem allocate_refused_iff (hcheck : r.check = .ok ()) (hsize : r.size.toNat ≤ largestSize) :
    e.allocate r = .ok (none, e') ↔ e' = e ∧
      (2 ^ 23 - 128 < r.size.toNat ∨ ∀ i < slotCount, (e.find? (handleOf i)).isSome) := by
  rw [← window_lt_roundedSize_iff]
  constructor
  · intro h
    obtain ⟨-, he⟩ | ⟨_, -, -, -, hgiven, -⟩ := allocate_cases h
    · refine ⟨he, ?_⟩
      by_contra hroom
      obtain ⟨hfits, hsome⟩ := not_or.mp hroom
      simp only [not_forall, Option.not_isSome_iff_eq_none] at hsome
      obtain ⟨i, hi, hfree⟩ := hsome
      obtain ⟨_, -, -, -, _, _, _, hallocate, -⟩ :=
        takes_lowest hcheck (Nat.le_of_not_lt hfits) ⟨i, hi, hfree⟩
      rw [hallocate] at h
      cases h
    · cases hgiven
  · rintro ⟨rfl, hfull⟩
    exact allocate_of_full hcheck hsize hfull

/-- Some memory lies at the start of a slot's window and ends inside it. -/
structure Windowed (address : BusAddress) (length index : Nat) : Prop where
  slot : index < slotCount
  start : address = slotAddress index
  inside : address.value.toNat + length ≤ address.value.toNat + 2 ^ 23
  /-- The window, and all that lies in it, is below the alias bits. -/
  below : address.value.toNat + 2 ^ 23 ≤ 2 ^ 30
  /-- The windows of the other slots are before it or behind it. -/
  apart : ∀ other < slotCount, other ≠ index →
    address.value.toNat + length ≤ (slotAddress other).value.toNat ∨
      (slotAddress other).value.toNat + 2 ^ 23 ≤ address.value.toNat

theorem windowed_slotAddress {index length : Nat} (hindex : index < slotCount) (hfits : length ≤ window) :
    Windowed (slotAddress index) length index where
  slot := hindex
  start := rfl
  inside := Nat.add_le_add_left hfits _
  below := by
    rw [toNat_slotAddress hindex]
    unfold slotCount at hindex
    unfold window
    omega
  apart other hother hne := by
    rw [toNat_slotAddress hindex, toNat_slotAddress hother]
    unfold window at *
    omega

/-- Wherever a session gets to, the memory of every live buffer lies in the window of its slot. -/
theorem windowed_of_run {allowed : Session → Verb → Prop} {start s : Session}
    {events : List (Exchange Hardware)} (hstart : Vacant start) (run : Run allowed start events s)
    (he : s.system.backends.emulator = some e) {index : Nat} {slot : Slot}
    (hslot : e.slots.get? index = some slot) :
    Windowed (slotAddress index) slot.block.size index := by
  rw [slot.block_size]
  exact windowed_slotAddress (SlotTable.lt_of_get? hslot) (fits_of_run hstart run he index slot hslot)

/-- The rounded size is of whole lines, at least two of which are behind the buffer and less than three.
It is exact in words of 32 bits, and the three lines from any offset in the buffer on end within it. An
emulator refuses a buffer as too large exactly if its margin does not fit its window. The memory of a
buffer that it accepts has the rounded size, and lies in the window of one slot, apart from those of all
others; and so it is with every buffer that is live, wherever a session gets to. -/
theorem margins_in_windows (size : UInt32) (hsize : size.toNat ≤ largestSize) :
    (roundedSize size % 64 = 0 ∧ (roundedWord size).toNat = roundedSize size ∧
      size.toNat + 128 ≤ roundedSize size ∧ roundedSize size < size.toNat + 192) ∧
    (∀ offset < size.toNat, (offset / 64 + 3) * 64 ≤ roundedSize size) ∧
    (∀ (e : Emulator) (r : AllocationRequest), r.check = .ok () → r.size = size →
      (∀ e', e.allocate r = .ok (none, e') ↔ e' = e ∧
        (2 ^ 23 - 128 < size.toNat ∨ ∀ i < slotCount, (e.find? (handleOf i)).isSome)) ∧
      ∀ buffer e', e.allocate r = .ok (some buffer, e') →
        ∃ index slot, e'.find? buffer.handle = some slot ∧ slot.block.size = roundedSize size ∧
          Windowed buffer.address slot.block.size index ∧
          ∀ offset < size.toNat, (slot.block.read? (offset / 64 * 64) (3 * 64)).isSome) ∧
    ∀ (allowed : Session → Verb → Prop) (start s : Session) (events : List (Exchange Hardware))
      (e : Emulator), Vacant start → Run allowed start events s →
      s.system.backends.emulator = some e →
      ∀ index slot, e.slots.get? index = some slot → slot.size = size →
        slot.block.size = roundedSize size ∧ Windowed (slotAddress index) slot.block.size index := by
  obtain ⟨hleast, hmost⟩ := roundedSize_bounds size
  refine ⟨⟨roundedSize_mod size, toNat_roundedWord_iff.mpr hsize, hleast, hmost⟩,
    fun _ => lines_le_roundedSize, ?_, ?_⟩
  · rintro e r hcheck rfl
    refine ⟨fun e' => allocate_refused_iff hcheck hsize, fun buffer e' h => ?_⟩
    obtain ⟨hgiven, -⟩ | ⟨index, hindex, -, hfits, hgiven, hupdate⟩ := allocate_cases h
    · cases hgiven
    cases hgiven
    have hblock := (Slot.zeroed r.size hsize).block_size
    refine ⟨index, .zeroed r.size hsize, ?_, hblock, ?_, fun _ => Slot.read?_lines (.zeroed r.size hsize)⟩
    · rw [hupdate]
      exact Function.update_self ..
    · rw [hblock]
      exact windowed_slotAddress hindex hfits
  · rintro allowed start s events e hstart run he index slot hslot rfl
    exact ⟨slot.block_size, windowed_of_run hstart run he hslot⟩

/-- The largest buffer that an emulator accepts, and the smallest that it refuses. -/
theorem margins_in_windows_sample :
    Emulator.allocate {} { size := 0x7FFF80 } ≠ .ok (none, {}) ∧
    Emulator.allocate {} { size := 0x7FFF81 } = .ok (none, {}) ∧
    (roundedWord 0x7FFF80).toNat = roundedSize 0x7FFF80 := by
  have hlargest := margins_in_windows 0x7FFF80 (by decide)
  have hsmallest := margins_in_windows 0x7FFF81 (by decide)
  have htaken := (hlargest.2.2.1 {} { size := 0x7FFF80 } rfl rfl).1 {}
  have hrefused := (hsmallest.2.2.1 {} { size := 0x7FFF81 } rfl rfl).1 {}
  refine ⟨fun h => ?_, hrefused.mpr ⟨rfl, .inl (by decide)⟩, hlargest.1.2.1⟩
  obtain ⟨-, hlarge | hfull⟩ := htaken.mp h
  · exact absurd hlarge (by decide)
  · exact absurd (hfull 0 (by decide)) (by decide)

end VideoCore.Emulator
