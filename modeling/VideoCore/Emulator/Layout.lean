import VideoCore.Bus

/-!
# The emulated address space

Every slot of the emulator owns a window of 8 MiB of the emulated bus address space: the slot's
index stands in bits 23 to 29 of the addresses of its buffer. A bus address therefore leads back
to its slot by a division, whatever its alias bits are.

Buffers are rounded up to whole cache lines and get two more lines behind their end, so that a
reader that goes by lines never leaves the buffer. The rounding is done in words of 32 bits, and its
last step overflows for the last 191 sizes below 4 GiB.
-/

namespace VideoCore.Emulator

/-- How many slots there are. -/
def slotCount : Nat := 128

/-- The part of the address space that belongs to one slot. -/
def window : Nat := 8 * 1024 * 1024

/-- The granularity of simulated memory reads. -/
def cacheLine : Nat := 64

/-- Cache lines behind the nominal end of a buffer. -/
def marginLines : Nat := 2

/-- The length of the memory behind a buffer of `size` bytes, with every step taken in a word. -/
def roundedWord (size : UInt32) : UInt32 :=
  -- a started cache line counts as a whole one
  (size / 64 + (if size % 64 = 0 then 0 else 1) + 2) * 64

/-- The same length in natural numbers, which do not overflow. -/
def roundedSize (size : UInt32) : Nat :=
  ((size.toNat + (cacheLine - 1)) / cacheLine + marginLines) * cacheLine

/-- The largest size whose rounded size fits a word. -/
def largestSize : Nat := 0xFFFFFF40

/-- The bus address of the buffer in a slot. -/
def slotAddress (index : Nat) : BusAddress :=
  ⟨UInt32.ofNat (index * window)⟩

/-- The slot that an address belongs to, and its distance from the start of the slot's window. -/
def locate (address : BusAddress) : Nat × Nat :=
  (address.physical.toNat / window, address.physical.toNat % window)

/-- A buffer has at least two cache lines behind its end, and less than three. -/
theorem roundedSize_bounds (size : UInt32) :
    size.toNat + 128 ≤ roundedSize size ∧ roundedSize size < size.toNat + 192 := by
  simp only [roundedSize, cacheLine, marginLines]
  omega

theorem roundedSize_mod (size : UInt32) : roundedSize size % 64 = 0 := by
  simp only [roundedSize, cacheLine]
  omega

theorem toNat_roundedWord (size : UInt32) :
    (roundedWord size).toNat = roundedSize size % UInt32.size := by
  -- the number of lines is far below the last word, so only the product can overflow
  have hlines : (size / 64 + (if size % 64 = 0 then 0 else 1) + 2).toNat =
      (size.toNat + 63) / 64 + 2 := by
    have hzero : size % 64 = 0 ↔ size.toNat % 64 = 0 := by
      rw [← UInt32.toNat_inj, UInt32.toNat_mod]
      rfl
    have hsize := size.toNat_lt
    split
    · next h =>
      rw [hzero] at h
      simp only [UInt32.toNat_add, UInt32.toNat_div, UInt32.reduceToNat]
      omega
    · next h =>
      rw [hzero] at h
      simp only [UInt32.toNat_add, UInt32.toNat_div, UInt32.reduceToNat]
      omega
  rw [roundedWord, UInt32.toNat_mul, hlines]
  rfl

/-- No step of the rounding overflows exactly up to the largest size. -/
theorem toNat_roundedWord_iff {size : UInt32} :
    (roundedWord size).toNat = roundedSize size ↔ size.toNat ≤ largestSize := by
  rw [toNat_roundedWord, largestSize]
  simp only [roundedSize, cacheLine, marginLines, UInt32.size]
  omega

/-- What fits a window is far from an overflow. -/
theorem le_largestSize {size : UInt32} (hfits : roundedSize size ≤ window) :
    size.toNat ≤ largestSize := by
  have hbounds := roundedSize_bounds size
  unfold window at hfits
  unfold largestSize
  omega

/-- A size whose rounding overflows comes out far below the window. -/
theorem roundedWord_of_overflow {size : UInt32} (h : largestSize < size.toNat) :
    (roundedWord size).toNat ≤ 128 := by
  have hsize := size.toNat_lt
  unfold largestSize at h
  rw [toNat_roundedWord]
  simp only [roundedSize, cacheLine, marginLines, UInt32.size]
  omega

/-- The address of a slot leads back to that slot. -/
theorem locate_slotAddress {index : Nat} (h : index < slotCount) :
    locate (slotAddress index) = (index, 0) := by
  have key : (slotAddress index).physical.toNat = index * window := by
    have hw : index * window < 2 ^ 30 := by simp only [slotCount, window] at *; omega
    simp only [slotAddress, BusAddress.physical, BusAddress.aliasMask, UInt32.toNat_and,
      UInt32.toNat_ofNat']
    rw [Nat.mod_eq_of_lt (by omega)]
    have : (~~~(0xC0000000 : UInt32)).toNat = 2 ^ 30 - 1 := by decide
    rw [this, Nat.and_two_pow_sub_one_eq_mod, Nat.mod_eq_of_lt hw]
  simp only [locate, key, window]
  ext <;> simp

end VideoCore.Emulator
