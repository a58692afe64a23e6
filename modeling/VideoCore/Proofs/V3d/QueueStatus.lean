import Mathlib.Algebra.Group.Nat.Defs
import VideoCore.V3d.RegisterFile

/-!
# The queue status register

The status of the user program queue holds two counts of eight bits and an error flag. A count is
read by a shift and a mask (`field`), and raised or cleared without touching any other bit. Both are
one thing (`QueueCount`), and what is said of a count is said of either: bit by bit for the word, and as
numbers modulo 256 for each access to the register block.
-/

namespace VideoCore.V3d

/-! ## Two counts in one word -/

/-- The counts of a queue status. -/
inductive QueueCount where
  | requested
  | completed
  deriving DecidableEq, Repr

namespace QueueCount

/-- Where a count starts. -/
def shift : QueueCount → UInt32
  | requested => requestedShift
  | completed => completedShift

/-- The bit that clears a count when it is written. -/
def clearing : QueueCount → UInt32
  | requested => clearRequested
  | completed => clearCompleted

/-- The bits of the status that are a count's own. -/
def Owns (c : QueueCount) (k : Nat) : Prop := c.shift.toNat ≤ k ∧ k < c.shift.toNat + 8

instance (c : QueueCount) (k : Nat) : Decidable (c.Owns k) := inferInstanceAs (Decidable (_ ∧ _))

theorem shift_le (c : QueueCount) : c.shift.toNat + 8 ≤ 32 := by
  cases c <;> decide

theorem shift_lt (c : QueueCount) : c.shift.toNat < 32 := by
  have := c.shift_le
  omega

/-- No bit belongs to both counts. -/
theorem disjoint {c other : QueueCount} (h : c ≠ other) :
    other.shift.toNat + 8 ≤ c.shift.toNat ∨ c.shift.toNat + 8 ≤ other.shift.toNat := by
  revert h
  cases c <;> cases other <;> decide

theorem owns_unique {c other : QueueCount} {k : Nat} (h : c.Owns k) (h' : other.Owns k) :
    c = other := by
  apply Classical.byContradiction
  intro hne
  have hdisjoint := disjoint hne
  unfold Owns at h h'
  omega

end QueueCount

namespace RegisterFile

/-! ## Fields of a word -/

/-- The eight bits of a word from a position on. -/
def field (word shift : UInt32) : UInt32 := (word >>> shift) &&& countMask

theorem testBit_countMask (i : Nat) : countMask.toNat.testBit i = decide (i < 8) :=
  Nat.testBit_two_pow_sub_one 8 i

/-- No bit is set past the end of a word. -/
theorem testBit_of_le (word : UInt32) {i : Nat} (hi : 32 ≤ i) : word.toNat.testBit i = false := by
  apply Nat.testBit_lt_two_pow
  exact Nat.lt_of_lt_of_le word.toNat_lt (Nat.pow_le_pow_right Nat.zero_lt_two hi)

/-- No bit is set past the first eight of a number that fits them. -/
theorem testBit_of_lt {value : UInt32} (hvalue : value.toNat < 256) {i : Nat} (hi : 8 ≤ i) :
    value.toNat.testBit i = false := by
  apply Nat.testBit_lt_two_pow
  exact Nat.lt_of_lt_of_le hvalue (Nat.pow_le_pow_right Nat.zero_lt_two hi)

/-- The bits of a field are those of the word. -/
theorem testBit_field {word shift : UInt32} (hshift : shift.toNat < 32) (i : Nat) :
    (field word shift).toNat.testBit i =
      (decide (i < 8) && word.toNat.testBit (shift.toNat + i)) := by
  rw [field, UInt32.toNat_and, Nat.testBit_and, UInt32.toNat_shiftRight, Nat.testBit_shiftRight,
    Nat.mod_eq_of_lt hshift, testBit_countMask, Bool.and_comm]

/-- Bits that are moved up are not lost, as long as they stay in the word. -/
theorem testBit_shifted (width : Nat) {value shift : UInt32} (hvalue : value.toNat < 2 ^ width)
    (hshift : shift.toNat + width ≤ 32) (hshort : shift.toNat < 32) (i : Nat) :
    (value <<< shift).toNat.testBit i =
      (decide (shift.toNat ≤ i) && value.toNat.testBit (i - shift.toNat)) := by
  have hfits : value.toNat * 2 ^ shift.toNat < 2 ^ 32 := by
    calc value.toNat * 2 ^ shift.toNat < 2 ^ width * 2 ^ shift.toNat :=
          Nat.mul_lt_mul_of_pos_right hvalue (Nat.two_pow_pos _)
      _ = 2 ^ (width + shift.toNat) := (Nat.pow_add ..).symm
      _ ≤ 2 ^ 32 := Nat.pow_le_pow_right (by decide) (by omega)
  rw [UInt32.toNat_shiftLeft, Nat.mod_eq_of_lt hshort, Nat.shiftLeft_eq,
    Nat.mod_eq_of_lt hfits, Nat.testBit_mul_two_pow]

theorem testBit_not (word : UInt32) (i : Nat) :
    (~~~word).toNat.testBit i = (decide (i < 32) && !word.toNat.testBit i) := by
  rw [UInt32.toNat_not]
  have h := Nat.testBit_two_pow_sub_succ word.toNat_lt i
  rwa [show 2 ^ 32 - (word.toNat + 1) = UInt32.size - 1 - word.toNat by
    rw [show UInt32.size = 2 ^ 32 from rfl]; omega] at h

/-- A word with one field replaced. -/
theorem testBit_replaced {word value shift : UInt32} (hvalue : value.toNat < 256)
    (hshift : shift.toNat + 8 ≤ 32) (i : Nat) :
    ((word &&& ~~~(countMask <<< shift)) ||| (value <<< shift)).toNat.testBit i =
      if shift.toNat ≤ i ∧ i < shift.toNat + 8 then value.toNat.testBit (i - shift.toNat)
      else word.toNat.testBit i := by
  have hmask : countMask.toNat < 256 := by decide
  rw [UInt32.toNat_or, Nat.testBit_or, UInt32.toNat_and, Nat.testBit_and, testBit_not,
    testBit_shifted 8 hmask hshift (by omega), testBit_shifted 8 hvalue hshift (by omega),
    testBit_countMask]
  by_cases hlow : shift.toNat ≤ i
  · by_cases hhigh : i < shift.toNat + 8
    · rw [if_pos ⟨hlow, hhigh⟩]
      simp [hlow, show i - shift.toNat < 8 by omega]
    · rw [if_neg (fun h => hhigh h.2), testBit_of_lt hvalue (by omega)]
      by_cases hend : i < 32
      · simp [hend, show ¬ i - shift.toNat < 8 by omega]
      · rw [testBit_of_le word (by omega)]
        simp
  · rw [if_neg (fun h => hlow h.1)]
    simp [hlow, show i < 32 by omega]

theorem field_lt (word shift : UInt32) : (field word shift).toNat < 256 := by
  rw [field, UInt32.toNat_and]
  exact Nat.lt_of_le_of_lt Nat.and_le_right (by decide)

/-- A field that is replaced reads as what it was replaced by. -/
theorem field_replaced_self {word value shift : UInt32} (hvalue : value.toNat < 256)
    (hshift : shift.toNat + 8 ≤ 32) :
    field ((word &&& ~~~(countMask <<< shift)) ||| (value <<< shift)) shift = value := by
  apply UInt32.toNat.inj
  apply Nat.eq_of_testBit_eq
  intro i
  rw [testBit_field (by omega), testBit_replaced hvalue hshift]
  by_cases hi : i < 8
  · rw [if_pos ⟨by omega, by omega⟩, Nat.add_sub_cancel_left, decide_eq_true hi, Bool.true_and]
  · rw [testBit_of_lt hvalue (show 8 ≤ i by omega), decide_eq_false hi, Bool.false_and]

/-- A field that lies elsewhere reads as before. -/
theorem field_replaced_of_disjoint {word value shift other : UInt32} (hvalue : value.toNat < 256)
    (hshift : shift.toNat + 8 ≤ 32) (hother : other.toNat + 8 ≤ 32)
    (hdisjoint : other.toNat + 8 ≤ shift.toNat ∨ shift.toNat + 8 ≤ other.toNat) :
    field ((word &&& ~~~(countMask <<< shift)) ||| (value <<< shift)) other = field word other := by
  apply UInt32.toNat.inj
  apply Nat.eq_of_testBit_eq
  intro i
  rw [testBit_field (by omega), testBit_field (by omega), testBit_replaced hvalue hshift]
  by_cases hi : i < 8
  · rw [if_neg (by omega)]
  · rw [decide_eq_false hi, Bool.false_and, Bool.false_and]

theorem eq_of_testBit {x y : UInt32} (h : ∀ k, x.toNat.testBit k = y.toNat.testBit k) : x = y :=
  UInt32.toNat.inj (Nat.eq_of_testBit_eq h)

variable {status value : UInt32} {c : QueueCount} {k : Nat}

/-! ## Adding to a count -/

theorem toNat_countMasked (word : UInt32) : (word &&& countMask).toNat = word.toNat % 256 := by
  rw [UInt32.toNat_and]
  exact Nat.and_two_pow_sub_one_eq_mod word.toNat 8

theorem countMasked_lt (word : UInt32) : (word &&& countMask).toNat < 256 := by
  rw [toNat_countMasked]
  exact Nat.mod_lt _ (by decide)

/-- A count that is added to goes on modulo 256. -/
theorem field_addCount_self {status shift count : UInt32} (hshift : shift.toNat + 8 ≤ 32) :
    (field (addCount status shift count) shift).toNat =
      ((field status shift).toNat + count.toNat) % 256 := by
  have hvalue : ((field status shift + count) &&& countMask).toNat =
      ((field status shift).toNat + count.toNat) % 256 := by
    rw [toNat_countMasked, UInt32.toNat_add]
    omega
  rw [← hvalue]
  exact congrArg UInt32.toNat (field_replaced_self (countMasked_lt _) hshift)

theorem field_addCount_of_disjoint {status shift other count : UInt32}
    (hshift : shift.toNat + 8 ≤ 32) (hother : other.toNat + 8 ≤ 32)
    (hdisjoint : other.toNat + 8 ≤ shift.toNat ∨ shift.toNat + 8 ≤ other.toNat) :
    field (addCount status shift count) other = field status other :=
  field_replaced_of_disjoint (countMasked_lt _) hshift hother hdisjoint

/-- A number added to one of the counts. -/
theorem field_addCount (status count : UInt32) (c other : QueueCount) :
    (field (addCount status c.shift count) other.shift).toNat =
      ((field status other.shift).toNat + if c = other then count.toNat else 0) % 256 := by
  by_cases h : c = other
  · rw [← h, if_pos rfl, field_addCount_self c.shift_le]
  · rw [if_neg h, field_addCount_of_disjoint c.shift_le other.shift_le (QueueCount.disjoint h),
      Nat.add_zero, Nat.mod_eq_of_lt (field_lt _ _)]

/-! ## Bits of the status -/

/-- What is added to a count stays in it. -/
theorem testBit_addCount (h : ¬ c.Owns k) (count : UInt32) :
    (addCount status c.shift count).toNat.testBit k = status.toNat.testBit k :=
  (testBit_replaced (countMasked_lt _) c.shift_le k).trans (if_neg h)

/-- A program that is queued changes the counts that it is counted in. -/
theorem testBit_countRequest {on : Bool}
    (h : ¬ (QueueCount.requested.Owns k ∨ on = true ∧ QueueCount.completed.Owns k)) :
    (countRequest on status).toNat.testBit k = status.toNat.testBit k := by
  obtain ⟨hrequested, hcompleted⟩ := not_or.mp h
  have hbit : (addCount status requestedShift 1).toNat.testBit k = status.toNat.testBit k :=
    testBit_addCount hrequested 1
  unfold countRequest
  split
  · next hon => exact (testBit_addCount (fun howns => hcompleted ⟨hon, howns⟩) 1).trans hbit
  · exact hbit

/-- A status with the error cleared, if a mask says so. -/
def clearError (status value : UInt32) : UInt32 :=
  if value &&& queueError ≠ 0 then status &&& ~~~queueError else status

/-- A status with a count cleared, if a mask says so. -/
def clearCount (c : QueueCount) (status value : UInt32) : UInt32 :=
  if value &&& c.clearing ≠ 0 then status &&& ~~~(countMask <<< c.shift) else status

theorem clearStatus_eq (status value : UInt32) : clearStatus status value =
    clearCount .completed (clearCount .requested (clearError status value) value) value := rfl

theorem testBit_clearError (status value : UInt32) (k : Nat) :
    (clearError status value).toNat.testBit k = true ↔
      status.toNat.testBit k = true ∧ ¬ (value &&& queueError ≠ 0 ∧ k = 7) := by
  have herror : queueError.toNat.testBit k = decide (7 = k) := by
    rw [show queueError.toNat = 2 ^ 7 from rfl, Nat.testBit_two_pow]
  unfold clearError
  by_cases hclears : value &&& queueError ≠ 0
  · rw [if_pos hclears, UInt32.toNat_and, Nat.testBit_and, testBit_not, herror]
    by_cases hk : k < 32
    · rw [decide_eq_true hk, Bool.true_and, Bool.and_eq_true, Bool.not_eq_true',
        decide_eq_false_iff_not]
      exact and_congr_right' (not_congr ⟨fun h => ⟨hclears, h.symm⟩, fun h => h.2.symm⟩)
    · rw [testBit_of_le status (Nat.le_of_not_lt hk), Bool.false_and]
      exact iff_of_false Bool.false_ne_true fun h => Bool.false_ne_true h.1
  · rw [if_neg hclears]
    exact (and_iff_left fun h => hclears h.1).symm

theorem testBit_clearCount (c : QueueCount) (status value : UInt32) (k : Nat) :
    (clearCount c status value).toNat.testBit k = true ↔
      status.toNat.testBit k = true ∧ ¬ (value &&& c.clearing ≠ 0 ∧ c.Owns k) := by
  have hzero : (0 : UInt32).toNat < 256 := by decide
  have hcleared : (status &&& ~~~(countMask <<< c.shift)).toNat.testBit k =
      if c.Owns k then false else status.toNat.testBit k := by
    have h : ((status &&& ~~~(countMask <<< c.shift)) ||| (0 <<< c.shift)).toNat.testBit k = _ :=
      testBit_replaced hzero c.shift_le k
    rwa [UInt32.zero_shiftLeft, UInt32.or_zero, UInt32.toNat_zero, Nat.zero_testBit] at h
  unfold clearCount
  by_cases hclears : value &&& c.clearing ≠ 0
  · rw [if_pos hclears, hcleared]
    by_cases howns : c.Owns k
    · rw [if_pos howns]
      exact iff_of_false Bool.false_ne_true fun h => h.2 ⟨hclears, howns⟩
    · rw [if_neg howns]
      exact (and_iff_left fun h => howns h.2).symm
  · rw [if_neg hclears]
    exact (and_iff_left fun h => hclears h.1).symm

/-- The bits that a write to the status clears. -/
def Clears (value : UInt32) (k : Nat) : Prop :=
  value &&& queueError ≠ 0 ∧ k = 7 ∨ ∃ c : QueueCount, value &&& c.clearing ≠ 0 ∧ c.Owns k

/-- A write to the status clears the bits that it is told to, and sets none. -/
theorem testBit_clearStatus (status value : UInt32) (k : Nat) :
    (clearStatus status value).toNat.testBit k = true ↔
      status.toNat.testBit k = true ∧ ¬ Clears value k := by
  rw [clearStatus_eq, testBit_clearCount, testBit_clearCount, testBit_clearError]
  constructor
  · rintro ⟨⟨⟨hstatus, herror⟩, hrequested⟩, hcompleted⟩
    refine ⟨hstatus, ?_⟩
    rintro (h | ⟨c, h⟩)
    · exact herror h
    · cases c with
      | requested => exact hrequested h
      | completed => exact hcompleted h
  · rintro ⟨hstatus, hnothing⟩
    exact ⟨⟨⟨hstatus, fun h => hnothing (.inl h)⟩, fun h => hnothing (.inr ⟨_, h⟩)⟩,
      fun h => hnothing (.inr ⟨_, h⟩)⟩

/-! ## Fields of the status -/

/-- A count that is cleared is 0, and the other is as it was. -/
theorem field_clearStatus (status value : UInt32) (c : QueueCount) :
    field (clearStatus status value) c.shift =
      if value &&& c.clearing ≠ 0 then 0 else field status c.shift := by
  have hbit : ∀ i < 8, (clearStatus status value).toNat.testBit (c.shift.toNat + i) = true ↔
      status.toNat.testBit (c.shift.toNat + i) = true ∧ ¬ value &&& c.clearing ≠ 0 := by
    intro i hi
    have howns : c.Owns (c.shift.toNat + i) := ⟨by omega, by omega⟩
    have hcount : 8 ≤ c.shift.toNat := by cases c <;> decide
    rw [testBit_clearStatus]
    apply and_congr_right'
    apply not_congr
    constructor
    · rintro (⟨-, hseven⟩ | ⟨other, hclears, hother⟩)
      · omega
      · rwa [QueueCount.owns_unique howns hother]
    · intro hclears
      exact .inr ⟨c, hclears, howns⟩
  apply eq_of_testBit
  intro i
  rw [testBit_field c.shift_lt]
  by_cases hi : i < 8
  · rw [decide_eq_true hi, Bool.true_and, Bool.eq_iff_iff, hbit i hi]
    by_cases hclears : value &&& c.clearing ≠ 0
    · simp [hclears]
    · rw [if_neg hclears, testBit_field c.shift_lt, decide_eq_true hi, Bool.true_and]
      exact and_iff_left hclears
  · rw [decide_eq_false hi, Bool.false_and]
    split
    · exact (Nat.zero_testBit i).symm
    · rw [testBit_field c.shift_lt, decide_eq_false hi, Bool.false_and]

/-- A program that is queued is counted as requested, and with the switch on as completed too. -/
theorem field_countRequest (on : Bool) (status : UInt32) (c : QueueCount) :
    (field (countRequest on status) c.shift).toNat =
      ((field status c.shift).toNat + if c = .requested ∨ on = true then 1 else 0) % 256 := by
  have hrequested := field_addCount status 1 .requested c
  unfold countRequest
  cases on with
  | false =>
    simp only [Bool.false_eq_true, or_false, if_false]
    rw [show requestedShift = QueueCount.requested.shift from rfl, hrequested]
    cases c <;> rfl
  | true =>
    have hcompleted := field_addCount (addCount status requestedShift 1) 1 .completed c
    simp only [or_true, if_true]
    rw [show completedShift = QueueCount.completed.shift from rfl, hcompleted,
      show requestedShift = QueueCount.requested.shift from rfl, hrequested]
    cases c with
    | requested =>
      rw [if_pos rfl, if_neg (by decide), Nat.add_zero, Nat.mod_mod]
      rfl
    | completed =>
      rw [if_neg (by decide), if_pos rfl, Nat.add_zero, Nat.mod_add_mod]
      rfl

/-- A count by division, as a number. -/
theorem toNat_field (word : UInt32) (c : QueueCount) :
    (field word c.shift).toNat = word.toNat / 2 ^ c.shift.toNat % 256 := by
  rw [field, toNat_countMasked, UInt32.toNat_shiftRight, Nat.mod_eq_of_lt c.shift_lt,
    Nat.shiftRight_eq_div_pow]

/-- A word in which only the counts have bits is what they say. -/
theorem toNat_of_owned {word : UInt32}
    (h : ∀ k, word.toNat.testBit k = true → ∃ c : QueueCount, c.Owns k) :
    word.toNat =
      (field word requestedShift).toNat * 2 ^ 8 + (field word completedShift).toNat * 2 ^ 16 := by
  have hrequested : (field word requestedShift).toNat = word.toNat / 2 ^ 8 % 256 :=
    toNat_field word .requested
  have hcompleted : (field word completedShift).toNat = word.toNat / 2 ^ 16 % 256 :=
    toNat_field word .completed
  have hnone : ∀ k, k < 8 ∨ 24 ≤ k → word.toNat.testBit k = false := by
    intro k hk
    rw [← Bool.not_eq_true]
    intro hbit
    obtain ⟨c, hlow, hhigh⟩ := h k hbit
    have hshift : c.shift.toNat = 8 ∨ c.shift.toNat = 16 := by cases c <;> decide
    omega
  have hhigh : word.toNat < 2 ^ 24 := Nat.lt_pow_two_of_testBit _ fun k hk => hnone k (.inr hk)
  have hlow : word.toNat % 2 ^ 8 = 0 := by
    apply Nat.eq_of_testBit_eq
    intro k
    rw [Nat.testBit_mod_two_pow, Nat.zero_testBit]
    by_cases hk : k < 8
    · rw [hnone k (.inl hk), Bool.and_false]
    · rw [decide_eq_false hk, Bool.false_and]
  rw [hrequested, hcompleted]
  omega

/-! ## Accesses -/

theorem contains_srqcs : Contains Reg.srqcs := by decide

theorem get_srqcs_write_srqcs (file : RegisterFile) (value : UInt32) :
    (file.write Reg.srqcs value).get Reg.srqcs = clearStatus (file.get Reg.srqcs) value := by
  rw [write, if_pos rfl, get_set_self contains_srqcs]

theorem get_srqcs_write_srqpc (file : RegisterFile) (program : UInt32) :
    (file.write Reg.srqpc program).get Reg.srqcs =
      countRequest file.autoComplete (file.get Reg.srqcs) := by
  have hsame : (file.set Reg.srqpc program).get Reg.srqcs = file.get Reg.srqcs :=
    get_set_of_ne (by decide)
  rw [write, if_neg (by decide), if_pos rfl]
  show ((file.set Reg.srqpc program).set Reg.srqcs (countRequest file.autoComplete
    ((file.set Reg.srqpc program).get Reg.srqcs))).get Reg.srqcs = _
  rw [get_set_self contains_srqcs, hsame]

theorem get_srqcs_completePrograms (file : RegisterFile) (count : UInt32) :
    (file.completePrograms count).get Reg.srqcs =
      addCount (file.get Reg.srqcs) completedShift count := by
  rw [completePrograms, get_set_self contains_srqcs]

/-- How many programs have completed, modulo 256. -/
def completed (file : RegisterFile) : Nat := (field (file.get Reg.srqcs) completedShift).toNat

theorem completed_completePrograms (file : RegisterFile) (count : UInt32) :
    (file.completePrograms count).completed = (file.completed + count.toNat) % 256 := by
  rw [completed, get_srqcs_completePrograms]
  exact field_addCount (file.get Reg.srqcs) count .completed .completed

/-- A write to the status that clears the count leaves no completed programs. -/
theorem completed_write_srqcs (file : RegisterFile) {value : UInt32}
    (h : value &&& clearCompleted ≠ 0) : (file.write Reg.srqcs value).completed = 0 := by
  have hcleared : field (clearStatus (file.get Reg.srqcs) value) completedShift = 0 :=
    (field_clearStatus (file.get Reg.srqcs) value .completed).trans (if_pos h)
  rw [completed, get_srqcs_write_srqcs, hcleared]
  rfl

/-- A program that is queued counts as completed at once if the block is set so. -/
theorem completed_write_srqpc (file : RegisterFile) (program : UInt32) :
    (file.write Reg.srqpc program).completed =
      (file.completed + if file.autoComplete then 1 else 0) % 256 := by
  have hcount := field_countRequest file.autoComplete (file.get Reg.srqcs) .completed
  simp only [reduceCtorEq, false_or] at hcount
  rw [completed, get_srqcs_write_srqpc]
  exact hcount

/-- The address of the uniforms is kept, and counts nothing. -/
theorem completed_write_srqua (file : RegisterFile) (uniforms : UInt32) :
    (file.write Reg.srqua uniforms).completed = file.completed := by
  rw [write, if_neg (by decide), if_neg (by decide), if_neg (by decide), if_neg (by decide)]
  rw [completed, get_set_of_ne (by decide), completed]

/-! ## Power and the like -/

/-- How a block is set, which no access changes. -/
structure Settings where
  autoComplete : Bool
  powerGated : Bool

def settings (file : RegisterFile) : Settings := ⟨file.autoComplete, file.powerGated⟩

theorem powerGated_of_settings {before after : RegisterFile} (h : after.settings = before.settings) :
    after.powerGated = before.powerGated := congrArg Settings.powerGated h

theorem settings_clearCounters (file : RegisterFile) (mask : UInt32) :
    (file.clearCounters mask).settings = file.settings := by
  unfold clearCounters
  -- which counters there are does not matter
  generalize List.range counterCount.toNat = counters
  induction counters generalizing file with
  | nil => rfl
  | cons i rest ih =>
    rw [List.foldl_cons, ih]
    split <;> rfl

@[simp] theorem settings_write (file : RegisterFile) (offset value : UInt32) :
    (file.write offset value).settings = file.settings := by
  unfold write
  split
  · rfl
  split
  · rfl
  split
  · rfl
  split
  · exact settings_clearCounters file value
  · rfl

end RegisterFile

end VideoCore.V3d
