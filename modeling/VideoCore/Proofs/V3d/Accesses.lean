import VideoCore.V3d
import VideoCore.Proofs.V3d.QueueStatus

/-!
# Operations on a register file

The operations of the driver, each run against a register file: what it answers, and the file that it
leaves. The file may have power or not; what it shows is `RegisterFile.read`.

Counters and QPUs share registers. All counters have their enabling bits in one word, next to the bit
that turns counting on as a whole, and eight QPUs have four bits each in a word of reservations. What
belongs to whom is said by the positions of bits, so that "no other bit" can be said of all registers
at once.
-/

namespace VideoCore.V3d

open Hardware

namespace RegisterFile

/-! ## Bits -/

/-- A stored bit. -/
def bit (file : RegisterFile) (offset : UInt32) (k : Nat) : Bool := (file.get offset).toNat.testBit k

/-- Masked writing takes the bits of the mask from one word and all others from the other. -/
theorem testBit_masked (old mask value : UInt32) (k : Nat) :
    ((old &&& ~~~mask) ||| (value &&& mask)).toNat.testBit k =
      if mask.toNat.testBit k then value.toNat.testBit k else old.toNat.testBit k := by
  rw [UInt32.toNat_or, UInt32.toNat_and, UInt32.toNat_and, Nat.testBit_or, Nat.testBit_and,
    Nat.testBit_and, testBit_not]
  by_cases hk : k < 32
  · rw [decide_eq_true hk]
    cases mask.toNat.testBit k <;> simp
  · rw [testBit_of_le mask (by omega), testBit_of_le old (by omega)]
    simp

/-! ## Stores -/

theorem get_set {file : RegisterFile} {offset : UInt32} (h : Contains offset) (value other : UInt32) :
    (file.set offset value).get other = if index offset = index other then value else file.get other := by
  split
  · next hsame =>
    have hother : Contains other := by
      rw [Contains, ← hsame]
      exact h
    have hset : file.set offset value = file.set other value := by rw [set, set, hsame]
    rw [hset, get_set_self hother]
  · next hother => exact get_set_of_ne hother

theorem bit_set_of_ne {file : RegisterFile} {offset other : UInt32} (h : index offset ≠ index other)
    (value : UInt32) (k : Nat) : (file.set offset value).bit other k = file.bit other k := by
  rw [bit, get_set_of_ne h, bit]

/-- Offsets into one register read the same. -/
theorem get_congr {offset other : UInt32} (h : index offset = index other) (file : RegisterFile) :
    file.get offset = file.get other := by
  rw [RegisterFile.get, h, RegisterFile.get]

/-- A block with power shows what is stored. -/
theorem read_of_powered {file : RegisterFile} (h : file.powerGated = false) (offset : UInt32) :
    file.read offset = file.get offset := if_neg (ne_true_of_eq_false h)

/-- A register that is written without any side effect. -/
def Plain (offset : UInt32) : Prop :=
  offset ≠ Reg.srqcs ∧ offset ≠ Reg.srqpc ∧ offset ≠ Reg.errstat ∧ offset ≠ Reg.pctrc

instance (offset : UInt32) : Decidable (Plain offset) :=
  inferInstanceAs (Decidable (_ ∧ _ ∧ _ ∧ _))

theorem write_of_plain {offset : UInt32} (h : Plain offset) (file : RegisterFile) (value : UInt32) :
    file.write offset value = file.set offset value := by
  obtain ⟨hstatus, hprogram, herror, hclear⟩ := h
  rw [write, if_neg hstatus, if_neg hprogram, if_neg herror, if_neg hclear]

theorem write_errstat (file : RegisterFile) (value : UInt32) :
    file.write Reg.errstat value = file.set Reg.errstat (file.get Reg.errstat &&& ~~~value) := by
  rw [write, if_neg (by decide), if_neg (by decide), if_pos rfl]

theorem write_pctrc (file : RegisterFile) (mask : UInt32) :
    file.write Reg.pctrc mask = file.clearCounters mask := by
  rw [write, if_neg (by decide), if_neg (by decide), if_neg (by decide), if_pos rfl]

/-- Clearing counters leaves every register alone that is not one of their values. -/
theorem get_clearCounters_of_ne {file : RegisterFile} {mask offset : UInt32}
    (h : ∀ i < counterCount, index offset ≠ index (Reg.counterValue i)) :
    (file.clearCounters mask).get offset = file.get offset := by
  have hcounters : ∀ i ∈ List.range counterCount.toNat, UInt8.ofNat i < counterCount := by decide
  unfold clearCounters
  generalize List.range counterCount.toNat = counters at hcounters ⊢
  induction counters generalizing file with
  | nil => rfl
  | cons i rest ih =>
    obtain ⟨hi, hrest⟩ := List.forall_mem_cons.mp hcounters
    rw [List.foldl_cons, ih hrest]
    split
    · exact get_set_of_ne (h _ hi).symm
    · rfl

/-- A write leaves all registers alone but its own, the status, and the counters that it clears. -/
theorem get_write_of_ne {file : RegisterFile} {offset value other : UInt32}
    (hstatus : index other ≠ index Reg.srqcs) (hown : index other ≠ index offset)
    (hcounters : offset = Reg.pctrc → ∀ i < counterCount, index other ≠ index (Reg.counterValue i)) :
    (file.write offset value).get other = file.get other := by
  unfold write
  split
  · exact get_set_of_ne hstatus.symm
  split
  · next hprogram =>
    rw [hprogram] at hown
    rw [get_set_of_ne hstatus.symm, get_set_of_ne hown.symm]
  split
  · next herror =>
    rw [herror] at hown
    exact get_set_of_ne hown.symm
  split
  · next hclear => exact get_clearCounters_of_ne (hcounters hclear)
  · exact get_set_of_ne hown.symm

end RegisterFile

open RegisterFile

/-! ## Where counters stand -/

theorem toNat_counterEvent (index : UInt8) :
    (Reg.counterEvent index).toNat = 0x684 + index.toNat * 8 := by
  have hindex := index.toNat_lt
  rw [Reg.counterEvent, UInt32.toNat_add, UInt32.toNat_mul, UInt8.toNat_toUInt32,
    show Reg.pctrs0.toNat = 0x684 from rfl, show (8 : UInt32).toNat = 8 from rfl]
  omega

theorem toNat_counterValue (index : UInt8) :
    (Reg.counterValue index).toNat = 0x680 + index.toNat * 8 := by
  have hindex := index.toNat_lt
  rw [Reg.counterValue, UInt32.toNat_add, UInt32.toNat_mul, UInt8.toNat_toUInt32,
    show Reg.pctr0.toNat = 0x680 from rfl, show (8 : UInt32).toNat = 8 from rfl]
  omega

theorem index_counterEvent (i : UInt8) : index (Reg.counterEvent i) = 417 + 2 * i.toNat := by
  rw [RegisterFile.index, toNat_counterEvent]
  omega

theorem index_counterValue (i : UInt8) : index (Reg.counterValue i) = 416 + 2 * i.toNat := by
  rw [RegisterFile.index, toNat_counterValue]
  omega

theorem index_pctre : index Reg.pctre = 413 := rfl

theorem toNat_lt_of_lt_counterCount {i : UInt8} (h : i < counterCount) : i.toNat < 16 := h

/-- The stored bits that are one counter's own: its enabling bit, its event and its value. -/
def CounterAt (i : UInt8) (offset : UInt32) (k : Nat) : Prop :=
  index offset = index Reg.pctre ∧ k = i.toNat ∨
    index offset = index (Reg.counterEvent i) ∨ index offset = index (Reg.counterValue i)

/-- No two counters have a stored bit in common. -/
theorem counterAt_unique {i j : UInt8} {offset : UInt32} {k : Nat} (hi : i < counterCount)
    (hj : j < counterCount) (h : CounterAt i offset k) (h' : CounterAt j offset k) : i = j := by
  have hless := toNat_lt_of_lt_counterCount hi
  have hless' := toNat_lt_of_lt_counterCount hj
  unfold CounterAt at h h'
  rw [index_pctre, index_counterEvent, index_counterValue] at h h'
  apply UInt8.toNat.inj
  omega

/-- An offset from the counters on and before the error status is none of those with side effects. -/
theorem plain_of_toNat {offset : UInt32} (h : 0x680 ≤ offset.toNat) (k : offset.toNat < 0xF20) :
    Plain offset := by
  refine ⟨?_, ?_, ?_, ?_⟩
  all_goals
    rintro rfl
    revert h k
    decide

theorem plain_counterEvent (i : UInt8) : Plain (Reg.counterEvent i) := by
  have hi := i.toNat_lt
  have h := toNat_counterEvent i
  exact plain_of_toNat (by omega) (by omega)

theorem plain_counterValue (i : UInt8) : Plain (Reg.counterValue i) := by
  have hi := i.toNat_lt
  have h := toNat_counterValue i
  exact plain_of_toNat (by omega) (by omega)

theorem testBit_counterBit {i : UInt8} (h : i < counterCount) (k : Nat) :
    (counterBit i).toNat.testBit k = decide (i.toNat = k) := by
  have hi := toNat_lt_of_lt_counterCount h
  have hshift : i.toNat % 32 = i.toNat := Nat.mod_eq_of_lt (by omega)
  have hfits : 2 ^ i.toNat < 2 ^ 32 := Nat.pow_lt_pow_right (by decide) (by omega)
  rw [counterBit, UInt32.toNat_shiftLeft, UInt8.toNat_toUInt32, hshift,
    show (1 : UInt32).toNat = 1 from rfl, Nat.one_shiftLeft, Nat.mod_eq_of_lt hfits,
    Nat.testBit_two_pow]

theorem testBit_countersEnabled (k : Nat) : countersEnabled.toNat.testBit k = decide (31 = k) := by
  rw [show countersEnabled.toNat = 2 ^ 31 from rfl, Nat.testBit_two_pow]

theorem counterBit_and_ne_zero_iff {i j : UInt8} (hi : i < counterCount) (hj : j < counterCount) :
    counterBit i &&& counterBit j ≠ 0 ↔ i = j := by
  constructor
  · intro h
    apply Classical.byContradiction
    intro hne
    apply h
    apply eq_of_testBit
    intro k
    rw [UInt32.toNat_and, Nat.testBit_and, testBit_counterBit hi, testBit_counterBit hj,
      UInt32.toNat_zero, Nat.zero_testBit, Bool.and_eq_false_iff, decide_eq_false_iff_not,
      decide_eq_false_iff_not]
    have hdistinct : i.toNat ≠ j.toNat := fun hsame => hne (UInt8.toNat.inj hsame)
    omega
  · rintro rfl hzero
    have hbit := testBit_counterBit hi i.toNat
    rw [UInt32.and_self] at hzero
    rw [hzero, decide_eq_true rfl, UInt32.toNat_zero, Nat.zero_testBit] at hbit
    cases hbit

/-- Clearing by the bit of one counter clears the value of that counter. -/
theorem clearCounters_counterBit {i : UInt8} (h : i < counterCount) (file : RegisterFile) :
    file.clearCounters (counterBit i) = file.set (Reg.counterValue i) 0 := by
  have hi := toNat_lt_of_lt_counterCount h
  -- by induction on how many counters have been looked at
  have hfold : ∀ n ≤ 16, (List.range n).foldl (fun file j =>
      if counterBit i &&& ((1 : UInt32) <<< UInt32.ofNat j) ≠ 0 then
        file.set (Reg.counterValue (UInt8.ofNat j)) 0
      else file) file = if i.toNat < n then file.set (Reg.counterValue i) 0 else file := by
    intro n hn
    induction n with
    | zero => rfl
    | succ n ih =>
      have hnumber : (UInt8.ofNat n).toNat = n := by
        rw [UInt8.toNat_ofNat']
        omega
      have hbit : (1 : UInt32) <<< UInt32.ofNat n = counterBit (UInt8.ofNat n) := by
        rw [counterBit]
        congr 1
        apply UInt32.toNat.inj
        rw [UInt8.toNat_toUInt32, hnumber, UInt32.toNat_ofNat']
        omega
      have hcount : UInt8.ofNat n < counterCount := by
        show (UInt8.ofNat n).toNat < 16
        omega
      rw [List.range_succ, List.foldl_append, ih (by omega), List.foldl_cons, List.foldl_nil, hbit]
      by_cases hsame : i = UInt8.ofNat n
      · have hn : i.toNat = n := by rw [hsame, hnumber]
        rw [if_pos ((counterBit_and_ne_zero_iff h hcount).mpr hsame), ← hsame, if_neg (by omega),
          if_pos (by omega)]
      · have hn : i.toNat ≠ n := fun hn => hsame (UInt8.toNat.inj (hn.trans hnumber.symm))
        rw [if_neg (mt (counterBit_and_ne_zero_iff h hcount).mp hsame)]
        by_cases hlt : i.toNat < n
        · rw [if_pos hlt, if_pos (by omega)]
        · rw [if_neg hlt, if_neg (by omega)]
  have hall := hfold 16 (Nat.le_refl 16)
  rw [if_pos hi] at hall
  exact hall

/-! ## Where reservations stand -/

/-- The register that holds the reservation of a QPU. -/
def reservationRegister (qpu : UInt8) : UInt32 :=
  if qpu < reservationsPerRegister then Reg.sqrsv0 else Reg.sqrsv1

/-- Where the reservation of a QPU starts in its register. -/
def reservationShift (qpu : UInt8) : UInt32 := (qpu % reservationsPerRegister).toUInt32 * 4

/-- The bits of a reservation register that are one QPU's own. -/
def ReservedAt (qpu : UInt8) (k : Nat) : Prop := qpu.toNat % 8 * 4 ≤ k ∧ k < qpu.toNat % 8 * 4 + 4

instance (qpu : UInt8) (k : Nat) : Decidable (ReservedAt qpu k) := inferInstanceAs (Decidable (_ ∧ _))

theorem reservationPlace_of_lt {qpu : UInt8} (h : qpu < reservationCount) :
    reservationPlace qpu = .ok (reservationRegister qpu, reservationShift qpu) := if_pos h

theorem toNat_reservationShift (qpu : UInt8) : (reservationShift qpu).toNat = qpu.toNat % 8 * 4 := by
  rw [reservationShift, UInt32.toNat_mul, UInt8.toNat_toUInt32, UInt8.toNat_mod,
    show reservationsPerRegister.toNat = 8 from rfl, show (4 : UInt32).toNat = 4 from rfl]
  omega

theorem reservationRegister_cases (qpu : UInt8) :
    reservationRegister qpu = Reg.sqrsv0 ∨ reservationRegister qpu = Reg.sqrsv1 := by
  unfold reservationRegister
  split
  · exact .inl rfl
  · exact .inr rfl

theorem toNat_lt_of_lt_reservationCount {qpu : UInt8} (h : qpu < reservationCount) :
    qpu.toNat < 16 := h

/-- Eight QPUs share a register. -/
theorem index_reservationRegister {qpu : UInt8} (h : qpu < reservationCount) :
    index (reservationRegister qpu) = 260 + qpu.toNat / 8 := by
  have hqpu := toNat_lt_of_lt_reservationCount h
  show index (if qpu.toNat < 8 then Reg.sqrsv0 else Reg.sqrsv1) = _
  split
  · show 260 = _
    omega
  · show 261 = _
    omega

theorem contains_reservationRegister (qpu : UInt8) : Contains (reservationRegister qpu) := by
  obtain h | h := reservationRegister_cases qpu
  all_goals
    rw [h]
    decide

theorem plain_reservationRegister (qpu : UInt8) : Plain (reservationRegister qpu) := by
  obtain h | h := reservationRegister_cases qpu
  all_goals
    rw [h]
    decide

theorem testBit_reservationMask (k : Nat) : reservationMask.toNat.testBit k = decide (k < 4) :=
  Nat.testBit_two_pow_sub_one 4 k

theorem testBit_reservationField (qpu : UInt8) (k : Nat) :
    (reservationMask <<< reservationShift qpu).toNat.testBit k = decide (ReservedAt qpu k) := by
  have hshift := toNat_reservationShift qpu
  rw [testBit_shifted 4 (by decide) (by omega) (by omega), hshift, testBit_reservationMask]
  unfold ReservedAt
  by_cases hlow : qpu.toNat % 8 * 4 ≤ k
  · simp [hlow]
    omega
  · simp [hlow]

/-- What is read as a reservation depends on the QPU's own bits. -/
theorem testBit_reservation (contents : UInt32) (qpu : UInt8) (k : Nat) :
    ((contents >>> reservationShift qpu) &&& reservationMask).toNat.testBit k =
      (decide (k < 4) && contents.toNat.testBit (qpu.toNat % 8 * 4 + k)) := by
  have hshift := toNat_reservationShift qpu
  rw [UInt32.toNat_and, Nat.testBit_and, UInt32.toNat_shiftRight, Nat.testBit_shiftRight,
    Nat.mod_eq_of_lt (by omega), hshift, testBit_reservationMask, Bool.and_comm]

/-! ## Runs -/

namespace RegisterFile

/-- A register file as surroundings. It takes the accesses of registers; whatever else is asked goes to
others. -/
def serving (others : Surroundings Hardware RegisterFile) : Surroundings Hardware RegisterFile
  | .readRegister offset, file => (file.read offset, file)
  | .writeRegister offset value, file => ((), file.write offset value)
  | request, file => others request file

end RegisterFile

/-- Surroundings in which nothing else is to be had: what can fail does, and what cannot is nothing. -/
def nothingElse {σ : Type} : Surroundings Hardware σ
  | .property _, s => (.error .notFound, s)
  | .readRegister _, s | .allocateShared _ _ _, s | .sharedAddress _, s => ((0 : UInt32), s)
  | .writeRegister _ _, s | .freeShared _, s | .sleep _, s | .unmapPhysical _ _, s
  | .store _ _ _, s | .report _, s | .overflow, s | .retire _, s => ((), s)
  | .lockShared _, s => (none, s)
  | .unlockShared _, s | .cleanShared _, s => (false, s)
  | .submitJob _ _, s => ({ accepted := false }, s)
  | .command _, s => (none, s)
  | .awaitCompletion _, s => ([], s)
  | .readClock, s => (default, s)
  | .mapPhysical _ _, s => (.error (.opening .notFound), s)
  | .load _ _ _, s => (.empty, s)
  | .fileContents _, s => (.error .notFound, s)
  | .emulate _, s => (⟨.crashed, []⟩, s)

section Runs

variable {others : Surroundings Hardware RegisterFile} {turns : Nat} {file : RegisterFile}
  {index qpu : UInt8}

theorem run_setCounter (h : index < counterCount) (event : CounterEvent) :
    (setCounter index event).run.run (serving others) turns file =
      some (.ok (), ((file.write Reg.pctre
        (file.read Reg.pctre ||| countersEnabled ||| counterBit index)).write
          (Reg.counterEvent index) (event.code &&& eventMask)).write (Reg.counterValue index) 0) := by
  unfold setCounter
  rw [show checkCounter index = .ok () from if_pos h]
  rfl

theorem run_resetCounter (h : index < counterCount) :
    (resetCounter index).run.run (serving others) turns file =
      some (.ok (), file.write Reg.pctrc (counterBit index)) := by
  unfold resetCounter
  rw [show checkCounter index = .ok () from if_pos h]
  rfl

theorem run_disableCounter (h : index < counterCount) :
    (disableCounter index).run.run (serving others) turns file =
      some (.ok (), file.writeMasked Reg.pctre (counterBit index) 0) := by
  unfold disableCounter
  rw [show checkCounter index = .ok () from if_pos h]
  rfl

theorem run_getCounter (h : index < counterCount) :
    (getCounter index).run.run (serving others) turns file =
      some (if file.read (Reg.counterValue index) = gatedValue then .error (.counterPowerGated index)
        else .ok (file.read (Reg.counterValue index)), file) := by
  unfold getCounter
  rw [show checkCounter index = .ok () from if_pos h]
  show Dialog.run _ _ (if file.read _ = gatedValue then _ else _ : Attempt UInt32).run file = _
  split <;> rfl

theorem run_setReservation (h : qpu < reservationCount) (bits : UInt32) :
    (setReservation qpu bits).run.run (serving others) turns file =
      some (.ok (), file.writeMasked (reservationRegister qpu)
        (reservationMask <<< reservationShift qpu)
        ((bits &&& reservationMask) <<< reservationShift qpu)) := by
  unfold setReservation
  rw [reservationPlace_of_lt h]
  rfl

theorem run_reservation (h : qpu < reservationCount) :
    (reservation qpu).run.run (serving others) turns file =
      some (.ok ((file.read (reservationRegister qpu) >>> reservationShift qpu) &&& reservationMask),
        file) := by
  unfold reservation
  rw [reservationPlace_of_lt h]
  rfl

theorem run_hasError (flags : UInt32) :
    (hasError flags).run (serving others) turns file =
      some (decide (file.read Reg.errstat &&& flags ≠ 0),
        if file.read Reg.errstat &&& flags ≠ 0 then
          file.write Reg.errstat (file.read Reg.errstat &&& flags)
        else file) := by
  show Dialog.run _ _ (if file.read Reg.errstat &&& flags ≠ 0 then _ else _ : Access Bool) file = _
  split <;> rfl

theorem run_takeErrors :
    takeErrors.run (serving others) turns file =
      some (file.read Reg.errstat &&& knownErrors,
        if file.read Reg.errstat &&& knownErrors ≠ 0 then
          file.write Reg.errstat (file.read Reg.errstat &&& knownErrors)
        else file) := by
  show Dialog.run _ _ (if file.read Reg.errstat &&& knownErrors ≠ 0 then _ else _ : Access UInt32)
    file = _
  split <;> rfl

end Runs

end VideoCore.V3d
