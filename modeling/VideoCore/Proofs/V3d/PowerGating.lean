import VideoCore.Proofs.System.Misuse
import VideoCore.Proofs.System.Readings
import VideoCore.Proofs.V3d.Accesses

/-!
# Blocks without power

A block without power shows one fixed value in every register, and keeps what is stored in them. The
value must not be taken for data. `Promise` says what that means for every operation: the counters and
the queries report it, no error flag is found, and what is set for one counter or one QPU leaves all
others as they were when the power comes back.

Counters and queries compare what they read with the fixed value. The error flags and the operations
that replace some bits of a register do not: they take the fixed value for the contents. What comes of
that is computed for every operation (`Operation.gated`), and it is decided for every operation and
every contents of the registers whether the promise is kept (`gated_promise_iff`).
-/

namespace VideoCore.V3d

open Hardware RegisterFile

/-! ## Operations -/

/-- The operations of which something is promised without power. -/
inductive Operation where
  | getCounter (index : UInt8)
  | query (q : SystemQuery)
  | takeErrors
  | hasError (flags : UInt32)
  | setCounter (index : UInt8) (event : CounterEvent)
  | disableCounter (index : UInt8)
  | setReservation (qpu : UInt8) (bits : UInt32)

namespace Operation

/-- What an operation answers. -/
abbrev Answer : Operation → Type
  | getCounter _ => Except Fault UInt32
  | query _ => Option UInt32
  | takeErrors => UInt32
  | hasError _ => Bool
  | setCounter _ _ | disableCounter _ | setReservation _ _ => Except Fault Unit

def made : (o : Operation) → Access o.Answer
  | getCounter index => (V3d.getCounter index).run
  | query q => V3d.readValue q
  | takeErrors => V3d.takeErrors
  | hasError flags => V3d.hasError flags
  | setCounter index event => (V3d.setCounter index event).run
  | disableCounter index => (V3d.disableCounter index).run
  | setReservation qpu bits => (V3d.setReservation qpu bits).run

/-- The counter that an operation sets. -/
def counter? : Operation → Option UInt8
  | setCounter index _ | disableCounter index => some index
  | _ => none

/-- The QPU that an operation makes a reservation for. -/
def qpu? : Operation → Option UInt8
  | setReservation qpu _ => some qpu
  | _ => none

/-- The stored bits that an operation may change: those of its counter, and the bit that turns counting
on as a whole, or those of its QPU's reservation. -/
def Owns (o : Operation) (offset : UInt32) (k : Nat) : Prop :=
  (∃ i < counterCount, o.counter? = some i ∧
    (CounterAt i offset k ∨ index offset = index Reg.pctre ∧ k = 31)) ∨
  ∃ qpu < reservationCount, o.qpu? = some qpu ∧
    index offset = index (reservationRegister qpu) ∧ ReservedAt qpu k

end Operation

/-! ## The promise -/

section Promise

variable (others : Surroundings Hardware RegisterFile) (turns : Nat)

/-- What is answered in a register file. -/
def answered {α : Type} (x : Access α) (file : RegisterFile) : Option α :=
  (x.run (serving others) turns file).map Prod.fst

/-- A block that has got its power back. -/
def RegisterFile.powered (file : RegisterFile) : RegisterFile := { file with powerGated := false }

/-- An operation keeps to the bits that it may change, so that all other counters and reservations
read as before once the power is back. -/
structure KeepsToItsOwn (o : Operation) (before after : RegisterFile) : Prop where
  stored : ∀ offset k, ¬ o.Owns offset k → after.bit offset k = before.bit offset k
  enabled : ∀ i < counterCount, o.counter? ≠ some i →
    after.bit Reg.pctre i.toNat = before.bit Reg.pctre i.toNat
  event : ∀ i < counterCount, o.counter? ≠ some i →
    after.get (Reg.counterEvent i) = before.get (Reg.counterEvent i)
  value : ∀ i < counterCount, o.counter? ≠ some i →
    answered others turns (getCounter i).run after.powered =
      answered others turns (getCounter i).run before.powered
  reservation : ∀ qpu < reservationCount, o.qpu? ≠ some qpu →
    answered others turns (reservation qpu).run after.powered =
      answered others turns (reservation qpu).run before.powered

/-- What is promised of an operation on a block without power. A counter that does not exist is
reported as such. -/
def Promise (before : RegisterFile) : (o : Operation) → o.Answer → RegisterFile → Prop
  | .getCounter index, answer, after =>
    answer = (if index < counterCount then .error (.counterPowerGated index)
      else .error (.counterIndexOutOfRange index 15)) ∧ after = before
  | .query _, answer, after => answer = none ∧ after = before
  | .takeErrors, answer, _ => answer = 0
  | .hasError _, answer, _ => answer = false
  | .setCounter index event, _, after =>
    KeepsToItsOwn others turns (.setCounter index event) before after
  | .disableCounter index, _, after =>
    KeepsToItsOwn others turns (.disableCounter index) before after
  | .setReservation qpu bits, _, after =>
    KeepsToItsOwn others turns (.setReservation qpu bits) before after

/-- The bits of a register that are not an operation's own are those of the fixed value by chance. -/
def Matches (o : Operation) (offset : UInt32) (file : RegisterFile) : Prop :=
  ∀ k, ¬ o.Owns offset k → file.bit offset k = gatedValue.toNat.testBit k

/-- When an operation keeps its promise. -/
def Safe (file : RegisterFile) : Operation → Prop
  | .getCounter _ | .query _ => True
  | .takeErrors => False
  | .hasError flags => gatedValue &&& flags = 0
  | .setCounter index event =>
    index < counterCount → Matches (.setCounter index event) Reg.pctre file
  | .disableCounter index => index < counterCount → Matches (.disableCounter index) Reg.pctre file
  | .setReservation qpu bits =>
    qpu < reservationCount → Matches (.setReservation qpu bits) (reservationRegister qpu) file

end Promise

/-! ## What comes of it -/

namespace Operation

/-- What an operation answers without power, and the block that it leaves. -/
def gated (file : RegisterFile) : (o : Operation) → o.Answer × RegisterFile
  | getCounter index =>
    (.error (if index < counterCount then .counterPowerGated index
      else .counterIndexOutOfRange index 15), file)
  | query _ => (none, file)
  | takeErrors =>
    (gatedValue &&& knownErrors,
      file.set Reg.errstat (file.get Reg.errstat &&& ~~~(gatedValue &&& knownErrors)))
  | hasError flags =>
    (decide (gatedValue &&& flags ≠ 0),
      if gatedValue &&& flags ≠ 0 then
        file.set Reg.errstat (file.get Reg.errstat &&& ~~~(gatedValue &&& flags))
      else file)
  | setCounter i event =>
    if i < counterCount then
      (.ok (), ((file.set Reg.pctre (gatedValue ||| countersEnabled ||| counterBit i)).set
        (Reg.counterEvent i) (event.code &&& eventMask)).set (Reg.counterValue i) 0)
    else (.error (.counterIndexOutOfRange i 15), file)
  | disableCounter i =>
    if i < counterCount then
      (.ok (), file.set Reg.pctre ((gatedValue &&& ~~~counterBit i) ||| (0 &&& counterBit i)))
    else (.error (.counterIndexOutOfRange i 15), file)
  | setReservation qpu bits =>
    let mask := reservationMask <<< reservationShift qpu
    if qpu < reservationCount then
      (.ok (), file.set (reservationRegister qpu)
        ((gatedValue &&& ~~~mask) ||| (((bits &&& reservationMask) <<< reservationShift qpu) &&& mask)))
    else (.error (.qpuIndexOutOfRange qpu 15), file)

end Operation

section Gated

variable {others : Surroundings Hardware RegisterFile} {turns : Nat} {file : RegisterFile}

theorem read_of_gated (h : file.powerGated = true) (offset : UInt32) :
    file.read offset = gatedValue := if_pos h

theorem writeMasked_of_gated (h : file.powerGated = true) {offset : UInt32} (hplain : Plain offset)
    (mask value : UInt32) :
    file.writeMasked offset mask value =
      file.set offset ((gatedValue &&& ~~~mask) ||| (value &&& mask)) := by
  rw [RegisterFile.writeMasked, read_of_gated h, write_of_plain hplain]

/-- A counter that does not exist is not looked for. -/
theorem run_of_no_counter {index : UInt8} (h : ¬ index < counterCount) {α : Type}
    (f : Unit → Attempt α) :
    (liftM (checkCounter index) >>= f : Attempt α).run.run (serving others) turns file =
      some (.error (.counterIndexOutOfRange index 15), file) :=
  (turnedAway_of_check (if_neg h) f).untouched _ _ _

theorem run_made_of_gated (h : file.powerGated = true) (o : Operation) :
    o.made.run (serving others) turns file = some (o.gated file) := by
  have hread : ∀ offset, file.read offset = gatedValue := read_of_gated h
  cases o with
  | getCounter index =>
    by_cases hindex : index < counterCount
    · refine (run_getCounter hindex).trans ?_
      rw [hread, if_pos rfl, Operation.gated, if_pos hindex]
    · refine (run_of_no_counter hindex _).trans ?_
      rw [Operation.gated, if_neg hindex]
  | query q =>
    show (readValue q).run _ _ _ = _
    rw [readValue_eq]
    show Dialog.run _ _ (if file.read Reg.ident1 = gatedValue then _ else _ : Access _) file = _
    rw [hread, if_pos rfl]
    rfl
  | takeErrors =>
    refine run_takeErrors.trans ?_
    rw [hread, if_pos (by decide), write_errstat]
    rfl
  | hasError flags =>
    refine (run_hasError flags).trans ?_
    rw [hread, write_errstat]
    rfl
  | setCounter index event =>
    by_cases hindex : index < counterCount
    · refine (run_setCounter hindex event).trans ?_
      rw [hread, write_of_plain (plain_counterValue index), write_of_plain (plain_counterEvent index),
        write_of_plain (by decide), Operation.gated, if_pos hindex]
    · refine (run_of_no_counter hindex _).trans ?_
      rw [Operation.gated, if_neg hindex]
  | disableCounter index =>
    by_cases hindex : index < counterCount
    · refine (run_disableCounter hindex).trans ?_
      rw [writeMasked_of_gated h (by decide), Operation.gated, if_pos hindex]
    · refine (run_of_no_counter hindex _).trans ?_
      rw [Operation.gated, if_neg hindex]
  | setReservation qpu bits =>
    by_cases hqpu : qpu < reservationCount
    · refine (run_setReservation hqpu bits).trans ?_
      rw [writeMasked_of_gated h (plain_reservationRegister qpu), Operation.gated, if_pos hqpu]
    · refine (turnedAway_of_check (if_neg hqpu) _).untouched _ _ _ |>.trans ?_
      rw [Operation.gated, if_neg hqpu]
      rfl

end Gated

/-! ## Bits that are not an operation's own -/

section Stored

variable {others : Surroundings Hardware RegisterFile} {turns : Nat} {before after : RegisterFile}
  {o : Operation}

theorem owns_congr {offset other : UInt32} (h : index offset = index other) (k : Nat) :
    o.Owns offset k ↔ o.Owns other k := by
  unfold Operation.Owns CounterAt
  rw [h]

theorem not_owns_counter {i : UInt8} (hi : i < counterCount) (h : o.counter? ≠ some i)
    {offset : UInt32} {k : Nat} (hat : CounterAt i offset k) : ¬ o.Owns offset k := by
  rintro (⟨j, hj, hsome, hother | ⟨hwhere, hbit⟩⟩ | ⟨qpu, hqpu, -, hwhere, -⟩)
  · exact h (counterAt_unique hi hj hat hother ▸ hsome)
  · have hless := toNat_lt_of_lt_counterCount hi
    unfold CounterAt at hat
    rw [hwhere, index_pctre, index_counterEvent, index_counterValue] at hat
    omega
  · have hless := toNat_lt_of_lt_reservationCount hqpu
    unfold CounterAt at hat
    rw [hwhere, index_reservationRegister hqpu, index_pctre, index_counterEvent,
      index_counterValue] at hat
    omega

/-- Two QPUs have no bit of the reservations in common. -/
theorem not_owns_reservation {qpu : UInt8} (hqpu : qpu < reservationCount) (h : o.qpu? ≠ some qpu)
    {k : Nat} (hk : ReservedAt qpu k) : ¬ o.Owns (reservationRegister qpu) k := by
  have hlt := toNat_lt_of_lt_reservationCount hqpu
  rintro (⟨j, -, -, hwhere⟩ | ⟨other, hother, hsome, hwhere, hreserved⟩)
  · unfold CounterAt at hwhere
    rw [index_pctre, index_counterEvent, index_counterValue, index_reservationRegister hqpu] at hwhere
    omega
  · have hless := toNat_lt_of_lt_reservationCount hother
    rw [index_reservationRegister hqpu, index_reservationRegister hother] at hwhere
    unfold ReservedAt at hk hreserved
    have hsame : qpu.toNat = other.toNat := by omega
    exact h (by rw [hsome, UInt8.toNat.inj hsame])

/-- If an operation changes no stored bit but its own, all other counters and reservations read as
before. -/
theorem keepsToItsOwn_of_stored
    (h : ∀ offset k, ¬ o.Owns offset k → after.bit offset k = before.bit offset k) :
    KeepsToItsOwn others turns o before after where
  stored := h
  enabled i hi hother := h _ _ (not_owns_counter hi hother (.inl ⟨rfl, rfl⟩))
  event i hi hother :=
    eq_of_testBit fun _ => h _ _ (not_owns_counter hi hother (.inr (.inl rfl)))
  value i hi hother := by
    have hvalue : after.powered.read (Reg.counterValue i) = before.powered.read (Reg.counterValue i) :=
      eq_of_testBit fun _ => h _ _ (not_owns_counter hi hother (.inr (.inr rfl)))
    rw [answered, answered, run_getCounter hi, run_getCounter hi, hvalue, Option.map_some,
      Option.map_some]
  reservation qpu hqpu hother := by
    -- the QPU's four bits are read, and they are stored as before
    have hbits : (after.powered.read (reservationRegister qpu) >>> reservationShift qpu) &&&
        reservationMask = (before.powered.read (reservationRegister qpu) >>> reservationShift qpu) &&&
        reservationMask := by
      refine eq_of_testBit fun k => ?_
      rw [testBit_reservation, testBit_reservation]
      by_cases hk : k < 4
      · have hreserved : ReservedAt qpu (qpu.toNat % 8 * 4 + k) := ⟨by omega, by omega⟩
        exact congrArg (decide (k < 4) && ·) (h _ _ (not_owns_reservation hqpu hother hreserved))
      · rw [decide_eq_false hk, Bool.false_and, Bool.false_and]
    rw [answered, answered, run_reservation hqpu, run_reservation hqpu, hbits, Option.map_some,
      Option.map_some]

/-- A register that is replaced by the fixed value, but for an operation's own bits, is as before where
the fixed value stood in it by chance. -/
theorem stored_set_iff {offset value : UInt32} (hoffset : Contains offset)
    (hvalue : ∀ k, ¬ o.Owns offset k → value.toNat.testBit k = gatedValue.toNat.testBit k) :
    (∀ other k, ¬ o.Owns other k → (before.set offset value).bit other k = before.bit other k) ↔
      Matches o offset before := by
  constructor
  · intro h k hk
    rw [← h offset k hk, bit, get_set_self hoffset, hvalue k hk]
  · intro h other k hk
    rw [bit, get_set hoffset]
    split
    · next hsame =>
      have howns : ¬ o.Owns offset k := fun k => hk ((owns_congr hsame _).mp k)
      rw [hvalue k howns, ← h k howns, bit, bit, get_congr hsame]
    · rfl

theorem keepsToItsOwn_iff : KeepsToItsOwn others turns o before after ↔
    ∀ offset k, ¬ o.Owns offset k → after.bit offset k = before.bit offset k :=
  ⟨KeepsToItsOwn.stored, keepsToItsOwn_of_stored⟩

/-- What is stored in a register that is an operation's own as a whole does not count. -/
theorem bit_set_of_owned {offset other : UInt32} {k : Nat} (howned : ∀ k, o.Owns offset k)
    (hk : ¬ o.Owns other k) (value : UInt32) :
    (before.set offset value).bit other k = before.bit other k := by
  have hne : index offset ≠ index other := fun hsame => hk ((owns_congr hsame k).mp (howned k))
  exact bit_set_of_ne hne value k

/-- Masked writing without power keeps the bits of the mask from the fixed value, and all others are
those of the fixed value. -/
theorem keepsToItsOwn_masked_iff {offset mask : UInt32} (hoffset : Contains offset)
    (hmask : ∀ k, ¬ o.Owns offset k → mask.toNat.testBit k = false) (value : UInt32) :
    KeepsToItsOwn others turns o before
        (before.set offset ((gatedValue &&& ~~~mask) ||| (value &&& mask))) ↔
      Matches o offset before := by
  refine keepsToItsOwn_iff.trans (stored_set_iff hoffset fun k hk => ?_)
  rw [testBit_masked, hmask k hk, if_neg Bool.false_ne_true]

end Stored

/-! ## When the promise is kept -/

section Kept

variable {others : Surroundings Hardware RegisterFile} {turns : Nat} {file : RegisterFile}

/-- An operation that is turned away changes nothing. -/
theorem keepsToItsOwn_self (o : Operation) : KeepsToItsOwn others turns o file file :=
  keepsToItsOwn_of_stored fun _ _ _ => rfl

theorem keepsToItsOwn_setCounter_iff (i : UInt8) (event : CounterEvent) :
    KeepsToItsOwn others turns (.setCounter i event) file
        (Operation.gated file (.setCounter i event)).2 ↔
      Safe file (.setCounter i event) := by
  let o : Operation := .setCounter i event
  by_cases hi : i < counterCount
  · have hevent : ∀ k, o.Owns (Reg.counterEvent i) k := fun _ =>
      .inl ⟨i, hi, rfl, .inl (.inr (.inl rfl))⟩
    have hvalue : ∀ k, o.Owns (Reg.counterValue i) k := fun _ =>
      .inl ⟨i, hi, rfl, .inl (.inr (.inr rfl))⟩
    have henabled : ∀ k, ¬ o.Owns Reg.pctre k →
        (gatedValue ||| countersEnabled ||| counterBit i).toNat.testBit k =
          gatedValue.toNat.testBit k := by
      intro k hk
      have hcounter : ¬ i.toNat = k := fun h => hk (.inl ⟨i, hi, rfl, .inl (.inl ⟨rfl, h.symm⟩)⟩)
      have hwhole : ¬ 31 = k := fun h => hk (.inl ⟨i, hi, rfl, .inr ⟨rfl, h.symm⟩⟩)
      rw [UInt32.toNat_or, UInt32.toNat_or, Nat.testBit_or, Nat.testBit_or, testBit_countersEnabled,
        testBit_counterBit hi, decide_eq_false hwhole, decide_eq_false hcounter, Bool.or_false,
        Bool.or_false]
    rw [Safe, forall_prop_of_true hi, keepsToItsOwn_iff, Operation.gated, if_pos hi,
      ← stored_set_iff (by decide) henabled]
    refine forall_congr' fun offset => forall_congr' fun k => forall_congr' fun hk => ?_
    rw [bit_set_of_owned hvalue hk, bit_set_of_owned hevent hk]
  · rw [Operation.gated, if_neg hi]
    exact iff_of_true (keepsToItsOwn_self _) fun h => absurd h hi

theorem keepsToItsOwn_disableCounter_iff (i : UInt8) :
    KeepsToItsOwn others turns (.disableCounter i) file
        (Operation.gated file (.disableCounter i)).2 ↔
      Safe file (.disableCounter i) := by
  by_cases hi : i < counterCount
  · rw [Safe, forall_prop_of_true hi, Operation.gated, if_pos hi]
    refine keepsToItsOwn_masked_iff (by decide) (fun k hk => ?_) 0
    have hne : ¬ i.toNat = k := fun h => hk (.inl ⟨i, hi, rfl, .inl (.inl ⟨rfl, h.symm⟩)⟩)
    rw [testBit_counterBit hi, decide_eq_false hne]
  · rw [Operation.gated, if_neg hi]
    exact iff_of_true (keepsToItsOwn_self _) fun h => absurd h hi

theorem keepsToItsOwn_setReservation_iff (qpu : UInt8) (bits : UInt32) :
    KeepsToItsOwn others turns (.setReservation qpu bits) file
        (Operation.gated file (.setReservation qpu bits)).2 ↔
      Safe file (.setReservation qpu bits) := by
  by_cases hqpu : qpu < reservationCount
  · rw [Safe, forall_prop_of_true hqpu, Operation.gated, if_pos hqpu]
    refine keepsToItsOwn_masked_iff (contains_reservationRegister qpu) (fun k hk => ?_) _
    have hne : ¬ ReservedAt qpu k := fun h => hk (.inr ⟨qpu, hqpu, rfl, rfl, h⟩)
    rw [testBit_reservationField, decide_eq_false hne]
  · rw [Operation.gated, if_neg hqpu]
    exact iff_of_true (keepsToItsOwn_self _) fun h => absurd h hqpu

/-- On a block without power every operation comes back, with the answer and the block that
`Operation.gated` gives, whatever is stored. Counters and queries keep their promise. The error flags
that stand in the fixed value are reported as latched, so that taking all errors never keeps it, and
what is set for one counter or one QPU keeps it only if the fixed value stands in all other bits of
the register already. -/
theorem gated_promise_iff (others : Surroundings Hardware RegisterFile) (turns : Nat)
    (file : RegisterFile) (hgated : file.powerGated = true) (o : Operation) :
    o.made.run (serving others) turns file = some (o.gated file) ∧
      (Promise others turns file o (o.gated file).1 (o.gated file).2 ↔ Safe file o) := by
  refine ⟨run_made_of_gated hgated o, ?_⟩
  cases o with
  | getCounter index => exact iff_of_true ⟨apply_ite Except.error _ _ _, rfl⟩ trivial
  | query q => exact iff_of_true ⟨rfl, rfl⟩ trivial
  | takeErrors =>
    have hlatched : gatedValue &&& knownErrors ≠ 0 := by decide
    exact iff_of_false hlatched not_false
  | hasError flags =>
    show decide (gatedValue &&& flags ≠ 0) = false ↔ gatedValue &&& flags = 0
    rw [decide_eq_false_iff_not, not_not]
  | setCounter i event => exact keepsToItsOwn_setCounter_iff i event
  | disableCounter i => exact keepsToItsOwn_disableCounter_iff i
  | setReservation qpu bits => exact keepsToItsOwn_setReservation_iff qpu bits

/-- A block without power in which nothing but the identification is stored. -/
def sampleGated : RegisterFile := { videoCoreIV with powerGated := true }

/-- A block without power in which the fixed value happens to be stored for the counters. -/
def sampleAlike : RegisterFile := sampleGated.set Reg.pctre gatedValue

/-- Where the fixed value is stored as well, setting a counter leaves all others as they were. -/
theorem gated_promise_iff_alike :
    sampleAlike.powerGated = true ∧
    (Operation.setCounter 3 .idleCycles).made.run (serving nothingElse) 0 sampleAlike =
      some ((Operation.setCounter 3 .idleCycles).gated sampleAlike) ∧
    KeepsToItsOwn nothingElse 0 (.setCounter 3 .idleCycles) sampleAlike
      ((Operation.setCounter 3 .idleCycles).gated sampleAlike).2 := by
  have hsafe : Safe sampleAlike (.setCounter 3 .idleCycles) := by
    intro _ k _
    rw [bit, sampleAlike, get_set_self (by decide)]
  have h := gated_promise_iff nothingElse 0 sampleAlike rfl (.setCounter 3 .idleCycles)
  exact ⟨rfl, h.1, h.2.mpr hsafe⟩

/-- The fixed value is taken for data: nothing is latched and no counter is on, yet ten error flags
are found, and setting one counter turns on another. -/
theorem fixed_value_taken_for_data :
    sampleGated.powerGated = true ∧ sampleGated.get Reg.errstat = 0 ∧
    answered nothingElse 0 takeErrors sampleGated = some 40675 ∧
    answered nothingElse 0 (hasError 1) sampleGated = some true ∧
    sampleGated.bit Reg.pctre 1 = false ∧
    ((Operation.setCounter 0 .idleCycles).gated sampleGated).2.bit Reg.pctre 1 = true ∧
    ¬ ∀ (file : RegisterFile) (o : Operation) (answer : o.Answer) (after : RegisterFile),
      file.powerGated = true → o.made.run (serving nothingElse) 0 file = some (answer, after) →
      Promise nothingElse 0 file o answer after := by
  have herrors : takeErrors.run (serving nothingElse) 0 sampleGated =
      some (Operation.takeErrors.gated sampleGated) := run_made_of_gated rfl .takeErrors
  refine ⟨rfl, by decide +kernel, ?_, ?_, by decide +kernel, by decide +kernel, fun h => ?_⟩
  · exact congrArg (Option.map Prod.fst) herrors
  · exact congrArg (Option.map Prod.fst) (run_made_of_gated rfl (.hasError 1))
  · have hzero : gatedValue &&& knownErrors = 0 := h sampleGated .takeErrors _ _ rfl herrors
    exact absurd hzero (by decide)

end Kept

end VideoCore.V3d
