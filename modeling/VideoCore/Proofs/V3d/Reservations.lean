import VideoCore.Proofs.System.Misuse
import VideoCore.Proofs.V3d.Accesses

/-!
# The reservations as a map

The reservations of sixteen QPUs are packed into two registers, four bits for each, and are set by
reading a register, replacing four of its bits, and writing it back. Here it is shown that they are a
map all the same: after any calls, in any order and for any QPUs, what a QPU is reserved against are the
low four bits of what was last set for it, and the rest of the block is as it was.
-/

namespace VideoCore.V3d

open Hardware RegisterFile

/-! ## Calls -/

/-- A call that sets the reservation of a QPU, with any index and any bits. -/
structure ReservationCall where
  qpu : UInt8
  bits : UInt32

/-- The calls one after another, and what each of them answers. -/
def setReservations (calls : List ReservationCall) : Access (List (Except Fault Unit)) :=
  calls.mapM fun c => (setReservation c.qpu c.bits).run

/-- There are sixteen QPUs. -/
def ReservationCall.reply (c : ReservationCall) : Except Fault Unit :=
  if c.qpu.toNat < 16 then .ok () else .error (.qpuIndexOutOfRange c.qpu 15)

/-- What was set last for a QPU. -/
def lastSet? (calls : List ReservationCall) (qpu : UInt8) : Option UInt32 :=
  (calls.filter (·.qpu = qpu)).getLast?.map (·.bits &&& reservationMask)

/-- The four bits that are stored for a QPU. -/
def RegisterFile.reserved (file : RegisterFile) (qpu : UInt8) : UInt32 :=
  (file.get (reservationRegister qpu) >>> reservationShift qpu) &&& reservationMask

/-- A block after a QPU was reserved. -/
def RegisterFile.reserve (file : RegisterFile) (c : ReservationCall) : RegisterFile :=
  let mask := reservationMask <<< reservationShift c.qpu
  let value := (c.bits &&& reservationMask) <<< reservationShift c.qpu
  file.set (reservationRegister c.qpu)
    ((file.get (reservationRegister c.qpu) &&& ~~~mask) ||| (value &&& mask))

/-! ## One reservation -/

section Reserve

variable {c : ReservationCall} {file : RegisterFile}

theorem testBit_low (bits : UInt32) (k : Nat) :
    (bits &&& reservationMask).toNat.testBit k = (decide (k < 4) && bits.toNat.testBit k) := by
  rw [UInt32.toNat_and, Nat.testBit_and, testBit_reservationMask, Bool.and_comm]

/-- A reservation replaces the QPU's own bits, and no other. -/
theorem bit_reserve (offset : UInt32) (k : Nat) :
    (file.reserve c).bit offset k =
      if index (reservationRegister c.qpu) = index offset ∧ ReservedAt c.qpu k then
        c.bits.toNat.testBit (k - c.qpu.toNat % 8 * 4)
      else file.bit offset k := by
  have hshift := toNat_reservationShift c.qpu
  have hfits : (c.bits &&& reservationMask).toNat < 2 ^ 4 := by
    rw [UInt32.toNat_and]
    exact Nat.lt_of_le_of_lt Nat.and_le_right (by decide)
  rw [bit, reserve, get_set (contains_reservationRegister c.qpu)]
  by_cases hsame : index (reservationRegister c.qpu) = index offset
  · rw [if_pos hsame, testBit_masked, testBit_reservationField]
    by_cases hown : ReservedAt c.qpu k
    · have hlow : k - c.qpu.toNat % 8 * 4 < 4 := by
        have := hown.2
        omega
      rw [if_pos (decide_eq_true hown), if_pos ⟨hsame, hown⟩,
        testBit_shifted 4 hfits (by omega) (by omega), hshift, testBit_low, decide_eq_true hown.1,
        decide_eq_true hlow, Bool.true_and, Bool.true_and]
    · rw [if_neg (fun h => hown (of_decide_eq_true h)), if_neg (fun h => hown h.2), get_congr hsame,
        bit]
  · rw [if_neg hsame, if_neg (fun h => hsame h.1), bit]

theorem testBit_reserved (qpu : UInt8) (k : Nat) :
    (file.reserved qpu).toNat.testBit k =
      (decide (k < 4) && file.bit (reservationRegister qpu) (qpu.toNat % 8 * 4 + k)) :=
  testBit_reservation _ qpu k

/-- The reservation of one QPU is set, and those of all others are as before. -/
theorem reserved_reserve (h : c.qpu.toNat < 16) {qpu : UInt8} (hqpu : qpu.toNat < 16) :
    (file.reserve c).reserved qpu =
      if c.qpu = qpu then c.bits &&& reservationMask else file.reserved qpu := by
  apply eq_of_testBit
  intro k
  rw [testBit_reserved, bit_reserve, index_reservationRegister h, index_reservationRegister hqpu]
  by_cases hk : k < 4
  · by_cases hsame : c.qpu = qpu
    · have hown : ReservedAt c.qpu (qpu.toNat % 8 * 4 + k) := by
        rw [hsame]
        exact ⟨by omega, by omega⟩
      rw [if_pos hsame, if_pos ⟨by rw [hsame], hown⟩, hsame, Nat.add_sub_cancel_left, testBit_low]
    · -- two QPUs differ in the register or in the place in it
      have hdistinct : c.qpu.toNat ≠ qpu.toNat := fun heq => hsame (UInt8.toNat.inj heq)
      have hother : ¬ (260 + c.qpu.toNat / 8 = 260 + qpu.toNat / 8 ∧
          ReservedAt c.qpu (qpu.toNat % 8 * 4 + k)) := by
        unfold ReservedAt
        omega
      rw [if_neg hsame, if_neg hother, testBit_reserved]
  · rw [decide_eq_false hk, Bool.false_and]
    split
    · rw [testBit_low, decide_eq_false hk, Bool.false_and]
    · rw [testBit_reserved, decide_eq_false hk, Bool.false_and]

/-- Nothing is stored but in the two registers of reservations. -/
theorem get_reserve {offset : UInt32} (hlow : index offset ≠ index Reg.sqrsv0)
    (hhigh : index offset ≠ index Reg.sqrsv1) : (file.reserve c).get offset = file.get offset := by
  apply get_set_of_ne
  obtain h | h := reservationRegister_cases c.qpu
  · rw [h]
    exact hlow.symm
  · rw [h]
    exact hhigh.symm

end Reserve

/-! ## Many reservations -/

section Reservations

variable {others : Surroundings Hardware RegisterFile} {turns : Nat} {file : RegisterFile}

/-- What a call leaves: the reservation if there is such a QPU, and else the block as it was. -/
def ReservationCall.leaves (c : ReservationCall) (file : RegisterFile) : RegisterFile :=
  if c.qpu.toNat < 16 then file.reserve c else file

theorem run_call (hpower : file.powerGated = false) (c : ReservationCall) :
    (setReservation c.qpu c.bits).run.run (serving others) turns file =
      some (c.reply, c.leaves file) := by
  unfold ReservationCall.reply ReservationCall.leaves
  by_cases hqpu : c.qpu.toNat < 16
  · rw [if_pos hqpu, if_pos hqpu, run_setReservation hqpu, RegisterFile.writeMasked,
      write_of_plain (plain_reservationRegister c.qpu), read_of_powered hpower]
    rfl
  · have hplace := reservationPlace_of_le (Nat.le_of_not_lt hqpu)
    rw [if_neg hqpu, if_neg hqpu]
    exact (turnedAway_of_check hplace _).untouched _ _ _

theorem settings_leaves (c : ReservationCall) : (c.leaves file).settings = file.settings := by
  unfold ReservationCall.leaves
  split <;> rfl

theorem reserved_leaves (c : ReservationCall) {qpu : UInt8} (hqpu : qpu.toNat < 16) :
    (c.leaves file).reserved qpu =
      if c.qpu = qpu then c.bits &&& reservationMask else file.reserved qpu := by
  unfold ReservationCall.leaves
  by_cases hc : c.qpu.toNat < 16
  · rw [if_pos hc, reserved_reserve hc hqpu]
  · have hne : c.qpu ≠ qpu := by
      rintro rfl
      exact hc hqpu
    rw [if_neg hc, if_neg hne]

theorem get_leaves (c : ReservationCall) {offset : UInt32} (hlow : index offset ≠ index Reg.sqrsv0)
    (hhigh : index offset ≠ index Reg.sqrsv1) : (c.leaves file).get offset = file.get offset := by
  unfold ReservationCall.leaves
  split
  · exact get_reserve hlow hhigh
  · rfl

/-- What is set first stands as long as nothing else is set. -/
theorem getD_lastSet?_cons (c : ReservationCall) (calls : List ReservationCall) (qpu : UInt8)
    (initial : UInt32) :
    (lastSet? (c :: calls) qpu).getD initial =
      (lastSet? calls qpu).getD (if c.qpu = qpu then c.bits &&& reservationMask else initial) := by
  unfold lastSet?
  by_cases hqpu : c.qpu = qpu
  · rw [List.filter_cons, if_pos (decide_eq_true hqpu), List.getLast?_cons, if_pos hqpu]
    cases (calls.filter (·.qpu = qpu)).getLast? <;> rfl
  · rw [List.filter_cons, if_neg (fun h => hqpu (of_decide_eq_true h)), if_neg hqpu]

/-- What calls leave of a block. -/
structure Reserves (calls : List ReservationCall) (before after : RegisterFile) : Prop where
  reserved : ∀ qpu : UInt8, qpu.toNat < 16 →
    after.reserved qpu = (lastSet? calls qpu).getD (before.reserved qpu)
  stored : ∀ offset, index offset ≠ index Reg.sqrsv0 → index offset ≠ index Reg.sqrsv1 →
    after.get offset = before.get offset
  settings : after.settings = before.settings

theorem Reserves.cons {c : ReservationCall} {calls : List ReservationCall} {after : RegisterFile}
    (h : Reserves calls (c.leaves file) after) : Reserves (c :: calls) file after where
  reserved qpu hqpu := by rw [h.reserved qpu hqpu, reserved_leaves c hqpu, getD_lastSet?_cons]
  stored offset hlow hhigh := (h.stored offset hlow hhigh).trans (get_leaves c hlow hhigh)
  settings := h.settings.trans (settings_leaves c)

theorem run_setReservations (others : Surroundings Hardware RegisterFile) (turns : Nat)
    (hpower : file.powerGated = false) (calls : List ReservationCall) :
    ∃ after, (setReservations calls).run (serving others) turns file =
        some (calls.map ReservationCall.reply, after) ∧ Reserves calls file after := by
  induction calls generalizing file with
  | nil => exact ⟨file, rfl, fun _ _ => rfl, fun _ _ _ => rfl, rfl⟩
  | cons c calls ih =>
    have hleaves := (powerGated_of_settings (settings_leaves c)).trans hpower
    obtain ⟨after, hrun, hafter⟩ := ih hleaves
    refine ⟨after, ?_, hafter.cons⟩
    rw [setReservations, List.mapM_cons, Dialog.bind_eq, Dialog.run_bind, run_call hpower]
    show ((setReservations calls).bind _).run _ _ _ = _
    rw [Dialog.run_bind, hrun]
    rfl

/-- Reservations are a map from sixteen QPUs to four bits. Whatever a block with power holds, and
whatever is called, every call comes back. A QPU is then reserved against the low four bits that were
last set for it, or else those that stood there. Calls for a QPU that does not exist fail, and change
nothing. -/
theorem reservations_are_a_map (others : Surroundings Hardware RegisterFile) (turns : Nat)
    (file : RegisterFile) (hpower : file.powerGated = false) (calls : List ReservationCall) :
    ∃ after, (setReservations calls).run (serving others) turns file =
        some (calls.map ReservationCall.reply, after) ∧
      (∀ qpu : UInt8, qpu.toNat < 16 → (reservation qpu).run.run (serving others) turns after =
        some (.ok ((lastSet? calls qpu).getD (file.reserved qpu)), after)) ∧
      (∀ qpu : UInt8, 16 ≤ qpu.toNat →
        (reservation qpu).run.run (serving others) turns after =
          some (.error (.qpuIndexOutOfRange qpu 15), after) ∧
        ∀ bits, (setReservation qpu bits).run.run (serving others) turns after =
          some (.error (.qpuIndexOutOfRange qpu 15), after)) ∧
      (∀ offset, index offset ≠ index Reg.sqrsv0 → index offset ≠ index Reg.sqrsv1 →
        after.get offset = file.get offset) ∧
      after.settings = file.settings := by
  obtain ⟨after, hrun, hafter⟩ := run_setReservations others turns hpower calls
  have hpowered := (powerGated_of_settings hafter.settings).trans hpower
  refine ⟨after, hrun, ?_, ?_, hafter.stored, hafter.settings⟩
  · intro qpu hqpu
    rw [run_reservation hqpu, read_of_powered hpowered, ← hafter.reserved qpu hqpu]
    rfl
  · intro qpu hqpu
    have hplace := reservationPlace_of_le hqpu
    exact ⟨(turnedAway_of_check hplace _).untouched _ _ _,
      fun bits => (turnedAway_of_check hplace _).untouched _ _ _⟩

/-- The last QPU of the first register, the first one of the second, one that does not exist, and the
first again. -/
def sampleReservations : List ReservationCall := [⟨7, 0x1F⟩, ⟨8, 3⟩, ⟨16, 1⟩, ⟨7, 2⟩]

/-- In a block that has just been built. -/
theorem reservations_are_a_map_sample :
    videoCoreIV.powerGated = false ∧
    ∃ after, (setReservations sampleReservations).run (serving nothingElse) 0 videoCoreIV =
        some ([.ok (), .ok (), .error (.qpuIndexOutOfRange 16 15), .ok ()], after) ∧
      (reservation 7).run.run (serving nothingElse) 0 after = some (.ok 2, after) ∧
      (reservation 8).run.run (serving nothingElse) 0 after = some (.ok 3, after) ∧
      (reservation 15).run.run (serving nothingElse) 0 after = some (.ok 0, after) := by
  obtain ⟨after, hrun, hreserved, -⟩ :=
    reservations_are_a_map nothingElse 0 videoCoreIV rfl sampleReservations
  have hblank : videoCoreIV.reserved 15 = 0 := by decide +kernel
  refine ⟨rfl, after, hrun, hreserved 7 (by decide), hreserved 8 (by decide), ?_⟩
  rw [hreserved 15 (by decide), hblank]
  rfl

end Reservations

end VideoCore.V3d
