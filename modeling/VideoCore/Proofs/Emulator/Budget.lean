import VideoCore.Proofs.Emulator.Kernels

/-!
# How much a kernel is given

A timeout of any length becomes a number of cycles in one line of machine arithmetic: it is cut,
narrowed to 64 bits and multiplied. The cut is where the product would stop fitting, so that nothing
wraps around (`cycleBudget_eq`), and a longer timeout never gives fewer cycles.

The length of a kernel is the distance between two addresses that stand in memory, and whoever wrote
them may have put either one first. Without their alias bits they are below 2^30, and so the distance is
exact where there is one and nothing otherwise (`handed_instructions`).
-/

namespace VideoCore.Emulator

open Hardware

/-! ## Cycles -/

theorem toNat_cyclesPerMillisecond : cyclesPerMillisecond.toNat = 250000 := rfl

theorem toNat_longestTimeoutMs : longestTimeoutMs.toNat = (2 ^ 64 - 1) / 250000 := rfl

/-- The budget is a product of numbers without bound, of the whole milliseconds up to the most that
fit. -/
theorem cycleBudget_eq (timeout : Duration) :
    cycleBudget timeout = 250000 * min timeout.milliseconds ((2 ^ 64 - 1) / 250000) := by
  have hmost : min timeout.milliseconds ((2 ^ 64 - 1) / 250000) ≤ (2 ^ 64 - 1) / 250000 :=
    Nat.min_le_right _ _
  rw [cycleBudget, toNat_longestTimeoutMs, UInt64.toNat_mul, UInt64.toNat_ofNat',
    toNat_cyclesPerMillisecond]
  generalize min timeout.milliseconds ((2 ^ 64 - 1) / 250000) = milliseconds at hmost
  rw [Nat.mod_eq_of_lt (by omega), Nat.mod_eq_of_lt (by omega), Nat.mul_comm]

/-- The longest timeout that fits its own type is cut. -/
example : cycleBudget ⟨(2 ^ 64 - 1) * 10 ^ 9 + 999999999⟩ = 18446744073709500000 := by
  decide

theorem cycleBudget_mono {timeout longer : Duration} (h : timeout ≤ longer) :
    cycleBudget timeout ≤ cycleBudget longer := by
  have hmilliseconds : timeout.milliseconds ≤ longer.milliseconds := Nat.div_le_div_right h
  rw [cycleBudget_eq, cycleBudget_eq]
  omega

/-! ## What is handed over -/

/-- In some course of a dispatch, a model of the QPUs is given an emulation. -/
def Handed (e : Emulator) (d : Dispatch) (E : Emulation) : Prop :=
  ∃ (κ : Type) (events : List (Exchange Hardware)) (r : Except Fault (Handle κ × Emulator))
    (emulated : Emulated), Performs (e.execute d) events r ∧ ⟨.emulate E, emulated⟩ ∈ events

/-- The words at an address are as many as were asked for. -/
theorem length_of_words? {t : SlotTable} {address : BusAddress} {count : Nat} {words : List UInt32}
    (h : t.words? address count = some words) : words.length = count := by
  rw [words?_eq, Option.map_eq_some_iff] at h
  obtain ⟨bytes, hbytes, rfl⟩ := h
  obtain ⟨slot, -, hread⟩ := Option.bind_eq_some_iff.mp hbytes
  obtain ⟨-, hsize, -⟩ := Block.read?_eq_some.mp hread
  have hlength : bytes.data.toList.length = 4 * count := hsize
  rw [Word.length_listOfBytes, hlength]
  omega

/-- A model is given what the control words in memory say, and nothing is handed over without them. -/
theorem handed_iff {e : Emulator} {d : Dispatch} {E : Emulation} :
    Handed e d E ↔ d.check = .ok () ∧ e.hasModel = true ∧ ∃ words,
      e.slots.words? d.controlAddress (2 * d.control.length) = some words ∧
        E = emulationOf e.slots.regions (pairs words) d.timeout := by
  constructor
  · rintro ⟨κ, events, r, emulated, h, hmem⟩
    have hcheck : d.check = .ok () := by
      rcases performs_check.mp h with ⟨fault, -, rfl, -⟩ | ⟨_, hcheck, -⟩
      · cases hmem
      · exact hcheck
    cases hwords : e.slots.words? d.controlAddress (2 * d.control.length) with
    | none =>
      obtain ⟨rfl, -⟩ := (performs_execute_unknown hcheck (.inl hwords)).mp h
      cases hmem
    | some words =>
      cases hmodel : e.hasModel with
      | false =>
        obtain ⟨rfl, -⟩ := (performs_execute_unknown hcheck (.inr hmodel)).mp h
        cases hmem
      | true =>
        obtain ⟨found, rfl, -⟩ := (performs_execute_known hcheck hwords hmodel).mp h
        cases List.mem_singleton.mp hmem
        exact ⟨hcheck, rfl, words, rfl, rfl⟩
  · rintro ⟨hcheck, hmodel, words, hwords, rfl⟩
    let emulated : Emulated := ⟨.passed, []⟩
    exact ⟨Unit, _, _, emulated,
      (performs_execute_known hcheck hwords hmodel).mpr ⟨emulated, rfl, rfl⟩,
      List.mem_singleton_self _⟩

section Handed

variable {e : Emulator} {d : Dispatch} {E : Emulation}

theorem handed_cycles (h : Handed e d E) : E.maxCycles = cycleBudget d.timeout := by
  obtain ⟨-, -, words, -, rfl⟩ := handed_iff.mp h
  rfl

/-- There is a first control pair, and the kernel reaches from its program to its uniforms. -/
theorem handed_instructions (h : Handed e d E) : ∃ uniforms program rest,
    e.slots.words? d.controlAddress (2 * d.control.length) = some (uniforms :: program :: rest) ∧
      E.instructions.toNat =
        ((uniforms &&& 0x3FFFFFFF).toNat - (program &&& 0x3FFFFFFF).toNat) / 8 := by
  obtain ⟨hcheck, -, words, hwords, rfl⟩ := handed_iff.mp h
  obtain ⟨hpositive, -⟩ := Dispatch.check_eq_ok_iff.mp hcheck
  have hlength := length_of_words? hwords
  match words, hlength with
  | uniforms :: program :: rest, _ =>
    refine ⟨uniforms, program, rest, hwords, ?_⟩
    exact (started_emulationOf e _ d.timeout).instructions ⟨uniforms, program⟩ rfl
  | [_], hlength =>
    rw [List.length_singleton] at hlength
    omega
  | [], hlength =>
    rw [List.length_nil] at hlength
    omega

/-- Addresses without alias bits are below 2^30. -/
theorem unaliased_lt (word : UInt32) : (word &&& 0x3FFFFFFF).toNat < 2 ^ 30 := physical_lt ⟨word⟩

theorem handed_instructions_le (h : Handed e d E) : E.instructions.toNat ≤ 2 ^ 30 / 8 := by
  obtain ⟨uniforms, program, -, -, hinstructions⟩ := handed_instructions h
  have huniforms := unaliased_lt uniforms
  omega

end Handed

/-! ## Nothing overflows -/

/-- What is promised of the numbers that a model of the QPUs is given. -/
structure BudgetsExact : Prop where
  /-- Control words that are found in memory, whatever they say, lead to an emulation if there is a
  model. -/
  handed : ∀ (e : Emulator) (d : Dispatch) words, d.check = .ok () → e.hasModel = true →
    e.slots.words? d.controlAddress (2 * d.control.length) = some words → ∃ E, Handed e d E
  /-- The cycles are a product of numbers without bound, for a timeout of any length. -/
  cycles : ∀ (e : Emulator) (d : Dispatch) E, Handed e d E →
    E.maxCycles = 250000 * min d.timeout.milliseconds ((2 ^ 64 - 1) / 250000)
  /-- They fit 64 bits. -/
  fits : ∀ (e : Emulator) (d : Dispatch) E, Handed e d E → E.maxCycles < 2 ^ 64
  /-- A longer timeout never gives fewer cycles. -/
  monotone : ∀ (e e' : Emulator) (d d' : Dispatch) E E', Handed e d E → Handed e' d' E' →
    d.timeout ≤ d'.timeout → E.maxCycles ≤ E'.maxCycles
  /-- The instructions are counted as whole numbers with a sign would have it: from the first program to
  the first uniforms, and none if the uniforms come first. -/
  instructions : ∀ (e : Emulator) (d : Dispatch) E, Handed e d E → ∃ uniforms program rest,
    e.slots.words? d.controlAddress (2 * d.control.length) = some (uniforms :: program :: rest) ∧
      (E.instructions.toNat : Int) =
        max 0 (((uniforms &&& 0x3FFFFFFF).toNat : Int) - (program &&& 0x3FFFFFFF).toNat) / 8
  /-- They are never more than fit the memory of the GPU. -/
  bounded : ∀ (e : Emulator) (d : Dispatch) E, Handed e d E → E.instructions.toNat ≤ 2 ^ 30 / 8

/-- Neither the cycles nor the instructions that a model of the QPUs is given wrap around. -/
theorem budgets_never_overflow : BudgetsExact where
  handed e d words hcheck hmodel hwords :=
    ⟨_, handed_iff.mpr ⟨hcheck, hmodel, words, hwords, rfl⟩⟩
  cycles e d E h := by rw [handed_cycles h, cycleBudget_eq]
  fits e d E h := by
    rw [handed_cycles h]
    exact cycleBudget_lt d.timeout
  monotone e e' d d' E E' h h' hlonger := by
    rw [handed_cycles h, handed_cycles h']
    exact cycleBudget_mono hlonger
  instructions e d E h := by
    obtain ⟨uniforms, program, rest, hwords, hinstructions⟩ := handed_instructions h
    refine ⟨uniforms, program, rest, hwords, ?_⟩
    rw [hinstructions]
    omega
  bounded _ _ _ := handed_instructions_le

end VideoCore.Emulator
