import VideoCore.Proofs.Emulator.Views

/-!
# What a kernel is started with

The host writes one control pair for every QPU into a buffer, and dispatches the address where they
stand. A model of the QPUs is then run once and finds exactly these pairs (`Started`), wherever in the
buffer they were written and through whichever cache alias the address was given. If no buffer holds
what the address names, no model is run and the dispatch fails.
-/

namespace VideoCore.Emulator

open Hardware
open Dialog (Transcript)
open Session (Run)

/-! ## Control pairs as words -/

/-- Control pairs as the host writes them: the address of the uniforms, then that of the program. -/
def wordsOf (control : List ControlPair) : List UInt32 :=
  control.flatMap fun pair => [pair.uniforms, pair.program]

theorem length_wordsOf (control : List ControlPair) :
    (wordsOf control).length = 2 * control.length := by
  rw [wordsOf, List.length_flatMap]
  simp [Nat.mul_comm]

/-- The pairs of the words are the pairs that were written. -/
theorem pairs_wordsOf (control : List ControlPair) : pairs (wordsOf control) = control := by
  induction control with
  | nil => rfl
  | cons pair rest ih =>
    show ⟨pair.uniforms, pair.program⟩ :: pairs (wordsOf rest) = pair :: rest
    rw [ih]

/-! ## Emulations -/

/-- A model of the QPUs is given the control pairs and the live buffers of an emulator. -/
structure Started (E : Emulation) (control : List ControlPair) (e : Emulator)
    (timeout : Duration) : Prop where
  /-- One stream of uniforms for every pair, with the alias bits cleared. -/
  uniforms : E.uniforms = control.map fun pair => ⟨pair.uniforms &&& 0x3FFFFFFF⟩
  /-- All QPUs run the program of the first pair. -/
  entry : ∀ first ∈ control.head?, E.entry = ⟨first.program &&& 0x3FFFFFFF⟩
  /-- The program reaches as far as the first uniforms, in instructions of 8 bytes; it is empty if
  they stand before it. -/
  instructions : ∀ first ∈ control.head?, E.instructions.toNat =
    ((first.uniforms &&& 0x3FFFFFFF).toNat - (first.program &&& 0x3FFFFFFF).toNat) / 8
  /-- The memory is that of the live slots, each under the address of its slot. -/
  memory : ∀ region, region ∈ E.memory ↔
    ∃ i slot, e.slots.get? i = some slot ∧ region.address = slotAddress i ∧
      region.block = slot.block
  /-- No address is in it twice. -/
  ascending : E.memory.Pairwise fun one other => one.address.value.toNat < other.address.value.toNat
  budget : E.maxCycles = cycleBudget timeout

theorem started_emulationOf (e : Emulator) (control : List ControlPair) (timeout : Duration) :
    Started (emulationOf e.slots.regions control timeout) control e timeout where
  uniforms := rfl
  entry := by
    intro first hfirst
    rw [Option.mem_def] at hfirst
    rw [emulationOf, hfirst]
    rfl
  instructions := by
    intro first hfirst
    obtain ⟨rest, rfl⟩ := List.head?_eq_some_iff.mp hfirst
    show (saturatingSub (first.uniforms &&& 0x3FFFFFFF) (first.program &&& 0x3FFFFFFF) / 8).toNat = _
    rw [UInt32.toNat_div, toNat_saturatingSub]
    rfl
  memory := by
    intro region
    show region ∈ e.slots.regions ↔ _
    rw [SlotTable.mem_regions]
    constructor
    · rintro ⟨i, slot, hslot, rfl⟩
      exact ⟨i, slot, hslot, rfl, rfl⟩
    · rintro ⟨i, slot, hslot, haddress, hblock⟩
      refine ⟨i, slot, hslot, ?_⟩
      rw [SlotTable.regionAt, ← haddress, ← hblock]
  ascending := SlotTable.pairwise_regions e.slots
  budget := rfl

/-! ## Courses of a dispatch -/

/-- A dispatch runs a model of the QPUs exactly once, and its handle goes by how that ends. -/
structure RunsOnce (e : Emulator) (d : Dispatch) (E : Emulation) : Prop where
  courses : ∀ (κ : Type) (events : List (Exchange Hardware))
    (r : Except Fault (Handle κ × Emulator)),
    Performs (e.execute d) events r ↔
      ∃ emulated : Emulated, events = [⟨.emulate E, emulated⟩] ∧
        r = .ok (verdict emulated.outcome, { e with slots := e.slots.absorb emulated.memory })
  passes : ∀ (κ : Type) (emulated : Emulated) (handle : Handle κ) (e' : Emulator),
    Performs (e.execute d) [⟨.emulate E, emulated⟩] (.ok (handle, e')) →
    (handle.state = .passed ↔ emulated.outcome = .passed)

/-- A dispatch runs nothing and fails. -/
def FailsAtOnce (e : Emulator) (d : Dispatch) : Prop :=
  ∀ (κ : Type) (events : List (Exchange Hardware)) (r : Except Fault (Handle κ × Emulator)),
    Performs (e.execute d) events r ↔ events = [] ∧ r = .ok (.settled false, e)

theorem runsOnce_of_words {e : Emulator} {d : Dispatch} {words : List UInt32}
    (hcheck : d.check = .ok ())
    (hwords : e.slots.words? d.controlAddress (2 * d.control.length) = some words)
    (hmodel : e.hasModel = true) :
    RunsOnce e d (emulationOf e.slots.regions (pairs words) d.timeout) where
  courses _ _ _ := performs_execute_known hcheck hwords hmodel
  passes := by
    intro κ emulated handle e' h
    obtain ⟨emulated', hevents, hr⟩ := (performs_execute_known hcheck hwords hmodel).mp h
    cases hevents
    cases hr
    cases emulated.outcome with
    | passed => exact ⟨fun _ => rfl, fun _ => rfl⟩
    | failed | crashed => exact ⟨nofun, nofun⟩

/-- Pairs that the host wrote into a live buffer are what a dispatch of their address starts with. -/
theorem written_pairs_start {e : Emulator} (hfits : Fits e.slots) {b : Backends}
    (he : b.emulator = some e) {buffer : Buffer} (hlive : Live e buffer) {offset : Nat}
    {control : List ControlPair} (hrange : offset + 8 * control.length ≤ buffer.size.toNat) :
    ∃ e' : Emulator,
      b.writeBuffer? buffer offset (Block.ofWords (wordsOf control)) =
        pure (some { b with emulator := some e' }) ∧
      SlotTable.SameSizes e.slots e'.slots ∧
      ∀ d : Dispatch, d.check = .ok () → d.control.length = control.length →
        (∃ bits, d.controlAddress = busAddress buffer offset bits) →
        (e.hasModel = true → ∃ E, Started E control e' d.timeout ∧ RunsOnce e' d E) ∧
        (e.hasModel = false → FailsAtOnce e' d) := by
  obtain ⟨i, slot, hslot, rfl⟩ := hlive
  have hsize : (Block.ofWords (wordsOf control)).size = 8 * control.length := by
    rw [Block.size_ofWords, length_wordsOf]
    omega
  have hbytes : offset + (Block.ofWords (wordsOf control)).size ≤ slot.size.toNat := by
    rw [hsize]
    exact hrange
  obtain ⟨block, hwrite⟩ := exists_write?_slot hbytes
  refine ⟨_, writeBuffer?_slot he hslot hbytes hwrite,
    SlotTable.sameSizes_setBlock (.refl _) hslot block, ?_⟩
  rintro d hcheck hwidth ⟨bits, haddress⟩
  have hoffset : offset < roundedSize slot.size := lt_roundedSize hrange
  have hwords : (e.slots.setBlock i slot block).words? d.controlAddress (2 * d.control.length) =
      some (wordsOf control) := by
    rw [hwidth, ← length_wordsOf]
    refine words?_written hslot hwrite ?_ (Nat.lt_of_lt_of_le hoffset (hfits i slot hslot))
    rw [haddress]
    exact physical_busAddress hslot hfits hoffset slot.size bits
  constructor
  · intro hmodel
    refine ⟨_, ?_, runsOnce_of_words hcheck hwords hmodel⟩
    rw [pairs_wordsOf]
    exact started_emulationOf _ control d.timeout
  · intro hmodel κ events r
    exact performs_execute_unknown hcheck (.inr hmodel)

/-- A dispatch whose control pairs do not lie in one live slot fails. -/
theorem failsAtOnce_of_not_spans {e : Emulator} (hfits : Fits e.slots) {d : Dispatch}
    (hcheck : d.check = .ok ())
    (h : ¬ ∃ i slot, e.slots.get? i = some slot ∧
      Spans i slot d.controlAddress (8 * d.control.length)) : FailsAtOnce e d := by
  obtain ⟨hpos, -⟩ := Dispatch.check_eq_ok_iff.mp hcheck
  have hbytes : 8 * d.control.length = 4 * (2 * d.control.length) := by omega
  rw [hbytes] at h
  intro κ events r
  refine performs_execute_unknown hcheck (.inl ?_)
  exact (words?_eq_none_iff hfits (by omega)).mpr h

/-- Wherever a session gets to, control pairs that the host wrote reach the model of the QPUs as they
were written, and what is not in one live buffer is not executed. -/
theorem control_pairs_arrive {start s : Session} {events : List (Exchange Hardware)} {e : Emulator}
    (hstart : Vacant start) (run : Run (fun _ _ => True) start events s)
    (he : s.system.backends.emulator = some e) :
    (∀ (buffer : Buffer) (offset : Nat) (control : List ControlPair), Live e buffer →
      offset + 8 * control.length ≤ buffer.size.toNat →
      ∃ e' : Emulator,
        s.system.backends.writeBuffer? buffer offset (Block.ofWords (wordsOf control)) =
          pure (some { s.system.backends with emulator := some e' }) ∧
        SlotTable.SameSizes e.slots e'.slots ∧
        ∀ d : Dispatch, d.check = .ok () → d.control.length = control.length →
          (∃ bits, d.controlAddress = busAddress buffer offset bits) →
          (e.hasModel = true → ∃ E, Started E control e' d.timeout ∧ RunsOnce e' d E) ∧
          (e.hasModel = false → FailsAtOnce e' d)) ∧
    ∀ d : Dispatch, d.check = .ok () →
      (¬ ∃ i slot, e.slots.get? i = some slot ∧
        Spans i slot d.controlAddress (8 * d.control.length)) → FailsAtOnce e d := by
  have hfits : Fits e.slots := fits_of_run hstart run he
  constructor
  · intro buffer offset control hlive hrange
    exact written_pairs_start hfits he hlive hrange
  · intro d hcheck h
    exact failsAtOnce_of_not_spans hfits hcheck h

/-- A session whose emulator has a model of the QPUs, before and after an allocation of 64 bytes. -/
def sampleModel : Session := sampleEmpty.withBackends { emulator := some { hasModel := true } }

def sampleLoaded : Session :=
  { sampleEmpty.withBackends { emulator := some { slots := sampleSlots, hasModel := true } } with
    buffers := ⟨[("a", bufferAt 0 64)]⟩ }

set_option maxRecDepth 8000 in
/-- A pair at offset 9, dispatched through the highest alias. -/
theorem control_pairs_arrive_sample :
    ∃ e' : Emulator, ∃ E, Started E [⟨0x40000018, 0xC0000008⟩] e' .zero ∧
      RunsOnce e' { control := [⟨0, 0⟩], controlAddress := ⟨0xC0000009⟩ } E := by
  have hstart : Vacant sampleModel := by
    intro e he
    cases he
    rfl
  have hallocate : Transcript (sampleModel.perform (.allocate "a" (some .emulator) { size := 64 }))
      [] sampleLoaded := .done _
  have hrun : Run (fun _ _ => True) sampleModel ([] ++ []) sampleLoaded :=
    .step .start trivial hallocate
  have hgiven : ({ hasModel := true } : Emulator).allocate { size := 64 } =
      .ok (some (bufferAt 0 64), { slots := sampleSlots, hasModel := true }) := rfl
  have hlive := live_of_allocate hgiven
  obtain ⟨hwritten, -⟩ := control_pairs_arrive hstart hrun rfl
  obtain ⟨e', -, -, hdispatch⟩ :=
    hwritten (bufferAt 0 64) 9 [⟨0x40000018, 0xC0000008⟩] hlive (by decide)
  obtain ⟨hmodel, -⟩ := hdispatch { control := [⟨0, 0⟩], controlAddress := ⟨0xC0000009⟩ } rfl rfl
    ⟨0xC0000000, by decide⟩
  exact ⟨e', hmodel rfl⟩

end VideoCore.Emulator
