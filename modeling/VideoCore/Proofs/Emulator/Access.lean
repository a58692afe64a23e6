import VideoCore.Proofs.Emulator.Windows

/-!
# The ways into a buffer of the emulator

The memory of a live buffer is reached by the host through the buffer, by the QPUs through bus
addresses, and by the emulator itself when it fetches control pairs. Each way is brought down to the
same thing, an access to the block in the slot of the buffer. What a dispatch comes to is one lemma
for each of the ways that it can go.
-/

namespace VideoCore.Emulator

open Hardware
open Dialog (Transcript)

/-- A buffer as it was handed out for a slot that it still has. -/
def Live (e : Emulator) (buffer : Buffer) : Prop :=
  ∃ i slot, e.slots.get? i = some slot ∧ buffer = bufferAt i slot.size

/-- What an allocation gives out is live. -/
theorem live_of_allocate {e e' : Emulator} {r : AllocationRequest} {buffer : Buffer}
    (h : e.allocate r = .ok (some buffer, e')) : Live e' buffer := by
  rcases allocate_cases h with ⟨hnone, -⟩ | ⟨i, hi, -, hfits, hsome, hupdate⟩
  · cases hnone
  · obtain rfl : buffer = bufferAt i r.size := Option.some.inj hsome
    refine ⟨i, .zeroed r.size (le_largestSize hfits), ?_, rfl⟩
    rw [← find?_handleOf e' hi, hupdate, Function.update_self]

/-! ## Addresses of the QPUs -/

/-- The same address through another cache alias, of which the two top bits of a word tell. -/
def aliased (address : BusAddress) (bits : UInt32) : BusAddress :=
  ⟨bits &&& BusAddress.aliasMask ||| address.value⟩

@[simp] theorem physical_aliased (address : BusAddress) (bits : UInt32) :
    (aliased address bits).physical = address.physical := by
  show (bits &&& BusAddress.aliasMask ||| address.value) &&& ~~~BusAddress.aliasMask =
    address.value &&& ~~~BusAddress.aliasMask
  apply UInt32.toBitVec_inj.mp
  apply BitVec.eq_of_getLsbD_eq
  intro i hi
  simp only [UInt32.toBitVec_and, UInt32.toBitVec_or, UInt32.toBitVec_not, BitVec.getLsbD_and,
    BitVec.getLsbD_or, BitVec.getLsbD_not]
  -- a bit that is masked is cleared on both sides, and no other is set
  cases BusAddress.aliasMask.toBitVec.getLsbD i <;> simp

/-- A range of bytes at an address, without its alias bits, lies in the memory of a slot. -/
def Spans (i : Nat) (slot : Slot) (address : BusAddress) (length : Nat) : Prop :=
  (slotAddress i).value.toNat ≤ address.physical.toNat ∧
    address.physical.toNat + length ≤ (slotAddress i).value.toNat + roundedSize slot.size

theorem spans_iff {i : Nat} {slot : Slot} {address : BusAddress} {length : Nat}
    (hi : i < slotCount) (hfits : roundedSize slot.size ≤ window) (hlength : 0 < length) :
    Spans i slot address length ↔
      address.physical.toNat / window = i ∧
        address.physical.toNat % window + length ≤ slot.block.size := by
  rw [Spans, toNat_slotAddress hi, slot.block_size]
  unfold window at *
  omega

/-- An address behind the start of a slot leads to the slot, and as far into it. -/
theorem physical_offset {i offset : Nat} (hi : i < slotCount) (hoffset : offset < window) :
    ((slotAddress i).offset (UInt32.ofNat offset)).physical.toNat = i * window + offset := by
  rw [toNat_physical]
  show ((slotAddress i).value + UInt32.ofNat offset).toNat % 2 ^ 30 = _
  rw [UInt32.toNat_add, toNat_slotAddress hi, UInt32.toNat_ofNat']
  unfold slotCount at hi
  unfold window at *
  omega

/-- What lies in the window of a slot tells which slot that is, and how far into it. -/
theorem div_mod_window {position i offset : Nat} (h : position = i * window + offset)
    (hoffset : offset < window) : position / window = i ∧ position % window = offset := by
  unfold window at *
  omega

/-- The bytes that the QPUs load from an address. -/
def load? (memory : List Region) (address : BusAddress) (length : Nat) : Option ByteArray :=
  (resolve memory address).bind fun (region, distance) => region.block.read? distance length

/-- A load from inside a buffer reads the block of its slot. -/
theorem load?_regions {t : SlotTable} {i offset : Nat} {slot : Slot} {address : BusAddress}
    (hslot : t.get? i = some slot) (haddress : address.physical.toNat = i * window + offset)
    (hoffset : offset < slot.block.size) (hwindow : offset < window) (length : Nat) :
    load? t.regions address length = slot.block.read? offset length := by
  obtain ⟨hindex, hdistance⟩ := div_mod_window haddress hwindow
  rw [load?, SlotTable.resolve_regions, hindex, hslot, Option.bind_some, hdistance, if_pos hoffset]
  rfl

/-! ## The host -/

section Host

variable {b : Backends} {e : Emulator} {i : Nat} {slot : Slot} {offset : Nat}

theorem readBuffer?_of_slot {buffer : Buffer} {length : Nat} (hhost : buffer.host = .slot i)
    (he : b.emulator = some e) (hslot : e.slots.get? i = some slot)
    (hrange : offset + length ≤ buffer.size.toNat) :
    b.readBuffer? buffer offset length = pure (slot.block.read? offset length) := by
  unfold Backends.readBuffer?
  rw [if_neg (Nat.not_lt.mpr hrange), hhost]
  show pure _ = pure _
  rw [he, Option.bind_some, hslot, Option.bind_some]

theorem readBuffer?_slot {length : Nat} (he : b.emulator = some e)
    (hslot : e.slots.get? i = some slot) (hrange : offset + length ≤ slot.size.toNat) :
    b.readBuffer? (bufferAt i slot.size) offset length = pure (slot.block.read? offset length) :=
  readBuffer?_of_slot rfl he hslot hrange

/-- A range in a buffer is one in its block, which is longer. -/
theorem exists_write?_slot {bytes : ByteArray} (hrange : offset + bytes.size ≤ slot.size.toNat) :
    ∃ block, slot.block.write? offset bytes = some block := by
  apply Block.exists_write?
  have hbounds := roundedSize_bounds slot.size
  rw [slot.block_size]
  omega

theorem writeBuffer?_of_slot {buffer : Buffer} {bytes : ByteArray} {block : Block}
    (hhost : buffer.host = .slot i) (he : b.emulator = some e) (hslot : e.slots.get? i = some slot)
    (hrange : offset + bytes.size ≤ buffer.size.toNat)
    (hwrite : slot.block.write? offset bytes = some block) :
    b.writeBuffer? buffer offset bytes =
      pure (some { b with emulator := some { e with slots := e.slots.setBlock i slot block } }) := by
  unfold Backends.writeBuffer?
  rw [if_neg (Nat.not_lt.mpr hrange), hhost]
  show pure _ = pure _
  rw [he, Option.map_some]
  simp only [SlotTable.modify, hslot, hwrite, Option.getD_some]
  rfl

theorem writeBuffer?_slot {bytes : ByteArray} {block : Block} (he : b.emulator = some e)
    (hslot : e.slots.get? i = some slot) (hrange : offset + bytes.size ≤ slot.size.toNat)
    (hwrite : slot.block.write? offset bytes = some block) :
    b.writeBuffer? (bufferAt i slot.size) offset bytes =
      pure (some { b with emulator := some { e with slots := e.slots.setBlock i slot block } }) :=
  writeBuffer?_of_slot rfl he hslot hrange hwrite

end Host

/-! ## Words -/

theorem words?_eq (t : SlotTable) (address : BusAddress) (count : Nat) :
    t.words? address count =
      ((t.get? (address.physical.toNat / window)).bind fun slot =>
        slot.block.read? (address.physical.toNat % window) (4 * count)).map
          fun bytes => Word.listOfBytes bytes.data.toList := by
  show ((t.get? (address.physical.toNat / window)).bind fun slot =>
    (slot.block.read? (address.physical.toNat % window) (4 * count)).bind fun bytes =>
      some (Word.listOfBytes bytes.data.toList)) = _
  rw [Option.map_bind]
  congr 1
  funext slot
  rw [Function.comp_apply, Option.map_eq_bind]
  rfl

/-- Words are found where all of them lie in one live buffer. -/
theorem words?_eq_none_iff {t : SlotTable} {address : BusAddress} {count : Nat}
    (hfits : Fits t) (hcount : 0 < count) :
    t.words? address count = none ↔
      ¬ ∃ i slot, t.get? i = some slot ∧ Spans i slot address (4 * count) := by
  rw [words?_eq, Option.map_eq_none_iff, Option.bind_eq_none_iff, not_exists]
  simp only [not_exists, not_and, Block.read?_eq_none_iff]
  constructor
  · intro h i slot hslot hspans
    obtain ⟨rfl, hinside⟩ := (spans_iff (SlotTable.lt_of_get? hslot) (hfits i slot hslot)
      (by omega)).mp hspans
    exact absurd (h slot hslot) (Nat.not_lt.mpr hinside)
  · intro h slot hslot
    by_contra hinside
    refine h _ slot hslot ?_
    rw [spans_iff (SlotTable.lt_of_get? hslot) (hfits _ slot hslot) (by omega)]
    exact ⟨rfl, Nat.not_lt.mp hinside⟩

/-- Words that were written are found again. -/
theorem words?_written {t : SlotTable} {i offset : Nat} {slot : Slot} {block : Block}
    {words : List UInt32} {address : BusAddress} (hslot : t.get? i = some slot)
    (hwrite : slot.block.write? offset (Block.ofWords words) = some block)
    (haddress : address.physical.toNat = i * window + offset) (hwindow : offset < window) :
    (t.setBlock i slot block).words? address words.length = some words := by
  obtain ⟨hindex, hdistance⟩ := div_mod_window haddress hwindow
  rw [words?_eq, hindex, hdistance, SlotTable.get?_setBlock hslot, if_pos rfl, Option.bind_some,
    block_withBlock (Block.size_of_write? hwrite), ← Block.size_ofWords words,
    Block.read?_write? hwrite, Option.map_some]
  rw [Block.ofWords, Word.listOfBytes_flatMap]

/-! ## Dispatches -/

/-- What becomes of the handle of a dispatch when the model of the QPUs is through. -/
def verdict {κ : Type} : Outcome → Handle κ
  | .passed => .settled true
  | .failed => .settled false
  | .crashed => .abandoned

section Execute

variable {κ : Type} {e : Emulator} {d : Dispatch} {events : List (Exchange Hardware)}
    {r : Except Fault (Handle κ × Emulator)}

/-- With control pairs and a model, the model is run once, and everything goes by how it ends. -/
theorem performs_execute_known {words : List UInt32} (hcheck : d.check = .ok ())
    (hwords : e.slots.words? d.controlAddress (2 * d.control.length) = some words)
    (hmodel : e.hasModel = true) :
    Performs (e.execute d) events r ↔
      ∃ emulated : Emulated,
        events = [⟨.emulate (emulationOf e.slots.regions (pairs words) d.timeout), emulated⟩] ∧
        r = .ok (verdict emulated.outcome,
          { e with slots := e.slots.absorb emulated.memory }) := by
  have hruns : e.execute (κ := κ) d = do
      d.check
      let emulated ← emulate (emulationOf e.slots.regions (pairs words) d.timeout)
      return (verdict emulated.outcome, { e with slots := e.slots.absorb emulated.memory }) := by
    unfold execute
    rw [hwords]
    simp only [hmodel, Bool.not_true, Bool.false_eq_true, if_false]
    congr 1
    funext _
    congr 1
    funext emulated
    cases emulated.outcome with
    | passed | failed | crashed => rfl
  rw [hruns, hcheck, performs_check]
  constructor
  · rintro (⟨fault, hfault, -⟩ | ⟨_, -, h⟩)
    · cases hfault
    obtain ⟨emulated, rest, rfl, hrest⟩ := performs_ask.mp h
    obtain ⟨rfl, rfl⟩ := performs_pure.mp hrest
    exact ⟨emulated, rfl, rfl⟩
  · rintro ⟨emulated, rfl, rfl⟩
    refine .inr ⟨(), rfl, ?_⟩
    exact performs_ask.mpr ⟨emulated, [], rfl, performs_pure.mpr ⟨rfl, rfl⟩⟩

/-- Without one of the two, nothing is run and the dispatch fails. -/
theorem performs_execute_unknown (hcheck : d.check = .ok ())
    (h : e.slots.words? d.controlAddress (2 * d.control.length) = none ∨ e.hasModel = false) :
    Performs (e.execute d) events r ↔ events = [] ∧ r = .ok (.settled false, e) := by
  have hfails : e.execute (κ := κ) d = (do d.check; return (.settled false, e)) := by
    unfold execute
    rcases h with hwords | hmodel
    · rw [hwords]
    · rw [hmodel]
      cases e.slots.words? d.controlAddress (2 * d.control.length) with
      | none => rfl
      | some words => rfl
  rw [hfails, hcheck, performs_check]
  constructor
  · rintro (⟨fault, hfault, -⟩ | ⟨_, -, hrest⟩)
    · cases hfault
    · exact performs_pure.mp hrest
  · intro hrest
    exact .inr ⟨(), rfl, performs_pure.mpr hrest⟩

end Execute

end VideoCore.Emulator
