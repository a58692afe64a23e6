import VideoCore.Proofs.Memory.Block
import VideoCore.Proofs.System.Grants

/-!
# Cells of the host's memory

To the host a buffer is a row of bytes, wherever its memory is: in a mapping, or in a slot of the
emulator. Every byte that the host can reach has a `Cell`, so that buffers that share memory share
cells, and what the cells hold is all that an access depends on and all that it changes.

Mapped memory is outside of the program. It is taken to keep what is stored in it (`Kept`), which is what
memory does that nobody else writes to.
-/

namespace VideoCore

open Hardware
open Dialog (Transcript)
open Emulator (Slot)

/-! ## Memory that keeps what is stored -/

/-- The memory of this process: the byte at every address. -/
abbrev HostBytes := Nat → UInt8

namespace HostBytes

/-- The bytes from an address on. -/
def range (m : HostBytes) (address length : Nat) : ByteArray :=
  ⟨Array.ofFn fun i : Fin length => m (address + i)⟩

/-- The memory with other bytes from an address on. -/
def store (m : HostBytes) (address : Nat) (bytes : ByteArray) : HostBytes := fun a =>
  if address ≤ a then (bytes.data[a - address]?).getD (m a) else m a

/-- The memory after an exchange. -/
def after (m : HostBytes) : Exchange Hardware → HostBytes
  | ⟨.store base offset bytes, _⟩ => m.store (base.value + offset) bytes
  | _ => m

/-- The reply to a load is what is there. -/
def Tells (m : HostBytes) : Exchange Hardware → Prop
  | ⟨.load base offset length, bytes⟩ => bytes = m.range (base.value + offset) length
  | _ => True

theorem size_range (m : HostBytes) (address length : Nat) :
    (m.range address length).size = length :=
  Array.size_ofFn

theorem data_range (m : HostBytes) {address length i : Nat} (hi : i < length) :
    (m.range address length).data[i]? = some (m (address + i)) := by
  rw [range, Array.getElem?_ofFn, dif_pos hi]

theorem store_inside (m : HostBytes) (address : Nat) (bytes : ByteArray) {i : Nat}
    (hi : i < bytes.size) : some (m.store address bytes (address + i)) = bytes.data[i]? := by
  have hsome : bytes.data[i]? = some bytes.data[i] := Array.getElem?_eq_getElem hi
  rw [store, if_pos (Nat.le_add_right ..), Nat.add_sub_cancel_left, hsome, Option.getD_some]

theorem store_outside (m : HostBytes) (address : Nat) (bytes : ByteArray) {a : Nat}
    (ha : ∀ i < bytes.size, a ≠ address + i) : m.store address bytes a = m a := by
  unfold store
  split
  · next hle =>
    have hbeyond : bytes.size ≤ a - address := by
      by_contra hlt
      exact ha (a - address) (by omega) (by omega)
    rw [Array.getElem?_eq_none hbeyond, Option.getD_none]
  · rfl

end HostBytes

/-- Some exchanges with memory that keeps what is stored in it, from one state of it to another. -/
def Kept : HostBytes → List (Exchange Hardware) → HostBytes → Prop
  | m, [], m' => m' = m
  | m, e :: rest, m' => m.Tells e ∧ Kept (m.after e) rest m'

theorem Kept.split {m m' : HostBytes} {first rest : List (Exchange Hardware)}
    (h : Kept m (first ++ rest) m') : ∃ u, Kept m first u ∧ Kept u rest m' := by
  induction first generalizing m with
  | nil => exact ⟨m, rfl, h⟩
  | cons e first ih =>
    obtain ⟨u, hfirst, hrest⟩ := ih h.2
    exact ⟨u, ⟨h.1, hfirst⟩, hrest⟩

theorem Kept.append {m u m' : HostBytes} {first rest : List (Exchange Hardware)}
    (h : Kept m first u) (k : Kept u rest m') : Kept m (first ++ rest) m' := by
  induction first generalizing m with
  | nil =>
    obtain rfl : u = m := h
    exact k
  | cons e first ih => exact ⟨h.1, ih h.2⟩

/-- What asks for nothing but memory of a buffer comes to an end there. -/
theorem exists_kept {α : Type} {buffer : Buffer} {d : Access α} (h : d.Plain (Inside buffer))
    (m : HostBytes) : ∃ events a m', Transcript d events a ∧ Kept m events m' := by
  induction d generalizing m with
  | done value => exact ⟨[], value, m, .done value, rfl⟩
  | ask q next ih =>
    obtain ⟨hinside, hnext⟩ := h
    cases q with
    | load base offset length =>
      obtain ⟨events, a, m', ht, hkept⟩ := ih (m.range (base.value + offset) length) (hnext _) m
      exact ⟨_, a, m', .ask _ ht, rfl, hkept⟩
    | store base offset bytes =>
      obtain ⟨events, a, m', ht, hkept⟩ := ih ⟨⟩ (hnext _) (m.store (base.value + offset) bytes)
      exact ⟨_, a, m', .ask _ ht, trivial, hkept⟩
    | _ => exact hinside.elim
  | repeatUntil => exact h.elim

/-! ## Cells -/

/-- Where a byte lies that the host can reach. -/
inductive Cell where
  | memory (address : Nat)
  | slot (index offset : Nat)
  deriving DecidableEq, Repr

/-- The cell of a byte of a buffer. -/
def Buffer.cell (buffer : Buffer) (i : Nat) : Cell :=
  match buffer.host with
  | .mapped base | .borrowed base => .memory (base.value + i)
  | .slot index => .slot index i

/-- The backends, and the memory of the process that they run in. -/
structure HostState where
  backends : Backends
  memory : HostBytes

/-- What the cells hold. -/
def HostState.contents (s : HostState) : Cell → Option UInt8
  | .memory address => some (s.memory address)
  | .slot index offset =>
    (s.backends.emulator.bind fun e => e.slots.get? index).bind fun slot =>
      slot.block.byteAt? offset

/-- The memory of a buffer is there, which only that of a slot may not be. -/
def Present (b : Backends) (buffer : Buffer) : Prop :=
  ∀ i, buffer.host = .slot i → ∃ e slot, b.emulator = some e ∧ e.slots.get? i = some slot ∧
    buffer.size.toNat ≤ slot.block.size

/-- It is there for every buffer whose accesses stay inside. -/
theorem StaysInside.present {b : Backends} {buffer : Buffer} (h : StaysInside b buffer) :
    Present b buffer := by
  intro i hhost
  obtain ⟨e, slot, he, hslot, hsize, -⟩ := h.slot i hhost
  exact ⟨e, slot, he, hslot, by omega⟩

/-- Some bytes of a buffer were overwritten, and nothing else was changed. -/
structure Overwritten (before after : Cell → Option UInt8) (buffer : Buffer) (offset length : Nat)
    (byte? : Nat → Option UInt8) : Prop where
  inside : ∀ k < length, after (buffer.cell (offset + k)) = byte? k
  outside : ∀ cell, (∀ k < length, cell ≠ buffer.cell (offset + k)) → after cell = before cell

/-! ## Ranges of bytes -/

section Ranges

variable {b : Backends} {m m' : HostBytes} {buffer : Buffer} {offset length : Nat}
  {bytes : ByteArray} {events : List (Exchange Hardware)}

/-- A range of a buffer is read as its cells have it. -/
theorem readBuffer?_contents (hpresent : Present b buffer)
    (hrange : offset + length ≤ buffer.size.toNat) {result : Option ByteArray}
    (t : Transcript (b.readBuffer? buffer offset length) events result) (k : Kept m events m') :
    m' = m ∧ ∃ bytes, result = some bytes ∧ bytes.size = length ∧
      ∀ i < length, bytes.data[i]? = HostState.contents ⟨b, m⟩ (buffer.cell (offset + i)) := by
  have hloaded : ∀ base : HostAddress, (∀ i, buffer.cell i = .memory (base.value + i)) →
      Transcript (do return some (← load base offset length)) events result →
      m' = m ∧ ∃ bytes, result = some bytes ∧ bytes.size = length ∧
        ∀ i < length, bytes.data[i]? = HostState.contents ⟨b, m⟩ (buffer.cell (offset + i)) := by
    intro base hcell t
    obtain ⟨bytes, hload, rfl⟩ := Dialog.transcript_map.mp t
    rw [Trial.transcript_request.mp hload] at k
    obtain ⟨rfl, rfl⟩ := k
    refine ⟨rfl, _, rfl, HostBytes.size_range .., ?_⟩
    intro i hi
    rw [HostBytes.data_range _ hi, hcell, Nat.add_assoc]
    rfl
  cases hhost : buffer.host with
  | mapped base | borrowed base =>
    refine hloaded base (fun i => by rw [Buffer.cell, hhost]) ?_
    unfold Backends.readBuffer? at t
    rwa [if_neg (Nat.not_lt.mpr hrange), hhost] at t
  | slot index =>
    obtain ⟨e, slot, he, hslot, hsize⟩ := hpresent index hhost
    rw [Emulator.readBuffer?_of_slot hhost he hslot hrange] at t
    obtain ⟨rfl, rfl⟩ := Dialog.transcript_done.mp t
    obtain ⟨bytes, hread⟩ : ∃ bytes, slot.block.read? offset length = some bytes :=
      ⟨_, if_pos (hrange.trans hsize)⟩
    obtain ⟨-, hlength, hbytes⟩ := Block.read?_eq_some.mp hread
    refine ⟨k, bytes, hread, hlength, ?_⟩
    intro i hi
    rw [hbytes i hi, Buffer.cell, hhost]
    show _ = (b.emulator.bind fun e => e.slots.get? index).bind _
    rw [he, Option.bind_some, hslot, Option.bind_some]

/-- Bytes that are stored in memory overwrite a range of it, and leave the slots alone. -/
theorem overwritten_memory {base : HostAddress}
    (hcell : ∀ i, buffer.cell i = .memory (base.value + i)) :
    Overwritten (HostState.contents ⟨b, m⟩)
      (HostState.contents ⟨b, m.store (base.value + offset) bytes⟩) buffer offset bytes.size
      fun k => bytes.data[k]? where
  inside k hk := by
    rw [hcell, ← Nat.add_assoc]
    exact HostBytes.store_inside m _ bytes hk
  outside cell hcells := by
    cases cell with
    | slot => rfl
    | memory a =>
      refine congrArg some (HostBytes.store_outside m _ bytes ?_)
      intro k hk ha
      apply hcells k hk
      rw [hcell, ha, Nat.add_assoc]

/-- Bytes that are written to a slot overwrite a range of it, and leave all others alone. -/
theorem overwritten_slot {e : Emulator} {index : Nat} {slot : Slot} {block : Block}
    (he : b.emulator = some e) (hslot : e.slots.get? index = some slot)
    (hhost : buffer.host = .slot index) (hwrite : slot.block.write? offset bytes = some block) :
    Overwritten (HostState.contents ⟨b, m⟩) (HostState.contents
        ⟨{ b with emulator := some { e with slots := e.slots.setBlock index slot block } }, m⟩)
      buffer offset bytes.size fun k => bytes.data[k]? := by
  have hblock : (slot.withBlock block).block = block :=
    Emulator.block_withBlock (Block.size_of_write? hwrite)
  have hafter : ∀ j i, HostState.contents
      ⟨{ b with emulator := some { e with slots := e.slots.setBlock index slot block } }, m⟩
        (.slot j i) =
      if j = index then block.byteAt? i else HostState.contents ⟨b, m⟩ (.slot j i) := by
    intro j i
    show ((e.slots.setBlock index slot block).get? j).bind _ = _
    rw [Emulator.SlotTable.get?_setBlock hslot]
    split
    · rw [Option.bind_some, hblock]
    · show _ = (b.emulator.bind fun e => e.slots.get? j).bind _
      rw [he, Option.bind_some]
  have hcell : ∀ i, buffer.cell i = .slot index i := fun i => by rw [Buffer.cell, hhost]
  constructor
  case inside =>
    intro k hk
    rw [hcell, hafter, if_pos rfl, Block.byteAt?_write? hwrite, if_pos (by omega),
      Nat.add_sub_cancel_left]
  case outside =>
    intro cell hcells
    cases cell with
    | memory => rfl
    | slot j i =>
      rw [hafter]
      split
      · next hj =>
        subst hj
        have houtside : ¬ (offset ≤ i ∧ i < offset + bytes.size) := by
          rintro ⟨hle, hlt⟩
          refine hcells (i - offset) (by omega) ?_
          rw [hcell, Nat.add_sub_cancel' hle]
        rw [Block.byteAt?_write? hwrite, if_neg houtside]
        show _ = (b.emulator.bind fun e => e.slots.get? j).bind _
        rw [he, Option.bind_some, hslot, Option.bind_some]
      · rfl

/-- The memory of a slot stays there, whatever is written to another or to it. -/
theorem Present.setBlock {e : Emulator} {index : Nat} {slot : Slot} {block : Block} {other : Buffer}
    (he : b.emulator = some e) (hslot : e.slots.get? index = some slot)
    (hwrite : slot.block.write? offset bytes = some block) (h : Present b other) :
    Present { b with emulator := some { e with slots := e.slots.setBlock index slot block } } other := by
  intro i hhost
  obtain ⟨e', old, he', hold, hsize⟩ := h i hhost
  obtain rfl : e' = e := Option.some.inj (he'.symm.trans he)
  by_cases hi : i = index
  · subst hi
    obtain rfl : old = slot := Option.some.inj (hold.symm.trans hslot)
    refine ⟨_, old.withBlock block, rfl, ?_, ?_⟩
    · rw [Emulator.SlotTable.get?_setBlock hslot, if_pos rfl]
    · rw [Emulator.block_withBlock (Block.size_of_write? hwrite), Block.size_of_write? hwrite]
      exact hsize
  · refine ⟨_, old, rfl, ?_, hsize⟩
    rw [Emulator.SlotTable.get?_setBlock hslot, if_neg hi]
    exact hold

/-- A range of a buffer is overwritten in its cells. -/
theorem writeBuffer?_contents (hpresent : Present b buffer)
    (hrange : offset + bytes.size ≤ buffer.size.toNat) {result : Option Backends}
    (t : Transcript (b.writeBuffer? buffer offset bytes) events result) (k : Kept m events m') :
    ∃ b', result = some b' ∧
      Overwritten (HostState.contents ⟨b, m⟩) (HostState.contents ⟨b', m'⟩) buffer offset bytes.size
        (fun k => bytes.data[k]?) ∧
      ∀ other, Present b other → Present b' other := by
  have hstored : ∀ base : HostAddress, (∀ i, buffer.cell i = .memory (base.value + i)) →
      Transcript (do store base offset bytes; return some b) events result →
      ∃ b', result = some b' ∧
        Overwritten (HostState.contents ⟨b, m⟩) (HostState.contents ⟨b', m'⟩) buffer offset
          bytes.size (fun k => bytes.data[k]?) ∧
        ∀ other, Present b other → Present b' other := by
    intro base hcell t
    obtain ⟨_, hstore, rfl⟩ := Dialog.transcript_map.mp t
    rw [Trial.transcript_request.mp hstore] at k
    obtain ⟨-, rfl⟩ := k
    exact ⟨b, rfl, overwritten_memory hcell, fun _ => id⟩
  cases hhost : buffer.host with
  | mapped base | borrowed base =>
    refine hstored base (fun i => by rw [Buffer.cell, hhost]) ?_
    unfold Backends.writeBuffer? at t
    rwa [if_neg (Nat.not_lt.mpr hrange), hhost] at t
  | slot index =>
    obtain ⟨e, slot, he, hslot, hsize⟩ := hpresent index hhost
    obtain ⟨block, hwrite⟩ : ∃ block, slot.block.write? offset bytes = some block :=
      Block.exists_write? (hrange.trans hsize)
    rw [Emulator.writeBuffer?_of_slot hhost he hslot hrange hwrite] at t
    obtain ⟨rfl, rfl⟩ := Dialog.transcript_done.mp t
    obtain rfl : m' = m := k
    exact ⟨_, rfl, overwritten_slot he hslot hhost hwrite, fun _ => Present.setBlock he hslot hwrite⟩

end Ranges

end VideoCore
