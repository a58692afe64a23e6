import VideoCore.Proofs.Session.Run

/-!
# The emulator apart from the hardware

An emulated system can be composed of backends of the hardware as well. What it does with memory and
with kernels goes to the emulator alone, so it is compared here with the same system without those
backends (`System.apart`, `Session.bare`): both are the same dialog, and end in the same way but for the
backends that only the one has.
-/

namespace VideoCore

open Firmware Hardware
open Dialog (Transcript)
open GpuService (JobWait)

/-! ## The emulator alone -/

/-- A buffer that lies in a slot of the emulator. -/
structure Buffer.Emulated (buffer : Buffer) : Prop where
  owner : buffer.owner = .emulator
  host : ∃ index, buffer.host = .slot index

namespace Backends

/-- The emulator without any backend of the hardware. -/
def apart (b : Backends) : Backends := { emulator := b.emulator }

variable {b : Backends} {buffer : Buffer}

@[simp] theorem emulator_apart (b : Backends) : b.apart.emulator = b.emulator := rfl

/-- A buffer of the emulator is taken back in the same way. -/
theorem deallocate_apart (h : buffer.owner = .emulator) :
    b.apart.deallocate buffer = (fun p => (p.1, p.2.apart)) <$> b.deallocate buffer := by
  unfold deallocate
  rw [h, emulator_apart]
  cases b.emulator with
  | none => rfl
  | some e =>
    simp only [map_bind]
    rfl

theorem release_apart (h : buffer.owner = .emulator) :
    b.apart.release buffer = (fun p => (p.1, p.2.apart)) <$> b.release buffer := by
  unfold release
  rw [deallocate_apart h]
  cases buffer.host with
  | mapped base => rw [map_bind]
  | borrowed | slot => rfl

theorem allocate_apart (b : Backends) (r : AllocationRequest) :
    b.apart.allocate .emulator r = (fun p => (p.1, p.2.apart)) <$> b.allocate .emulator r := by
  unfold allocate
  dsimp only
  rw [emulator_apart]
  cases b.emulator with
  | none => rfl
  | some e =>
    simp only [map_bind]
    rfl

theorem execute_apart (b : Backends) (d : Dispatch) :
    b.apart.execute .emulator d = (fun p => (p.1, p.2.apart)) <$> b.execute .emulator d := by
  unfold execute
  dsimp only
  rw [emulator_apart]
  cases b.emulator with
  | none => rfl
  | some e =>
    simp only [map_bind]
    rfl

end Backends

namespace System

/-- A system that has the emulator without any backend of the hardware. -/
def apart (s : System) : System := { s with backends := s.backends.apart }

variable {s : System}

/-- An emulated system has its memory from the emulator or from nowhere. -/
theorem memory_eq (h : s.config.emulated = true) :
    s.memory = if s.backends.emulator.isSome then some .emulator else none := by
  unfold memory preferredMemory
  rw [if_pos h]
  rfl

theorem execution_eq (h : s.config.emulated = true) :
    s.execution = if s.backends.emulator.isSome then some .emulator else none := by
  unfold execution preferredExecution
  rw [if_pos h]
  rfl

theorem owner_of_memory (h : s.config.emulated = true) {owner : Owner}
    (hmemory : s.memory = some owner) : owner = .emulator := by
  rw [memory_eq h] at hmemory
  split at hmemory
  · cases hmemory
    rfl
  · cases hmemory

theorem kind_of_execution (h : s.config.emulated = true) {kind : BackendKind}
    (hexecution : s.execution = some kind) : kind = .emulator := by
  rw [execution_eq h] at hexecution
  split at hexecution
  · cases hexecution
    rfl
  · cases hexecution

theorem allocate_apart (h : s.config.emulated = true) (r : AllocationRequest) :
    s.apart.allocate r = (fun p => (p.1, p.2.apart)) <$> s.allocate r := by
  unfold allocate
  rw [memory_eq (s := s.apart) h, memory_eq h, map_bind]
  refine bind_congr fun _ => ?_
  rw [apart, Backends.emulator_apart]
  cases s.backends.emulator.isSome with
  | false => rfl
  | true =>
    simp only [if_true, Backends.allocate_apart, map_bind, bind_map_left]
    rfl

theorem execute_apart (h : s.config.emulated = true) (d : Dispatch) :
    s.apart.execute d = (fun p => (p.1, p.2.apart)) <$> s.execute d := by
  unfold execute
  rw [execution_eq (s := s.apart) h, execution_eq h, map_bind]
  refine bind_congr fun _ => ?_
  rw [apart, Backends.emulator_apart]
  cases s.backends.emulator.isSome with
  | false => rfl
  | true =>
    simp only [if_true, Backends.execute_apart, map_bind, bind_map_left]
    rfl

theorem query_apart (h : s.config.emulated = true) (q : SystemQuery) :
    s.apart.query q = s.query q := by
  unfold query
  rw [if_pos h]
  exact if_pos h

theorem flushCpuCache_apart (h : s.config.emulated = true) (buffers : List Buffer) :
    s.apart.flushCpuCache buffers = s.flushCpuCache buffers := by
  unfold flushCpuCache
  rw [memory_eq (s := s.apart) h, memory_eq h]
  rfl

end System

namespace Session

/-- A session whose system has the emulator without any backend of the hardware. -/
def bare (s : Session) : Session := s.withBackends s.system.backends.apart

variable {s : Session} {buffer : Buffer}

theorem stopUnheld_bare :
    s.bare.stopUnheld .emulator = bare <$> s.stopUnheld .emulator := by
  have hunheld : (s.bare.holds .emulator || s.bare.stopped.contains .emulator ||
      !s.bare.system.backends.has .emulator) =
      (s.holds .emulator || s.stopped.contains .emulator || !s.system.backends.has .emulator) := rfl
  unfold stopUnheld
  rw [hunheld]
  split
  · rfl
  · rw [map_bind]
    rfl

theorem endBuffer_bare (h : buffer.owner = .emulator) :
    s.bare.endBuffer buffer = (fun p => (p.1, p.2.bare)) <$> s.endBuffer buffer := by
  have hrelease : s.bare.system.backends.release buffer =
      (fun p => (p.1, p.2.apart)) <$> s.system.backends.release buffer := Backends.release_apart h
  unfold endBuffer
  rw [h, hrelease, map_bind, bind_map_left]
  refine bind_congr fun ⟨result, backends⟩ => ?_
  have hstop : (s.bare.withBackends backends.apart).stopUnheld Owner.emulator.kind =
      bare <$> (s.withBackends backends).stopUnheld Owner.emulator.kind :=
    stopUnheld_bare (s := s.withBackends backends)
  dsimp only
  rw [hstop, bind_map_left, map_bind]
  rfl

theorem dropBuffer_bare (h : buffer.owner = .emulator) :
    s.bare.dropBuffer buffer = bare <$> s.dropBuffer buffer := by
  unfold dropBuffer
  rw [endBuffer_bare h, map_bind, bind_map_left]
  refine bind_congr fun ⟨result, t⟩ => ?_
  dsimp only
  cases dropDiagnostic buffer result with
  | none => rfl
  | some diagnostic =>
    simp only [map_bind]
    rfl

/-- All buffers of a session lie in slots of the emulator. -/
def AllEmulated (s : Session) : Prop :=
  ∀ name buffer, s.buffers.get? name = some buffer → buffer.Emulated

theorem keep_bare {name : String} (h : s.AllEmulated) :
    s.bare.keep name buffer = bare <$> s.keep name buffer := by
  have hbuffers : s.bare.buffers = s.buffers := rfl
  unfold keep
  rw [hbuffers]
  cases hprevious : s.buffers.get? name with
  | none => rfl
  | some previous =>
    exact dropBuffer_bare (s := { s with buffers := s.buffers.put name buffer })
      (h name previous hprevious).owner

theorem allocate_bare {name : String} {r : AllocationRequest}
    (hemulated : s.system.config.emulated = true) (h : s.AllEmulated) :
    s.bare.allocate name none r = (fun p => (p.1, p.2.bare)) <$> s.allocate name none r := by
  have hattempt : s.bare.allocating none r = (fun p => (p.1, p.2.apart)) <$> s.allocating none r := by
    unfold allocating
    dsimp only
    rw [show s.bare.system = s.system.apart from rfl, System.allocate_apart hemulated, map_bind,
      bind_map_left]
    rfl
  show (s.bare.allocating none r).run.bind _ = _ <$> (s.allocating none r).run.bind _
  rw [hattempt, ExceptT.run_map, ← Dialog.bind_eq, bind_map_left, ← Dialog.bind_eq, map_bind]
  refine bind_congr fun result => ?_
  rcases result with fault | ⟨_ | buffer, backends⟩
  · rfl
  · rfl
  · show (do return (_, ← (s.bare.withBackends backends.apart).keep name buffer)) = _
    have hkeep : (s.bare.withBackends backends.apart).keep name buffer =
      bare <$> (s.withBackends backends).keep name buffer := keep_bare (s := s.withBackends backends) h
    rw [hkeep, bind_map_left, map_bind]
    rfl

theorem release_bare {name : String} (h : s.AllEmulated) :
    s.bare.release name = (fun p => (p.1, p.2.bare)) <$> s.release name := by
  have hbuffers : s.bare.buffers = s.buffers := rfl
  unfold release
  rw [hbuffers]
  cases hbuffer : s.buffers.get? name with
  | none => rfl
  | some buffer =>
    have hend := endBuffer_bare (s := { s with buffers := s.buffers.erase name })
      (h name buffer hbuffer).owner
    dsimp only
    rw [map_bind]
    refine (congrArg (· >>= _) hend).trans ?_
    rw [bind_map_left]
    rfl

theorem execute_bare {name : String} {d : Dispatch} (hemulated : s.system.config.emulated = true) :
    s.bare.execute name none d = (fun p => (p.1, p.2.bare)) <$> s.execute name none d := by
  have hattempt : s.bare.executing none d = (fun p => (p.1, p.2.apart)) <$> s.executing none d := by
    unfold executing
    dsimp only
    rw [show s.bare.system = s.system.apart from rfl, System.execute_apart hemulated, map_bind,
      bind_map_left]
    rfl
  show (s.bare.executing none d).run.bind _ = _ <$> (s.executing none d).run.bind _
  rw [hattempt, ExceptT.run_map, ← Dialog.bind_eq, bind_map_left, ← Dialog.bind_eq, map_bind]
  refine bind_congr fun result => ?_
  cases result with
  | error fault => rfl
  | ok pair => rfl

end Session

end VideoCore
