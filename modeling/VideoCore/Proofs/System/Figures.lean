import VideoCore.Proofs.System.Misuse
import VideoCore.Proofs.System.Queries

/-!
# The figures that programs are laid out by

A caller lays a kernel out by two figures of the machine: how many QPUs there are, and how much vertex
pipe memory. Only the register block knows them, and it is read twice for each, once to see whether it
has power and once for the figure, so between the two it may have lost power or changed. The emulator
has figures of its own, and where nobody answers there is a default.

`FiguresUsable` says that all of that does no harm. Whatever is read, there are at least one QPU and no
more than a dispatch can use, and the memory is some of the sizes that the block can have.
-/

namespace VideoCore

open Hardware
open Dialog (Transcript)
open GpuService (JobWait)

/-! ## What the identification can say -/

namespace V3d.Info

/-- A product of slices and QPUs that is not plausible is not taken. -/
theorem qpuCount_bounds (contents : UInt32) :
    1 ≤ (qpuCount.decode contents).toNat ∧ (qpuCount.decode contents).toNat ≤ maxQpus := by
  have hkept : ∀ count : UInt32,
      1 ≤ (if count = 0 || 12 < count then fallbackQpuCount else count).toNat ∧
        (if count = 0 || 12 < count then fallbackQpuCount else count).toNat ≤ maxQpus := by
    intro count
    split
    · decide
    · next hplausible =>
      simp only [Bool.or_eq_true, decide_eq_true_eq, not_or, UInt32.lt_iff_toNat_lt,
        ← UInt32.toNat_inj, UInt32.toNat_ofNat, Nat.reducePow, Nat.reduceMod] at hplausible
      unfold maxQpus
      omega
  exact hkept _

/-- The size field has four bits, and its zero stands for the size that they have no room for. -/
theorem vpmMemorySize_bounds (contents : UInt32) :
    1024 ∣ (vpmMemorySize.decode contents).toNat ∧ 1024 ≤ (vpmMemorySize.decode contents).toNat ∧
      (vpmMemorySize.decode contents).toNat ≤ 16384 := by
  have hfield : (contents >>> 28).toNat < 16 := by
    have hword := contents.toNat_lt
    rw [UInt32.toNat_shiftRight, Nat.shiftRight_eq_div_pow]
    simp only [UInt32.toNat_ofNat, Nat.reducePow, Nat.reduceMod]
    omega
  have hkib : ∀ kib : UInt32, kib.toNat < 16 →
      1024 ∣ (if kib = 0 then 16 * 1024 else kib * 1024).toNat ∧
        1024 ≤ (if kib = 0 then 16 * 1024 else kib * 1024).toNat ∧
        (if kib = 0 then 16 * 1024 else kib * 1024).toNat ≤ 16384 := by
    intro kib hsmall
    split
    · decide
    · next hzero =>
      rw [← UInt32.toNat_inj] at hzero
      rw [UInt32.toNat_mul]
      simp only [UInt32.toNat_ofNat, Nat.reducePow, Nat.reduceMod] at hzero ⊢
      omega
  exact hkib _ hfield

end V3d.Info

/-! ## Where a figure comes from -/

section Sources

variable {s : System} {q : SystemQuery} {i : V3d.Info} {events : List (Exchange Hardware)}
  {value : UInt32}

/-- A figure that the register block tells is known to nobody else but the emulator. -/
theorem Backends.Reads.identified {b : Backends} {kind : BackendKind}
    (h : b.Reads q kind events (some value)) (hinfo : V3d.infoFor? q = some i) :
    ∃ contents, value = i.decode contents := by
  cases kind with
  | emulator => exact h.elim
  | v3d =>
    cases h.2 with
    | answered ident hpower hinfo' contents =>
      cases hinfo.symm.trans hinfo'
      exact ⟨contents, rfl⟩
  | sharedMemory =>
    obtain ⟨service, -, hreads⟩ := h
    cases hreads with
    | answered hconsults =>
      have hpool : q = .totalGpuMemoryBytes := by
        simp only [SharedMemory.consults, Bool.and_eq_true, beq_iff_eq] at hconsults
        exact hconsults.1.1
      rw [hpool] at hinfo
      cases hinfo
  | gpuService =>
    cases h.2 with
    | answered hcommand =>
      cases q with
      | totalVpmMemoryBytes | numQpus => cases hcommand
      | _ => cases hinfo
  | mailbox =>
    cases h.2 with
    | answered hquestion =>
      cases q with
      | totalVpmMemoryBytes | numQpus => cases hquestion
      | _ => cases hinfo

namespace System

/-- The sources of such a figure. -/
theorem figure_sources (hinfo : V3d.infoFor? q = some i)
    (h : Transcript (s.queryOrDefault q) events value) :
    value = q.default ∨ value = Emulator.readValue q ∨ ∃ contents, value = i.decode contents := by
  obtain ⟨answer, hquery, rfl⟩ := Dialog.transcript_map.mp h
  cases answer with
  | none => exact .inl rfl
  | some value =>
    refine .inr ?_
    cases hemulated : s.config.emulated with
    | true =>
      rw [query, if_pos hemulated] at hquery
      obtain ⟨-, hanswer⟩ := Dialog.transcript_done.mp hquery
      split at hanswer
      · cases hanswer
        exact .inl rfl
      · cases hanswer
    | false =>
      refine .inr ?_
      rcases (transcript_query hemulated).mp hquery with
        ⟨hnone, -⟩ | ⟨_, kind, _, _, last, value', -, -, hvalue, -, hreads⟩
      · cases hnone
      · cases hvalue
        exact hreads.identified hinfo

theorem numQpus_bounds (h : Transcript s.numQpus events value) :
    1 ≤ value.toNat ∧ value.toNat ≤ maxQpus := by
  rcases figure_sources rfl h with rfl | rfl | ⟨contents, rfl⟩
  · decide
  · decide
  · exact V3d.Info.qpuCount_bounds contents

theorem totalVpmMemory_bounds (h : Transcript s.totalVpmMemory events value) :
    1024 ∣ value.toNat ∧ 1024 ≤ value.toNat ∧ value.toNat ≤ 16384 := by
  rcases figure_sources rfl h with rfl | rfl | ⟨contents, rfl⟩
  · decide
  · decide
  · exact V3d.Info.vpmMemorySize_bounds contents

end System

end Sources

/-! ## Dispatches that nobody objects to -/

section Dispatches

variable {b : Backends} {kind : BackendKind} {d : Dispatch} {events : List (Exchange Hardware)}

/-- A result that says that the arguments were wrong. -/
def Objects {α : Type} (result : Except Fault α) : Prop :=
  ∃ misuse, result = .error (.invalidArgument misuse)

/-- Whoever tells a breakdown from a refusal objects to nothing. -/
theorem ToldApart.not_objects {α : Type} {saysNo : α → Prop} {refused broken : Prop}
    {result : Except Fault α} (h : ToldApart saysNo refused broken result) : ¬ Objects result := by
  rintro ⟨misuse, rfl⟩
  exact absurd h.1 nofun

/-- A backend that is not there, or has nothing to execute with, executes nothing. The mailbox has no
state that could be missing. -/
theorem Backends.performs_execute_lacking {result : Except Fault (Handle JobWait × Backends)}
    (hkind : kind ≠ .mailbox) (hlacks : b.has kind = false ∨ kind = .sharedMemory)
    (h : Performs (b.execute kind d) events result) : result = .error (.unsupported .execution) := by
  unfold execute at h
  cases kind with
  | mailbox => exact absurd rfl hkind
  | sharedMemory => exact (performs_throw.mp h).2
  | v3d =>
    have habsent : b.v3d = none := by simpa [has] using hlacks
    rw [habsent] at h
    exact (performs_throw.mp h).2
  | gpuService =>
    have habsent : b.gpuService = none := by simpa [has] using hlacks
    rw [habsent] at h
    exact (performs_throw.mp h).2
  | emulator =>
    have habsent : b.emulator = none := by simpa [has] using hlacks
    rw [habsent] at h
    exact (performs_throw.mp h).2

/-- No backend, there or not, objects to a dispatch that passes the check. -/
theorem Backends.execute_not_objects {result : Except Fault (Handle JobWait × Backends)}
    (hcheck : d.check = .ok ()) (h : Performs (b.execute kind d) events result) :
    ¬ Objects result := by
  by_cases hkind : kind = .mailbox
  · subst hkind
    obtain ⟨handle, hhandle, rfl⟩ := performs_map.mp h
    rintro ⟨misuse, hobjects⟩
    cases handle with
    | ok handle => cases hobjects
    | error fault =>
      cases hobjects
      exact (Mailbox.execute_toldApart hcheck hhandle).not_objects ⟨misuse, rfl⟩
  by_cases hlacks : b.has kind = false ∨ kind = .sharedMemory
  · rw [performs_execute_lacking hkind hlacks h]
    exact nofun
  · obtain ⟨hhas, hexecutes⟩ := not_or.mp hlacks
    exact (execute_toldApart (Bool.eq_true_of_not_eq_false hhas) hexecutes hcheck h).not_objects

/-- Neither does a system. -/
theorem System.execute_not_objects {s : System} {result : Except Fault (Handle JobWait × System)}
    (hcheck : d.check = .ok ()) (h : Performs (s.execute d) events result) : ¬ Objects result := by
  rcases performs_check.mp h with ⟨fault, hfault, -⟩ | ⟨-, -, hrest⟩
  · rw [hcheck] at hfault
    cases hfault
  cases hexecution : s.execution with
  | none =>
    simp only [hexecution] at hrest
    rw [(performs_throw.mp hrest).2]
    exact nofun
  | some kind =>
    simp only [hexecution] at hrest
    obtain ⟨pair, hpair, rfl⟩ := performs_map.mp hrest
    have hbackend := Backends.execute_not_objects hcheck hpair
    rintro ⟨misuse, hobjects⟩
    cases pair with
    | error fault =>
      cases hobjects
      exact hbackend ⟨misuse, rfl⟩
    | ok pair => cases hobjects

end Dispatches

/-! ## The figures of a system -/

namespace System

/-- What a caller can rely on when he lays a kernel out by the figures of a system. -/
structure FiguresUsable (s : System) : Prop where
  /-- There is a QPU, and there are no more than one dispatch can use. -/
  qpus : ∀ events count, Transcript s.numQpus events count →
    1 ≤ count.toNat ∧ count.toNat ≤ maxQpus
  /-- A dispatch to as many passes the check. -/
  dispatchable : ∀ events count, Transcript s.numQpus events count →
    ∀ d : Dispatch, d.control.length = count.toNat → d.check = .ok ()
  /-- No backend objects to it, whichever backends are up by then. -/
  executable : ∀ events count, Transcript s.numQpus events count →
    ∀ d : Dispatch, d.control.length = count.toNat →
    ∀ (b : Backends) kind more result, Performs (b.execute kind d) more result → ¬ Objects result
  /-- Nor does a system that executes through one of them. -/
  throughSystem : ∀ events count, Transcript s.numQpus events count →
    ∀ d : Dispatch, d.control.length = count.toNat →
    ∀ (s' : System) more result, Performs (s'.execute d) more result → ¬ Objects result
  /-- The vertex pipe memory has a size that its field in the identification can say. -/
  vertexMemory : ∀ events size, Transcript s.totalVpmMemory events size →
    1024 ∣ size.toNat ∧ 1024 ≤ size.toNat ∧ size.toNat ≤ 16384
  /-- There is a figure in all surroundings. -/
  comesBack : ∀ {τ : Type} (surroundings : Surroundings Hardware τ) (turns : Nat) (t : τ),
    (∃ count t', s.numQpus.run surroundings turns t = some (count, t')) ∧
    ∃ size t', s.totalVpmMemory.run surroundings turns t = some (size, t')

theorem check_of_numQpus {s : System} {events : List (Exchange Hardware)} {count : UInt32}
    (h : Transcript s.numQpus events count) {d : Dispatch} (hlength : d.control.length = count.toNat) :
    d.check = .ok () := by
  rw [Dispatch.check_eq_ok_iff, hlength]
  exact numQpus_bounds h

/-- The figures of a system can be used, whoever gives them and whatever is read. -/
theorem figures_usable (s : System) : FiguresUsable s where
  qpus _ _ h := numQpus_bounds h
  dispatchable _ _ h _ hlength := check_of_numQpus h hlength
  executable _ _ h _ hlength _ _ _ _ hexecutes :=
    Backends.execute_not_objects (check_of_numQpus h hlength) hexecutes
  throughSystem _ _ h _ hlength _ _ _ hexecutes :=
    System.execute_not_objects (check_of_numQpus h hlength) hexecutes
  vertexMemory _ _ h := totalVpmMemory_bounds h
  comesBack surroundings turns t := by
    have hreturns (q : SystemQuery) : (s.queryOrDefault q).Plain Inquires :=
      Dialog.Plain.bind (s.query_inquires q) fun _ => trivial
    exact ⟨(hreturns .numQpus).exists_run surroundings turns t,
      (hreturns .totalVpmMemoryBytes).exists_run surroundings turns t⟩

/-- A system with a register block. -/
def sampleFigured : System := { config := .standard, backends := { v3d := some {} } }

/-- The block has power when it is looked at, and has lost it when its QPUs are counted. The word that
stands for that would be fourteen slices of fourteen QPUs, and twelve are counted. -/
theorem figures_usable_sample :
    Transcript sampleFigured.numQpus
      [⟨.readRegister V3d.Reg.ident1, 0x3431⟩, ⟨.readRegister V3d.Reg.ident1, V3d.gatedValue⟩] 12 ∧
    Dispatch.check { control := List.replicate 12 default } = .ok () := by
  have hcount : Transcript sampleFigured.numQpus
      [⟨.readRegister V3d.Reg.ident1, 0x3431⟩, ⟨.readRegister V3d.Reg.ident1, V3d.gatedValue⟩] 12 :=
    .ask _ (.ask _ (.done _))
  exact ⟨hcount, (figures_usable sampleFigured).dispatchable _ _ hcount _ rfl⟩

end System

end VideoCore
