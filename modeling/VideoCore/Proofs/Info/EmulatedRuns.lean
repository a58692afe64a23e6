import VideoCore.Proofs.Config.Environment
import VideoCore.Proofs.Emulator.SlotMap
import VideoCore.Proofs.Info.Activation
import VideoCore.Proofs.Linux.Emulation
import VideoCore.Proofs.System.Faults

/-!
# Reports on the emulator

The emulator is the same on every machine, and so is the report on it. `emulatedReport` is that report,
written down without a machine; it depends on the allocation that is asked for and on nothing else.

The tool reports on the emulator if its option says so, and then it asks the machine nothing at all. It
also does if the environment says so, and then it asks for the user and the environment alone. The two
configurations differ in everything but the emulation, and `emulated_runs_agree` says that nobody can
tell them apart.
-/

namespace VideoCore.Info

open Linux (Links across openSystem openSystem_emulated)
open Dialog (Transcript)
open Emulator (roundedSize largestSize window bufferAt Slot SlotTable)

variable {words : List String} {o : Options} {c : Config} {s : System}
  {events : List (Exchange Linux)} {outcome : Outcome}

/-! ## The report on the emulator -/

/-- What comes of an allocation from an emulator that has no buffers yet. -/
def emulatedAllocation (size : UInt32) : Except Failure AllocationReport :=
  if size = 0 then
    .error (.fault (some "allocate 0 bytes") (.invalidArgument .emptyBuffer))
  else if largestSize < size.toNat then
    .error (.fault (some ("allocate " ++ Text.decimal size.toNat ++ " bytes")) .overflow)
  else if window < roundedSize size then .error (.refused size)
  else .ok { size, handle := 1, address := ⟨0⟩, released := true }

/-- The report on the emulator. -/
def emulatedReport (allocate : Option UInt32) : Except Failure Report := do
  let allocation ← allocate.mapM emulatedAllocation
  return {
    emulated := true
    memoryName := "emulator"
    executionName := "emulator"
    totalGpuMemory := Emulator.readValue .totalGpuMemoryBytes
    numQpus := Emulator.readValue .numQpus
    qpuClockRate := Emulator.readValue .currentQpuClockRateHz
    gpuTemperature := Emulator.readValue .qpuTemperatureMilliDegrees
    totalVpmMemory := Emulator.readValue .totalVpmMemoryBytes
    answers := SystemQuery.all.map fun q => (q, some (Emulator.readValue q))
    board := none
    v3d := none
    allocation }

/-- What a run leaves behind that reports on the emulator. -/
def emulatedOutcome (json : Bool) (allocate : Option UInt32) : Outcome :=
  outcomeOf json (emulatedReport allocate)

/-! ## Emulated systems -/

/-- A system with the emulator alone, under a configuration that emulates everything. -/
structure Virtual (s : System) : Prop where
  emulated : s.config.emulated = true
  up : s.backends.emulator.isSome = true
  no_mailbox : s.backends.mailbox = false
  no_v3d : s.backends.v3d = none

/-- An emulated system as it is opened, but with any state of the emulator. -/
def emulatedSystem (c : Config) (e : Emulator) : System := .ofBackends c { emulator := some e }

theorem virtual_emulatedSystem (h : c.emulated = true) (e : Emulator) : Virtual (emulatedSystem c e) :=
  ⟨h, rfl, rfl, rfl⟩

namespace Virtual

theorem memory_eq (h : Virtual s) : s.memory = some .emulator := by
  rw [System.memory_eq h.emulated, if_pos h.up]

theorem execution_eq (h : Virtual s) : s.execution = some .emulator := by
  rw [System.execution_eq h.emulated, if_pos h.up]

/-- The emulator goes last, as it is picked for everything. -/
theorem teardownOrder_eq (h : Virtual s) : s.teardownOrder =
    [.mailbox, .v3d, .sharedMemory, .gpuService, .emulator, .emulator] := by
  rw [System.teardownOrder, h.memory_eq, h.execution_eq]
  rfl

theorem memoryName_eq (h : Virtual s) : s.memoryName = "emulator" := by
  rw [System.memoryName, h.memory_eq]

theorem executionName_eq (h : Virtual s) : s.executionName = "emulator" := by
  rw [System.executionName, h.execution_eq]

theorem query_eq (h : Virtual s) (q : SystemQuery) :
    s.query q = pure (some (Emulator.readValue q)) := by
  rw [System.query, if_pos h.emulated, if_pos h.up]

theorem queryOrDefault_eq (h : Virtual s) (q : SystemQuery) :
    s.queryOrDefault q = pure (Emulator.readValue q) := by
  rw [System.queryOrDefault, h.query_eq, pure_bind, Option.getD_some]

theorem answers_eq (h : Virtual s) (queries : List SystemQuery) :
    answers s queries = pure (queries.map fun q => (q, some (Emulator.readValue q))) := by
  induction queries with
  | nil => rfl
  | cons q rest ih => rw [answers, h.query_eq, pure_bind, ih, pure_bind, List.map_cons]

theorem findMailbox_eq (h : Virtual s) (links : Links) :
    findMailbox s links = pure { links := none, own := false } := by
  unfold findMailbox
  rw [h.no_mailbox, h.emulated]
  rfl

theorem v3dPart_eq (h : Virtual s) (links : Links) : v3dPart s links = pure none := by
  rw [v3dPart, h.no_v3d]
  rfl

end Virtual

/-! ## Allocations -/

/-- A request for bytes with nothing else said is in order. -/
theorem check_of_bytes {size : UInt32} (hsize : size ≠ 0) :
    AllocationRequest.check { size } = .ok () := by
  have halignment : isPowerOfTwo BusAddress.pageAlignment = true := by decide
  exact AllocationRequest.check_eq_ok_iff.mpr ⟨hsize, halignment⟩

/-- A well-formed request is answered by the emulator alone. -/
theorem allocate_emulated (h : c.emulated = true) {size : UInt32} (hsize : size ≠ 0) (e : Emulator) :
    (emulatedSystem c e).allocate { size } = liftM ((e.allocate (System.adjust c { size })).map
      fun given => (given.1, emulatedSystem c given.2)) := by
  have hmemory : (emulatedSystem c e).memory = some .emulator := (virtual_emulatedSystem h e).memory_eq
  have hbackends : (emulatedSystem c e).backends.allocate .emulator (System.adjust c { size }) =
      liftM ((e.allocate (System.adjust c { size })).map
        fun given => (given.1, (emulatedSystem c given.2).backends)) := by
    have hup : (emulatedSystem c e).backends.emulator = some e := rfl
    rw [Backends.allocate]
    simp only [hup]
    cases e.allocate (System.adjust c { size }) with
    | error fault => rfl
    | ok given => rfl
  rw [System.allocate, check_of_bytes hsize, hmemory]
  refine (congrArg (· >>= fun given =>
    pure (given.1, { emulatedSystem c e with backends := given.2 })) hbackends).trans ?_
  cases e.allocate (System.adjust c { size }) with
  | error fault => rfl
  | ok given => rfl

/-- The first buffer is put into the first slot. -/
theorem allocate_first {r : AllocationRequest} (hcheck : r.check = .ok ())
    (hfits : roundedSize r.size ≤ window) :
    Emulator.allocate {} r = .ok (some (bufferAt 0 r.size),
      { slots := SlotTable.empty.put 0 (some (.zeroed r.size (Emulator.le_largestSize hfits))) }) := by
  refine Emulator.allocate_of_free hcheck hfits (by decide) ?_ nofun
  rw [Emulator.find?_handleOf _ (by decide)]
  exact SlotTable.get?_empty 0

/-- It is taken back. -/
theorem release_first (size : UInt32) (slot : Slot) : ∃ e', (emulatedSystem c
      { slots := SlotTable.empty.put 0 (some slot) }).backends.release (bufferAt 0 size) =
    pure (.ok true, (emulatedSystem c e').backends) := by
  let e : Emulator := { slots := SlotTable.empty.put 0 (some slot) }
  have hlive : (e.find? (SlotTable.handleOf 0)).isSome := by
    rw [Emulator.find?_handleOf _ (by decide)]
    exact congrArg Option.isSome (SlotTable.get?_put_self _ _ (by decide))
  obtain ⟨e', hdeallocate, -⟩ := Emulator.deallocate_known hlive
  refine ⟨e', ?_⟩
  show e.deallocate (SlotTable.handleOf 0) >>= _ = _
  rw [hdeallocate]
  rfl

/-- A buffer that is given and taken back without any question is reported. -/
theorem allocationReport_of_given {s s' : System} {links : Links} {size : UInt32} {buffer : Buffer}
    {released : Bool} {backends : Backends} (hgiven : s.allocate { size } = pure (some buffer, s'))
    (hreleased : s'.backends.release buffer = pure (.ok released, backends)) :
    allocationReport s links size =
      pure ({ size, handle := buffer.handle, address := buffer.address, released },
        { s' with backends }) := by
  have hacross : across links (s'.backends.release buffer) = pure (.ok released, backends) := by
    rw [hreleased]
    rfl
  rw [allocationReport, hgiven]
  exact congrArg (fun d : Dialog Linux _ => (liftM d : Collecting _) >>= _) hacross

theorem allocationReport_emulated (h : c.emulated = true) (size : UInt32) :
    match emulatedAllocation size with
    | .error failure => allocationReport (emulatedSystem c {}) {} size = throw failure
    | .ok report => ∃ s, Virtual s ∧
        allocationReport (emulatedSystem c {}) {} size = pure (report, s) := by
  by_cases hzero : size = 0
  · subst hzero
    rfl
  have hcheck := System.check_adjust c (check_of_bytes hzero)
  rw [emulatedAllocation, if_neg hzero]
  by_cases hsize : largestSize < size.toNat
  · -- the table is not looked at
    rw [if_pos hsize]
    show allocationReport _ _ _ = _
    rw [allocationReport, allocate_emulated h hzero, Emulator.allocate_of_overflow hcheck hsize]
    rfl
  rw [if_neg hsize]
  by_cases hlarge : window < roundedSize size
  · -- no slot could hold it, so the emulator is left as it was
    have hfull := Emulator.allocate_of_full (e := {}) hcheck (Nat.le_of_not_lt hsize) (.inl hlarge)
    rw [if_pos hlarge]
    show allocationReport _ _ _ = _
    rw [allocationReport, allocate_emulated h hzero, hfull]
    rfl
  · -- it is put into the first slot and taken from there again
    have hfirst := allocate_emulated h hzero {}
    rw [allocate_first hcheck (Nat.le_of_not_lt hlarge)] at hfirst
    obtain ⟨e', hrelease⟩ := release_first (c := c) size _
    rw [if_neg hlarge]
    refine ⟨_, virtual_emulatedSystem h e', ?_⟩
    exact allocationReport_of_given hfirst hrelease

theorem optionalAllocation_emulated (h : c.emulated = true) (allocate : Option UInt32) :
    match allocate.mapM emulatedAllocation with
    | .error failure => optionalAllocation (emulatedSystem c {}) {} allocate = throw failure
    | .ok report => ∃ s, Virtual s ∧
        optionalAllocation (emulatedSystem c {}) {} allocate = pure (report, s) := by
  cases allocate with
  | none => exact ⟨_, virtual_emulatedSystem h {}, rfl⟩
  | some size =>
    have hreport := allocationReport_emulated h size
    rw [Option.mapM_some]
    cases hallocation : emulatedAllocation size with
    | error failure =>
      rw [hallocation] at hreport
      exact congrArg (· >>= _) hreport
    | ok report =>
      rw [hallocation] at hreport
      obtain ⟨s, hvirtual, hreport⟩ := hreport
      exact ⟨s, hvirtual, congrArg (· >>= _) hreport⟩

/-! ## Runs on the emulator -/

theorem otherParts_emulated (h : c.emulated = true) (allocate : Option UInt32) :
    otherParts (emulatedSystem c {}) {} allocate
      (SystemQuery.all.map fun q => (q, some (Emulator.readValue q))) none none =
        liftM (emulatedReport allocate) := by
  have hoptional := optionalAllocation_emulated h allocate
  unfold otherParts emulatedReport
  cases hallocation : allocate.mapM emulatedAllocation with
  | error failure =>
    rw [hallocation] at hoptional
    rw [show optionalAllocation (emulatedSystem c {}) {} allocate = _ from hoptional]
    rfl
  | ok allocation =>
    rw [hallocation] at hoptional
    obtain ⟨s, hvirtual, hreport⟩ := hoptional
    -- the system after the allocation answers as the one before it
    have htotal (q : SystemQuery) :
        (across {} (s.queryOrDefault q) : Dialog Linux UInt32) = pure (Emulator.readValue q) := by
      rw [hvirtual.queryOrDefault_eq]
      rfl
    rw [hreport, pure_bind]
    simp only [System.totalGpuMemory, System.numQpus, System.qpuClockRate, System.gpuTemperature,
      System.totalVpmMemory, htotal, hvirtual.emulated, hvirtual.memoryName_eq, hvirtual.executionName_eq]
    rfl

/-- A report is collected from the emulator without any question to the machine. -/
theorem collect_emulated (h : c.emulated = true) (allocate : Option UInt32) :
    collect (emulatedSystem c {}) {} allocate = pure (emulatedReport allocate) := by
  have hvirtual := virtual_emulatedSystem h {}
  have hanswers : across {} (answers (emulatedSystem c {}) SystemQuery.all) =
      pure (SystemQuery.all.map fun q => (q, some (Emulator.readValue q))) := by
    rw [hvirtual.answers_eq]
    rfl
  have hparts : ∀ answers, collectParts (emulatedSystem c {}) {} { links := none, own := false } allocate
      answers = otherParts (emulatedSystem c {}) {} allocate answers none none := by
    intro answers
    rw [collectParts_eq, hvirtual.v3dPart_eq]
    rfl
  rw [collect, hanswers, pure_bind, hvirtual.findMailbox_eq, pure_bind, hparts, otherParts_emulated h]
  rfl

theorem live_empty : SlotTable.empty.live = [] := by
  refine List.filterMap_eq_nil_iff.mpr fun index _ => ?_
  rw [SlotTable.get?_empty, Option.map_none]

/-- An emulator without buffers has nothing to report when it is given up. -/
theorem letGo_emulated (h : c.emulated = true) : letGo (emulatedSystem c {}) {} = pure () := by
  have hstop : Emulator.stop {} = Hardware.retire .emulator := by
    rw [Emulator.stop, live_empty]
    rfl
  have hdetach : Session.detach { system := emulatedSystem c {} } = (do
      Emulator.stop {}
      return { system := emulatedSystem c {}, attached := false, stopped := [.emulator] }) := by
    rw [Session.detach, Session.detachOrder, (virtual_emulatedSystem h {}).teardownOrder_eq]
    rfl
  rw [letGo, hdetach, hstop]
  rfl

/-- The report under a configuration. -/
def reportUnder (c : Config) (allocate : Option UInt32) : Dialog Linux (Except Failure Report) := do
  match ← (openSystem c).run with
  | .error fault => return .error (.fault (some "initialise hardware access") fault)
  | .ok (s, links) =>
    let result ← collect s links allocate
    letGo s links
    return result

theorem reportUnder_emulated (h : c.emulated = true) (allocate : Option UInt32) :
    reportUnder c allocate = pure (emulatedReport allocate) := by
  have hopen : (openSystem c).run = pure (.ok (emulatedSystem c {}, {})) := by
    rw [openSystem_emulated h]
    rfl
  rw [reportUnder, hopen, pure_bind]
  dsimp only
  rw [collect_emulated h, pure_bind, letGo_emulated h, pure_bind]

/-- A run reads the configuration, collects the report and puts it into words. -/
theorem run_eq (hwords : Options.read? words = some o) :
    run words = do
      let c ← configure o
      let r ← reportUnder c o.allocate
      return outcomeOf o.json r := by
  have hrun : run words = report o >>= fun r => return outcomeOf o.json r := by
    rw [run, hwords]
  have hreport : report o = configure o >>= fun c => reportUnder c o.allocate := rfl
  rw [hrun, hreport, bind_assoc]

/-! ## The environment -/

/-- The value of the variable for the emulator enables it: it is a text, and does not say no. -/
def Enables (value : Option ByteArray) : Prop :=
  ∃ text, value = some text.toUTF8 ∧ ¬ Config.SaysNo text

/-- The emulator is enabled wherever its variable is asked for. -/
def EmulatorEnabled (events : List (Exchange Linux)) : Prop :=
  ∀ value : Option ByteArray, ⟨.environment Config.Setting.emulator.variableName, value⟩ ∈ events →
    Enables value

/-- The configuration that is read then emulates everything. -/
theorem emulated_of_readConfig {warnings : List Config.Warning} (h : EmulatorEnabled events)
    (t : Transcript Linux.readConfig events (c, warnings)) : c.emulated = true := by
  obtain ⟨privileged, env, told, rfl, htold, hflag⟩ := Linux.flag_of_readConfig .emulator t
  obtain ⟨text, rfl, hyes⟩ := h told htold
  show Config.flag env .emulator = true
  rw [hflag, Option.bind_some, Text.fromUTF8?_toUTF8]
  exact Config.turnsOn_iff.mpr hyes

theorem emulated_of_configure (h : EmulatorEnabled events) (t : Transcript (configure o) events c) :
    c.emulated = true := by
  unfold configure at t
  split at t
  · obtain ⟨-, rfl⟩ := Dialog.transcript_done.mp t
    rfl
  · obtain ⟨⟨c, warnings⟩, hread, rfl⟩ := Dialog.transcript_map.mp t
    exact emulated_of_readConfig h hread

/-- In an environment that enables the emulator, nothing but the user and the environment is asked for. -/
theorem emulatedOutcome_of_run (hwords : Options.read? words = some o)
    (t : Transcript (run words) events outcome) (h : EmulatorEnabled events) :
    outcome = emulatedOutcome o.json o.allocate ∧ ∀ e ∈ events, e.request.Looks := by
  rw [run_eq hwords] at t
  obtain ⟨first, rest, c, rfl, hconfigure, hrest⟩ := Dialog.transcript_bind.mp t
  have hfirst : EmulatorEnabled first := fun value hvalue => h value (List.mem_append_left _ hvalue)
  rw [reportUnder_emulated (emulated_of_configure hfirst hconfigure), pure_bind] at hrest
  obtain ⟨rfl, rfl⟩ := Dialog.transcript_done.mp hrest
  rw [List.append_nil]
  exact ⟨rfl, (configure_plain o).of_transcript hconfigure⟩

/-- A machine that has the emulator enabled whenever it is asked. -/
theorem emulatorEnabled_of_follows {τ : Type} {machine : Surroundings Linux τ} {t t' : τ}
    (h : Dialog.Follows machine t events t')
    (henabled : ∀ u, Enables (machine (.environment Config.Setting.emulator.variableName) u).1) :
    EmulatorEnabled events := by
  intro value hvalue
  obtain ⟨first, rest, rfl⟩ := List.append_of_mem hvalue
  obtain ⟨u, -, hreply, -⟩ := h.split
  rw [show value = _ from hreply]
  exact henabled u

/-- With its option for the emulator the tool asks the machine nothing at all, and what it leaves behind
depends on the other two options alone. Wherever the environment enables the emulator, the tool leaves
the same behind, whatever the rest of the environment says and whoever runs it: it asks for the user and
for variables, and for nothing else. So it is on every machine. -/
theorem emulated_runs_agree (words : List String) (o : Options) (hwords : Options.read? words = some o) :
    (o.emulated = true → run words = .done (emulatedOutcome o.json o.allocate)) ∧
    (∀ events outcome, Transcript (run words) events outcome → EmulatorEnabled events →
      outcome = emulatedOutcome o.json o.allocate ∧ ∀ e ∈ events, e.request.Looks) ∧
    ∀ {τ : Type} (machine : Surroundings Linux τ) (turns : Nat) (t : τ),
      (∀ u, Enables (machine (.environment Config.Setting.emulator.variableName) u).1) →
      ∃ t', (run words).run machine turns t = some (emulatedOutcome o.json o.allocate, t') := by
  refine ⟨fun hoption => ?_, fun _ _ => emulatedOutcome_of_run hwords, fun machine turns t henabled => ?_⟩
  · have hconfigure : configure o = pure .fullyEmulated := if_pos hoption
    rw [run_eq hwords, hconfigure, pure_bind, reportUnder_emulated rfl, pure_bind]
    rfl
  · obtain ⟨outcome, t', hrun⟩ := (run_plain words).exists_run machine turns t
    obtain ⟨events, htranscript, hfollows⟩ := Dialog.follows_of_run hrun
    have hevents := emulatorEnabled_of_follows hfollows henabled
    obtain ⟨rfl, -⟩ := emulatedOutcome_of_run hwords htranscript hevents
    exact ⟨t', hrun⟩

/-- The variables of a user who enables the emulator, and whose other settings speak of the hardware. -/
def emulatorVariables (name : String) : Option ByteArray :=
  ([("VC4_EMULATOR", " yes"), ("VC4_EXECUTE_MAILBOX", "1"), ("VC4_CACHE_FORCE", "2"),
    ("VC4_NO_V3D", "1")].lookup name).map String.toUTF8

/-- The tool reads them for a user with privileges. -/
def emulatorReading : List (Exchange Linux) :=
  ⟨.effectiveUser, (0 : UInt32)⟩ :: Config.Setting.all.map fun setting =>
    ⟨.environment setting.variableName, emulatorVariables setting.variableName⟩

theorem emulatorEnabled_reading : EmulatorEnabled emulatorReading := by
  intro value hvalue
  rcases List.mem_cons.mp hvalue with huser | htold
  · cases huser
  · obtain ⟨setting, -, hsame⟩ := List.mem_map.mp htold
    obtain ⟨hrequest, hreply⟩ := Exchange.mk.inj hsame
    obtain rfl := Config.variableName_inj (Linux.Request.environment.inj hrequest)
    exact ⟨" yes", (eq_of_heq hreply).symm, Config.turnsOn_iff.mp (by decide)⟩

theorem emulated_runs_agree_sample :
    run ["--emulated", "--allocate=64"] = .done (emulatedOutcome false (some 64)) ∧
    Transcript (run ["--allocate", "64"]) emulatorReading (emulatedOutcome false (some 64)) ∧
    (emulatedOutcome false (some 64)).output =
      "backends:     memory=emulator execution=emulator (emulated)\nQPUs:         12\n" ++
      "QPU clock:    250 MHz\ntemperature:  25.0 C\nGPU memory:   1024 MiB\nVPM memory:   12 KiB\n" ++
      "allocation:   64 bytes at 0x00000000 (handle 1, released: true)\n" := by
  have hconfigure : ∃ c, Transcript (configure { allocate := some 64 }) emulatorReading c :=
    ⟨_, .ask _ (.ask _ (.ask _ (.ask _ (.ask _ (.ask _ (.ask _ (.ask _ (.ask _ (.ask _ (.ask _ (.ask _
      (.ask _ (.ask _ (.ask _ (.done _)))))))))))))))⟩
  obtain ⟨c, hconfigure⟩ := hconfigure
  have hreport : Transcript (reportUnder c (some 64)) [] (emulatedReport (some 64)) := by
    rw [reportUnder_emulated (emulated_of_configure emulatorEnabled_reading hconfigure)]
    exact .done _
  have hwords : Options.read? ["--allocate", "64"] = some { allocate := some 64 } := by decide
  obtain ⟨outcome, hrun⟩ := run_of_report hwords (hconfigure.append hreport)
  rw [List.append_nil] at hrun
  obtain ⟨rfl, -⟩ := (emulated_runs_agree _ _ hwords).2.1 _ _ hrun emulatorEnabled_reading
  have hoption : Options.read? ["--emulated", "--allocate=64"] =
      some { emulated := true, allocate := some 64 } := by decide
  exact ⟨(emulated_runs_agree _ _ hoption).1 rfl, hrun, by decide +kernel⟩

end VideoCore.Info
