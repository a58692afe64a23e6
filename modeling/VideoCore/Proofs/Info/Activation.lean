import VideoCore.Proofs.Info.Collecting
import VideoCore.Proofs.Linux.Teardown
import VideoCore.Proofs.Session.Operations

/-!
# What stays off

A user who has switched a backend off expects that nothing activates it. `StaysOff` says what becomes of
that, for every backend, on every machine and with every selection. A system leaves the backend alone,
and so does the report tool, with one exception: for the board it opens a mailbox of its own, without a
look at the switch, whenever it comes to report on a system that is not emulated.
-/

namespace VideoCore.Info

open Linux (Links SharedSystem Spared SwitchedOff mailboxDevice openSystem opening_spares absent_of_opening)
open Dialog (Transcript)
open Trial (Yields)

variable {kind : BackendKind} {words : List String} {o : Options} {c : Config}
  {events : List (Exchange Linux)} {r : Except Failure Report} {outcome : Outcome}

/-! ## Runs -/

theorem run_cases (h : Transcript (run words) events outcome) :
    (Options.read? words = none ∧ events = []) ∨
      ∃ o r, Options.read? words = some o ∧ Transcript (report o) events r := by
  unfold run at h
  split at h
  · next hwords => exact .inl ⟨hwords, (Dialog.transcript_done.mp h).1⟩
  · next o hwords =>
    obtain ⟨r, hreport, -⟩ := Dialog.transcript_map.mp h
    exact .inr ⟨o, r, hwords, hreport⟩

theorem run_of_report (hwords : Options.read? words = some o) (h : Transcript (report o) events r) :
    ∃ outcome, Transcript (run words) events outcome := by
  unfold run
  rw [hwords]
  exact ⟨_, Dialog.transcript_map.mpr ⟨r, h, rfl⟩⟩

/-- What happens once it is known how the opening of the system ends. -/
inductive Reported (o : Options) :
    Except Fault (System × Links) → List (Exchange Linux) → Except Failure Report → Prop where
  | refused (fault : Fault) :
      Reported o (.error fault) [] (.error (.fault (some "initialise hardware access") fault))
  | collected {s : System} {links : Links} {collecting ending : List (Exchange Linux)}
      {r : Except Failure Report} (collects : Transcript (collect s links o.allocate) collecting r)
      (ends : Transcript (letGo s links) ending ()) :
      Reported o (.ok (s, links)) (collecting ++ ending) r

/-- A report reads the configuration and opens the system before it collects. -/
theorem report_cases (h : Transcript (report o) events r) :
    ∃ configuring c opening opened rest, events = configuring ++ (opening ++ rest) ∧
      Transcript (configure o) configuring c ∧ Yields (openSystem c) opening opened ∧
      Reported o opened rest r := by
  obtain ⟨configuring, more, c, rfl, hconfigure, hmore⟩ := Dialog.transcript_bind.mp h
  obtain ⟨opening, rest, opened, rfl, hopen, hrest⟩ := Dialog.transcript_bind.mp hmore
  refine ⟨configuring, c, opening, opened, rest, rfl, hconfigure, hopen, ?_⟩
  rcases opened with fault | ⟨s, links⟩
  · obtain ⟨rfl, rfl⟩ := Dialog.transcript_done.mp hrest
    exact .refused fault
  · obtain ⟨collecting, more, r', rfl, hcollect, hmore⟩ := Dialog.transcript_bind.mp hrest
    obtain ⟨ending, last, u, rfl, hend, hlast⟩ := Dialog.transcript_bind.mp hmore
    obtain ⟨rfl, rfl⟩ := Dialog.transcript_done.mp hlast
    rw [List.append_nil]
    exact .collected hcollect hend

/-- The tool comes to report on a system that is not emulated. -/
def ReportsHardware (words : List String) (events : List (Exchange Linux)) : Prop :=
  ∃ o configuring c opening s links rest, Options.read? words = some o ∧
    events = configuring ++ (opening ++ rest) ∧ Transcript (configure o) configuring c ∧
    Yields (openSystem c) opening (.ok (s, links)) ∧ c.emulated = false

/-! ## The configuration -/

theorem configure_plain (o : Options) : (configure o).Plain Linux.Request.Looks := by
  unfold configure
  split
  · trivial
  · exact Linux.readConfig_plain.bind fun _ => trivial

/-- A backend that is switched off is not activated, whatever the options. -/
theorem activates_of_configure (hoff : SwitchedOff kind events) (h : Transcript (configure o) events c) :
    c.activates kind = false := by
  unfold configure at h
  split at h
  · obtain ⟨-, rfl⟩ := Dialog.transcript_done.mp h
    exact Config.activates_of_emulated rfl
  · obtain ⟨⟨c, warnings⟩, hread, rfl⟩ := Dialog.transcript_map.mp h
    exact Config.activates_of_disables (Linux.disables_of_readConfig hoff hread)

/-! ## The mailbox of the report -/

/-- The first that a mailbox asks for is its device. -/
theorem opened_of_openMailbox {result : Except Fault Linux.File}
    (h : Yields Linux.openMailbox events result) :
    ∃ e ∈ events, e.request.device? = some mailboxDevice := by
  have hdevice : ∀ {events : List (Exchange Linux)} {result : Except Fault Linux.File},
      Yields (Linux.openMailboxDevice mailboxDevice) events result →
      ∃ e ∈ events, e.request.device? = some mailboxDevice := by
    intro events result h
    unfold Linux.openMailboxDevice at h
    rw [if_neg (by simp [mailboxDevice])] at h
    obtain ⟨reply, rest, rfl, -⟩ := Trial.yields_ask.mp h
    exact ⟨_, List.mem_cons_self, rfl⟩
  rcases Trial.yields_bind.mp h with ⟨fault, hopen, -⟩ | ⟨first, rest, file, rfl, hopen, -⟩
  · exact hdevice hopen
  · obtain ⟨e, he, hopens⟩ := hdevice hopen
    exact ⟨e, List.mem_append_left _ he, hopens⟩

/-- A system that is not emulated and has no mailbox has one opened for its report. -/
theorem opened_of_collect {s : System} {links : Links} {allocate : Option UInt32}
    (habsent : s.backends.mailbox = false) (hreal : s.config.emulated = false)
    (h : Transcript (collect s links allocate) events r) :
    ∃ e ∈ events, e.request.device? = some mailboxDevice := by
  obtain ⟨asking, more, answers, rfl, -, hmore⟩ := Dialog.transcript_bind.mp h
  obtain ⟨finding, last, mailbox, rfl, hfind, -⟩ := Dialog.transcript_bind.mp hmore
  unfold findMailbox at hfind
  rw [habsent, hreal] at hfind
  obtain ⟨opening, rest, opened, rfl, hopen, -⟩ := Dialog.transcript_bind.mp hfind
  obtain ⟨e, he, hopens⟩ := opened_of_openMailbox hopen
  exact ⟨e, by simp [he], hopens⟩

/-! ## Staying off -/

/-- What becomes of a backend that is switched off. -/
structure StaysOff (kind : BackendKind) : Prop where
  /-- Opening a system leaves it alone, whatever else its configuration selects. -/
  opening : ∀ c events result, c.disables kind = true → Yields (openSystem c) events result →
    Spared kind events
  /-- So does the system of the process, which takes its configuration from the environment. -/
  process : ∀ (s : SharedSystem) events result s', SwitchedOff kind events →
    Transcript s.get events (result, s') → Spared kind events
  /-- So does the tool with all options, unless the backend is the mailbox and the tool comes to report
  on the hardware. Then it does not. -/
  tool : ∀ words events outcome, SwitchedOff kind events → Transcript (run words) events outcome →
    (Spared kind events ↔ ¬ (kind = .mailbox ∧ ReportsHardware words events))
  /-- All of them come to an end. -/
  comesBack : ∀ {τ : Type} (machine : Surroundings Linux τ) (turns : Nat) (t : τ),
    (∀ c, ∃ result t', (openSystem c).run.run machine turns t = some (result, t')) ∧
    (∀ s : SharedSystem, ∃ result t', s.get.run machine turns t = some (result, t')) ∧
    ∀ words, ∃ outcome t', (run words).run machine turns t = some (outcome, t')

theorem run_plain (words : List String) : (run words).Plain fun _ => True := by
  have hreport (o : Options) : (report o).Plain fun _ => True := by
    refine ((configure_plain o).imp fun _ _ => trivial).bind fun c => ?_
    refine (Linux.openSystem_plain c).run.bind fun opened => ?_
    rcases opened with fault | ⟨s, links⟩
    · trivial
    · refine (collect_reserves s links o.allocate).plain.bind fun r => ?_
      exact (letGo_reserves s links).plain.bind fun _ => trivial
  unfold run
  split
  · trivial
  · next o _ =>
    exact (hreport o).bind fun _ => trivial

/-- A report leaves a backend alone that its configuration does not activate, unless the backend is the
mailbox and the configuration is not emulated. -/
theorem report_spares {configuring opening rest : List (Exchange Linux)}
    {opened : Except Fault (System × Links)} (hconfigure : Transcript (configure o) configuring c)
    (hopen : Yields (openSystem c) opening opened) (hrest : Reported o opened rest r)
    (hidle : c.activates kind = false) (hkind : kind ≠ .emulator)
    (hmailbox : kind = .mailbox → ∀ s links, opened = .ok (s, links) → c.emulated = true) :
    Spared kind (configuring ++ (opening ++ rest)) := by
  have hconfiguring : Spared kind configuring :=
    Linux.spared_of_looks ((configure_plain o).of_transcript hconfigure)
  refine hconfiguring.append ((opening_spares hopen hidle).append ?_)
  cases hrest with
  | refused => exact Linux.spared_nil
  | @collected s links collecting ending r hcollect hend =>
    obtain ⟨hconfig, habsent⟩ := absent_of_opening hopen hidle hkind
    have hemulated : kind = .mailbox → s.config.emulated = true := by
      intro h
      rw [hconfig]
      exact hmailbox h s links rfl
    exact (((collect_reserves s links o.allocate).all hcollect).1 kind habsent hemulated).append
      (((letGo_reserves s links).all hend).1 kind habsent hemulated)

/-- The tool leaves a backend alone that is switched off, unless it opens a mailbox for its report. -/
theorem tool_spares (hoff : SwitchedOff kind events) (h : Transcript (run words) events outcome) :
    Spared kind events ↔ ¬ (kind = .mailbox ∧ ReportsHardware words events) := by
  constructor
  · rintro hspared ⟨rfl, o, configuring, c, opening, s, links, rest, hwords, rfl, hconfigure, hopen, hreal⟩
    obtain ⟨hnone, -⟩ | ⟨o', r, hwords', hreport⟩ := run_cases h
    · rw [hnone] at hwords
      cases hwords
    rw [hwords'] at hwords
    cases hwords
    obtain ⟨configuring', c', opening', opened, rest', hevents, hconfigure', hopen', hrest⟩ :=
      report_cases hreport
    -- the run has opened the system in the way that is told
    obtain ⟨rfl, rfl⟩ := hconfigure.unique hconfigure' hevents
    replace hevents := List.append_cancel_left hevents
    obtain ⟨rfl, rfl⟩ := Dialog.Transcript.unique hopen hopen' hevents
    obtain rfl := List.append_cancel_left hevents
    have hidle := activates_of_configure hoff.left hconfigure
    obtain ⟨hconfig, habsent⟩ := absent_of_opening hopen hidle nofun
    cases hrest with
    | collected hcollect hend =>
      obtain ⟨e, he, hopens⟩ := opened_of_collect habsent (hconfig ▸ hreal) hcollect
      exact hspared.unopened rfl e (by simp [he]) hopens
  · intro hnot
    obtain ⟨-, rfl⟩ | ⟨o, r, hwords, hreport⟩ := run_cases h
    · exact Linux.spared_nil
    obtain ⟨configuring, c, opening, opened, rest, rfl, hconfigure, hopen, hrest⟩ := report_cases hreport
    have hidle := activates_of_configure hoff.left hconfigure
    refine report_spares hconfigure hopen hrest hidle hoff.ne_emulator ?_
    rintro rfl s links rfl
    by_contra hreal
    rw [Bool.not_eq_true] at hreal
    exact hnot ⟨rfl, o, configuring, c, opening, s, links, rest, hwords, rfl, hconfigure, hopen, hreal⟩

/-- **A backend that is switched off stays off**, but for the mailbox that the tool opens for its
report. -/
theorem stays_off (kind : BackendKind) : StaysOff kind where
  opening _ _ _ hoff h := opening_spares h (Config.activates_of_disables hoff)
  process _ _ _ _ hoff h := Linux.get_spares hoff h
  tool _ _ _ hoff h := tool_spares hoff h
  comesBack machine turns t :=
    ⟨fun c => (Linux.openSystem_plain c).run.exists_run machine turns t,
      fun s => (Linux.get_plain s).exists_run machine turns t,
      fun words => (run_plain words).exists_run machine turns t⟩

/-! ### A mailbox for the board -/

/-- The variables of a user who has switched off all but the registers. -/
def guardedVariables (name : String) : Option ByteArray :=
  if name ∈ ["VC4_NO_MAILBOX", "VC4_NO_VCSM", "VC4_NO_VCHI"] then some "1".toUTF8 else none

def guardedConfig : Config :=
  { execution := .gpuService, memory := .sharedPool, disableMailbox := true,
    disableSharedMemory := true, disableGpuService := true }

/-- The tool reads the configuration of the user, who has no privileges. -/
def guardedStart : List (Exchange Linux) :=
  ⟨.effectiveUser, (1000 : UInt32)⟩ :: Config.Setting.all.map fun setting =>
    ⟨.environment setting.variableName, guardedVariables setting.variableName⟩

/-- A mailbox is opened for the board. -/
def boardOpening : List (Exchange Linux) :=
  [⟨.openDevice mailboxDevice false, .ok ⟨3⟩⟩,
    ⟨.propertyCall ⟨3⟩ (Mailbox.powerOrder true), .ok (Mailbox.accepting 1 0)⟩]

/-- The firmware does not tell the board, and the mailbox is given up. -/
def boardAsking : List (Exchange Linux) :=
  [⟨.propertyCall ⟨3⟩ Mailbox.boardMessage, .ok (Vector.replicate 7 0)⟩,
    ⟨.propertyCall ⟨3⟩ (Mailbox.powerOrder false), .ok (Mailbox.accepting 1 0)⟩,
    ⟨.closeFile ⟨3⟩, ()⟩]

/-- All that the tool exchanges for the user, without any options. -/
def guardedRun : List (Exchange Linux) := guardedStart ++ (boardOpening ++ boardAsking)

theorem boardOpening_happens : Yields Linux.openMailbox boardOpening (.ok ⟨3⟩) := by
  have hdevice : Yields (Linux.openMailboxDevice mailboxDevice)
      [⟨.openDevice mailboxDevice false, .ok ⟨3⟩⟩] (.ok ⟨3⟩) := by
    unfold Linux.openMailboxDevice
    rw [if_neg (by simp [mailboxDevice])]
    exact .ask _ (.done _)
  have hstart : Yields (do Linux.tryAcross { mailbox := some ⟨3⟩ } Mailbox.start; return ⟨3⟩)
      [⟨.propertyCall ⟨3⟩ (Mailbox.powerOrder true), .ok (Mailbox.accepting 1 0)⟩]
      (.ok (⟨3⟩ : Linux.File)) := .ask _ (.done _)
  exact hdevice.append hstart

theorem guardedRun_happens : ∃ outcome, Transcript (run []) guardedRun outcome := by
  have hconfigure : Transcript (configure {}) guardedStart guardedConfig :=
    .ask _ (.ask _ (.ask _ (.ask _ (.ask _ (.ask _ (.ask _ (.ask _ (.ask _ (.ask _ (.ask _ (.ask _
      (.ask _ (.ask _ (.ask _ (.done _)))))))))))))))
  have hopen : Yields (openSystem guardedConfig) [] (.ok (.ofBackends guardedConfig {}, {})) := .done _
  have hfind : Transcript (findMailbox (.ofBackends guardedConfig {}) {}) boardOpening
      { links := some { mailbox := some ⟨3⟩ }, own := true } := boardOpening_happens.append (.done _)
  -- nobody is there to answer the queries
  obtain ⟨r, hcollect⟩ : ∃ r, Transcript (collect (.ofBackends guardedConfig {}) {} none)
      ([] ++ (boardOpening ++ boardAsking)) (.ok r) :=
    ⟨_, Transcript.append (.done _) (hfind.append (.ask _ (.ask _ (.ask _ (.done _)))))⟩
  have hletGo : Transcript (letGo (.ofBackends guardedConfig {}) {}) [] () := .done _
  have hreport : Transcript (report {}) (guardedStart ++ ([] ++ (boardOpening ++ boardAsking ++ ([] ++ []))))
      (.ok r) :=
    hconfigure.append (Transcript.append hopen (hcollect.append (hletGo.append (.done _))))
  exact run_of_report rfl hreport

theorem switchedOff_guardedRun {setting : Config.Setting} (hsetting : Config.disabling? kind = some setting)
    (hother : kind ≠ .v3d) : SwitchedOff kind guardedRun := by
  refine ⟨setting, hsetting, fun value hvalue => ?_⟩
  have htold : value = guardedVariables setting.variableName := by
    rcases List.mem_append.mp hvalue with hstart | hrest
    · rcases List.mem_cons.mp hstart with huser | hmem
      · cases huser
      · obtain ⟨setting, -, htold⟩ := List.mem_map.mp hmem
        generalize setting.variableName = name at htold
        cases htold
        rfl
    · simp [boardOpening, boardAsking] at hrest
  rw [htold]
  cases kind with
  | v3d => exact absurd rfl hother
  | emulator => cases hsetting
  | mailbox | sharedMemory | gpuService =>
    cases hsetting
    decide

/-- Neither shared memory nor the GPU service is started for that user, and the registers are not mapped
for a user who has switched them off. -/
theorem stays_off_sample :
    Spared .sharedMemory guardedRun ∧ Spared .gpuService guardedRun ∧
      Spared .v3d Linux.memoryOpening := by
  obtain ⟨outcome, hrun⟩ := guardedRun_happens
  refine ⟨?_, ?_, (stays_off .v3d).opening Linux.memoryOnly _ _ rfl Linux.memoryOpening_happens⟩
  · exact ((stays_off .sharedMemory).tool _ _ _ (switchedOff_guardedRun rfl nofun) hrun).mpr nofun
  · exact ((stays_off .gpuService).tool _ _ _ (switchedOff_guardedRun rfl nofun) hrun).mpr nofun

/-- The mailbox is opened for that user and asked for the board, though it is switched off. -/
theorem disabled_mailbox_opened :
    (∃ outcome, Transcript (run []) guardedRun outcome) ∧ SwitchedOff .mailbox guardedRun ∧
      .openDevice mailboxDevice false ∈ guardedRun.map (·.request) ∧
      .propertyCall ⟨3⟩ Mailbox.boardMessage ∈ guardedRun.map (·.request) ∧
      ¬ Spared .mailbox guardedRun := by
  refine ⟨guardedRun_happens, switchedOff_guardedRun rfl nofun, ?_, ?_, fun hspared => ?_⟩
  · simp [guardedRun, boardOpening]
  · simp [guardedRun, boardAsking]
  · refine hspared.unopened rfl ⟨.openDevice mailboxDevice false, .ok ⟨3⟩⟩ ?_ rfl
    simp [guardedRun, boardOpening]

end VideoCore.Info
