import VideoCore.Info
import VideoCore.Proofs.Linux.Activation

/-!
# What a report asks for

A report is collected part by part from an open system. Every part keeps to the backends that the system
has, and one of them goes beyond: a system that is not emulated and has no mailbox is given one for the
report. So `collect_reserves` leaves all backends alone that the system does not have, but for the
mailbox.
-/

namespace VideoCore.Info

open Hardware
open Firmware (Message)
open Linux (Links Spared Opening across tryAcross across_keeps spared_nil spared_of_opens)
open Dialog (Transcript Ensures)
open Trial (Valued)

variable {α β : Type} {s : System} {links : Links}

/-! ## Parts of a report -/

/-- The backends that a system does not have are left alone, but for the mailbox if the system is not
emulated. -/
def Reserved (s : System) (events : List (Exchange Linux)) : Prop :=
  ∀ kind, s.backends.has kind = false → (kind = .mailbox → s.config.emulated = true) →
    Spared kind events

theorem reserved_nil : Reserved s [] :=
  fun _ _ _ => spared_nil

theorem Reserved.append {first rest : List (Exchange Linux)} (h : Reserved s first)
    (k : Reserved s rest) : Reserved s (first ++ rest) :=
  fun kind habsent hmailbox => (h kind habsent hmailbox).append (k kind habsent hmailbox)

/-- A part of the report leaves them alone, and its value meets a condition unless it fails. -/
abbrev Collects (s : System) (post : α → Prop) (x : Collecting α) : Prop :=
  Ensures (Reserved s) (Valued post) x.run

theorem collects_pure {post : α → Prop} {a : α} (h : post a) : Collects s post (pure a) :=
  .done reserved_nil h

theorem collects_throw {post : α → Prop} (failure : Failure) : Collects s post (throw failure) :=
  .done reserved_nil trivial

theorem collects_bind {x : Collecting α} {f : α → Collecting β} {mid : α → Prop} {post : β → Prop}
    (h : Collects s mid x) (k : ∀ a, mid a → Collects s post (f a)) : Collects s post (x >>= f) :=
  Trial.ensures_bind reserved_nil Reserved.append h k

theorem collects_lift {d : Dialog Linux α} {post : α → Prop} (h : Ensures (Reserved s) post d) :
    Collects s post (liftM d) :=
  Trial.ensures_lift reserved_nil Reserved.append h

/-- A fault becomes a failure, and a value stays what it is. -/
theorem collects_failing {context : Option String} {opening : Opening α} {post : α → Prop}
    (h : Ensures (Reserved s) (Valued post) opening.run) : Collects s post (failing context opening) := by
  refine h.bind Reserved.append fun r hr => ?_
  cases r with
  | ok a => exact .done reserved_nil hr
  | error fault => exact .done reserved_nil trivial

theorem across_reserves {access : Access α} {post : α → Prop}
    (h : Ensures (KeepsTo s.backends) post access) (links : Links) :
    Ensures (Reserved s) post (across links access) :=
  (across_keeps h links).imp (fun hkeeps kind habsent _ => hkeeps kind habsent) id

/-! ## The board -/

theorem answers_keeps (s : System) (queries : List SystemQuery) :
    Ensures (KeepsTo s.backends) (fun _ => True) (answers s queries) := by
  induction queries with
  | nil => exact .done keepsTo_nil trivial
  | cons q rest ih =>
    refine (s.query_keeps q).bind KeepsTo.append fun answer _ => ?_
    exact ih.bind KeepsTo.append fun _ _ => .done keepsTo_nil trivial

/-- The board is asked for by messages. -/
theorem boardReport_plain {allowed : Request → Prop} (h : ∀ m, allowed (.property m)) :
    Trial.Plain allowed boardReport := by
  have hword := Mailbox.requestWord_plain h
  refine Trial.plain_bind (hword ..) fun revision => ?_
  cases revision with
  | none => exact Trial.plain_pure _
  | some revision =>
    refine Trial.plain_bind (hword ..) fun _ => Trial.plain_bind (hword ..) fun _ => ?_
    refine Trial.plain_bind (hword ..) fun _ => Trial.plain_bind (hword ..) fun _ => ?_
    exact Trial.plain_pure _

/-- There is a mailbox for the report only if the system has one or is not emulated. -/
theorem findMailbox_reserves (s : System) (links : Links) :
    Ensures (Reserved s)
      (fun m => m.links ≠ none → s.backends.has .mailbox = true ∨ s.config.emulated = false)
      (findMailbox s links) := by
  unfold findMailbox
  split
  · next hup => exact .done reserved_nil fun _ => .inl hup
  split
  · exact .done reserved_nil fun hlinks => absurd rfl hlinks
  · next hreal =>
    rw [Bool.not_eq_true] at hreal
    have hopen : Ensures (Reserved s) (fun _ => True) Linux.openMailbox.run := by
      refine ⟨Linux.openMailbox_plain.run.imp fun _ _ => trivial, fun t => ⟨?_, trivial⟩⟩
      intro kind habsent hmailbox
      refine spared_of_opens ?_ (Linux.openMailbox_plain.run.of_transcript t)
      rintro rfl
      rw [hmailbox rfl] at hreal
      cases hreal
    refine hopen.bind Reserved.append fun opened _ => ?_
    cases opened with
    | ok file => exact .done reserved_nil fun _ => .inr hreal
    | error fault => exact .done reserved_nil fun _ => .inr hreal

/-- Messages over the mailbox of the report. -/
theorem mailbox_reserves {access : Access α} (links : Links)
    (h : s.backends.has .mailbox = true ∨ s.config.emulated = false)
    (hwithin : access.Plain (Within .mailbox)) (hmapped : access.Plain fun q : Request => q.mapped? = none) :
    Ensures (Reserved s) (fun _ => True) (across links access) := by
  -- for the time of the report the system has a mailbox
  let b : Backends := { s.backends with mailbox := true }
  have hup : b.has .mailbox = true := rfl
  have hkeeps := across_keeps (ensures_within hup hwithin hmapped) links
  refine hkeeps.imp (fun hspared kind habsent hmailbox => hspared kind ?_) id
  cases kind with
  | mailbox =>
    rcases h with hup | hreal
    · rw [hup] at habsent
      cases habsent
    · rw [hmailbox rfl] at hreal
      cases hreal
  | v3d | sharedMemory | gpuService | emulator => exact habsent

/-! ## The other parts -/

/-- The registers are read. -/
theorem v3dReport_plain {allowed : Request → Prop} (h : ∀ offset, allowed (.readRegister offset)) :
    v3dReport.Plain allowed := by
  have hinfo : ∀ i, (V3d.info i).Plain allowed :=
    fun _ => Dialog.Plain.bind (plain_ask (h _)) fun _ => trivial
  have hversion : V3d.technologyVersion.Plain allowed :=
    Dialog.Plain.bind (plain_ask (h _)) fun _ => trivial
  refine hversion.bind fun _ => (hinfo _).bind fun _ => (hinfo _).bind fun _ => ?_
  refine (hinfo _).bind fun _ => (hinfo _).bind fun _ => (hinfo _).bind fun _ => ?_
  exact (hinfo _).bind fun _ => (hinfo _).bind fun _ => trivial

/-- The buffer is given back, and the system has the backends that it had. -/
theorem allocationReport_collects (s : System) (links : Links) (size : UInt32) :
    Collects s (fun result => result.2.backends.has = s.backends.has) (allocationReport s links size) := by
  refine collects_bind (collects_failing (across_reserves (s.allocate_keeps { size }) links)) ?_
  rintro ⟨buffer, s'⟩ ⟨hhas, hgiven⟩
  cases buffer with
  | none => exact collects_throw _
  | some buffer =>
    have hup : s'.backends.has buffer.owner.kind = true := by
      rw [hhas]
      exact hgiven buffer rfl
    have hrelease := (Backends.release_keeps hup).imp (fun h => h.congr hhas) id
    refine collects_bind (collects_lift (across_reserves hrelease links)) ?_
    rintro ⟨released, backends⟩ hreleased
    cases released with
    | error fault => exact collects_throw _
    | ok released => exact collects_pure (Eq.trans hreleased hhas)

theorem optionalAllocation_collects (s : System) (links : Links) (allocate : Option UInt32) :
    Collects s (fun result => result.2.backends.has = s.backends.has)
      (optionalAllocation s links allocate) := by
  cases allocate with
  | none => exact collects_pure rfl
  | some size =>
    refine collects_bind (allocationReport_collects s links size) ?_
    rintro ⟨report, s'⟩ hhas
    exact collects_pure hhas

/-- The board is asked for over the mailbox, if there is one. -/
def boardPart (mailbox : ReportMailbox) : Collecting (Option BoardReport) :=
  match mailbox.links with
  | some links => failing none (tryAcross links boardReport)
  | none => return none

/-- The registers are read if they are mapped. -/
def v3dPart (s : System) (links : Links) : Collecting (Option V3dReport) :=
  if s.backends.v3d.isSome then some <$> (across links v3dReport : Dialog Linux V3dReport)
  else return none

/-- The allocation and the totals. -/
def otherParts (s : System) (links : Links) (allocate : Option UInt32)
    (answers : List (SystemQuery × Option UInt32)) (board : Option BoardReport)
    (v3d : Option V3dReport) : Collecting Report := do
  let (allocation, s) ← optionalAllocation s links allocate
  let totalGpuMemory ← (across links s.totalGpuMemory : Dialog Linux UInt32)
  let numQpus ← (across links s.numQpus : Dialog Linux UInt32)
  let qpuClockRate ← (across links s.qpuClockRate : Dialog Linux UInt32)
  let gpuTemperature ← (across links s.gpuTemperature : Dialog Linux UInt32)
  let totalVpmMemory ← (across links s.totalVpmMemory : Dialog Linux UInt32)
  return { emulated := s.config.emulated, memoryName := s.memoryName,
           executionName := s.executionName, totalGpuMemory, numQpus, qpuClockRate,
           gpuTemperature, totalVpmMemory, answers, board, v3d, allocation }

theorem collectParts_eq (s : System) (links : Links) (mailbox : ReportMailbox)
    (allocate : Option UInt32) (answers : List (SystemQuery × Option UInt32)) :
    collectParts s links mailbox allocate answers = (do
      let board ← boardPart mailbox
      let v3d ← v3dPart s links
      otherParts s links allocate answers board v3d) := by
  unfold collectParts boardPart v3dPart
  cases mailbox.links with
  | none =>
    cases s.backends.v3d.isSome with
    | false => rfl
    | true => rfl
  | some links =>
    cases s.backends.v3d.isSome with
    | false => rfl
    | true => rfl

theorem boardPart_collects {mailbox : ReportMailbox}
    (hmailbox : mailbox.links ≠ none → s.backends.has .mailbox = true ∨ s.config.emulated = false) :
    Collects s (fun _ => True) (boardPart mailbox) := by
  unfold boardPart
  split
  · next links hlinks =>
    have hsome : mailbox.links ≠ none := by simp [hlinks]
    have hover := mailbox_reserves links (hmailbox hsome)
      (boardReport_plain fun _ => .inr rfl).run (boardReport_plain fun _ => rfl).run
    exact collects_failing (hover.imp id fun {r} _ => by cases r <;> trivial)
  · exact collects_pure trivial

theorem v3dPart_collects (s : System) (links : Links) :
    Collects s (fun _ => True) (v3dPart s links) := by
  unfold v3dPart
  split
  · next hup =>
    have hhas : s.backends.has .v3d = true := hup
    have hover := across_reserves (ensures_within hhas (v3dReport_plain fun _ => .inr rfl)
      (v3dReport_plain fun _ => rfl)) links
    rw [map_eq_pure_bind]
    exact collects_bind (collects_lift hover) fun _ _ => collects_pure trivial
  · exact collects_pure trivial

/-- After the allocation the system has the backends that it had, so the totals are asked of them. -/
theorem otherParts_collects (s : System) (links : Links) (allocate : Option UInt32)
    (answers : List (SystemQuery × Option UInt32)) (board : Option BoardReport)
    (v3d : Option V3dReport) :
    Collects s (fun _ => True) (otherParts s links allocate answers board v3d) := by
  refine collects_bind (optionalAllocation_collects s links allocate) ?_
  rintro ⟨allocation, s'⟩ hhas
  have htotal (q : SystemQuery) :
      Ensures (Reserved s) (fun _ => True) (across links (s'.queryOrDefault q)) :=
    across_reserves ((s'.queryOrDefault_keeps q).imp (fun h => h.congr hhas) id) links
  refine collects_bind (collects_lift (htotal .totalGpuMemoryBytes)) fun _ _ => ?_
  refine collects_bind (collects_lift (htotal .numQpus)) fun _ _ => ?_
  refine collects_bind (collects_lift (htotal .currentQpuClockRateHz)) fun _ _ => ?_
  refine collects_bind (collects_lift (htotal .qpuTemperatureMilliDegrees)) fun _ _ => ?_
  refine collects_bind (collects_lift (htotal .totalVpmMemoryBytes)) fun _ _ => ?_
  exact collects_pure trivial

theorem collectParts_collects {mailbox : ReportMailbox}
    (hmailbox : mailbox.links ≠ none → s.backends.has .mailbox = true ∨ s.config.emulated = false)
    (allocate : Option UInt32) (answers : List (SystemQuery × Option UInt32)) :
    Collects s (fun _ => True) (collectParts s links mailbox allocate answers) := by
  rw [collectParts_eq]
  refine collects_bind (boardPart_collects hmailbox) fun board _ => ?_
  refine collects_bind (v3dPart_collects s links) fun v3d _ => ?_
  exact otherParts_collects s links allocate answers board v3d

/-! ## The whole -/

theorem stop_reserves {mailbox : ReportMailbox}
    (hmailbox : mailbox.links ≠ none → s.backends.has .mailbox = true ∨ s.config.emulated = false) :
    Ensures (Reserved s) (fun _ => True) mailbox.stop := by
  unfold ReportMailbox.stop
  split
  · next links hlinks =>
    have hsome : mailbox.links ≠ none := by simp [hlinks]
    have hunmapped : Mailbox.stop.Plain fun q : Request => q.mapped? = none :=
      Mailbox.stop_plain (fun _ => rfl) (fun _ => rfl) rfl
    split
    · exact mailbox_reserves links (hmailbox hsome) (Backends.stop_within {} .mailbox) hunmapped
    · exact .done reserved_nil trivial
  · exact .done reserved_nil trivial

/-- A report leaves the backends alone that the system does not have. The mailbox is left alone if the
system is emulated. -/
theorem collect_reserves (s : System) (links : Links) (allocate : Option UInt32) :
    Ensures (Reserved s) (fun _ => True) (collect s links allocate) := by
  refine (across_reserves (answers_keeps s _) links).bind Reserved.append fun answers _ => ?_
  refine (findMailbox_reserves s links).bind Reserved.append fun mailbox hmailbox => ?_
  refine (collectParts_collects hmailbox allocate answers).bind Reserved.append fun report _ => ?_
  exact (stop_reserves hmailbox).bind Reserved.append fun _ _ => .done reserved_nil trivial

theorem letGo_reserves (s : System) (links : Links) :
    Ensures (Reserved s) (fun _ => True) (letGo s links) :=
  (across_reserves (Session.detach_keeps s) links).bind Reserved.append
    fun _ _ => .done reserved_nil trivial

end VideoCore.Info
