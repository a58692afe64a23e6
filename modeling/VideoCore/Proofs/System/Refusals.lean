import VideoCore.Proofs.Emulator.Buffers
import VideoCore.Proofs.System.Breakdown

/-!
# What is declined

The counterpart of allocations: what each backend says of a dispatch that it does not execute, of a
job that does not complete in time, and of a buffer that it does not take back. Nothing but a message
to the firmware can break down here, and whatever else goes wrong is an ordinary answer: a handle that
fails, or a `false`.

A dispatch through the register block and a wait for a job are loops, and all that they say no to is
what comes too late (`EndsLate`): then the last thing that happens is a reading of the clock that is
past the time.
-/

namespace VideoCore

open Firmware Hardware
open Dialog (Transcript)
open GpuService (JobWait Tracker)

variable {events rest : List (Exchange Hardware)}

/-- The last thing that happened was a reading of the clock, and it was late. -/
def EndsLate (late : Instant → Prop) (events : List (Exchange Hardware)) : Prop :=
  ∃ now, events.getLast? = some ⟨.readClock, now⟩ ∧ late now

theorem endsLate_append {late : Instant → Prop} (first : List (Exchange Hardware)) (h : rest ≠ []) :
    EndsLate late (first ++ rest) ↔ EndsLate late rest := by
  unfold EndsLate
  rw [List.getLast?_append_of_ne_nil _ h]

/-! ## Executions -/

section Execution

variable {κ : Type} {d : Dispatch}

/-- A handle that has failed. -/
def HasFailed (handle : Handle κ) : Prop := handle = .settled false

theorem Mailbox.execute_toldApart {result : Except Fault (Handle κ)} (hcheck : d.check = .ok ())
    (h : Performs (Mailbox.execute d) events result) :
    ToldApart HasFailed (d.timeoutMs? = none ∨ ∃ e ∈ events, Declines e) (Broken events)
      result := by
  rcases Mailbox.performs_execute.mp h with
    ⟨fault, hfault, -⟩ | ⟨-, htimeout, rfl, rfl⟩ | ⟨timeout, reply, -, htimeout, rfl, rfl⟩
  · rw [hcheck] at hfault
    cases hfault
  · exact ⟨not_broken_nil, iff_of_true rfl (.inl htimeout)⟩
  · have horder : ToldApart HasFailed (Declines _) (BreaksDown _)
        (((Mailbox.wordOf _ 0 reply).map (· == some 0)).map (Handle.settled (κ := κ))) :=
      (toldApart_order reply).map fun passed => by simp [HasFailed]
    have hsame : ∀ x : Except Fault (Option UInt32),
        (x.map (· == some 0)).map (Handle.settled (κ := κ)) =
          x.map fun answer => .settled (answer == some 0) := by
      rintro (fault | answer)
      · rfl
      · rfl
    rw [hsame] at horder
    exact horder.congr (by simp [htimeout]) (by simp)

theorem GpuService.execute_toldApart {g : GpuService}
    {result : Except Fault (Handle JobWait × GpuService)} (hcheck : d.check = .ok ())
    (h : Performs (execute g d) events result) :
    ToldApart (fun pair => HasFailed pair.1) (d.timeoutMs? = none ∨ ∃ e ∈ events, Declines e)
      (Broken events) result := by
  rcases performs_execute.mp h with
    ⟨fault, hfault, -⟩ | ⟨-, htimeout, rfl, rfl⟩ | ⟨timeout, submitted, answer, -, htimeout, rfl, rfl⟩
  · rw [hcheck] at hfault
    cases hfault
  · exact ⟨not_broken_nil, iff_of_true rfl (.inl htimeout)⟩
  · refine ⟨by simp [submissionOf, BreaksDown], ?_⟩
    -- the clock does not decline anything, only the service does
    simp only [submissionOf, Declines, htimeout, List.mem_cons, List.not_mem_nil, reduceCtorEq,
      exists_eq_or_imp, false_or, or_false, exists_eq_left, HasFailed]
    unfold handleFor
    cases answer.accepted <;> simp

/-- A dispatch through the register block ran until its timeout was over. -/
def RanLate (d : Dispatch) (events : List (Exchange Hardware)) : Prop :=
  ∃ start, events.head? = some ⟨.readClock, start⟩ ∧
    EndsLate (fun now => d.timeout ≤ now.since start) events

/-- The loop of a dispatch passes unless its last reading of the clock is late. -/
theorem V3d.polling_toldApart {v3d : V3d} {start : Instant} {passed : Bool}
    (h : Transcript (polling v3d d start) events passed) :
    events ≠ [] ∧ ToldApart (· = false) (EndsLate (fun now => d.timeout ≤ now.since start) events)
      (Broken events) (.ok passed) := by
  refine h.iterate_induct (P := fun _ events passed => events ≠ [] ∧
    ToldApart (· = false) (EndsLate (fun now => d.timeout ≤ now.since start) events)
      (Broken events) (.ok passed)) ?_ ?_
  · intro _ turn passed hturn
    cases transcript_poll.mp hturn with
    | passed found =>
      exact ⟨List.cons_ne_nil _ _, by simp [ToldApart, statusRead, BreaksDown, EndsLate]⟩
    | late found due =>
      exact ⟨List.cons_ne_nil _ _, by simp [ToldApart, statusRead, BreaksDown, EndsLate, due]⟩
  · intro _ _ turn rest passed hturn ih
    obtain ⟨hrest, htold⟩ := ih
    have hquiet : ¬ Broken turn := by
      cases transcript_poll.mp hturn with
      | spin | nap => simp [statusRead, BreaksDown]
    refine ⟨by simp [hrest], htold.congr (endsLate_append turn hrest).symm ?_⟩
    simp [hquiet]

theorem V3d.not_broken_writing (writes : List (UInt32 × UInt32)) : ¬ Broken (writing writes) := by
  rintro ⟨e, he, hbroken⟩
  obtain ⟨write, -, rfl⟩ := List.mem_map.mp he
  exact hbroken

theorem V3d.execute_toldApart {v3d : V3d} {result : Except Fault (Handle κ)}
    (hcheck : d.check = .ok ()) (h : Performs (v3d.execute d) events result) :
    ToldApart HasFailed (RanLate d events) (Broken events) result := by
  obtain ⟨passed, hrun, rfl⟩ := (performs_execute hcheck).mp h
  obtain ⟨start, polls, rfl, hpolls⟩ := transcript_run.mp hrun
  obtain ⟨hsome, htold⟩ := polling_toldApart hpolls
  have hquiet := not_broken_writing (clearing d ++ queueing d.control)
  have hlate : RanLate d (⟨.readClock, start⟩ ::
      (writing (clearing d ++ queueing d.control) ++ polls)) ↔
        EndsLate (fun now => d.timeout ≤ now.since start) polls := by
    unfold RanLate
    rw [← List.cons_append]
    simp only [endsLate_append _ hsome]
    simp
  refine ToldApart.congr (htold.map (f := Handle.settled) fun passed => ?_) hlate.symm ?_
  · simp [HasFailed]
  · simp [hquiet, BreaksDown]

theorem Emulator.execute_toldApart {e : Emulator} {result : Except Fault (Handle κ × Emulator)}
    (hcheck : d.check = .ok ()) (h : Performs (e.execute d) events result) :
    ToldApart (fun pair => HasFailed pair.1)
      (e.slots.words? d.controlAddress (2 * d.control.length) = none ∨ e.hasModel = false ∨
        ∃ x ∈ events, Declines x) (Broken events) result := by
  cases hwords : e.slots.words? d.controlAddress (2 * d.control.length) with
  | none =>
    obtain ⟨rfl, rfl⟩ := (performs_execute_unknown hcheck (.inl hwords)).mp h
    exact ⟨not_broken_nil, iff_of_true rfl (.inl rfl)⟩
  | some words =>
    cases hmodel : e.hasModel with
    | false =>
      obtain ⟨rfl, rfl⟩ := (performs_execute_unknown hcheck (.inr hmodel)).mp h
      exact ⟨not_broken_nil, iff_of_true rfl (.inr (.inl rfl))⟩
    | true =>
      obtain ⟨emulated, rfl, rfl⟩ := (performs_execute_known hcheck hwords hmodel).mp h
      refine ⟨by simp [BreaksDown], ?_⟩
      cases houtcome : emulated.outcome with
      | passed | failed | crashed => simp [HasFailed, verdict, Declines, houtcome]

/-- Whether a backend declines a dispatch, as its state or the answers of the hardware say. -/
def Backends.DispatchRefused (b : Backends) (kind : BackendKind) (d : Dispatch)
    (events : List (Exchange Hardware)) : Prop :=
  match kind with
  | .mailbox | .gpuService => d.timeoutMs? = none ∨ ∃ e ∈ events, Declines e
  | .v3d => RanLate d events
  | .emulator => ∃ e, b.emulator = some e ∧
      (e.slots.words? d.controlAddress (2 * d.control.length) = none ∨ e.hasModel = false ∨
        ∃ x ∈ events, Declines x)
  | .sharedMemory => False

/-- Every backend executes but that of shared memory. -/
theorem Backends.execute_toldApart {b : Backends} {kind : BackendKind}
    {result : Except Fault (Handle JobWait × Backends)} (hhas : b.has kind = true)
    (hexecutes : kind ≠ .sharedMemory) (hcheck : d.check = .ok ())
    (h : Performs (b.execute kind d) events result) :
    ToldApart (fun pair => HasFailed pair.1) (b.DispatchRefused kind d events) (Broken events)
      result := by
  unfold execute at h
  cases kind with
  | sharedMemory => exact absurd rfl hexecutes
  | mailbox =>
    obtain ⟨handle, hhandle, rfl⟩ := performs_map.mp h
    exact (Mailbox.execute_toldApart hcheck hhandle).map fun _ => Iff.rfl
  | v3d =>
    obtain ⟨v, hv⟩ := Option.isSome_iff_exists.mp hhas
    simp only [hv] at h
    obtain ⟨handle, hhandle, rfl⟩ := performs_map.mp h
    exact (V3d.execute_toldApart hcheck hhandle).map fun _ => Iff.rfl
  | gpuService =>
    obtain ⟨g, hg⟩ := Option.isSome_iff_exists.mp hhas
    simp only [hg] at h
    obtain ⟨pair, hpair, rfl⟩ := performs_map.mp h
    exact (GpuService.execute_toldApart hcheck hpair).map fun _ => Iff.rfl
  | emulator =>
    obtain ⟨e, he⟩ := Option.isSome_iff_exists.mp hhas
    simp only [he] at h
    obtain ⟨pair, hpair, rfl⟩ := performs_map.mp h
    have hrefused : b.DispatchRefused .emulator d events ↔ _ :=
      ⟨fun ⟨e', he', hno⟩ => by rw [he] at he'; cases he'; exact hno, fun hno => ⟨e, he, hno⟩⟩
    exact ((Emulator.execute_toldApart hcheck hpair).congr hrefused.symm Iff.rfl).map
      fun _ => Iff.rfl

end Execution

/-! ## Waits -/

/-- A wait for a handle fails. -/
def WaitFails (handle : Handle JobWait) (events : List (Exchange Hardware)) : Prop :=
  match handle with
  | .settled passed => passed = false
  | .pending w => EndsLate (w.deadline ≤ ·) events
  | .abandoned => True

/-- A wait for a job passes unless its last reading of the clock is at the deadline. -/
theorem GpuService.awaitJob_toldApart {w : JobWait} {t t' : Tracker} {passed : Bool}
    (h : Transcript (awaitJob w t) events (passed, t')) :
    ToldApart (· = false) (EndsLate (w.deadline ≤ ·) events) (Broken events) (.ok passed) := by
  refine h.iterate_induct (P := fun _ events r =>
    ToldApart (· = false) (EndsLate (w.deadline ≤ ·) events) (Broken events) (.ok r.1)) ?_ ?_
  · rintro s turn ⟨passed, s'⟩ hturn
    rcases (waitTurn_last hturn).2 with ⟨rfl, -, rfl⟩ | ⟨rfl, now, hlate, rfl⟩
    · simp [ToldApart, EndsLate]
    · simp [ToldApart, EndsLate, BreaksDown, hlate]
  · intro s s' turn rest r hturn ih
    obtain ⟨now, ids, rfl, -⟩ := waitTurn_again hturn
    refine ih.congr ?_ (by simp [BreaksDown])
    by_cases hrest : rest = []
    · subst hrest
      simp [EndsLate]
    · exact (endsLate_append _ hrest).symm

namespace Session

/-- A wait for a handle comes to a result, and nothing can break down in it. -/
theorem wait_toldApart {s s' : Session} {name : String} {handle : Handle JobWait}
    {answer : Option Bool} (hhandle : s.handles.get? name = some handle)
    (h : Transcript (s.wait name) events (answer, s')) :
    ∃ passed, answer = some passed ∧
      ToldApart (· = false) (WaitFails handle events) (Broken events) (.ok passed) := by
  unfold wait at h
  rw [hhandle] at h
  obtain ⟨⟨⟨outcome, after⟩, tracker⟩, hwait, hresult⟩ := Dialog.transcript_map.mp h
  cases hresult
  cases handle with
  | pending w =>
    obtain ⟨⟨passed, t⟩, hjob, hr⟩ := GpuService.transcript_wait.mp hwait
    cases hr
    exact ⟨passed, rfl, GpuService.awaitJob_toldApart hjob⟩
  | settled passed =>
    obtain ⟨rfl, hr⟩ := Dialog.transcript_done.mp hwait
    cases hr
    exact ⟨passed, rfl, not_broken_nil, Iff.rfl⟩
  | abandoned =>
    obtain ⟨rfl, hr⟩ := Dialog.transcript_done.mp hwait
    cases hr
    exact ⟨false, rfl, not_broken_nil, iff_of_true rfl trivial⟩

end Session

/-! ## Ends of buffers -/

section End

variable {b b' : Backends} {buffer : Buffer} {result : Except Fault Bool}

/-- Whether the owner of a buffer does not take it back, as its state or the answers of the hardware
say. -/
def Backends.EndRefused (b : Backends) (buffer : Buffer) (events : List (Exchange Hardware)) : Prop :=
  match buffer.owner with
  | .mailbox | .sharedMemory => ∃ e ∈ events, Declines e
  | .emulator => b.sizeAt? buffer.handle = none

theorem Mailbox.deallocate_toldApart {handle : UInt32}
    (h : Performs (deallocate handle) events result) :
    ToldApart (· = false) (∃ e ∈ events, Declines e) (Broken events) result := by
  rcases performs_deallocate h with ⟨cause, rfl, rfl⟩ | ⟨unlock, release, rfl, rfl⟩
  · exact ⟨rfl, by simp [trip]⟩
  have hunlock := toldApart_order (m := .ofRequest .unlockMemory [handle] 1) (.ok unlock)
  have hrelease := toldApart_order (m := .ofRequest .releaseMemory [handle] 1) release
  cases release with
  | error cause => exact ⟨rfl, by simp [trip]⟩
  | ok words =>
    refine ⟨by simp [trip], ?_⟩
    -- both orders must be taken for the block to count as taken back
    refine Bool.and_eq_false_iff.trans ((or_congr hunlock.2 hrelease.2).trans ?_)
    simp [trip]

theorem SharedMemory.deallocate_toldApart {handle : UInt32} {host : HostPointer} {unlocked : Bool}
    (h : Transcript (deallocate handle host) events unlocked) :
    ToldApart (· = false) (∃ e ∈ events, Declines e) (Broken events) (.ok unlocked) := by
  rw [transcript_deallocate.mp h]
  cases unlocked with
  | true | false => simp [ToldApart, BreaksDown, Declines]

theorem Emulator.deallocate_toldApart {e e' : Emulator} {handle : UInt32} {known : Bool}
    (h : Transcript (e.deallocate handle) events (known, e')) :
    ToldApart (· = false) (e.size? handle = none) (Broken events) (.ok known) := by
  have hknown : known = false ↔ e.size? handle = none := by
    rw [(find?_deallocate h).1, size?, Option.map_eq_none_iff]
    simp
  refine ⟨?_, hknown⟩
  unfold deallocate at h
  split at h
  · obtain ⟨rfl, -⟩ := Dialog.transcript_done.mp h
    exact not_broken_nil
  · obtain ⟨_, last, rfl, hlast⟩ := transcript_ask.mp h
    obtain ⟨rfl, -⟩ := Dialog.transcript_done.mp hlast
    simp [BreaksDown]

namespace Backends

/-- A buffer of an emulator that is gone is refused like one that it does not know. -/
theorem deallocate_toldApart (h : Transcript (b.deallocate buffer) events (result, b')) :
    ToldApart (· = false) (b.EndRefused buffer events) (Broken events) result := by
  unfold deallocate at h
  unfold EndRefused
  cases howner : buffer.owner with
  | mailbox =>
    simp only [howner] at h
    obtain ⟨answer, hback, hr⟩ := Dialog.transcript_map.mp h
    cases hr
    exact Mailbox.deallocate_toldApart hback
  | sharedMemory =>
    simp only [howner] at h
    obtain ⟨unlocked, hback, hr⟩ := Dialog.transcript_map.mp h
    cases hr
    exact SharedMemory.deallocate_toldApart hback
  | emulator =>
    simp only [howner] at h
    cases he : b.emulator with
    | none =>
      simp only [he] at h
      obtain ⟨rfl, hr⟩ := Dialog.transcript_done.mp h
      cases hr
      exact ⟨not_broken_nil, iff_of_true rfl (by simp [sizeAt?, he])⟩
    | some e =>
      simp only [he] at h
      obtain ⟨⟨known, e'⟩, hback, hr⟩ := Dialog.transcript_map.mp h
      cases hr
      rw [sizeAt?_emulator he]
      exact Emulator.deallocate_toldApart hback

theorem release_toldApart (h : Transcript (b.release buffer) events (result, b')) :
    ToldApart (· = false) (b.EndRefused buffer events) (Broken events) result := by
  unfold release at h
  split at h
  · obtain ⟨reply, rest, rfl, hrest⟩ := transcript_ask.mp h
    -- to undo a mapping is not refused, and does not fail
    refine (deallocate_toldApart hrest).congr ?_ (by simp [BreaksDown])
    unfold EndRefused
    split
    all_goals simp [Declines]
  · exact deallocate_toldApart h

end Backends

end End

end VideoCore
