import VideoCore.Session
import VideoCore.Proofs.GpuService.Answers

/-!
# How long a completion is remembered

The tracker has room for one completion. So a job that was noted while it was the last one is known to
be done until another job is noted while that is the last one, and from then on it is as if the job had
never been noted: the first wait on it, if that comes only now, runs until the deadline and fails.

`completion_kept_iff` says exactly when the first wait passes, and `completion_overwritten` gives two jobs
that are both done in time, of which the first is lost.
-/

namespace VideoCore.GpuService

open Hardware
open Dialog (Transcript)

variable {log more : List Event} {id : JobId}

/-! ## The number noted last -/

/-- After a log that has noted a job, another was noted while it was the last one. -/
def Overtaken (log more : List Event) (id : JobId) : Prop :=
  ∃ before after other, more = before ++ .notified other :: after ∧
    lastBegan (log ++ before) = other ∧ other ≠ id

/-- A job that is done while it is the last one is noted. -/
theorem completed_notified (last : lastBegan log = id) :
    (trackerOf (log ++ [.notified id])).completed = id := by
  rw [trackerOf_notified, Tracker.complete, if_pos ((current_trackerOf _).trans last)]

/-- If numbers ascend, a job that is noted was given out. -/
theorem valid_trackerOf (ascending : (numbers log).Pairwise (· < ·)) : (trackerOf log).Valid := by
  induction log using List.reverseRecOn with
  | nil => exact Nat.le_refl 0
  | append_singleton log e ih =>
    have hfront := ih (ascending_of_append ascending)
    cases e with
    | began id =>
      have hcurrent : (trackerOf log).current ≤ id := by
        rw [current_trackerOf]
        exact lastBegan_le_of_began ascending
      rw [trackerOf_began]
      exact Nat.le_trans hfront hcurrent
    | notified id =>
      rw [trackerOf_notified]
      exact hfront.complete id
    | waited k passed now =>
      rw [trackerOf_waited]
      exact hfront

/-- If numbers ascend, so do the jobs that are noted. -/
theorem completed_le_append (ascending : (numbers (log ++ more)).Pairwise (· < ·)) :
    (trackerOf log).completed ≤ (trackerOf (log ++ more)).completed := by
  induction more using List.reverseRecOn with
  | nil => simp
  | append_singleton more e ih =>
    rw [← List.append_assoc] at ascending ⊢
    have hfront := ascending_of_append ascending
    refine Nat.le_trans (ih hfront) ?_
    cases e with
    | began id => exact Nat.le_of_eq (by rw [trackerOf_began])
    | notified id =>
      rw [trackerOf_notified]
      exact ((valid_trackerOf hfront).ahead_complete id).completed
    | waited k passed now => exact Nat.le_of_eq (by rw [trackerOf_waited])

/-- A job that was noted stays so until another is noted. -/
theorem completed_of_not_overtaken (noted : (trackerOf log).completed = id)
    (kept : ¬ Overtaken log more id) : (trackerOf (log ++ more)).completed = id := by
  induction more using List.reverseRecOn with
  | nil => simpa using noted
  | append_singleton more e ih =>
    have hkept : ¬ Overtaken log more id := by
      rintro ⟨before, after, other, rfl, hlast, hne⟩
      exact kept ⟨before, after ++ [e], other, by simp, hlast, hne⟩
    rw [← List.append_assoc]
    cases e with
    | began last =>
      rw [trackerOf_began]
      exact ih hkept
    | notified other =>
      rw [trackerOf_notified]
      by_cases hlast : (trackerOf (log ++ more)).current = other
      · have hsame : other = id := by
          by_contra hne
          exact kept ⟨more, [], other, rfl, (current_trackerOf _).symm.trans hlast, hne⟩
        simp [Tracker.complete, hlast, hsame]
      · rw [Tracker.complete_of_ne hlast]
        exact ih hkept
    | waited k passed now =>
      rw [trackerOf_waited]
      exact ih hkept

/-- Once another job is noted, the first one is never found noted again. -/
theorem completed_ne_of_overtaken (ascending : (numbers (log ++ more)).Pairwise (· < ·))
    (noted : (trackerOf log).completed = id) (overtaken : Overtaken log more id) :
    (trackerOf (log ++ more)).completed ≠ id := by
  obtain ⟨before, after, other, rfl, hlast, hne⟩ := overtaken
  have hsplit : log ++ (before ++ .notified other :: after) =
      log ++ before ++ [.notified other] ++ after := by simp
  rw [hsplit] at ascending ⊢
  have hnoted := completed_notified hlast
  have hle' := completed_le_append ascending
  have hfront := ascending_of_append ascending
  rw [List.append_assoc] at hfront
  have hle := completed_le_append hfront
  rw [← List.append_assoc, hnoted, noted] at hle
  rw [hnoted] at hle'
  intro hback
  exact hne (Nat.le_antisymm (hback ▸ hle') hle)

theorem completed_iff_not_overtaken (ascending : (numbers (log ++ more)).Pairwise (· < ·))
    (noted : (trackerOf log).completed = id) :
    (trackerOf (log ++ more)).completed = id ↔ ¬ Overtaken log more id := by
  constructor
  · intro hkept hovertaken
    exact completed_ne_of_overtaken ascending noted hovertaken hkept
  · exact completed_of_not_overtaken noted

/-! ## The wait -/

/-- A wait on a pending handle is the wait for its job, and settles the handle. -/
theorem transcript_wait {wait : JobWait} {t : Tracker} {events : List (Exchange Hardware)}
    {r : (Option Bool × Handle JobWait) × Tracker} :
    Transcript (((Handle.pending wait).wait Session.check).run t) events r ↔
      ∃ result, Transcript (awaitJob wait t) events result ∧
        r = ((some result.1, .settled result.1), result.2) := by
  show Transcript (Dialog.bind (Dialog.bind (awaitJob wait t) _) _) events r ↔ _
  rw [Dialog.bind_assoc]
  exact Dialog.transcript_map

/-- A wait for a job that is noted asks nothing and passes. -/
theorem awaitJob_noted {wait : JobWait} {t : Tracker} (noted : t.completed = wait.id)
    {events : List (Exchange Hardware)} {r : Bool × Tracker} :
    Transcript (awaitJob wait t) events r ↔ events = [] ∧ r = (true, t) := by
  constructor
  · intro h
    refine h.iterate_induct (P := fun s events r => s.completed = wait.id → events = [] ∧ r = (true, s))
      ?_ ?_ noted
    · intro s turn r hturn hs
      rcases transcript_waitTurn.mp hturn with ⟨-, hevents, hr⟩ | ⟨hnot, -⟩ | ⟨hnot, -⟩
      · cases hr
        exact ⟨hevents, rfl⟩
      · exact absurd hs hnot
      · exact absurd hs hnot
    · intro s s' turn rest r hturn _ hs
      rcases transcript_waitTurn.mp hturn with ⟨-, -, hr⟩ | ⟨hnot, -⟩ | ⟨hnot, -⟩
      · cases hr
      · exact absurd hs hnot
      · exact absurd hs hnot
  · rintro ⟨rfl, rfl⟩
    exact Transcript.iterate_leave (transcript_waitTurn.mpr (.inl ⟨noted, rfl, rfl⟩))

theorem transcript_wait_noted {wait : JobWait} {t : Tracker} (noted : t.completed = wait.id)
    {events : List (Exchange Hardware)} {r : (Option Bool × Handle JobWait) × Tracker} :
    Transcript (((Handle.pending wait).wait Session.check).run t) events r ↔
      events = [] ∧ r = ((some true, .settled true), t) := by
  rw [transcript_wait]
  constructor
  · rintro ⟨result, hwait, rfl⟩
    obtain ⟨rfl, rfl⟩ := (awaitJob_noted noted).mp hwait
    exact ⟨rfl, rfl⟩
  · rintro ⟨rfl, rfl⟩
    exact ⟨(true, t), (awaitJob_noted noted).mpr ⟨rfl, rfl⟩, rfl⟩

/-! ## The result -/

/-- The first answer to a wait on a job that the service took is whether it is the one noted last. -/
theorem verdict_first {w : World} (h : Recorded log w) {k : Ticket} (held : k ∈ w.tickets)
    (accepted : k.accepted = true) {before : List Event} (front : before <+: log)
    (first : ∀ passed now, .waited k passed now ∉ before) :
    answers before k.id = [] ∧
      (verdict before k = true ↔ (trackerOf before).completed = k.id) := by
  have hnone : answers before k.id = [] := by
    refine answers_eq_nil.mpr fun k' passed now htaken hmem => ?_
    rw [h.ticket_eq held accepted (front.subset hmem) htaken] at hmem
    exact first passed now hmem
  refine ⟨hnone, ?_⟩
  simp [verdict, accepted, hnone]

/-- What becomes of a job that the service took and that was noted while it was the last one. At any
later moment at which no wait on it has returned yet, a wait that returns passes exactly if no other
job was noted since while that was the last one. As long as none was, a wait returns at once, without
asking for anything, and passes. -/
theorem completion_kept_iff {start : Instant} {before between : List Event} {w : World}
    {k : Ticket} (run : Run (.start start) (before ++ [.notified k.id] ++ between) w)
    (accepted : k.accepted = true) (last : lastBegan before = k.id)
    (first : ∀ passed now, .waited k passed now ∉ before ++ [.notified k.id] ++ between) :
    (∀ passed now w', Step w [.waited k passed now] w' →
      (passed = true ↔ ¬ Overtaken (before ++ [.notified k.id]) between k.id)) ∧
    (¬ Overtaken (before ++ [.notified k.id]) between k.id →
      ∀ handle, (k, handle) ∈ w.handles → ∀ events r,
        Transcript ((handle.wait Session.check).run w.tracker) events r ↔
          events = [] ∧ r = ((some true, .settled true), w.tracker)) := by
  have hrecorded := recorded_of_run (recorded_start start) run
  have hsound := sound_of_run (sound_start start) run
  rw [List.nil_append] at hrecorded hsound
  have hcompleted :=
    completed_iff_not_overtaken hsound.tracked.ascending (completed_notified last)
  constructor
  · intro passed now w' step
    have hafter := hrecorded.step step
    have hpassed := hafter.judged _ [] k passed now rfl
    have hheld : k ∈ w'.tickets := hafter.known k passed now (by simp)
    rw [hpassed, (verdict_first hafter hheld accepted (List.prefix_append _ _) first).2, hcompleted]
  · intro hkept handle hmem events r
    have hheld : k ∈ w.tickets := List.mem_map_of_mem hmem
    have hnone := (verdict_first hrecorded hheld accepted (List.prefix_refl _) first).1
    have hstands := hrecorded.stands k handle hmem
    cases handle with
    | pending wait =>
      obtain ⟨-, rfl, -⟩ := hstands
      have hdone : w.tracker.completed = k.id := by
        rw [hrecorded.tracker]
        exact hcompleted.mpr hkept
      exact transcript_wait_noted hdone
    | settled passed =>
      have hanswer := hstands.1 accepted
      rw [hnone] at hanswer
      cases hanswer
    | abandoned => exact hstands.elim

/-! ### Two jobs -/

/-- The dispatch of `sampleTicket`, submitted once more. -/
def secondTicket : Ticket := { sampleTicket with id := 2 }

/-- The first job was noted, and then the second was submitted. The service may have reported some
completions before that submission returned. -/
def twoSubmitted (reported : List JobId) : World where
  tracker := Tracker.completeAll ⟨2, 1⟩ reported
  now := ⟨7⟩
  handles := [(sampleTicket, .pending ⟨1, sampleTicket.deadline⟩),
    (secondTicket, .pending ⟨2, sampleTicket.deadline⟩)]

theorem run_twoSubmitted (reported : List JobId) :
    Run oneInFlight ([.notified 1] ++ .began 2 :: reported.map .notified) (twoSubmitted reported) := by
  have hnotify : Run oneInFlight [.notified 1] { oneInFlight with tracker := ⟨1, 1⟩ } :=
    .single (.notify 1)
  exact hnotify.append (run_of_execute (w := { oneInFlight with tracker := ⟨1, 1⟩ })
    (performs_submission (g := ⟨⟨1, 1⟩⟩) (d := sampleTicket.dispatch) rfl rfl ⟨7⟩ ⟨true, reported⟩))

/-- The second job is still in flight, so the first is known to be done. -/
theorem completion_kept_iff_twoSubmitted :
    (∀ passed now w', Step (twoSubmitted []) [.waited sampleTicket passed now] w' → passed = true) ∧
      Transcript (((Handle.pending ⟨1, sampleTicket.deadline⟩).wait Session.check).run ⟨2, 1⟩) []
        ((some true, .settled true), ⟨2, 1⟩) := by
  have hrun : Run (.start ⟨7⟩) ([.began 1] ++ [.notified sampleTicket.id] ++ [.began 2])
      (twoSubmitted []) := run_oneInFlight.append (run_twoSubmitted [])
  have hkept : ¬ Overtaken ([.began 1] ++ [.notified sampleTicket.id]) [.began 2]
      sampleTicket.id := by
    rintro ⟨before, after, other, hlog, -⟩
    have hmem : Event.notified other ∈ [Event.began 2] := by simp [hlog]
    simp at hmem
  obtain ⟨hanswer, hwait⟩ := completion_kept_iff hrun rfl rfl (by simp)
  constructor
  · intro passed now w' step
    exact (hanswer passed now w' step).mpr hkept
  · exact (hwait hkept _ (List.mem_cons_self ..) [] _).mpr ⟨rfl, rfl⟩

/-- A completion can be lost. It is not so that a job that the service took, and that was noted before
its deadline and while it was the last one, passes the first wait on it: a job that is submitted and
done after it takes its place. -/
theorem completion_overwritten :
    ¬ ∀ start before v k between w passed now w', Run (.start start) before v →
      k.accepted = true → lastBegan before = k.id → ¬ k.deadline ≤ v.now →
      Run v ([.notified k.id] ++ between) w →
      (∀ passed now, .waited k passed now ∉ before ++ [.notified k.id] ++ between) →
      Step w [.waited k passed now] w' → passed = true := by
  intro hall
  let late : World := { twoSubmitted [2] with now := sampleTicket.deadline }
  have htick : Run (twoSubmitted [2]) [] late := .single (.tick (by decide))
  have hrun : Run oneInFlight ([.notified 1] ++ [.began 2, .notified 2]) late :=
    (run_twoSubmitted [2]).append htick
  have hturn : Transcript (waitTurn ⟨1, sampleTicket.deadline⟩ late.tracker)
      [⟨.readClock, late.now⟩] (.inr (false, late.tracker)) :=
    transcript_waitTurn.mpr (.inr (.inl ⟨by decide, late.now, Nat.le_refl _, rfl, rfl⟩))
  have hstep := Step.settle (w := late) (i := 0) (k := sampleTicket) rfl (by simp) hturn
  have hpassed := hall _ _ _ sampleTicket _ _ _ _ _ run_oneInFlight rfl rfl (by decide) hrun
    (by simp) hstep
  cases hpassed

end VideoCore.GpuService
