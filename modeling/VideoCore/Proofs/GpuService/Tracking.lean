import VideoCore.Proofs.GpuService.Interleaving

/-!
# Job tracking is sound

Whatever submitters, waiters and the firmware do, and in whatever order, a wait passes only if its own
job was noted at a moment when it was the last one, and a wait on a job that the service took fails
only once its own deadline has come. The invariant has two parts: `Tracked` ties the two numbers of
the tracker to the log, and `Fits` ties every handle to its ticket and to the log. A handle that is
settled is one that a wait has answered, so its meaning is that of the answer (`Answered`).
-/

namespace VideoCore.GpuService

open Hardware
open Dialog (Transcript)

variable {log more : List Event}

/-! ## The two numbers -/

/-- The numbers of the tracker are what the log says. -/
structure Tracked (log : List Event) (t : Tracker) : Prop where
  current : t.current = lastBegan log
  valid : t.Valid
  /-- 0 stands for no job. -/
  timely : 0 < t.completed → Timely log t.completed
  /-- No number is given out twice. -/
  ascending : (numbers log).Pairwise (· < ·)
  bounded : ∀ id ∈ numbers log, id ≤ t.current

theorem Tracked.began {t : Tracker} (h : Tracked log t) :
    Tracked (log ++ [.began t.begin.1]) t.begin.2 where
  current := by rw [lastBegan_began]; rfl
  valid := h.valid.begin
  timely hpos := (h.timely hpos).append _
  ascending := by
    rw [numbers_began, List.pairwise_append]
    refine ⟨h.ascending, List.pairwise_singleton .., ?_⟩
    intro id hid last hlast
    rw [List.mem_singleton.mp hlast]
    exact Nat.lt_succ_of_le (h.bounded id hid)
  bounded := by
    intro id hid
    rw [numbers_began] at hid
    rcases List.mem_append.mp hid with hid | hid
    · exact Nat.le_succ_of_le (h.bounded id hid)
    · rw [List.mem_singleton.mp hid]
      exact Nat.le_refl _

theorem Tracked.notified {t : Tracker} (h : Tracked log t) (id : JobId) :
    Tracked (log ++ [.notified id]) (t.complete id) where
  current := by rw [lastBegan_notified, Tracker.current_complete, h.current]
  valid := h.valid.complete id
  timely := by
    unfold Tracker.complete
    split
    · next hlast => exact fun _ => ⟨log, [], rfl, h.current.symm.trans hlast⟩
    · exact fun hpos => (h.timely hpos).append _
  ascending := by rw [numbers_notified]; exact h.ascending
  bounded := by rw [numbers_notified, Tracker.current_complete]; exact h.bounded

theorem Tracked.notifiedAll {t : Tracker} (h : Tracked log t) (ids : List JobId) :
    Tracked (log ++ ids.map .notified) (t.completeAll ids) := by
  induction ids generalizing log t with
  | nil => simpa [Tracker.completeAll] using h
  | cons id rest ih =>
    have hrest := ih (h.notified id)
    rw [List.append_assoc] at hrest
    exact hrest

theorem Tracked.waited {t : Tracker} (h : Tracked log t) (k : Ticket) (passed : Bool)
    (now : Instant) : Tracked (log ++ [.waited k passed now]) t where
  current := by rw [lastBegan_waited, h.current]
  valid := h.valid
  timely hpos := (h.timely hpos).append _
  ascending := by rw [numbers_waited]; exact h.ascending
  bounded := by rw [numbers_waited]; exact h.bounded

/-! ## The handles -/

/-- What the answer of a wait stands for: a job that was noted in time, or, for a job that the
service took, a deadline that has come. -/
def Answered (log : List Event) (now : Instant) (k : Ticket) : Bool → Prop
  | true => Timely log k.id
  | false => k.accepted = true → k.deadline ≤ now

/-- A handle is what its ticket and the log make of it. -/
def Fits (log : List Event) (now : Instant) (k : Ticket) : Handle JobWait → Prop
  | .pending wait => 0 < k.id ∧ wait = ⟨k.id, k.deadline⟩
  | .settled passed => Answered log now k passed
  | .abandoned => False

/-- An answer stays right as the log grows and time goes by. -/
theorem Answered.later {now then_ : Instant} {k : Ticket} {passed : Bool}
    (h : Answered log now k passed) (more : List Event) (hle : now ≤ then_) :
    Answered (log ++ more) then_ k passed := by
  cases passed with
  | true => exact Timely.append h more
  | false => exact fun haccepted => Nat.le_trans (h haccepted) hle

theorem Fits.later {now then_ : Instant} {k : Ticket} {handle : Handle JobWait}
    (h : Fits log now k handle) (more : List Event) (hle : now ≤ then_) :
    Fits (log ++ more) then_ k handle := by
  cases handle with
  | pending wait => exact h
  | settled passed => exact Answered.later h more hle
  | abandoned => exact h

/-- Every wait that returned was answered by what had happened until then. -/
def Waits (log : List Event) : Prop :=
  ∀ before after k passed now, log = before ++ .waited k passed now :: after →
    Answered before now k passed

/-- Among events that are no answers there is no answer to be found. -/
theorem split_of_quiet {before after : List Event} {k : Ticket} {passed : Bool} {now : Instant}
    (hquiet : ∀ k passed now, .waited k passed now ∉ more)
    (he : log ++ more = before ++ .waited k passed now :: after) :
    ∃ rest, log = before ++ .waited k passed now :: rest := by
  rcases List.append_eq_append_iff.mp he with ⟨rest, hlog, hafter⟩ | ⟨rest, hbefore, hmore⟩
  · exact absurd (hafter ▸ List.mem_append_right _ (List.mem_cons_self ..)) (hquiet k passed now)
  · cases rest with
    | nil =>
      rw [List.nil_append] at hmore
      exact absurd (hmore ▸ List.mem_cons_self ..) (hquiet k passed now)
    | cons e tail =>
      cases hmore
      exact ⟨tail, hbefore⟩

/-- An answer of a log is its last event, or one of those before. -/
theorem split_of_concat {before after : List Event} {e e' : Event}
    (he : log ++ [e] = before ++ e' :: after) :
    (before = log ∧ e' = e) ∨ ∃ rest, log = before ++ e' :: rest := by
  rcases List.eq_nil_or_concat after with rfl | ⟨front, last, rfl⟩
  · obtain ⟨rfl, hlast⟩ := List.append_inj' he rfl
    cases hlast
    exact .inl ⟨rfl, rfl⟩
  · rw [List.concat_eq_append, ← List.cons_append, ← List.append_assoc] at he
    exact .inr ⟨front, (List.append_inj' he rfl).1⟩

/-- Events that are no answers leave the answers as they are. -/
theorem Waits.quiet (h : Waits log) (hquiet : ∀ k passed now, .waited k passed now ∉ more) :
    Waits (log ++ more) := by
  intro before after k passed now he
  obtain ⟨rest, hlog⟩ := split_of_quiet hquiet he
  exact h before rest k passed now hlog

theorem Waits.waited (h : Waits log) {k : Ticket} {passed : Bool} {now : Instant}
    (hanswered : Answered log now k passed) : Waits (log ++ [.waited k passed now]) := by
  intro before after k' passed' now' he
  rcases split_of_concat he with ⟨rfl, hlast⟩ | ⟨rest, hlog⟩
  · cases hlast
    exact hanswered
  · exact h before rest k' passed' now' hlog

/-! ## One step -/

/-- The numbers and the handles are right, and so was every answer. -/
structure Sound (log : List Event) (w : World) : Prop where
  tracked : Tracked log w.tracker
  fits : ∀ k handle, (k, handle) ∈ w.handles → Fits log w.now k handle
  waits : Waits log

/-- The handle of a submission fits its ticket. -/
theorem fits_handleFor {now : Instant} {d : Dispatch} {submitted : Instant} {t : Tracker}
    {accepted : Bool} :
    Fits log now ⟨d, t.begin.1, submitted, accepted⟩
      (handleFor d submitted t.begin.1 accepted) := by
  cases accepted with
  | true => exact ⟨Nat.succ_pos _, rfl⟩
  | false => exact fun haccepted => nomatch haccepted

/-- The last turn of a wait answers it. -/
theorem answered_of_waitTurn {w : World} {k : Ticket} {wait : JobWait} {t : Tracker}
    {passed : Bool} {events : List (Exchange Hardware)} (h : Tracked log w.tracker)
    (hfits : Fits log w.now k (.pending wait)) (hclock : ∀ e ∈ events, e = ⟨.readClock, w.now⟩)
    (turn : Transcript (waitTurn wait w.tracker) events (.inr (passed, t))) :
    t = w.tracker ∧ Answered log w.now k passed := by
  obtain ⟨hpos, rfl⟩ := hfits
  obtain ⟨rfl, hways⟩ := waitTurn_last turn
  refine ⟨rfl, ?_⟩
  rcases hways with ⟨rfl, hdone, -⟩ | ⟨rfl, now, hlate, rfl⟩
  · -- the number noted last is the job's own, and it was noted in time
    have htimely := h.timely (by rw [hdone]; exact hpos)
    rwa [hdone] at htimely
  · cases hclock _ (List.mem_singleton_self _)
    intro _
    exact hlate

/-- Every step keeps the numbers, the handles and the answers right. -/
theorem Sound.step {w w' : World} {events : List Event} (h : Sound log w)
    (step : Step w events w') : Sound (log ++ events) w' := by
  have hstay : ∀ more, ∀ k handle, (k, handle) ∈ w.handles → Fits (log ++ more) w.now k handle :=
    fun more k handle hmem => (h.fits k handle hmem).later more (Nat.le_refl _)
  cases step with
  | tick le =>
    rw [List.append_nil]
    refine ⟨h.tracked, ?_, h.waits⟩
    intro k handle hmem
    -- a deadline that has come stays so
    have hlater := (h.fits k handle hmem).later [] le
    rwa [List.append_nil] at hlater
  | decline performs =>
    rw [List.append_nil]
    refine ⟨h.tracked, ?_, h.waits⟩
    intro k handle hmem
    rcases List.mem_append.mp hmem with hmem | hmem
    · exact h.fits k handle hmem
    · rcases performs_execute.mp performs with
        ⟨fault, -, -, hr⟩ | ⟨-, -, -, hr⟩ | ⟨_, _, _, -, -, he, -⟩
      · cases hr
      · -- what was not handed over was not accepted either
        cases hr
        cases List.mem_singleton.mp hmem
        exact fun haccepted => nomatch haccepted
      · cases he
  | begin earlier performs =>
    obtain ⟨rfl, -⟩ := submission_eq performs
    exact ⟨h.tracked.began, hstay _, h.waits.quiet (by simp)⟩
  | finish calls performs =>
    rw [List.append_nil]
    refine ⟨h.tracked, ?_, h.waits⟩
    intro k handle hmem
    rcases List.mem_append.mp hmem with hmem | hmem
    · exact h.fits k handle hmem
    · -- the handle has the number that was given out when the submission began
      obtain ⟨hid, hr⟩ := submission_eq performs
      cases hr
      cases List.mem_singleton.mp hmem
      rw [hid]
      exact fits_handleFor
  | notify id => exact ⟨h.tracked.notified id, hstay _, h.waits.quiet (by simp)⟩
  | block pending turn =>
    obtain ⟨now, ids, he, rfl⟩ := waitTurn_again turn
    cases he
    exact ⟨h.tracked.notifiedAll _, hstay _, h.waits.quiet (by simp)⟩
  | @settle i k wait passed t events pending clock turn =>
    have hmem := List.mem_of_getElem? pending
    -- only the handle that was waited for changes, and it keeps the answer
    obtain ⟨rfl, hanswered⟩ := answered_of_waitTurn h.tracked (h.fits _ _ hmem) clock turn
    refine ⟨h.tracked.waited .., ?_, h.waits.waited hanswered⟩
    intro k' handle hmem'
    rcases List.mem_or_eq_of_mem_set hmem' with hold | hnew
    · exact hstay _ k' handle hold
    · cases hnew
      exact hanswered.later _ (Nat.le_refl _)
  | @reread k handle held checked =>
    have hanswered : Answered log w.now k handle.passed := by
      have hfits := h.fits k handle held
      cases handle with
      | pending wait => exact absurd rfl (checked wait)
      | settled passed => exact hfits
      | abandoned => exact hfits.elim
    exact ⟨h.tracked.waited .., hstay _, h.waits.waited hanswered⟩

theorem sound_of_run {w w' : World} {events : List Event} (h : Sound log w)
    (run : Run w events w') : Sound (log ++ events) w' := by
  induction run with
  | none => rwa [List.append_nil]
  | step _ hstep ih =>
    rw [← List.append_assoc]
    exact ih.step hstep

theorem sound_start (now : Instant) : Sound [] (.start now) where
  tracked := ⟨rfl, Nat.le_refl _, fun hpos => absurd hpos (Nat.lt_irrefl 0), .nil, by simp [numbers]⟩
  fits k handle hmem := nomatch hmem
  waits before after k passed now he := by simp at he

/-! ## The numbers never go back -/

/-- Neither number is smaller. -/
structure Tracker.Ahead (t t' : Tracker) : Prop where
  current : t.current ≤ t'.current
  completed : t.completed ≤ t'.completed

theorem Tracker.Ahead.refl (t : Tracker) : t.Ahead t := ⟨Nat.le_refl _, Nat.le_refl _⟩

theorem Tracker.Ahead.trans {t u v : Tracker} (h : t.Ahead u) (k : u.Ahead v) : t.Ahead v :=
  ⟨Nat.le_trans h.current k.current, Nat.le_trans h.completed k.completed⟩

theorem Tracker.Valid.ahead_complete {t : Tracker} (h : t.Valid) (id : JobId) :
    t.Ahead (t.complete id) := by
  unfold Tracker.complete
  split
  · next hlast => exact ⟨Nat.le_refl _, hlast ▸ h⟩
  · exact .refl t

theorem Tracker.Valid.ahead_completeAll {t : Tracker} (h : t.Valid) (ids : List JobId) :
    t.Ahead (t.completeAll ids) := by
  induction ids generalizing t with
  | nil => exact .refl t
  | cons id rest ih => exact (h.ahead_complete id).trans (ih (h.complete id))

theorem ahead_of_step {w w' : World} {events : List Event} (h : w.tracker.Valid)
    (step : Step w events w') : w.tracker.Ahead w'.tracker := by
  cases step with
  | tick | decline | finish | reread => exact .refl _
  | begin => exact ⟨Nat.le_succ _, Nat.le_refl _⟩
  | notify id => exact h.ahead_complete id
  | block pending turn =>
    obtain ⟨now, ids, -, rfl⟩ := waitTurn_again turn
    exact h.ahead_completeAll ids
  | settle pending clock turn =>
    obtain ⟨rfl, -⟩ := waitTurn_last turn
    exact .refl _

theorem ahead_of_run {w w' : World} {events : List Event} (h : Sound log w)
    (run : Run w events w') : w.tracker.Ahead w'.tracker := by
  induction run with
  | none => exact .refl _
  | step hrun hstep ih => exact ih.trans (ahead_of_step (sound_of_run h hrun).tracked.valid hstep)

/-! ## The result -/

/-- Job tracking is sound under every interleaving. No two submissions get the same number. The
number noted last never exceeds the number given out last, and neither of them ever decreases. A
wait that passed found its own job noted at a moment when no later submission had begun, and a wait
that failed on a job that the service took did so at or after the job's deadline. -/
theorem tracking_sound {start : Instant} {log : List Event} {w : World}
    (run : Run (.start start) log w) :
    (numbers log).Pairwise (· < ·) ∧
    w.tracker.completed ≤ w.tracker.current ∧
    (∀ more w', Run w more w' →
      w.tracker.current ≤ w'.tracker.current ∧ w.tracker.completed ≤ w'.tracker.completed) ∧
    (∀ before after k now, log = before ++ .waited k true now :: after → Timely before k.id) ∧
    (∀ before after k now, log = before ++ .waited k false now :: after → k.accepted = true →
      (k.submitted.after k.dispatch.timeout).after (.ofSeconds 1) ≤ now) := by
  have hsound := sound_of_run (sound_start start) run
  rw [List.nil_append] at hsound
  refine ⟨hsound.tracked.ascending, hsound.tracked.valid, ?_, ?_, ?_⟩
  · intro more w' hmore
    have hahead := ahead_of_run hsound hmore
    exact ⟨hahead.current, hahead.completed⟩
  · intro before after k now he
    exact hsound.waits before after k true now he
  · intro before after k now he
    exact hsound.waits before after k false now he

/-- A dispatch of one program, that the service takes. -/
def sampleTicket : Ticket :=
  { dispatch := { control := [⟨0, 0⟩] }, id := 1, submitted := ⟨7⟩, accepted := true }

/-- The service notes the job while it is still being submitted, and the wait passes. -/
theorem tracking_sound_sample : Timely [.began 1, .notified 1] sampleTicket.id := by
  have hsubmit := run_of_execute (w := .start ⟨7⟩) (performs_submission (g := ⟨{}⟩)
    (d := sampleTicket.dispatch) rfl rfl ⟨7⟩ ⟨true, [1]⟩)
  have hturn : Transcript (waitTurn ⟨1, sampleTicket.deadline⟩ ⟨1, 1⟩) [] (.inr (true, ⟨1, 1⟩)) :=
    transcript_waitTurn.mpr (.inl ⟨rfl, rfl, rfl⟩)
  have hrun := hsubmit.append (.single (.settle (i := 0) (k := sampleTicket) rfl (by simp) hturn))
  exact (tracking_sound hrun).2.2.2.1 [.began 1, .notified 1] [] sampleTicket ⟨7⟩ rfl

end VideoCore.GpuService
