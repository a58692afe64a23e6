import VideoCore.Linux.Links
import VideoCore.Proofs.Mailbox.Calls
import VideoCore.Proofs.System.Endings

/-!
# One dispatch, two encodings

The firmware can be told to execute a dispatch through the mailbox, by a property message, or through
the GPU service, by a job that its library takes as a record. The message says where the control pairs
stand in GPU memory, and the job holds them itself, always twelve. For the rest both say the same: how
many programs there are, whether the caches are left as they are, and how many milliseconds the programs
may take. These are the `Terms` of a dispatch.

Neither way has room for more than 32 bits of milliseconds. A dispatch that is given longer fails at
once, on both (`GivesUp`).
-/

namespace VideoCore

open Hardware
open Dialog (Transcript Spells)
open Firmware (Message Tag)
open GpuService (Job JobWait submissionOf performs_submission)
open Mailbox (executeOrder)
open Linux (JobRecord Links)

/-! ## Terms -/

/-- What the firmware is told of a dispatch on either way. -/
@[ext] structure Terms where
  programs : UInt32
  noFlush : UInt32
  timeoutMs : UInt32
  deriving DecidableEq, Repr

/-- The terms in the content of a message. The second word is the address of the control pairs. -/
def Firmware.Message.terms (m : Message) : Terms := ⟨m.content 0, m.content 2, m.content 3⟩

def GpuService.Job.terms (job : Job) : Terms :=
  ⟨job.programs, if job.noFlush then 1 else 0, job.timeoutMs⟩

def Linux.JobRecord.terms (record : JobRecord) : Terms :=
  ⟨record.jobs, record.noFlush, record.timeout⟩

/-- The terms are those of a dispatch, whose timeout is cut to whole milliseconds. -/
structure Terms.Of (terms : Terms) (d : Dispatch) : Prop where
  programs : terms.programs.toNat = d.control.length
  noFlush : terms.noFlush = if d.flushCache then 0 else 1
  timeout : Duration.ofMilliseconds terms.timeoutMs.toNat ≤ d.timeout ∧
    ¬ Duration.ofMilliseconds (terms.timeoutMs.toNat + 1) ≤ d.timeout

/-- The control pairs of a dispatch, with zeros for the QPUs that take no part. -/
def Dispatch.paddedControl (d : Dispatch) : List ControlPair :=
  d.control ++ List.replicate (maxQpus - d.control.length) ⟨0, 0⟩

/-- A message, a job and its record are encodings of one dispatch. -/
structure Encodes (d : Dispatch) (message : Message) (job : Job) (record : JobRecord) : Prop where
  terms : message.terms.Of d
  same_job : job.terms = message.terms
  same_record : record.terms = message.terms
  order : message.tagId = Tag.executeQpu.id ∧ message.contentWords = 4
  address : message.content 1 = d.controlAddress.value
  command : record.command = Linux.executeQpus
  control : job.control.toList = d.paddedControl
  record_control : record.control = job.control

/-! ## Timeouts -/

section Timeouts

variable {d : Dispatch} {timeout : UInt32}

theorem Dispatch.timeoutMs?_eq_none_iff : d.timeoutMs? = none ↔ 2 ^ 32 - 1 < d.timeout.milliseconds := by
  unfold Dispatch.timeoutMs?
  rw [show UInt32.size = 2 ^ 32 from rfl]
  split
  · next hfits => exact iff_of_false nofun (by omega)
  · next hlong => exact iff_of_true rfl (by omega)

theorem Dispatch.toNat_timeoutMs? (h : d.timeoutMs? = some timeout) :
    timeout.toNat = d.timeout.milliseconds := by
  unfold Dispatch.timeoutMs? at h
  split at h
  · next hfits =>
    cases h
    exact UInt32.toNat_ofNat_of_lt' hfits
  · cases h

/-- Whole milliseconds are what is left when the rest is dropped. -/
theorem Duration.milliseconds_spec (t : Duration) :
    Duration.ofMilliseconds t.milliseconds ≤ t ∧
      ¬ Duration.ofMilliseconds (t.milliseconds + 1) ≤ t := by
  show t.nanoseconds / 1000000 * 1000000 ≤ t.nanoseconds ∧
    ¬ (t.nanoseconds / 1000000 + 1) * 1000000 ≤ t.nanoseconds
  omega

end Timeouts

/-! ## Encodings -/

section Encodings

variable {d : Dispatch} {timeout : UInt32}

theorem GpuService.Job.control_ofDispatch (hcheck : d.check = .ok ()) (timeout : UInt32) :
    (Job.ofDispatch d timeout).control.toList = d.paddedControl := by
  have hwidth : d.control.length ≤ maxQpus := (Dispatch.check_eq_ok_iff.mp hcheck).2
  rw [Job.ofDispatch, Vector.toList_ofFn, Dispatch.paddedControl]
  apply List.ext_getElem
  · rw [List.length_ofFn, List.length_append, List.length_replicate]
    omega
  · intro i hi _
    rw [List.getElem_ofFn, List.getElem_append]
    by_cases hpair : i < d.control.length
    · rw [dif_pos hpair, List.getElem?_eq_getElem hpair]
      rfl
    · rw [dif_neg hpair, List.getElem?_eq_none (Nat.le_of_not_lt hpair), List.getElem_replicate]
      rfl

theorem terms_executeOrder (d : Dispatch) (timeout : UInt32) :
    (executeOrder d timeout).terms = ⟨d.programs, if d.flushCache then 0 else 1, timeout⟩ := by
  unfold Firmware.Message.terms executeOrder
  rw [Message.content_ofRequest, Message.content_ofRequest, Message.content_ofRequest]
  rfl

theorem terms_ofDispatch (d : Dispatch) (timeout : UInt32) :
    (Job.ofDispatch d timeout).terms = ⟨d.programs, if d.flushCache then 0 else 1, timeout⟩ := by
  unfold GpuService.Job.terms Job.ofDispatch
  cases d.flushCache <;> rfl

theorem terms_ofJob (job : Job) : (JobRecord.ofJob job).terms = job.terms := rfl

theorem encodes (hcheck : d.check = .ok ()) (htimeout : d.timeoutMs? = some timeout) :
    Encodes d (executeOrder d timeout) (.ofDispatch d timeout)
      (.ofJob (.ofDispatch d timeout)) where
  terms := by
    have hwidth : d.control.length ≤ 12 := (Dispatch.check_eq_ok_iff.mp hcheck).2
    rw [terms_executeOrder]
    refine ⟨?_, rfl, ?_⟩
    · rw [Dispatch.programs, UInt32.toNat_ofNat']
      omega
    · rw [Dispatch.toNat_timeoutMs? htimeout]
      exact Duration.milliseconds_spec d.timeout
  same_job := by rw [terms_ofDispatch, terms_executeOrder]
  same_record := by rw [terms_ofJob, terms_ofDispatch, terms_executeOrder]
  order := ⟨rfl, rfl⟩
  address := Message.content_ofRequest _ _ _ _
  command := rfl
  control := Job.control_ofDispatch hcheck timeout
  record_control := rfl

end Encodings

/-! ## Calls -/

/-- An attempt that asks nothing, and comes back in any surroundings, which are then as they were. -/
structure GivesUp {α : Type} (x : Attempt α) (a : α) : Prop where
  silent : ∀ events r, Performs x events r ↔ events = [] ∧ r = .ok a
  untouched : ∀ {τ : Type} (answer : Surroundings Hardware τ) (turns : Nat) (t : τ),
    x.run.run answer turns t = some (.ok a, t)

theorem givesUp_pure {α : Type} (a : α) : GivesUp (pure a) a :=
  ⟨fun _ _ => performs_pure, fun _ _ _ => rfl⟩

section Calls

variable {κ : Type} {d : Dispatch} {g : GpuService} {timeout : UInt32}

theorem Mailbox.sends_order (hcheck : d.check = .ok ()) (htimeout : d.timeoutMs? = some timeout)
    {events : List (Exchange Hardware)} {r : Except Fault (Handle κ)}
    (h : Performs (Mailbox.execute d) events r) :
    ∃ reply, events = [⟨.property (executeOrder d timeout), reply⟩] := by
  rcases Mailbox.performs_execute.mp h with
    ⟨fault, hfault, -⟩ | ⟨-, hnone, -⟩ | ⟨timeout', reply, -, hsome, rfl, -⟩
  · rw [hcheck] at hfault
    cases hfault
  · rw [htimeout] at hnone
    cases hnone
  · rw [htimeout] at hsome
    cases hsome
    exact ⟨reply, rfl⟩

/-- The mailbox gives up on a dispatch if its timeout does not fit, and only then. -/
theorem Mailbox.givesUp_iff (hcheck : d.check = .ok ()) :
    GivesUp (Mailbox.execute d) (.settled false : Handle κ) ↔
      2 ^ 32 - 1 < d.timeout.milliseconds := by
  rw [← Dispatch.timeoutMs?_eq_none_iff]
  cases htimeout : d.timeoutMs? with
  | none =>
    refine iff_of_true ?_ rfl
    unfold Mailbox.execute
    rw [hcheck, htimeout]
    exact givesUp_pure _
  | some timeout =>
    refine iff_of_false (fun h => ?_) nofun
    have hasked := Mailbox.performs_order (κ := κ) hcheck htimeout (.error .notFound)
    cases ((h.silent _ _).mp hasked).1

/-- So does the GPU service. -/
theorem GpuService.givesUp_iff (hcheck : d.check = .ok ()) :
    GivesUp (g.execute d) (.settled false, g) ↔ 2 ^ 32 - 1 < d.timeout.milliseconds := by
  rw [← Dispatch.timeoutMs?_eq_none_iff]
  cases htimeout : d.timeoutMs? with
  | none =>
    refine iff_of_true ?_ rfl
    unfold GpuService.execute
    rw [hcheck, htimeout]
    exact givesUp_pure _
  | some timeout =>
    refine iff_of_false (fun h => ?_) nofun
    have hasked := performs_submission (g := g) hcheck htimeout default ⟨false, []⟩
    cases ((h.silent _ _).mp hasked).1

theorem GpuService.submits_job (hcheck : d.check = .ok ()) (htimeout : d.timeoutMs? = some timeout)
    {events : List (Exchange Hardware)} {r : Except Fault (Handle JobWait × GpuService)}
    (h : Performs (g.execute d) events r) :
    ∃ submitted answer,
      events = submissionOf submitted (.ofDispatch d timeout) g.tracker.begin.1 answer := by
  rcases GpuService.performs_execute.mp h with
    ⟨fault, hfault, -⟩ | ⟨-, hnone, -⟩ | ⟨timeout', submitted, answer, -, hsome, rfl, -⟩
  · rw [hcheck] at hfault
    cases hfault
  · rw [htimeout] at hnone
    cases hnone
  · rw [htimeout] at hsome
    cases hsome
    exact ⟨submitted, answer, rfl⟩

/-- On the machine, the job is one record for the service's library. -/
theorem Linux.transcript_job (hcheck : d.check = .ok ()) (htimeout : d.timeoutMs? = some timeout)
    {links : Links} {events : List (Exchange Linux)}
    {r : Except Fault (Handle JobWait × GpuService)}
    (h : Transcript (Linux.across links (g.execute d).run) events r) :
    ∃ submitted reply, events = [⟨.readClock, submitted⟩,
      ⟨.gpuExecute 1 (.ofJob (.ofDispatch d timeout)) g.tracker.begin.1, reply⟩] := by
  obtain ⟨asked, hasked, hspelled⟩ := Dialog.transcript_via.mp h
  obtain ⟨submitted, answer, rfl⟩ := GpuService.submits_job hcheck htimeout hasked
  cases hspelled with
  | cons hclock hrest =>
    cases hrest with
    | cons hsubmit hnil =>
      cases hnil
      obtain ⟨read, none, rfl, hread⟩ := Dialog.transcript_ask.mp hclock
      obtain ⟨reply, last, rfl, hreply⟩ := Dialog.transcript_ask.mp hsubmit
      obtain ⟨rfl, -⟩ := Dialog.transcript_done.mp hread
      obtain ⟨rfl, -⟩ := Dialog.transcript_done.mp hreply
      exact ⟨read, reply, rfl⟩

/-- Both executors encode a dispatch alike. If its timeout fits, there are a message and a job that
encode it on the same terms: the mailbox sends the message and nothing else, the GPU service hands over
the job under the next number, and its library gets the record of the job. Both come back, whatever is
answered. A handle that has failed is given without any call, and with everything as it was, exactly if
the timeout does not fit, on both. -/
theorem executors_encode_alike {κ : Type} (d : Dispatch) (hcheck : d.check = .ok ()) (g : GpuService)
    (links : Links) :
    (d.timeout.milliseconds ≤ 2 ^ 32 - 1 → ∃ message job, Encodes d message job (.ofJob job) ∧
      (∀ events (r : Except Fault (Handle κ)), Performs (Mailbox.execute d) events r →
        ∃ reply, events = [⟨.property message, reply⟩]) ∧
      (∀ events r, Performs (g.execute d) events r →
        ∃ submitted answer, events = submissionOf submitted job g.tracker.begin.1 answer) ∧
      (∀ events r, Transcript (Linux.across links (g.execute d).run) events r →
        ∃ submitted reply, events = [⟨.readClock, submitted⟩,
          ⟨.gpuExecute 1 (.ofJob job) g.tracker.begin.1, reply⟩])) ∧
    (∀ {τ : Type} (answer : Surroundings Hardware τ),
      ComesBack answer (Mailbox.execute (κ := κ) d) ∧ ComesBack answer (g.execute d)) ∧
    (GivesUp (Mailbox.execute d) (.settled false : Handle κ) ↔
      2 ^ 32 - 1 < d.timeout.milliseconds) ∧
    (GivesUp (g.execute d) (.settled false, g) ↔ 2 ^ 32 - 1 < d.timeout.milliseconds) := by
  refine ⟨?_, ?_, Mailbox.givesUp_iff hcheck, GpuService.givesUp_iff hcheck⟩
  · intro hfits
    have hsome : d.timeoutMs? ≠ none := fun hnone =>
      absurd (Dispatch.timeoutMs?_eq_none_iff.mp hnone) (Nat.not_lt.mpr hfits)
    obtain ⟨timeout, htimeout⟩ := Option.ne_none_iff_exists'.mp hsome
    refine ⟨executeOrder d timeout, .ofDispatch d timeout, encodes hcheck htimeout, ?_, ?_, ?_⟩
    · intro events r h
      exact Mailbox.sends_order hcheck htimeout h
    · intro events r h
      exact GpuService.submits_job hcheck htimeout h
    · intro events r h
      exact Linux.transcript_job hcheck htimeout h
  · intro τ answer
    exact ⟨comesBack_of_plain (Mailbox.execute_works d), comesBack_of_plain (g.execute_works d)⟩

end Calls

/-- Two programs that may take a millisecond and a half. -/
def sampleShort : Dispatch where
  control := [⟨0x100, 0x200⟩, ⟨0x300, 0x400⟩]
  controlAddress := ⟨0xC0001000⟩
  timeout := .ofMicroseconds 1500

/-- The same two programs, with a millisecond more than fits. -/
def sampleLong : Dispatch := { sampleShort with timeout := .ofMilliseconds (2 ^ 32) }

theorem executors_encode_alike_sample :
    sampleShort.check = .ok () ∧ sampleShort.timeout.milliseconds ≤ 2 ^ 32 - 1 ∧
    (∃ message job, Encodes sampleShort message job (.ofJob job) ∧
      (message.content 0).toNat = 2 ∧ message.content 1 = 0xC0001000 ∧ message.content 2 = 1 ∧
      job.control.toList =
        [⟨0x100, 0x200⟩, ⟨0x300, 0x400⟩] ++ List.replicate 10 (⟨0, 0⟩ : ControlPair) ∧
      ∀ events (r : Except Fault (Handle Unit)), Performs (Mailbox.execute sampleShort) events r →
        ∃ reply, events = [⟨.property message, reply⟩]) ∧
    sampleLong.check = .ok () ∧
    GivesUp (Mailbox.execute sampleLong) (.settled false : Handle Unit) ∧
    GivesUp (GpuService.execute {} sampleLong) (.settled false, {}) := by
  have hfits : sampleShort.timeout.milliseconds ≤ 2 ^ 32 - 1 := by decide
  have hlong : 2 ^ 32 - 1 < sampleLong.timeout.milliseconds := by decide
  obtain ⟨message, job, hencodes, hsent, -⟩ :=
    (executors_encode_alike (κ := Unit) sampleShort rfl {} {}).1 hfits
  have hgiven := (executors_encode_alike (κ := Unit) sampleLong rfl {} {}).2.2
  exact ⟨rfl, hfits, ⟨message, job, hencodes, hencodes.terms.programs, hencodes.address,
    hencodes.terms.noFlush, hencodes.control, hsent⟩, rfl, hgiven.1.mpr hlong, hgiven.2.mpr hlong⟩

end VideoCore
