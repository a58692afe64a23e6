import VideoCore.Proofs.GpuService.Completion
import VideoCore.Proofs.Session.Reach
import VideoCore.Proofs.V3d.Dispatch

/-!
# Calls that come back

Most calls of a system repeat nothing, so they come back whatever the machine answers. Two of them
have a loop: a dispatch through the register block, and a wait for a job. Either goes on after a turn
only if it has read the clock in that turn and found it early. So both come back as well, on every
machine whose clock goes on (`ClockGoesOn`).
-/

namespace VideoCore

open Hardware
open Dialog (Transcript Follows Ends Plain)
open GpuService (JobWait Tracker)

variable {τ : Type} {answer : Surroundings Hardware τ}

/-! ## The clock -/

/-- Among some exchanges is a reading of the clock before a limit. -/
def ReadsEarly (limit : Instant) (events : List (Exchange Hardware)) : Prop :=
  ∃ now, ⟨.readClock, now⟩ ∈ events ∧ ¬ limit ≤ now

/-- However often it is read, the clock of a machine does not stay before a limit for ever. -/
def ClockGoesOn (answer : Surroundings Hardware τ) : Prop :=
  ∀ limit, WellFounded fun t' t => ∃ events, Follows answer t events t' ∧ ReadsEarly limit events

section Advancing

variable {now : τ → Nat}

theorem now_le_of_follows (hforward : ∀ q t, now t ≤ now (answer q t).2) {t t' : τ}
    {events : List (Exchange Hardware)} (h : Follows answer t events t') : now t ≤ now t' := by
  induction events generalizing t with
  | nil =>
    obtain rfl : t' = t := h
    exact Nat.le_refl _
  | cons e rest ih => exact Nat.le_trans (hforward e.request t) (ih h.2)

/-- A reading lies between what the clock was before and what it is after. -/
theorem read_between_of_follows (hforward : ∀ q t, now t ≤ now (answer q t).2)
    (hreads : ∀ t, (answer .readClock t).1 = (⟨now t⟩ : Instant))
    (hadvances : ∀ t, now t < now (answer .readClock t).2) {t t' : τ} {read : Instant}
    {events : List (Exchange Hardware)} (h : Follows answer t events t')
    (hmem : ⟨.readClock, read⟩ ∈ events) :
    now t ≤ read.nanoseconds ∧ read.nanoseconds < now t' := by
  induction events generalizing t with
  | nil => cases hmem
  | cons e rest ih =>
    obtain ⟨hreply, hrest⟩ := h
    rcases List.mem_cons.mp hmem with rfl | hmem
    · have hread : read = ⟨now t⟩ := hreply.trans (hreads t)
      rw [hread]
      exact ⟨Nat.le_refl _, Nat.lt_of_lt_of_le (hadvances t) (now_le_of_follows hforward hrest)⟩
    · obtain ⟨hle, hlt⟩ := ih hrest hmem
      exact ⟨Nat.le_trans (hforward e.request t) hle, hlt⟩

/-- It is enough that a clock never goes back, and that it advances when it is read. -/
theorem clockGoesOn_of_advances (hforward : ∀ q t, now t ≤ now (answer q t).2)
    (hreads : ∀ t, (answer .readClock t).1 = (⟨now t⟩ : Instant))
    (hadvances : ∀ t, now t < now (answer .readClock t).2) : ClockGoesOn answer := by
  intro limit
  refine Subrelation.wf ?_ (measure fun t => limit.nanoseconds - now t).wf
  rintro t' t ⟨events, hfollows, read, hmem, hearly⟩
  -- less is left of the time until the limit after the reading than before it
  obtain ⟨hle, hlt⟩ := read_between_of_follows hforward hreads hadvances hfollows hmem
  have hlimit : read.nanoseconds < limit.nanoseconds := Nat.lt_of_not_le hearly
  show limit.nanoseconds - now t' < limit.nanoseconds - now t
  omega

end Advancing

/-! ## The two loops -/

theorem V3d.ends_polling (hclock : ClockGoesOn answer) (v3d : V3d) (d : Dispatch) (start : Instant)
    (t : τ) : (polling v3d d start).Ends answer t := by
  refine Dialog.ends_iterate (P := ReadsEarly (start.after d.timeout))
    (fun _ t => (poll_works _ _ _ _).ends t) ?_ (hclock _) () t
  intro _ _ turn hturn
  have hearly : ∀ {now : Instant}, ¬ d.timeout ≤ now.since start → ¬ start.after d.timeout ≤ now := by
    intro now hearly hle
    refine hearly ?_
    have hle : start.nanoseconds + d.timeout.nanoseconds ≤ now.nanoseconds := hle
    show d.timeout.nanoseconds ≤ now.nanoseconds - start.nanoseconds
    omega
  cases transcript_poll.mp hturn with
  | spin found early busy => exact ⟨_, by simp, hearly early⟩
  | nap found early idle => exact ⟨_, by simp, hearly early⟩

/-- Before its loop, a dispatch repeats nothing. -/
theorem V3d.ends_run_of_polling {v3d : V3d} {d : Dispatch}
    (h : ∀ start t, (polling v3d d start).Ends answer t) (t : τ) :
    (v3d.run d.control d.flushCache d.timeout).Ends answer t := by
  have hread : readClock.Plain (Uses .v3d) := plain_ask (.ofNobody rfl id)
  refine (hread.ends t).bind fun start t => ?_
  have hrest : ∀ (u : PUnit) t, Ends answer (do enqueue d.control; polling v3d d start) t :=
    fun _ t => ((enqueue_works d.control).ends t).bind fun _ t => h start t
  dsimp only
  split
  · exact (flushCaches_works.ends t).bind hrest
  · exact hrest ⟨⟩ t

theorem V3d.ends_run (hclock : ClockGoesOn answer) (v3d : V3d) (d : Dispatch) (t : τ) :
    (v3d.run d.control d.flushCache d.timeout).Ends answer t :=
  ends_run_of_polling (ends_polling hclock v3d d) t

theorem GpuService.ends_awaitJob (hclock : ClockGoesOn answer) (w : JobWait) (tracker : Tracker)
    (t : τ) : (awaitJob w tracker).Ends answer t := by
  have hturn : ∀ s, (waitTurn w s).Plain (Works .gpuService) := waitTurn_works w
  refine Dialog.ends_iterate (P := ReadsEarly w.deadline) (fun s t => (hturn s).ends t) ?_
    (hclock _) tracker t
  intro s s' events hturn
  rcases transcript_waitTurn.mp hturn with
    ⟨-, -, hr⟩ | ⟨-, now, -, -, hr⟩ | ⟨-, now, ids, hearly, rfl, -⟩
  · cases hr
  · cases hr
  · exact ⟨now, List.mem_cons_self, hearly⟩

/-! ## Attempts -/

section Attempts

variable {α β : Type}

/-- An attempt comes back on a machine, whatever state the machine is in. -/
def ComesBack (answer : Surroundings Hardware τ) (x : Attempt α) : Prop :=
  ∀ t, x.run.Ends answer t

theorem comesBack_of_plain {allowed : Request → Prop} {x : Attempt α}
    (h : Trial.Plain allowed x) : ComesBack answer x :=
  h.run.ends

theorem comesBack_bind {x : Attempt α} {f : α → Attempt β} (h : ComesBack answer x)
    (k : ∀ a, ComesBack answer (f a)) : ComesBack answer (x >>= f) := by
  intro t
  rw [Trial.run_bind]
  refine (h t).bind fun r t => ?_
  cases r with
  | error fault => exact ⟨0, _, _, rfl⟩
  | ok a => exact k a t

theorem comesBack_pure (a : α) : ComesBack answer (pure a) :=
  fun t => ⟨0, .ok a, t, rfl⟩

theorem comesBack_throw (fault : Fault) : ComesBack answer (throw fault : Attempt α) :=
  fun t => ⟨0, .error fault, t, rfl⟩

theorem comesBack_check {e : Except Fault α} {f : α → Attempt β} (k : ∀ a, ComesBack answer (f a)) :
    ComesBack answer (liftM e >>= f) :=
  comesBack_bind (fun t => ⟨0, e, t, rfl⟩) k

theorem comesBack_lift {d : Access α} (h : ∀ t, d.Ends answer t) :
    ComesBack answer (liftM d) :=
  fun t => (h t).bind fun a t => ⟨0, .ok a, t, rfl⟩

end Attempts

/-! ## Calls of a system -/

/-- Only the loop at the register block depends on the clock. -/
theorem Backends.comesBack_execute {kind : BackendKind}
    (hclock : kind = .v3d → ClockGoesOn answer) (b : Backends) (d : Dispatch) :
    ComesBack answer (b.execute kind d) := by
  unfold Backends.execute
  cases kind with
  | mailbox => exact comesBack_of_plain (Trial.plain_map (Mailbox.execute_works d))
  | sharedMemory => exact comesBack_throw _
  | v3d =>
    dsimp only
    split
    · exact comesBack_throw _
    · next v _ =>
      have hrun := comesBack_lift (V3d.ends_run (hclock rfl) v d)
      refine comesBack_bind (comesBack_check fun _ => ?_) fun _ => comesBack_pure _
      exact comesBack_bind hrun fun _ => comesBack_pure _
  | gpuService =>
    dsimp only
    split
    · exact comesBack_throw _
    · next g _ => exact comesBack_of_plain (Trial.plain_map (g.execute_works d))
  | emulator =>
    dsimp only
    split
    · exact comesBack_throw _
    · next e _ => exact comesBack_of_plain (Trial.plain_map (e.execute_works d))

namespace System

theorem comesBack_allocate (s : System) (r : AllocationRequest) :
    ComesBack answer (s.allocate r) := by
  refine comesBack_check fun _ => ?_
  split
  · exact comesBack_throw _
  · next owner _ =>
    have hbackend : ComesBack answer (s.backends.allocate owner (adjust s.config r)) :=
      comesBack_of_plain (s.backends.allocate_uses owner _)
    exact comesBack_bind hbackend fun _ => comesBack_pure _

theorem comesBack_execute {s : System} (hclock : s.execution = some .v3d → ClockGoesOn answer)
    (d : Dispatch) : ComesBack answer (s.execute d) := by
  refine comesBack_check fun _ => ?_
  split
  · exact comesBack_throw _
  · next kind hkind =>
    have hbackend := s.backends.comesBack_execute (fun hv3d => hclock (hv3d ▸ hkind)) d
    exact comesBack_bind hbackend fun _ => comesBack_pure _

end System

namespace Session

theorem release_plain (s : Session) (name : String) : (s.release name).Plain fun _ => True := by
  unfold release
  split
  · trivial
  · next buffer _ => exact (endBuffer_plain _ buffer).bind fun _ => trivial

/-- Only the loop of a wait for a job depends on the clock. -/
theorem ends_wait {s : Session} {name : String}
    (hclock : ∀ w, s.handles.get? name = some (.pending w) → ClockGoesOn answer) (t : τ) :
    (s.wait name).Ends answer t := by
  unfold wait
  cases hhandle : s.handles.get? name with
  | none => exact ⟨0, _, _, rfl⟩
  | some handle =>
    refine Ends.bind ?_ fun _ t => ⟨0, _, t, rfl⟩
    cases handle with
    | settled passed => exact ⟨0, _, _, rfl⟩
    | abandoned => exact ⟨0, _, _, rfl⟩
    | pending w =>
      refine Ends.bind ?_ fun _ t => ⟨0, _, t, rfl⟩
      have hjob := GpuService.ends_awaitJob (hclock w hhandle) w s.tracker t
      exact hjob.bind fun _ t => ⟨0, _, t, rfl⟩

end Session

end VideoCore
