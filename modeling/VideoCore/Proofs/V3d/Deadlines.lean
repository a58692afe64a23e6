import Mathlib.Algebra.Order.Floor.Div
import VideoCore.Proofs.System.Endings
import VideoCore.Proofs.V3d.Accesses

/-!
# How long a dispatch polls

The loop that waits for a dispatch looks at the count of completed programs, then at the clock, and then
sleeps for the poll interval or for what is left of the time, whichever is shorter. With an interval of
zero it does not sleep at all.

Two kinds of machine are looked at. On one that stalls (`Stalled`), programs never complete, and time
passes in sleeps only: there the loop fails at the deadline to the nanosecond, and the number of its
polls is known. On any machine that keeps time (`KeepsTime`), with any schedule of completing programs,
the loop ends, and its polls are bounded; only if it spins does the clock have to advance by itself.
-/

namespace VideoCore.V3d

open Hardware
open Dialog (Transcript Follows Ends)

/-! ## Machines -/

section Machines

variable {τ : Type} (answer : Surroundings Hardware τ) (now : τ → Nat)

/-- A machine with a clock. `now` is the time in nanoseconds. It does not go back, what is read is the
time at some moment of the reading, and a sleep is not cut short. -/
structure KeepsTime : Prop where
  forward : ∀ q t, now t ≤ now (answer q t).2
  reads : ∀ t, now t ≤ (answer .readClock t).1.nanoseconds ∧
    (answer .readClock t).1.nanoseconds ≤ now (answer .readClock t).2
  sleeps : ∀ length t, now t + length.nanoseconds ≤ now (answer (.sleep length) t).2

/-- The accesses of a dispatch: reads and writes of registers, and readings of the clock. -/
def IsAccess : Request → Prop
  | .readRegister _ | .writeRegister _ _ | .readClock => True
  | _ => False

/-- A machine on which a dispatch of some programs stalls. Its accesses take no time, its sleeps take as
long as they should, and the count of completed programs never is what is waited for. -/
structure Stalled (programs : Nat) : Prop extends KeepsTime answer now where
  instant : ∀ q t, IsAccess q → now (answer q t).2 = now t
  exact : ∀ length t, now (answer (.sleep length) t).2 = now t + length.nanoseconds
  never : ∀ t, (countIn (answer (.readRegister Reg.srqcs) t).1).toNat ≠ programs

/-- A machine on which a poll, a look at the count and one at the clock, takes some time. -/
def PollsTake (step : Nat) : Prop :=
  ∀ t, now t + step ≤ now (answer .readClock (answer (.readRegister Reg.srqcs) t).2).2

end Machines

/-! ## What happens in a loop -/

/-- How often the count of completed programs was polled. -/
def pollCount (events : List (Exchange Hardware)) : Nat :=
  events.countP fun e => match e.request with
    | .readRegister offset => offset = Reg.srqcs
    | _ => false

/-- The exchanges of a turn that sleeps. -/
abbrev napping (status : UInt32) (read later : Instant) (length : Duration) :
    List (Exchange Hardware) :=
  [statusRead status, ⟨.readClock, read⟩] ++ [⟨.readClock, later⟩, ⟨.sleep length, ()⟩]

theorem nanoseconds_napLength (timeout interval : Duration) (start now : Instant) :
    (napLength timeout interval start now).nanoseconds =
      min interval.nanoseconds (timeout.nanoseconds - (now.nanoseconds - start.nanoseconds)) := rfl

theorem pos_of_ne_zero {interval : Duration} (h : interval ≠ .zero) : 0 < interval.nanoseconds := by
  apply Nat.pos_of_ne_zero
  intro hzero
  exact h (congrArg Duration.mk hzero)

section Naps

variable {τ : Type} (answer : Surroundings Hardware τ) (now : τ → Nat)

/-- No sleep is longer than the interval, and none ends past the deadline. -/
def NapsWithin (interval : Duration) (deadline : Nat) : τ → List (Exchange Hardware) → Prop
  | _, [] => True
  | t, e :: rest =>
    (∀ length, e.request = .sleep length →
      length ≤ interval ∧ now (answer e.request t).2 ≤ deadline) ∧
    NapsWithin interval deadline (answer e.request t).2 rest

variable {answer now}

theorem NapsWithin.append {interval : Duration} {deadline : Nat} {t u : τ}
    {first rest : List (Exchange Hardware)} (h : NapsWithin answer now interval deadline t first)
    (hfollows : Follows answer t first u) (k : NapsWithin answer now interval deadline u rest) :
    NapsWithin answer now interval deadline t (first ++ rest) := by
  induction first generalizing t with
  | nil =>
    obtain rfl : u = t := hfollows
    exact k
  | cons e first ih => exact ⟨h.1, ih h.2 hfollows.2⟩

theorem napsWithin_napping {interval length : Duration} {deadline : Nat} {t u : τ} {status : UInt32}
    {read later : Instant} (hfollows : Follows answer t (napping status read later length) u)
    (hlength : length ≤ interval) (hends : now u ≤ deadline) :
    NapsWithin answer now interval deadline t (napping status read later length) := by
  obtain ⟨-, -, -, -, hlast⟩ := hfollows
  obtain rfl : u = _ := hlast
  refine ⟨nofun, nofun, nofun, ?_, trivial⟩
  intro other hother
  cases hother
  exact ⟨hlength, hends⟩

end Naps

theorem pollCount_append (first rest : List (Exchange Hardware)) :
    pollCount (first ++ rest) = pollCount first + pollCount rest :=
  List.countP_append

/-- Writing registers is not polling. -/
theorem pollCount_writing (writes : List (UInt32 × UInt32)) : pollCount (writing writes) = 0 := by
  apply List.countP_eq_zero.mpr
  intro e he
  obtain ⟨w, -, rfl⟩ := List.mem_map.mp he
  exact Bool.false_ne_true

section Writing

variable {τ : Type} {answer : Surroundings Hardware τ} {now : τ → Nat}

theorem napsWithin_writing {interval : Duration} {deadline : Nat} (writes : List (UInt32 × UInt32))
    (t : τ) : NapsWithin answer now interval deadline t (writing writes) := by
  induction writes generalizing t with
  | nil => trivial
  | cons w writes ih => exact ⟨nofun, ih _⟩

/-- Writing registers takes no time on a machine that stalls. -/
theorem Stalled.now_writing {programs : Nat} (h : Stalled answer now programs)
    {writes : List (UInt32 × UInt32)} {t t' : τ} (hfollows : Follows answer t (writing writes) t') :
    now t' = now t := by
  induction writes generalizing t with
  | nil => rw [show t' = t from hfollows]
  | cons w writes ih => rw [ih hfollows.2, h.instant (.writeRegister w.1 w.2) t trivial]

end Writing

/-! ## The loop -/

/-- As long as something is left, one share more is one round more. -/
theorem ceilDiv_of_pos {left share : Nat} (hleft : 0 < left) (hshare : 0 < share) :
    left ⌈/⌉ share = (left - share) ⌈/⌉ share + 1 := by
  rw [Nat.ceilDiv_eq_add_pred_div, Nat.ceilDiv_eq_add_pred_div]
  by_cases hmore : share ≤ left
  · rw [show left + share - 1 = left - share + share - 1 + share by omega,
      Nat.add_div_right _ hshare]
  · rw [show left - share = 0 by omega, show left + share - 1 = left - 1 + share by omega,
      Nat.add_div_right _ hshare, Nat.div_eq_of_lt (by omega), Nat.div_eq_of_lt (by omega)]

section Stalling

variable {τ : Type} {answer : Surroundings Hardware τ} {now : τ → Nat} {programs : Nat}

theorem Stalled.read (h : Stalled answer now programs) (t : τ) :
    (answer .readClock t).1.nanoseconds = now t := by
  obtain ⟨hlow, hhigh⟩ := h.reads t
  have hinstant := h.instant .readClock t trivial
  omega

/-- On a machine that stalls, the time does not change in a turn that ends the loop. -/
theorem Stalled.late (h : Stalled answer now programs) {t t' : τ} {status : UInt32} {read : Instant}
    (hfollows : Follows answer t [statusRead status, ⟨.readClock, read⟩] t') :
    read.nanoseconds = now t ∧ now t' = now t := by
  obtain ⟨-, hread, hlast⟩ := hfollows
  obtain rfl : t' = _ := hlast
  have hstatus := h.instant (.readRegister Reg.srqcs) t trivial
  have hclock := h.instant .readClock (answer (.readRegister Reg.srqcs) t).2 trivial
  refine ⟨?_, hclock.trans hstatus⟩
  rw [show read = _ from hread, h.read]
  exact hstatus

/-- All other turns take as long as they sleep. -/
theorem Stalled.nap (h : Stalled answer now programs) {t t' : τ} {status : UInt32}
    {read later : Instant} {length : Duration}
    (hfollows : Follows answer t (napping status read later length) t') :
    read.nanoseconds = now t ∧ later.nanoseconds = now t ∧ now t' = now t + length.nanoseconds := by
  obtain ⟨u, hlook, hlater, -, hlast⟩ := hfollows.split
  obtain ⟨hread, hu⟩ := h.late hlook
  have hclock := h.instant .readClock u trivial
  refine ⟨hread, ?_, ?_⟩
  · rw [show later = _ from hlater, h.read]
    exact hu
  · rw [show t' = _ from hlast]
    refine (h.exact length _).trans ?_
    rw [hclock, hu]

/-- What a dispatch comes to that is not done before its deadline: it ends there, after one poll for
every interval that was begun, and a last one. -/
structure TimesOut (answer : Surroundings Hardware τ) (now : τ → Nat) (interval : Duration)
    (deadline : Nat) (t : τ) (events : List (Exchange Hardware)) (t' : τ) : Prop where
  ends : now t' = deadline
  polls : pollCount events = (deadline - now t) ⌈/⌉ interval.nanoseconds + 1
  naps : NapsWithin answer now interval deadline t events

/-- A nap of an interval, or of what is left, is one poll more. -/
theorem TimesOut.preceded {interval length : Duration} {deadline : Nat} {t u t' : τ}
    {rest : List (Exchange Hardware)} {status : UInt32} {read later : Instant}
    (h : TimesOut answer now interval deadline u rest t') (hinterval : interval ≠ .zero)
    (hnap : Follows answer t (napping status read later length) u) (hearly : now t < deadline)
    (hlength : length.nanoseconds = min interval.nanoseconds (deadline - now t))
    (hu : now u = now t + length.nanoseconds) :
    TimesOut answer now interval deadline t (napping status read later length ++ rest) t' where
  ends := h.ends
  polls := by
    have hleft : deadline - now u = deadline - now t - interval.nanoseconds := by omega
    rw [pollCount_append, h.polls, hleft,
      ceilDiv_of_pos (Nat.sub_pos_of_lt hearly) (pos_of_ne_zero hinterval)]
    exact Nat.add_comm 1 _
  naps := by
    have hshort : length ≤ interval := by
      show length.nanoseconds ≤ interval.nanoseconds
      omega
    have hends : now u ≤ deadline := by omega
    exact (napsWithin_napping hnap hshort hends).append hnap h.naps

/-- On a machine that stalls, the loop never finds what it waits for. -/
theorem Stalled.not_found {d : Dispatch} (h : Stalled answer now d.control.length)
    (hwidth : d.control.length ≤ 12) {t t' : τ} {status : UInt32} {rest : List (Exchange Hardware)}
    (hfollows : Follows answer t (statusRead status :: rest) t') :
    countIn status ≠ UInt32.ofNat d.control.length &&& countMask := by
  intro hsame
  apply h.never t
  rw [show (answer (.readRegister Reg.srqcs) t).1 = status from hfollows.1.symm, hsame,
    Scene.toNat_expected, Nat.mod_eq_of_lt (by omega)]

/-- A loop that begins no later than its deadline fails there. -/
theorem Stalled.polling {v3d : V3d} {d : Dispatch} (h : Stalled answer now d.control.length)
    (hwidth : d.control.length ≤ 12) (hinterval : v3d.pollInterval ≠ .zero) {start : Instant}
    {events : List (Exchange Hardware)} {passed : Bool}
    (hpolls : Transcript (polling v3d d start) events passed) {t t' : τ}
    (hfollows : Follows answer t events t') (hbegun : start.nanoseconds ≤ now t)
    (hearly : now t ≤ start.nanoseconds + d.timeout.nanoseconds) :
    passed = false ∧ TimesOut answer now v3d.pollInterval
      (start.nanoseconds + d.timeout.nanoseconds) t events t' := by
  let deadline := start.nanoseconds + d.timeout.nanoseconds
  -- by induction on the turns, of which all but the last one nap
  revert t t'
  refine hpolls.iterate_induct (P := fun _ events passed => ∀ {t t' : τ}, Follows answer t events t' →
    start.nanoseconds ≤ now t → now t ≤ deadline → passed = false ∧
      TimesOut answer now v3d.pollInterval deadline t events t') ?_ ?_
  · intro _ turn passed hturn t t' hfollows hbegun hearly
    cases transcript_poll.mp hturn with
    | passed found => exact absurd found (h.not_found hwidth hfollows)
    | @late status read found due =>
      obtain ⟨hread, hlast⟩ := h.late hfollows
      have hdue : d.timeout.nanoseconds ≤ read.nanoseconds - start.nanoseconds := due
      have hover : now t = deadline := by omega
      refine ⟨rfl, hlast.trans hover, ?_, nofun, nofun, trivial⟩
      rw [hover, Nat.sub_self, zero_ceilDiv]
      rfl
  · intro _ _ turn rest passed hturn ih t t' hfollows hbegun hearly
    cases transcript_poll.mp hturn with
    | spin found early busy => exact absurd busy hinterval
    | @nap status read later found early idle =>
      obtain ⟨u, hnap, hrest⟩ := hfollows.split
      obtain ⟨hread, hlater, hu⟩ := h.nap hnap
      have hleft : ¬ d.timeout.nanoseconds ≤ read.nanoseconds - start.nanoseconds := early
      have hlength := nanoseconds_napLength d.timeout v3d.pollInterval start later
      rw [hlater, show d.timeout.nanoseconds - (now t - start.nanoseconds) = deadline - now t by omega]
        at hlength
      obtain ⟨hpassed, htimes⟩ := ih hrest (by omega) (by omega)
      exact ⟨hpassed, htimes.preceded hinterval hnap (by omega) hlength hu⟩

end Stalling

/-! ## Any machine -/

section Keeping

variable {τ : Type} {answer : Surroundings Hardware τ} {now : τ → Nat} {v3d : V3d} {d : Dispatch}

theorem KeepsTime.look (h : KeepsTime answer now) {t u : τ} {status : UInt32} {read : Instant}
    (hfollows : Follows answer t [statusRead status, ⟨.readClock, read⟩] u) :
    now t ≤ read.nanoseconds ∧ read.nanoseconds ≤ now u := by
  obtain ⟨-, hread, hlast⟩ := hfollows
  obtain rfl : u = _ := hlast
  obtain ⟨hlow, hhigh⟩ := h.reads (answer (.readRegister Reg.srqcs) t).2
  have hstatus := h.forward (.readRegister Reg.srqcs) t
  rw [show read = _ from hread]
  exact ⟨Nat.le_trans hstatus hlow, hhigh⟩

theorem KeepsTime.nap (h : KeepsTime answer now) {t u : τ} {status : UInt32}
    {read later : Instant} {length : Duration}
    (hfollows : Follows answer t (napping status read later length) u) :
    now t ≤ read.nanoseconds ∧ read.nanoseconds ≤ later.nanoseconds ∧
      later.nanoseconds + length.nanoseconds ≤ now u := by
  obtain ⟨between, hlook, hlater, -, hlast⟩ := hfollows.split
  obtain ⟨hread, hbetween⟩ := h.look hlook
  obtain ⟨hlow, hhigh⟩ := h.reads between
  have hsleep := h.sleeps length (answer .readClock between).2
  rw [show later = _ from hlater, show u = _ from hlast]
  exact ⟨hread, Nat.le_trans hbetween hlow, Nat.le_trans (Nat.add_le_add_right hhigh _) hsleep⟩

/-- How much of the time a turn takes at least: the interval, or what a poll takes if the loop spins. -/
def share (v3d : V3d) (step : Nat) : Nat :=
  if v3d.pollInterval = .zero then step else v3d.pollInterval.nanoseconds

theorem share_pos (v3d : V3d) {step : Nat} (hstep : 0 < step) : 0 < v3d.share step := by
  unfold share
  split
  · exact hstep
  · next hinterval => exact pos_of_ne_zero hinterval

/-- A turn after which the loop goes on began before the deadline. It takes its share of the time, or
comes to the deadline. -/
theorem KeepsTime.turn (h : KeepsTime answer now) {step : Nat} (hstep : 0 < step)
    (hspins : v3d.pollInterval = .zero → PollsTake answer now step) {expected : UInt32}
    {start : Instant} {timeout : Duration} {turn : List (Exchange Hardware)} {s : Unit}
    (hturn : Turn expected start timeout v3d.pollInterval turn (.inl s)) {t u : τ}
    (hfollows : Follows answer t turn u) :
    now t < start.nanoseconds + timeout.nanoseconds ∧ now t < now u ∧
      (start.nanoseconds ≤ now t →
        min (now t + v3d.share step) (start.nanoseconds + timeout.nanoseconds) ≤ now u) := by
  have hshare : 0 < v3d.share step := share_pos v3d hstep
  cases hturn with
  | @spin status read found early busy =>
    have hleft : ¬ timeout.nanoseconds ≤ read.nanoseconds - start.nanoseconds := early
    obtain ⟨hread, -⟩ := h.look hfollows
    have htake := hspins busy t
    rw [show (answer .readClock (answer (.readRegister Reg.srqcs) t).2).2 = u from hfollows.2.2.symm]
      at htake
    have hspin : v3d.share step = step := if_pos busy
    omega
  | @nap status read later found early idle =>
    have hleft : ¬ timeout.nanoseconds ≤ read.nanoseconds - start.nanoseconds := early
    obtain ⟨hread, hlater, hend⟩ := h.nap hfollows
    have hnap : v3d.share step = v3d.pollInterval.nanoseconds := if_neg idle
    rw [nanoseconds_napLength] at hend
    omega

/-- The loop ends, as the time that is left is less after every turn. -/
theorem KeepsTime.ends_polling (h : KeepsTime answer now) {step : Nat} (hstep : 0 < step)
    (hspins : v3d.pollInterval = .zero → PollsTake answer now step) (start : Instant) (t : τ) :
    (polling v3d d start).Ends answer t := by
  let deadline := start.nanoseconds + d.timeout.nanoseconds
  refine Dialog.ends_iterate (P := fun turn => Turn (UInt32.ofNat d.control.length &&& countMask) start
    d.timeout v3d.pollInterval turn (.inl ())) (fun _ t => (poll_works _ _ _ _).ends t)
    (fun hturn => transcript_poll.mp hturn) ?_ () t
  refine Subrelation.wf ?_ (measure fun t => deadline - now t).wf
  rintro u t ⟨turn, hfollows, hturn⟩
  obtain ⟨hearly, hlater, -⟩ := h.turn hstep hspins hturn hfollows
  show deadline - now u < deadline - now t
  omega

/-- Every poll but the last takes its share of the time. -/
theorem KeepsTime.pollCount_le (h : KeepsTime answer now) {step : Nat} (hstep : 0 < step)
    (hspins : v3d.pollInterval = .zero → PollsTake answer now step) {start : Instant}
    {events : List (Exchange Hardware)} {passed : Bool}
    (hpolls : Transcript (polling v3d d start) events passed) {t t' : τ}
    (hfollows : Follows answer t events t') (hbegun : start.nanoseconds ≤ now t) :
    pollCount events ≤
      (start.nanoseconds + d.timeout.nanoseconds - now t) ⌈/⌉ v3d.share step + 1 := by
  let deadline := start.nanoseconds + d.timeout.nanoseconds
  have hshare : 0 < v3d.share step := share_pos v3d hstep
  revert t t'
  refine hpolls.iterate_induct (P := fun _ events _ => ∀ {t t' : τ}, Follows answer t events t' →
    start.nanoseconds ≤ now t →
      pollCount events ≤ (deadline - now t) ⌈/⌉ v3d.share step + 1) ?_ ?_
  · intro _ turn passed hturn t t' _ _
    have hone : pollCount turn = 1 := by
      cases transcript_poll.mp hturn <;> rfl
    omega
  · intro _ _ turn rest passed hturn ih t t' hfollows hbegun
    have hturn := transcript_poll.mp hturn
    have hone : pollCount turn = 1 := by
      cases hturn <;> rfl
    obtain ⟨u, hfirst, hrest⟩ := hfollows.split
    obtain ⟨hearly, hlater, hshared⟩ := h.turn hstep hspins hturn hfirst
    have hmin := hshared hbegun
    have hless : deadline - now u ≤ deadline - now t - v3d.share step := by omega
    have hrounds := (gc_mul_ceilDiv hshare).monotone_l hless
    have hall := ih hrest (by omega)
    rw [pollCount_append, hone, ceilDiv_of_pos (show 0 < deadline - now t by omega) hshare]
    omega

end Keeping

/-! ## Dispatches -/

section Dispatches

variable {τ : Type} {answer : Surroundings Hardware τ} {now : τ → Nat} {v3d : V3d} {d : Dispatch}

/-- What a dispatch exchanges before its loop: a reading of the clock, and its writes. -/
def beforeLoop (d : Dispatch) (start : Instant) : List (Exchange Hardware) :=
  ⟨.readClock, start⟩ :: writing (clearing d ++ queueing d.control)

/-- No poll and no sleep comes before the loop. -/
theorem exists_polling {events : List (Exchange Hardware)} {passed : Bool} {t t' : τ}
    (h : Transcript (v3d.run d.control d.flushCache d.timeout) events passed)
    (hfollows : Follows answer t events t') :
    ∃ polls u, events = beforeLoop d (answer .readClock t).1 ++ polls ∧
      Follows answer t (beforeLoop d (answer .readClock t).1) u ∧ Follows answer u polls t' ∧
      Transcript (polling v3d d (answer .readClock t).1) polls passed := by
  obtain ⟨start, polls, rfl, hpolls⟩ := transcript_run.mp h
  obtain ⟨hstart, hrest⟩ := hfollows
  have hstart : start = (answer .readClock t).1 := hstart
  subst hstart
  obtain ⟨u, hwrites, hloop⟩ := hrest.split
  exact ⟨polls, u, rfl, ⟨rfl, hwrites⟩, hloop, hpolls⟩

theorem pollCount_beforeLoop (start : Instant) : pollCount (beforeLoop d start) = 0 :=
  pollCount_writing _

theorem napsWithin_beforeLoop {interval : Duration} {deadline : Nat} (start : Instant) (t : τ) :
    NapsWithin answer now interval deadline t (beforeLoop d start) :=
  ⟨nofun, napsWithin_writing _ _⟩

/-- The loop of a dispatch is bounded, and does not go past the deadline.

On a machine that stalls, a dispatch of 1 to 12 programs with an interval that is not zero comes back,
and says that it failed, exactly when its timeout is over. It has polled once for every interval that
was begun, and once more, and no sleep was longer than the interval or went past the deadline.

On any machine that keeps time, whatever count it shows and when, a dispatch comes back. If the loop
spins, a poll has to take some time. -/
theorem dispatch_bounded {τ : Type} (answer : Surroundings Hardware τ) (now : τ → Nat) (v3d : V3d)
    (d : Dispatch) (t : τ) :
    (1 ≤ d.control.length ∧ d.control.length ≤ 12 → v3d.pollInterval ≠ .zero →
      Stalled answer now d.control.length →
      ∃ events t', (v3d.run d.control d.flushCache d.timeout).Returns answer t events false t' ∧
        now t' = now t + d.timeout.nanoseconds ∧
        pollCount events = d.timeout.nanoseconds ⌈/⌉ v3d.pollInterval.nanoseconds + 1 ∧
        NapsWithin answer now v3d.pollInterval (now t + d.timeout.nanoseconds) t events) ∧
    (KeepsTime answer now → ∀ step, 0 < step →
      (v3d.pollInterval = .zero → PollsTake answer now step) →
      ∃ events passed t',
        (v3d.run d.control d.flushCache d.timeout).Returns answer t events passed t' ∧
        pollCount events ≤ d.timeout.nanoseconds ⌈/⌉ v3d.share step + 1) := by
  constructor
  · intro hwidth hinterval hstalled
    have hspins : v3d.pollInterval = .zero → PollsTake answer now 1 := fun hzero =>
      absurd hzero hinterval
    have hends : (v3d.run d.control d.flushCache d.timeout).Ends answer t :=
      ends_run_of_polling (hstalled.ends_polling Nat.one_pos hspins) t
    obtain ⟨events, passed, t', hreturns⟩ := hends.returns
    obtain ⟨polls, u, rfl, hbefore, hloop, hpolls⟩ :=
      exists_polling hreturns.exchanged hreturns.follows
    have hstart := hstalled.read t
    have hu : now u = now t :=
      (hstalled.now_writing hbefore.2).trans (hstalled.instant .readClock t trivial)
    obtain ⟨rfl, htimes⟩ := hstalled.polling hwidth.2 hinterval hpolls hloop (by omega) (by omega)
    rw [hstart] at htimes
    refine ⟨_, t', hreturns, htimes.ends, ?_, ?_⟩
    · rw [pollCount_append, pollCount_beforeLoop, htimes.polls, hu, Nat.add_sub_cancel_left,
        Nat.zero_add]
    · exact (napsWithin_beforeLoop _ t).append hbefore htimes.naps
  · intro hkeeps step hstep hspins
    have hends : (v3d.run d.control d.flushCache d.timeout).Ends answer t :=
      ends_run_of_polling (hkeeps.ends_polling hstep hspins) t
    obtain ⟨events, passed, t', hreturns⟩ := hends.returns
    refine ⟨events, passed, t', hreturns, ?_⟩
    obtain ⟨polls, u, rfl, hbefore, hloop, hpolls⟩ :=
      exists_polling hreturns.exchanged hreturns.follows
    have hbegun : (answer .readClock t).1.nanoseconds ≤ now u :=
      Nat.le_trans (hkeeps.reads t).2 (now_le_of_follows hkeeps.forward hbefore.2)
    have hcount := hkeeps.pollCount_le hstep hspins hpolls hloop hbegun
    have hrounds := (gc_mul_ceilDiv (share_pos v3d hstep)).monotone_l
      (show (answer .readClock t).1.nanoseconds + d.timeout.nanoseconds - now u ≤
        d.timeout.nanoseconds by omega)
    rw [pollCount_append, pollCount_beforeLoop, Nat.zero_add]
    exact Nat.le_trans hcount (Nat.add_le_add_right hrounds 1)

/-- A machine with nothing but a clock. Registers show 0, and reading the clock takes some time. -/
def clockwork (tick : Nat) : Surroundings Hardware Nat
  | .readClock, t => (⟨t⟩, t + tick)
  | .sleep length, t => ((), t + length.nanoseconds)
  | request, t => nothingElse request t

theorem clockwork_keepsTime (tick : Nat) : KeepsTime (clockwork tick) id where
  forward q t := by
    cases q with
    | readClock => exact Nat.le_add_right t tick
    | sleep length => exact Nat.le_add_right t length.nanoseconds
    | _ => exact Nat.le_refl t
  reads t := ⟨Nat.le_refl t, Nat.le_add_right t tick⟩
  sleeps _ t := Nat.le_refl _

theorem clockwork_stalled : Stalled (clockwork 0) id 1 where
  toKeepsTime := clockwork_keepsTime 0
  instant q t haccess := by
    cases q with
    | readClock | readRegister | writeRegister => rfl
    | _ => exact haccess.elim
  exact _ _ := rfl
  never _ := by
    show (countIn 0).toNat ≠ 1
    decide

/-- Five nanoseconds in naps of two, and in spins of one. -/
theorem dispatch_bounded_clockwork :
    let d : Dispatch := { control := [⟨0x100, 0x200⟩], timeout := ⟨5⟩ }
    let resting : V3d := { pollInterval := ⟨2⟩ }
    let spinning : V3d := { pollInterval := .zero }
    (1 ≤ d.control.length ∧ d.control.length ≤ 12) ∧ resting.pollInterval ≠ .zero ∧
    Stalled (clockwork 0) id d.control.length ∧ KeepsTime (clockwork 1) id ∧
    PollsTake (clockwork 1) id 1 ∧
    (∃ events, ∃ t' : Nat,
      (resting.run d.control d.flushCache d.timeout).Returns (clockwork 0) 7 events false t' ∧
        t' = 12 ∧ pollCount events = 4) ∧
    (∃ events passed, ∃ t' : Nat,
      (spinning.run d.control d.flushCache d.timeout).Returns (clockwork 1) 7 events passed t' ∧
        pollCount events ≤ 6) := by
  intro d resting spinning
  have hwidth : 1 ≤ d.control.length ∧ d.control.length ≤ 12 := by decide
  have hinterval : resting.pollInterval ≠ .zero := by decide
  have htake : PollsTake (clockwork 1) id 1 := fun t => Nat.le_refl (t + 1)
  refine ⟨hwidth, hinterval, clockwork_stalled, clockwork_keepsTime 1, htake, ?_, ?_⟩
  · obtain ⟨events, t', hreturns, hend, hpolls, -⟩ :=
      (dispatch_bounded (clockwork 0) id resting d 7).1 hwidth hinterval clockwork_stalled
    exact ⟨events, t', hreturns, hend, hpolls.trans (by decide)⟩
  · obtain ⟨events, passed, t', hreturns, hpolls⟩ :=
      (dispatch_bounded (clockwork 1) id spinning d 7).2 (clockwork_keepsTime 1) 1 Nat.one_pos
        fun _ => htake
    exact ⟨events, passed, t', hreturns, Nat.le_trans hpolls (by decide)⟩

end Dispatches

end VideoCore.V3d
