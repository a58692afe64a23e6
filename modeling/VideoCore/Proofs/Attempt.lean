import VideoCore.Hardware
import VideoCore.Proofs.Trial

/-!
# Transcripts of attempts

An attempt is a trial over the hardware. The transcripts of a backend's operation come from those of
its steps, by what holds of the trials of every vocabulary.

`Performs x events r` is the one relation used: the attempt `x` can have the exchanges `events` and
then end with `r`.
-/

namespace VideoCore.Hardware

open Dialog (Transcript)

variable {α β : Type}

/-- An attempt can have some exchanges, in order, and then ends with a value or a fault. -/
def Performs (x : Attempt α) (events : List (Exchange Hardware)) (r : Except Fault α) : Prop :=
  Transcript x.run events r

/-! ## Sequences -/

@[simp] theorem performs_pure {a : α} {events : List (Exchange Hardware)} {r : Except Fault α} :
    Performs (pure a) events r ↔ events = [] ∧ r = .ok a :=
  Trial.yields_pure

@[simp] theorem performs_throw {fault : Fault} {events : List (Exchange Hardware)}
    {r : Except Fault α} :
    Performs (throw fault) events r ↔ events = [] ∧ r = .error fault :=
  Trial.yields_throw

/-- A sequence ends with the fault of its first part, or goes through the second as well. -/
theorem performs_bind {x : Attempt α} {f : α → Attempt β} {events : List (Exchange Hardware)}
    {r : Except Fault β} :
    Performs (x >>= f) events r ↔
      (∃ fault, Performs x events (.error fault) ∧ r = .error fault) ∨
      ∃ first rest a, events = first ++ rest ∧ Performs x first (.ok a) ∧ Performs (f a) rest r :=
  Trial.yields_bind

/-- A value that is only changed on the way out leaves the exchanges as they are. -/
theorem performs_map {x : Attempt α} {g : α → β} {events : List (Exchange Hardware)}
    {r : Except Fault β} :
    Performs (do return g (← x)) events r ↔ ∃ q, Performs x events q ∧ r = q.map g :=
  Trial.yields_map

theorem performs_map_ok {x : Attempt α} {g : α → β} {events : List (Exchange Hardware)} {b : β} :
    Performs (do return g (← x)) events (.ok b) ↔ ∃ a, Performs x events (.ok a) ∧ b = g a := by
  rw [performs_map]
  constructor
  · rintro ⟨fault | a, h, hr⟩
    · cases hr
    · cases hr
      exact ⟨a, h, rfl⟩
  · rintro ⟨a, h, rfl⟩
    exact ⟨.ok a, h, rfl⟩

/-- What is done for its effect alone can only cut a sequence off. -/
theorem performs_discard {x : Attempt α} {events : List (Exchange Hardware)}
    {r : Except Fault PUnit} :
    Performs (discard x) events r ↔ ∃ q, Performs x events q ∧ r = q.map fun _ => ⟨⟩ :=
  Trial.yields_discard

/-! ## Parts that are no attempts -/

theorem performs_except {e : Except Fault α} {events : List (Exchange Hardware)}
    {r : Except Fault α} :
    Performs (liftM e) events r ↔ events = [] ∧ r = e :=
  Trial.yields_except

theorem performs_lift {d : Access α} {events : List (Exchange Hardware)} {r : Except Fault α} :
    Performs (liftM d) events r ↔ ∃ a, Transcript d events a ∧ r = .ok a :=
  Trial.yields_lift

/-- The outcome of an attempt is at hand either way. -/
theorem performs_outcome {x : Attempt α} {events : List (Exchange Hardware)}
    {r : Except Fault (Except Fault α)} :
    Performs (outcome x) events r ↔ ∃ q, Performs x events q ∧ r = .ok q :=
  performs_lift

/-! ## Single requests -/

/-- A request at the start of a dialog is the first exchange, and the rest goes by the reply. -/
theorem transcript_ask {q : Request} {f : Reply q → Access α} {events : List (Exchange Hardware)}
    {a : α} :
    Transcript (ask q >>= f) events a ↔
      ∃ reply rest, events = ⟨q, reply⟩ :: rest ∧ Transcript (f reply) rest a :=
  Dialog.transcript_ask

theorem transcript_request {q : Request} {events : List (Exchange Hardware)} {a : Reply q} :
    Transcript (ask q) events a ↔ events = [⟨q, a⟩] :=
  Trial.transcript_request

/-- A check at the start of a sequence asks nothing, and cuts it off or lets it go on. -/
theorem performs_check {e : Except Fault α} {f : α → Attempt β} {events : List (Exchange Hardware)}
    {r : Except Fault β} :
    Performs (liftM e >>= f) events r ↔
      (∃ fault, e = .error fault ∧ events = [] ∧ r = .error fault) ∨
      ∃ a, e = .ok a ∧ Performs (f a) events r := by
  rw [performs_bind]
  constructor
  · rintro (⟨fault, h, rfl⟩ | ⟨first, rest, a, rfl, h, k⟩)
    · obtain ⟨rfl, he⟩ := performs_except.mp h
      exact .inl ⟨fault, he.symm, rfl, rfl⟩
    · obtain ⟨rfl, he⟩ := performs_except.mp h
      exact .inr ⟨a, he.symm, k⟩
  · rintro (⟨fault, rfl, rfl, rfl⟩ | ⟨a, rfl, k⟩)
    · exact .inl ⟨fault, performs_except.mpr ⟨rfl, rfl⟩, rfl⟩
    · exact .inr ⟨[], events, a, rfl, performs_except.mpr ⟨rfl, rfl⟩, k⟩

theorem performs_check_ok {e : Except Fault α} {f : α → Attempt β}
    {events : List (Exchange Hardware)} {b : β} :
    Performs (liftM e >>= f) events (.ok b) ↔ ∃ a, e = .ok a ∧ Performs (f a) events (.ok b) := by
  rw [performs_check]
  constructor
  · rintro (⟨fault, -, -, hr⟩ | h)
    · cases hr
    · exact h
  · intro h
    exact .inr h

/-- A request at the start of an attempt is the first exchange as well. -/
theorem performs_ask {q : Request} {f : Reply q → Attempt β} {events : List (Exchange Hardware)}
    {r : Except Fault β} :
    Performs (liftM (ask q) >>= f) events r ↔
      ∃ reply rest, events = ⟨q, reply⟩ :: rest ∧ Performs (f reply) rest r :=
  Trial.yields_ask

/-- So is a request whose reply does not matter. -/
theorem performs_ask_discard {q : Request} {f : PUnit → Attempt β}
    {events : List (Exchange Hardware)} {r : Except Fault β} :
    Performs (discard (liftM (ask q) : Attempt (Reply q)) >>= f) events r ↔
      ∃ reply rest, events = ⟨q, reply⟩ :: rest ∧ Performs (f ⟨⟩) rest r :=
  Trial.yields_ask_discard

/-- The fault of a step at which mapping physical memory failed. -/
def mapFault (address : UInt32) (length : Nat) : MapFailure → Fault
  | .opening cause => .deviceOpen memoryDevice cause
  | .mapping cause => .map address length cause

/-- Mapping physical memory is one exchange; it ends with the mapping or with the fault of the step
that failed. -/
theorem performs_mapPhysical {address : UInt32} {length : Nat}
    {events : List (Exchange Hardware)} {r : Except Fault HostAddress} :
    Performs (mapPhysical address length) events r ↔
      ∃ reply : Reply (.mapPhysical address length),
        events = [⟨.mapPhysical address length, reply⟩] ∧
        r = reply.mapError (mapFault address length) := by
  refine Iff.trans performs_ask ?_
  constructor
  · rintro ⟨reply, rest, rfl, k⟩
    refine ⟨reply, ?_⟩
    rcases reply with (cause | cause) | base
    all_goals
      simp only [performs_throw, performs_pure] at k
      obtain ⟨rfl, rfl⟩ := k
      exact ⟨rfl, rfl⟩
  · rintro ⟨reply, rfl, rfl⟩
    refine ⟨reply, [], rfl, ?_⟩
    rcases reply with (cause | cause) | base
    · exact performs_throw.mpr ⟨rfl, rfl⟩
    · exact performs_throw.mpr ⟨rfl, rfl⟩
    · exact performs_pure.mpr ⟨rfl, rfl⟩

/-! ## What an attempt can ask -/

variable {allowed : Request → Prop}

theorem asks_ask {q : Request} (h : allowed q) : (ask q).Asks allowed :=
  Trial.asks_request h

theorem plain_ask {q : Request} (h : allowed q) : (ask q).Plain allowed :=
  Trial.plain_request h

theorem plain_outcome {x : Attempt α} (h : Trial.Plain allowed x) :
    Trial.Plain allowed (outcome x) :=
  Trial.plain_lift h.run

end VideoCore.Hardware
