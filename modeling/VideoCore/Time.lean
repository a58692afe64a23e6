/-!
# Time

Durations and points in time, both counted in whole nanoseconds. A point in time is counted from
an arbitrary start of the monotonic clock, so only differences mean anything.
-/

namespace VideoCore

/-- A length of time. -/
structure Duration where
  nanoseconds : Nat
  deriving DecidableEq, Repr, Inhabited

namespace Duration

def zero : Duration := ⟨0⟩

def ofSeconds (s : Nat) : Duration := ⟨s * 1000000000⟩

def ofMilliseconds (ms : Nat) : Duration := ⟨ms * 1000000⟩

def ofMicroseconds (us : Nat) : Duration := ⟨us * 1000⟩

/-- The whole milliseconds of a duration; what is left over is dropped. -/
def milliseconds (d : Duration) : Nat := d.nanoseconds / 1000000

/-- The whole seconds of a duration. -/
def seconds (d : Duration) : Nat := d.nanoseconds / 1000000000

/-- The nanoseconds beyond the whole seconds. -/
def subsecond (d : Duration) : Nat := d.nanoseconds % 1000000000

instance : LE Duration := ⟨fun a b => a.nanoseconds ≤ b.nanoseconds⟩

instance (a b : Duration) : Decidable (a ≤ b) := inferInstanceAs (Decidable (a.nanoseconds ≤ b.nanoseconds))

/-- What is left of `a` after `b`, and nothing if `b` is the longer. -/
def minus (a b : Duration) : Duration := ⟨a.nanoseconds - b.nanoseconds⟩

/-- The shorter of two durations. -/
def shorter (a b : Duration) : Duration := ⟨min a.nanoseconds b.nanoseconds⟩

end Duration

/-- A reading of the monotonic clock. -/
structure Instant where
  nanoseconds : Nat
  deriving DecidableEq, Repr, Inhabited

namespace Instant

/-- The point in time a duration later. -/
def after (t : Instant) (d : Duration) : Instant := ⟨t.nanoseconds + d.nanoseconds⟩

/-- How long `t` is past `start`; nothing if it is not. -/
def since (t start : Instant) : Duration := ⟨t.nanoseconds - start.nanoseconds⟩

instance : LE Instant := ⟨fun a b => a.nanoseconds ≤ b.nanoseconds⟩

instance (a b : Instant) : Decidable (a ≤ b) := inferInstanceAs (Decidable (a.nanoseconds ≤ b.nanoseconds))

end Instant

end VideoCore
