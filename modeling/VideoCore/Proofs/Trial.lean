import VideoCore.Proofs.Dialog

/-!
# Dialogs that may fail

A trial is a dialog that may end in a fault, and a fault cuts off everything that was to come after
it. Here that rule is stated once for every vocabulary, so that what a sequence exchanges, asks and
comes to is read off its parts and no later proof opens the monad.
-/

namespace VideoCore.Trial

open Dialog (Transcript)

variable {V : Vocabulary} {ε α β : Type} {events : List (Exchange V)}

/-- A trial can have some exchanges, in order, and then ends with a value or a fault. -/
def Yields (x : ExceptT ε (Dialog V) α) (events : List (Exchange V)) (r : Except ε α) : Prop :=
  Transcript x.run events r

/-! ## Sequences -/

theorem run_bind (x : ExceptT ε (Dialog V) α) (f : α → ExceptT ε (Dialog V) β) :
    (x >>= f).run = Dialog.bind x.run fun r =>
      match r with
      | .ok a => (f a).run
      | .error fault => .done (.error fault) :=
  rfl

theorem yields_pure {a : α} {r : Except ε α} :
    Yields (V := V) (pure a) events r ↔ events = [] ∧ r = .ok a :=
  Dialog.transcript_done

theorem yields_throw {fault : ε} {r : Except ε α} :
    Yields (V := V) (throw fault) events r ↔ events = [] ∧ r = .error fault :=
  Dialog.transcript_done

/-- A sequence ends with the fault of its first part, or goes through the second as well. -/
theorem yields_bind {x : ExceptT ε (Dialog V) α} {f : α → ExceptT ε (Dialog V) β}
    {r : Except ε β} :
    Yields (x >>= f) events r ↔
      (∃ fault, Yields x events (.error fault) ∧ r = .error fault) ∨
      ∃ first rest a, events = first ++ rest ∧ Yields x first (.ok a) ∧ Yields (f a) rest r := by
  rw [Yields, run_bind, Dialog.transcript_bind]
  constructor
  · rintro ⟨first, rest, a | a, rfl, h, k⟩
    · obtain ⟨rfl, rfl⟩ := Dialog.transcript_done.mp k
      exact .inl ⟨a, by rw [List.append_nil]; exact h, rfl⟩
    · exact .inr ⟨first, rest, a, rfl, h, k⟩
  · rintro (⟨fault, h, rfl⟩ | ⟨first, rest, a, rfl, h, k⟩)
    · exact ⟨events, [], .error fault, by simp, h, .done _⟩
    · exact ⟨first, rest, .ok a, rfl, h, k⟩

/-- A value that is only changed on the way out leaves the exchanges as they are. -/
theorem yields_map {x : ExceptT ε (Dialog V) α} {g : α → β} {r : Except ε β} :
    Yields (do return g (← x)) events r ↔ ∃ q, Yields x events q ∧ r = q.map g := by
  rw [yields_bind]
  constructor
  · rintro (⟨fault, h, rfl⟩ | ⟨first, rest, a, rfl, h, k⟩)
    · exact ⟨_, h, rfl⟩
    · obtain ⟨rfl, rfl⟩ := yields_pure.mp k
      exact ⟨_, by simpa using h, rfl⟩
  · rintro ⟨q | a, h, rfl⟩
    · exact .inl ⟨q, h, rfl⟩
    · exact .inr ⟨events, [], a, by simp, h, Dialog.transcript_done.mpr ⟨rfl, rfl⟩⟩

/-- What is done for its effect alone can only cut a sequence off. -/
theorem yields_discard {x : ExceptT ε (Dialog V) α} {r : Except ε PUnit} :
    Yields (discard x) events r ↔ ∃ q, Yields x events q ∧ r = q.map fun _ => ⟨⟩ :=
  yields_map

/-! ## Parts that cannot fail, and parts that ask nothing -/

theorem yields_except {e : Except ε α} {r : Except ε α} :
    Yields (V := V) (liftM e) events r ↔ events = [] ∧ r = e :=
  Dialog.transcript_done

theorem yields_lift {d : Dialog V α} {r : Except ε α} :
    Yields (liftM d) events r ↔ ∃ a, Transcript d events a ∧ r = .ok a :=
  Dialog.transcript_map

/-- A part that cannot fail at the start of a sequence. -/
theorem yields_lift_bind {d : Dialog V α} {f : α → ExceptT ε (Dialog V) β} {r : Except ε β} :
    Yields (liftM d >>= f) events r ↔
      ∃ first rest a, events = first ++ rest ∧ Transcript d first a ∧ Yields (f a) rest r := by
  rw [yields_bind]
  constructor
  · rintro (⟨fault, h, -⟩ | ⟨first, rest, a, rfl, h, k⟩)
    · obtain ⟨b, -, hr⟩ := yields_lift.mp h
      cases hr
    · obtain ⟨b, hd, hr⟩ := yields_lift.mp h
      cases hr
      exact ⟨first, rest, a, rfl, hd, k⟩
  · rintro ⟨first, rest, a, rfl, hd, k⟩
    exact .inr ⟨first, rest, a, rfl, yields_lift.mpr ⟨a, hd, rfl⟩, k⟩

theorem transcript_request {q : V.Request} {a : V.Reply q} :
    Transcript (Dialog.request q) events a ↔ events = [⟨q, a⟩] := by
  rw [Dialog.request, Dialog.transcript_ask]
  constructor
  · rintro ⟨reply, rest, rfl, k⟩
    obtain ⟨rfl, rfl⟩ := Dialog.transcript_done.mp k
    rfl
  · rintro rfl
    exact ⟨a, [], rfl, .done _⟩

/-- A request at the start of a trial is the first exchange, and the rest goes by the reply. -/
theorem yields_ask {q : V.Request} {f : V.Reply q → ExceptT ε (Dialog V) β} {r : Except ε β} :
    Yields (liftM (Dialog.request q) >>= f) events r ↔
      ∃ reply rest, events = ⟨q, reply⟩ :: rest ∧ Yields (f reply) rest r := by
  rw [yields_lift_bind]
  constructor
  · rintro ⟨first, rest, reply, rfl, h, k⟩
    rw [transcript_request.mp h]
    exact ⟨reply, rest, rfl, k⟩
  · rintro ⟨reply, rest, rfl, k⟩
    exact ⟨[⟨q, reply⟩], rest, reply, rfl, transcript_request.mpr rfl, k⟩

/-- So is a request whose reply does not matter. -/
theorem yields_ask_discard {q : V.Request} {f : PUnit → ExceptT ε (Dialog V) β}
    {r : Except ε β} :
    Yields (discard (liftM (Dialog.request q) : ExceptT ε (Dialog V) (V.Reply q)) >>= f) events r ↔
      ∃ reply rest, events = ⟨q, reply⟩ :: rest ∧ Yields (f ⟨⟩) rest r := by
  rw [yields_bind]
  constructor
  · rintro (⟨fault, h, -⟩ | ⟨first, rest, u, rfl, h, k⟩)
    · obtain ⟨p, hlift, hp⟩ := yields_discard.mp h
      obtain ⟨a, -, rfl⟩ := yields_lift.mp hlift
      cases hp
    · obtain ⟨p, hlift, -⟩ := yields_discard.mp h
      obtain ⟨a, hask, -⟩ := yields_lift.mp hlift
      rw [transcript_request.mp hask]
      exact ⟨a, rest, rfl, k⟩
  · rintro ⟨reply, rest, rfl, k⟩
    refine .inr ⟨[⟨q, reply⟩], rest, ⟨⟩, rfl, yields_discard.mpr ⟨.ok reply, ?_, rfl⟩, k⟩
    exact yields_lift.mpr ⟨reply, transcript_request.mpr rfl, rfl⟩

/-! ## What a trial can ask -/

/-- Every request that a trial can make, whatever the replies, is allowed. -/
structure Asks (allowed : V.Request → Prop) (x : ExceptT ε (Dialog V) α) : Prop where
  run : x.run.Asks allowed

variable {allowed : V.Request → Prop}

theorem asks_pure (a : α) : Asks allowed (pure a : ExceptT ε (Dialog V) α) := ⟨trivial⟩

theorem asks_throw (fault : ε) : Asks allowed (throw fault : ExceptT ε (Dialog V) α) := ⟨trivial⟩

/-- A sequence asks what its parts ask. -/
theorem asks_bind {x : ExceptT ε (Dialog V) α} {f : α → ExceptT ε (Dialog V) β}
    (h : Asks allowed x) (k : ∀ a, Asks allowed (f a)) : Asks allowed (x >>= f) := by
  constructor
  rw [run_bind]
  refine Dialog.Asks.bind h.run fun r => ?_
  cases r with
  | error fault => trivial
  | ok a => exact (k a).run

theorem asks_map {x : ExceptT ε (Dialog V) α} {g : α → β} (h : Asks allowed x) :
    Asks allowed (do return g (← x)) :=
  asks_bind h fun a => asks_pure (g a)

theorem asks_lift {d : Dialog V α} (h : d.Asks allowed) :
    Asks allowed (liftM d : ExceptT ε (Dialog V) α) :=
  ⟨Dialog.Asks.bind h fun _ => trivial⟩

/-- A check asks nothing. -/
theorem asks_check {e : Except ε α} {f : α → ExceptT ε (Dialog V) β}
    (k : ∀ a, Asks allowed (f a)) : Asks allowed (liftM e >>= f) :=
  asks_bind ⟨trivial⟩ k

/-- A single request asks for itself. -/
theorem asks_request {q : V.Request} (h : allowed q) : (Dialog.request q).Asks allowed :=
  ⟨h, fun _ => trivial⟩

/-! ## Trials that end -/

/-- A trial that repeats nothing and asks only what is allowed. -/
structure Plain (allowed : V.Request → Prop) (x : ExceptT ε (Dialog V) α) : Prop where
  run : x.run.Plain allowed

theorem Plain.asks {x : ExceptT ε (Dialog V) α} (h : Plain allowed x) : Asks allowed x :=
  ⟨h.run.asks⟩

theorem Plain.imp {allowed' : V.Request → Prop} {x : ExceptT ε (Dialog V) α} (h : Plain allowed x)
    (k : ∀ q, allowed q → allowed' q) : Plain allowed' x :=
  ⟨h.run.imp k⟩

theorem plain_pure (a : α) : Plain allowed (pure a : ExceptT ε (Dialog V) α) := ⟨trivial⟩

theorem plain_throw (fault : ε) : Plain allowed (throw fault : ExceptT ε (Dialog V) α) := ⟨trivial⟩

theorem plain_bind {x : ExceptT ε (Dialog V) α} {f : α → ExceptT ε (Dialog V) β}
    (h : Plain allowed x) (k : ∀ a, Plain allowed (f a)) : Plain allowed (x >>= f) := by
  constructor
  rw [run_bind]
  refine Dialog.Plain.bind h.run fun r => ?_
  cases r with
  | error fault => trivial
  | ok a => exact (k a).run

theorem plain_map {x : ExceptT ε (Dialog V) α} {g : α → β} (h : Plain allowed x) :
    Plain allowed (do return g (← x)) :=
  plain_bind h fun a => plain_pure (g a)

theorem plain_discard {x : ExceptT ε (Dialog V) α} (h : Plain allowed x) :
    Plain allowed (discard x : ExceptT ε (Dialog V) PUnit) :=
  plain_map h

theorem plain_lift {d : Dialog V α} (h : d.Plain allowed) :
    Plain allowed (liftM d : ExceptT ε (Dialog V) α) :=
  ⟨Dialog.Plain.bind h fun _ => trivial⟩

theorem plain_check {e : Except ε α} {f : α → ExceptT ε (Dialog V) β}
    (k : ∀ a, Plain allowed (f a)) : Plain allowed (liftM e >>= f) :=
  plain_bind ⟨trivial⟩ k

theorem plain_request {q : V.Request} (h : allowed q) : (Dialog.request q).Plain allowed :=
  ⟨h, fun _ => trivial⟩

theorem plain_first {q : V.Request} {f : V.Reply q → ExceptT ε (Dialog V) β} (h : allowed q)
    (k : ∀ reply, Plain allowed (f reply)) : Plain allowed (liftM (Dialog.request q) >>= f) :=
  plain_bind (plain_lift (plain_request h)) k

/-! ## What a trial ensures -/

/-- A condition on the value of a trial that did not fail. -/
def Valued (post : α → Prop) : Except ε α → Prop
  | .ok a => post a
  | .error _ => True

variable {P : List (Exchange V) → Prop} {mid : α → Prop} {post : β → Prop}

theorem ensures_bind {x : ExceptT ε (Dialog V) α} {f : α → ExceptT ε (Dialog V) β} (hnil : P [])
    (happend : ∀ {first rest}, P first → P rest → P (first ++ rest))
    (h : x.run.Ensures P (Valued mid)) (k : ∀ a, mid a → (f a).run.Ensures P (Valued post)) :
    (x >>= f).run.Ensures P (Valued post) := by
  rw [run_bind]
  refine h.bind happend fun r hr => ?_
  cases r with
  | error fault => exact .done hnil trivial
  | ok a => exact k a hr

theorem ensures_lift {d : Dialog V β} (hnil : P [])
    (happend : ∀ {first rest}, P first → P rest → P (first ++ rest)) (h : d.Ensures P post) :
    (liftM d : ExceptT ε (Dialog V) β).run.Ensures P (Valued post) :=
  h.bind happend fun _ hb => .done hnil hb

end VideoCore.Trial
