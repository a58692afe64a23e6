/-!
# Dialogs

A dialog is a program whose only effect is to ask its surroundings for something and to go on
with the reply. What can be asked, and what type of reply each question gets, is a `Vocabulary`.
The surroundings are not part of the program: they may be the machine, a simulation, or, in a
proof, every reply at once.

Three readings of a dialog are given.

* `Dialog.run` answers it from a state machine, with a bound on how often each loop may turn.
* `Dialog.via` puts every question as a dialog over another vocabulary.
* `Dialog.Transcript` relates a dialog to the exchanges that it can have and the values that it
  can end with. It says nothing about where replies come from, so a statement about all
  transcripts is a statement about all surroundings.

A loop is a constructor of its own (`repeatUntil`), so that waiting for a device needs neither
a bound in the program nor a coinductive type.
-/

namespace VideoCore

/-- What a program may ask for, and the type of the reply to each question. -/
structure Vocabulary where
  Request : Type
  Reply : Request → Type

/-- One question and its reply. -/
structure Exchange (V : Vocabulary) where
  request : V.Request
  reply : V.Reply request

/-- Surroundings with a state: they answer every question and move on. -/
abbrev Surroundings (V : Vocabulary) (σ : Type) : Type :=
  (request : V.Request) → σ → V.Reply request × σ

/-- A program over a vocabulary that ends, if at all, with a value of a given type. -/
inductive Dialog (V : Vocabulary) : Type → Type 1 where
  /-- Ends with a value. -/
  | done {α : Type} (value : α) : Dialog V α
  /-- Asks and goes on with the reply. -/
  | ask {α : Type} (request : V.Request) (next : V.Reply request → Dialog V α) : Dialog V α
  /-- Repeats a step from state to state until it yields a result, and goes on with that. -/
  | repeatUntil {σ β α : Type} (step : σ → Dialog V (σ ⊕ β)) (start : σ)
      (next : β → Dialog V α) : Dialog V α

namespace Dialog

variable {V W : Vocabulary} {α β γ σ τ : Type}

/-! ## Sequencing -/

/-- Runs one dialog and continues with another that depends on its value. -/
def bind : {α : Type} → Dialog V α → (α → Dialog V β) → Dialog V β
  | _, done value, next => next value
  | _, ask request rest, next => ask request fun reply => (rest reply).bind next
  | _, repeatUntil step start rest, next => repeatUntil step start fun value => (rest value).bind next

instance : Monad (Dialog V) where
  pure := done
  bind := bind

/-- Asks one question and ends with the reply. -/
def request (q : V.Request) : Dialog V (V.Reply q) :=
  ask q done

/-- Repeats a step until it yields a result, and ends with that. -/
def iterate (step : σ → Dialog V (σ ⊕ β)) (start : σ) : Dialog V β :=
  repeatUntil step start done

@[simp] theorem bind_done (value : α) (next : α → Dialog V β) :
    (done value).bind next = next value := rfl

theorem bind_eq (d : Dialog V α) (next : α → Dialog V β) : d >>= next = d.bind next := rfl

theorem pure_eq (value : α) : (pure value : Dialog V α) = done value := rfl

@[simp] theorem bind_pure (d : Dialog V α) : d.bind done = d := by
  induction d with
  | done value => rfl
  | ask q rest ih => simp only [bind]; congr 1; funext reply; exact ih reply
  | repeatUntil step start rest _ ih => simp only [bind]; congr 1; funext value; exact ih value

theorem bind_assoc (d : Dialog V α) (f : α → Dialog V β) (g : β → Dialog V γ) :
    (d.bind f).bind g = d.bind fun value => (f value).bind g := by
  induction d with
  | done value => rfl
  | ask q rest ih => simp only [bind]; congr 1; funext reply; exact ih reply f
  | repeatUntil step start rest _ ih => simp only [bind]; congr 1; funext value; exact ih value f

instance : LawfulMonad (Dialog V) :=
  LawfulMonad.mk' (Dialog V) (fun d => bind_pure d) (fun _ _ => rfl) (fun d f g => bind_assoc d f g)

/-! ## Answering -/

/-- Turns a step until it yields a result, at most `turns` times. -/
def turn (step : σ → τ → Option ((σ ⊕ β) × τ)) : Nat → σ → τ → Option (β × τ)
  | 0, _, _ => none
  | turns + 1, s, t =>
    match step s t with
    | none => none
    | some (.inl s', t') => turn step turns s' t'
    | some (.inr value, t') => some (value, t')

/-- Answers a dialog from surroundings with a state, letting each loop turn at most `turns`
times. `none` says that a loop was cut off. -/
def run (answer : Surroundings V τ) (turns : Nat) : {α : Type} → Dialog V α → τ → Option (α × τ)
  | _, done value, t => some (value, t)
  | _, ask q next, t => let (reply, t') := answer q t; (next reply).run answer turns t'
  | _, repeatUntil step start next, t =>
    match turn (fun s t => (step s).run answer turns t) turns start t with
    | none => none
    | some (value, t') => (next value).run answer turns t'

/-! ## Changing the vocabulary -/

/-- Puts every question as a dialog over another vocabulary. -/
def via (rephrase : (q : V.Request) → Dialog W (V.Reply q)) : {α : Type} → Dialog V α → Dialog W α
  | _, done value => done value
  | _, ask q next => (rephrase q).bind fun reply => (next reply).via rephrase
  | _, repeatUntil step start next =>
    repeatUntil (fun s => (step s).via rephrase) start fun value => (next value).via rephrase

theorem via_bind (rephrase : (q : V.Request) → Dialog W (V.Reply q)) (d : Dialog V α)
    (f : α → Dialog V β) :
    (d.bind f).via rephrase = (d.via rephrase).bind fun value => (f value).via rephrase := by
  induction d with
  | done value => rfl
  | ask q rest ih =>
    simp only [bind, via, bind_assoc]; congr 1; funext reply; exact ih reply f
  | repeatUntil step start rest _ ih =>
    simp only [bind, via]; congr 1; funext value; exact ih value f

/-! ## Transcripts -/

/-- The exchanges that a dialog can have, in order, and the value that it then ends with. -/
inductive Transcript : {α : Type} → Dialog V α → List (Exchange V) → α → Prop where
  | done {α : Type} (value : α) : Transcript (Dialog.done value) [] value
  | ask {α : Type} {q : V.Request} {next : V.Reply q → Dialog V α} (reply : V.Reply q)
      {rest : List (Exchange V)} {value : α} :
      Transcript (next reply) rest value →
      Transcript (Dialog.ask q next) (⟨q, reply⟩ :: rest) value
  | again {σ β α : Type} {step : σ → Dialog V (σ ⊕ β)} {start state : σ} {next : β → Dialog V α}
      {first rest : List (Exchange V)} {value : α} :
      Transcript (step start) first (.inl state) →
      Transcript (Dialog.repeatUntil step state next) rest value →
      Transcript (Dialog.repeatUntil step start next) (first ++ rest) value
  | leave {σ β α : Type} {step : σ → Dialog V (σ ⊕ β)} {start : σ} {result : β}
      {next : β → Dialog V α} {first rest : List (Exchange V)} {value : α} :
      Transcript (step start) first (.inr result) →
      Transcript (next result) rest value →
      Transcript (Dialog.repeatUntil step start next) (first ++ rest) value

/-- Two dialogs in sequence have the exchanges of the first and then those of the second. -/
theorem Transcript.append {d : Dialog V α} {f : α → Dialog V β} {first rest : List (Exchange V)}
    {a : α} {b : β} (h : Transcript d first a) (k : Transcript (f a) rest b) :
    Transcript (d.bind f) (first ++ rest) b := by
  induction h with
  | done value => exact k
  | ask reply _ ih => exact .ask reply (ih k)
  | again h₁ _ _ ih => rw [List.append_assoc]; exact .again h₁ (ih k)
  | leave h₁ _ _ ih => rw [List.append_assoc]; exact .leave h₁ (ih k)

/-- The exchanges of two dialogs in sequence split into those of the first and of the second. -/
theorem Transcript.split {d : Dialog V α} {f : α → Dialog V β} {events : List (Exchange V)} {b : β}
    (h : Transcript (d.bind f) events b) :
    ∃ first rest a, events = first ++ rest ∧ Transcript d first a ∧ Transcript (f a) rest b := by
  generalize he : d.bind f = e at h
  induction h generalizing d with
  | done value =>
    cases d with
    | done v => exact ⟨[], [], v, rfl, .done v, by rw [bind_done] at he; exact he ▸ .done value⟩
    | ask => simp [bind] at he
    | repeatUntil => simp [bind] at he
  | ask reply k ih =>
    cases d with
    | done v => exact ⟨[], _, v, rfl, .done v, by rw [bind_done] at he; exact he ▸ .ask reply k⟩
    | ask q' next' =>
      simp only [bind, Dialog.ask.injEq] at he
      obtain ⟨rfl, he⟩ := he
      cases he
      obtain ⟨first, rest, a, rfl, h₁, h₂⟩ := ih rfl
      exact ⟨_ :: first, rest, a, rfl, .ask reply h₁, h₂⟩
    | repeatUntil => simp [bind] at he
  | @again _ _ _ _ _ state _ _ _ _ h₁ k _ ih =>
    cases d with
    | done v => exact ⟨[], _, v, rfl, .done v, by rw [bind_done] at he; exact he ▸ .again h₁ k⟩
    | ask => simp [bind] at he
    | repeatUntil step' start' next' =>
      simp only [bind, Dialog.repeatUntil.injEq] at he
      obtain ⟨rfl, rfl, hs, ht, hn⟩ := he
      cases hs; cases ht; cases hn
      obtain ⟨first, rest, a, rfl, k₁, k₂⟩ := ih (d := .repeatUntil step' state next') rfl
      exact ⟨_, rest, a, (List.append_assoc ..).symm, .again h₁ k₁, k₂⟩
  | leave h₁ k _ ih =>
    cases d with
    | done v => exact ⟨[], _, v, rfl, .done v, by rw [bind_done] at he; exact he ▸ .leave h₁ k⟩
    | ask => simp [bind] at he
    | repeatUntil step' start' next' =>
      simp only [bind, Dialog.repeatUntil.injEq] at he
      obtain ⟨rfl, rfl, hs, ht, hn⟩ := he
      cases hs; cases ht; cases hn
      obtain ⟨first, rest, a, rfl, k₁, k₂⟩ := ih rfl
      exact ⟨_, rest, a, (List.append_assoc ..).symm, .leave h₁ k₁, k₂⟩

theorem transcript_bind {d : Dialog V α} {f : α → Dialog V β} {events : List (Exchange V)} {b : β} :
    Transcript (d.bind f) events b ↔
      ∃ first rest a, events = first ++ rest ∧ Transcript d first a ∧ Transcript (f a) rest b :=
  ⟨Transcript.split, fun ⟨_, _, _, he, h, k⟩ => he ▸ h.append k⟩

@[simp] theorem transcript_done {value a : α} {events : List (Exchange V)} :
    Transcript (done value) events a ↔ events = [] ∧ a = value := by
  constructor
  · intro h; cases h; exact ⟨rfl, rfl⟩
  · rintro ⟨rfl, rfl⟩; exact .done _

@[simp] theorem transcript_ask {q : V.Request} {next : V.Reply q → Dialog V α}
    {events : List (Exchange V)} {a : α} :
    Transcript (ask q next) events a ↔
      ∃ reply rest, events = ⟨q, reply⟩ :: rest ∧ Transcript (next reply) rest a := by
  constructor
  · intro h
    cases h with
    | ask reply k => exact ⟨reply, _, rfl, k⟩
  · rintro ⟨reply, rest, rfl, k⟩; exact .ask reply k

/-- A value that is only changed on the way out leaves the exchanges as they are. -/
theorem transcript_map {d : Dialog V α} {f : α → β} {events : List (Exchange V)} {b : β} :
    Transcript (d.bind fun a => done (f a)) events b ↔ ∃ a, Transcript d events a ∧ b = f a := by
  rw [transcript_bind]
  constructor
  · rintro ⟨first, rest, a, rfl, h, k⟩
    obtain ⟨rfl, rfl⟩ := transcript_done.mp k
    rw [List.append_nil]
    exact ⟨a, h, rfl⟩
  · rintro ⟨a, h, rfl⟩
    exact ⟨events, [], a, (List.append_nil _).symm, h, .done _⟩

theorem Transcript.iterate_leave {step : σ → Dialog V (σ ⊕ β)} {start : σ}
    {turn : List (Exchange V)} {result : β} (h : Transcript (step start) turn (.inr result)) :
    Transcript (iterate step start) turn result := by
  have hloop := Transcript.leave h (.done result)
  rwa [List.append_nil] at hloop

theorem Transcript.iterate_again {step : σ → Dialog V (σ ⊕ β)} {start state : σ}
    {turn rest : List (Exchange V)} {result : β} (h : Transcript (step start) turn (.inl state))
    (k : Transcript (iterate step state) rest result) :
    Transcript (iterate step start) (turn ++ rest) result :=
  .again h k

/-- What holds of every last turn, and carries over from the rest of a loop to one turn more, holds of
all of a loop's exchanges. -/
theorem Transcript.iterate_induct {step : σ → Dialog V (σ ⊕ β)} {start : σ}
    {events : List (Exchange V)} {result : β} {P : σ → List (Exchange V) → β → Prop}
    (h : Transcript (iterate step start) events result)
    (leave : ∀ s turn b, Transcript (step s) turn (.inr b) → P s turn b)
    (again : ∀ s s' turn rest b, Transcript (step s) turn (.inl s') → P s' rest b →
      P s (turn ++ rest) b) : P start events result := by
  generalize hd : iterate step start = d at h
  induction h generalizing start with
  | done => cases hd
  | ask => cases hd
  | again h₁ _ _ ih =>
    cases hd
    exact again _ _ _ _ _ h₁ (ih leave again rfl)
  | leave h₁ k _ _ =>
    cases hd
    cases k
    rw [List.append_nil]
    exact leave _ _ _ h₁

/-! ## What a dialog can ask -/

/-- Every question that a dialog can ask, whatever the replies, is allowed. -/
def Asks (allowed : V.Request → Prop) : {α : Type} → Dialog V α → Prop
  | _, done _ => True
  | _, ask q next => allowed q ∧ ∀ reply, (next reply).Asks allowed
  | _, repeatUntil step _ next =>
    (∀ state, (step state).Asks allowed) ∧ ∀ value, (next value).Asks allowed

theorem Asks.bind {allowed : V.Request → Prop} {d : Dialog V α} {f : α → Dialog V β}
    (h : d.Asks allowed) (k : ∀ value, (f value).Asks allowed) : (d.bind f).Asks allowed := by
  induction d with
  | done value => exact k value
  | ask q rest ih => exact ⟨h.1, fun reply => ih reply (h.2 reply) k⟩
  | repeatUntil step start rest _ ih => exact ⟨h.1, fun value => ih value (h.2 value) k⟩

/-- A transcript holds only questions that the dialog can ask. -/
theorem Asks.of_transcript {allowed : V.Request → Prop} {d : Dialog V α}
    {events : List (Exchange V)} {a : α} (h : d.Asks allowed) (t : Transcript d events a) :
    ∀ e ∈ events, allowed e.request := by
  induction t with
  | done => intro e he; cases he
  | ask reply _ ih =>
    intro e he
    rcases List.mem_cons.mp he with rfl | he
    · exact h.1
    · exact ih (h.2 reply) e he
  | again _ _ ih₁ ih₂ =>
    intro e he
    rcases List.mem_append.mp he with he | he
    · exact ih₁ (h.1 _) e he
    · exact ih₂ h e he
  | leave _ _ ih₁ ih₂ =>
    intro e he
    rcases List.mem_append.mp he with he | he
    · exact ih₁ (h.1 _) e he
    · exact ih₂ (h.2 _) e he

end Dialog

end VideoCore
