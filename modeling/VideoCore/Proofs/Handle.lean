import VideoCore.Handle
import VideoCore.Proofs.Trial

/-!
# Handles settle once

Whoever holds a handle may wait for it and look at its state, as often and in whatever order he likes.
The first wait for a pending handle makes the check, and from then on the handle is `Spent`: nothing is
left to check, so no use changes it and every use is answered from its state (`useAll_spent`). Until
then it is pending, and looking at it changes nothing (`useAll_looks`).

What a check does while it is made is of no concern, so these equations hold in every monad. In the
vocabulary `Checks` a check is a question, and there the checks that were made can be counted.
-/

namespace VideoCore.Handle

open Dialog (Transcript)

variable {κ : Type}

/-! ## Uses -/

/-- One thing that the holder of a handle does. -/
inductive Use where
  | wait
  | look
  deriving DecidableEq, Repr

/-- What the holder of a handle is told. -/
inductive Told where
  /-- What a wait returned, or nothing if it was cut short. -/
  | waited (passed : Option Bool)
  | looked (state : ExecutionState)
  deriving DecidableEq, Repr

/-- What is told of a state that does not change any more. -/
def Told.of (state : ExecutionState) : Use → Told
  | .wait => waited (some (state == .passed))
  | .look => looked state

section Monads

variable {m : Type → Type 1} [Monad m]

/-- What a use comes to, and the handle after it. -/
def use (make : κ → m (Option Bool)) (h : Handle κ) : Use → m (Told × Handle κ)
  | .wait => do
    let (passed, h) ← h.wait make
    return (.waited passed, h)
  | .look => return (.looked h.state, h)

/-- Any number of uses, one after the other. -/
def useAll (make : κ → m (Option Bool)) (h : Handle κ) : List Use → m (List Told × Handle κ)
  | [] => return ([], h)
  | first :: rest => do
    let (told, h) ← h.use make first
    let (more, h) ← h.useAll make rest
    return (told :: more, h)

end Monads

/-! ## Handles that have nothing left to check -/

/-- A handle that has nothing left to check. -/
def Spent : Handle κ → Prop
  | pending _ => False
  | settled _ | abandoned => True

theorem spent_ofCheck (result : Option Bool) : (ofCheck result : Handle κ).Spent := by
  cases result <;> trivial

/-- A check settles its handle as passed exactly if it returned true. -/
theorem state_ofCheck_eq_passed {result : Option Bool} :
    (ofCheck result : Handle κ).state = .passed ↔ result = some true := by
  rcases result with _ | _ | _ <;> simp [ofCheck, state]

variable {m : Type → Type 1} [Monad m] [LawfulMonad m] {make : κ → m (Option Bool)} {h : Handle κ}

theorem use_spent (spent : h.Spent) (u : Use) : h.use make u = pure (Told.of h.state u, h) := by
  cases u with
  | look => rfl
  | wait =>
    rcases h with (_ | _) | check | _
    · exact pure_bind _ _
    · exact pure_bind _ _
    · exact spent.elim
    · exact pure_bind _ _

/-- Nothing changes a handle that has nothing left to check. -/
theorem useAll_spent (spent : h.Spent) (uses : List Use) :
    h.useAll make uses = pure (uses.map (Told.of h.state), h) := by
  induction uses with
  | nil => rfl
  | cons first rest ih =>
    rw [useAll, use_spent spent, pure_bind]
    dsimp only
    rw [ih, pure_bind]
    rfl

/-! ## Pending handles -/

variable {check : κ} {before after : List Use}

/-- Looking at a handle changes nothing. -/
theorem useAll_looks (looks : .wait ∉ before) :
    h.useAll make before = pure (before.map (Told.of h.state), h) := by
  induction before with
  | nil => rfl
  | cons first rest ih =>
    rw [List.mem_cons, not_or] at looks
    obtain ⟨hfirst, hrest⟩ := looks
    cases first with
    | wait => exact absurd rfl hfirst
    | look =>
      show (pure (Told.looked h.state, h) >>= _) = _
      rw [pure_bind]
      dsimp only
      rw [ih hrest, pure_bind]
      rfl

theorem useAll_append (first rest : List Use) :
    h.useAll make (first ++ rest) = do
      let (told, h) ← h.useAll make first
      let (more, h) ← h.useAll make rest
      return (told ++ more, h) := by
  induction first generalizing h with
  | nil =>
    show _ = pure ([], h) >>= _
    rw [pure_bind]
    exact (bind_pure _).symm
  | cons u first ih =>
    rw [List.cons_append, useAll, useAll, bind_assoc]
    refine bind_congr fun ⟨told, h⟩ => ?_
    dsimp only
    rw [ih, bind_assoc, bind_assoc]
    refine bind_congr fun ⟨more, h⟩ => ?_
    dsimp only
    rw [pure_bind, bind_assoc]
    refine bind_congr fun ⟨last, h⟩ => ?_
    rw [pure_bind]
    rfl

/-- What the holder of a pending handle is told, if the first wait comes to a result. -/
def toldAll (before : List Use) (result : Option Bool) (after : List Use) : List Told :=
  before.map (Told.of .pending) ++
    .waited result :: after.map (Told.of (ofCheck result : Handle Unit).state)

theorem state_ofCheck (result : Option Bool) :
    (ofCheck result : Handle κ).state = (ofCheck result : Handle Unit).state := by
  rcases result with _ | _ | _ <;> rfl

/-- The first wait makes the check, and its result decides on all that is told from then on. -/
theorem useAll_pending (looks : .wait ∉ before) :
    (pending check).useAll make (before ++ .wait :: after) = do
      let result ← make check
      return (toldAll before result after, ofCheck result) := by
  have hwait : (pending check).use make .wait = do
      let result ← make check
      return (Told.waited result, ofCheck result) := by
    show ((make check >>= fun result => pure (result, ofCheck result)) >>= _) = _
    rw [bind_assoc]
    exact bind_congr fun _ => pure_bind _ _
  rw [useAll_append, useAll_looks looks, pure_bind]
  dsimp only [useAll]
  rw [hwait]
  simp only [bind_assoc, pure_bind]
  refine bind_congr fun result => ?_
  rw [useAll_spent (spent_ofCheck result), pure_bind, state_ofCheck]
  rfl

/-! ## The checks that are made -/

/-- The vocabulary in which checks are made. A check that is cut short gives no result. -/
abbrev Checks (κ : Type) : Vocabulary := ⟨κ, fun _ => Option Bool⟩

/-- Makes a check. -/
def makeCheck (check : κ) : Dialog (Checks κ) (Option Bool) :=
  Dialog.request (V := Checks κ) check

variable {events : List (Exchange (Checks κ))} {told : List Told} {h' : Handle κ}

/-- Uses without a wait, and uses of a handle that has nothing left to check, make no check. -/
theorem transcript_useAll_quiet {uses : List Use} (quiet : h.Spent ∨ .wait ∉ uses) :
    Transcript (h.useAll makeCheck uses) events (told, h') ↔
      events = [] ∧ told = uses.map (Told.of h.state) ∧ h' = h := by
  have heq : h.useAll makeCheck uses = pure (uses.map (Told.of h.state), h) :=
    quiet.elim (useAll_spent · uses) useAll_looks
  rw [heq, Dialog.pure_eq, Dialog.transcript_done, Prod.mk.injEq]

theorem transcript_useAll_pending (looks : .wait ∉ before) :
    Transcript ((pending check).useAll makeCheck (before ++ .wait :: after)) events (told, h') ↔
      ∃ result, events = [⟨check, result⟩] ∧ told = toldAll before result after ∧
        h' = ofCheck result := by
  rw [useAll_pending looks, Dialog.bind_eq]
  refine Dialog.transcript_map.trans (exists_congr fun result => and_congr ?_ ?_)
  · exact Trial.transcript_request
  · rw [Prod.mk.injEq]

/-! ## Settling -/

/-- What is promised of every handle and every row of uses. -/
structure SettlesOnce (κ : Type) : Prop where
  /-- Looking makes no check and changes nothing. A pending handle stays pending. -/
  looks : ∀ (h : Handle κ) uses events told h', .wait ∉ uses →
    (Transcript (h.useAll makeCheck uses) events (told, h') ↔
      events = [] ∧ told = uses.map (Told.of h.state) ∧ h' = h)
  /-- A handle that was created with its result keeps it, and there is nothing to check. -/
  resolved : ∀ passed uses events told (h' : Handle κ),
    Transcript ((settled passed).useAll makeCheck uses) events (told, h') ↔
      events = [] ∧ told = uses.map (Told.of (if passed then .passed else .failed)) ∧
        h' = settled passed
  /-- The first wait for a pending handle makes its check. The wait returns what the check returned, or
  is cut short with it, and then neither the state nor what further waits return changes again. -/
  settles : ∀ (check : κ) before after events told h', .wait ∉ before →
    (Transcript ((pending check).useAll makeCheck (before ++ .wait :: after)) events (told, h') ↔
      ∃ result, events = [⟨check, result⟩] ∧ h' = ofCheck result ∧
        told = before.map (Told.of .pending) ++ .waited result :: after.map (Told.of h'.state))
  /-- So no row of uses makes a second check, and a handle is passed only if it was created so or its
  check returned true. -/
  once : ∀ (h : Handle κ) uses events told h',
    Transcript (h.useAll makeCheck uses) events (told, h') →
    events = [] ∧ h' = h ∨ ∃ check result, h = pending check ∧ events = [⟨check, result⟩] ∧
      h' = ofCheck result ∧ (h'.state = .passed ↔ result = some true)
  /-- A wait that returns says whether the state is passed. -/
  waits : ∀ (h : Handle κ) events passed h',
    Transcript (h.wait makeCheck) events (some passed, h') → (passed = true ↔ h'.state = .passed)
  /-- All of this does not depend on what else a check does. -/
  anyCheck : ∀ {m : Type → Type 1} [Monad m] [LawfulMonad m] (make : κ → m (Option Bool)) check
    before after, .wait ∉ before →
    (pending check).useAll make (before ++ .wait :: after) = do
      let result ← make check
      return (toldAll before result after, ofCheck result)

/-- A wait that returns says whether the handle is passed by then. -/
theorem passed_of_transcript_wait {passed : Bool}
    (t : Transcript (h.wait makeCheck) events (some passed, h')) :
    passed = true ↔ h'.state = .passed := by
  rcases h with (_ | _) | check | _
  · cases (Dialog.transcript_done.mp t).2
    simp [Handle.passed, state]
  · cases (Dialog.transcript_done.mp t).2
    simp [Handle.passed, state]
  · obtain ⟨result, -, heq⟩ := Dialog.transcript_map.mp t
    cases heq
    rw [state_ofCheck_eq_passed, Option.some.injEq]
  · cases (Dialog.transcript_done.mp t).2
    simp [Handle.passed, state]

/-- A row of uses holds no wait, or there is a first one. -/
theorem exists_first_wait (uses : List Use) :
    .wait ∉ uses ∨ ∃ before after, uses = before ++ .wait :: after ∧ .wait ∉ before := by
  by_cases hwait : .wait ∈ uses
  · exact .inr (List.eq_append_cons_of_mem hwait)
  · exact .inl hwait

theorem checks_of_transcript {uses : List Use}
    (t : Transcript (h.useAll makeCheck uses) events (told, h')) :
    events = [] ∧ h' = h ∨ ∃ check result, h = pending check ∧ events = [⟨check, result⟩] ∧
      h' = ofCheck result ∧ (h'.state = .passed ↔ result = some true) := by
  have hquiet : h.Spent ∨ .wait ∉ uses → events = [] ∧ h' = h := by
    intro quiet
    obtain ⟨rfl, -, rfl⟩ := (transcript_useAll_quiet quiet).mp t
    exact ⟨rfl, rfl⟩
  rcases h with passed | check | _
  · exact .inl (hquiet (.inl trivial))
  · rcases exists_first_wait uses with looks | ⟨before, after, rfl, looks⟩
    · exact .inl (hquiet (.inr looks))
    · obtain ⟨result, rfl, -, rfl⟩ := (transcript_useAll_pending looks).mp t
      exact .inr ⟨check, result, rfl, rfl, rfl, state_ofCheck_eq_passed⟩
  · exact .inl (hquiet (.inl trivial))

/-- A handle settles once. -/
theorem settles_once (κ : Type) : SettlesOnce κ where
  looks h uses events told h' looks := transcript_useAll_quiet (.inr looks)
  resolved passed uses events told h' := by
    rw [transcript_useAll_quiet (h := settled passed) (.inl trivial)]
    cases passed <;> rfl
  settles check before after events told h' looks := by
    rw [transcript_useAll_pending looks]
    refine exists_congr fun result => and_congr_right fun _ => ?_
    rw [and_comm]
    refine and_congr_right fun hh => ?_
    rw [hh, state_ofCheck]
    rfl
  once _ _ _ _ _ t := checks_of_transcript t
  waits _ _ _ _ t := passed_of_transcript_wait t
  anyCheck _ _ _ _ looks := useAll_pending looks

end VideoCore.Handle
