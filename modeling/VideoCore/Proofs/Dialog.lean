import VideoCore.Dialog

/-!
# Dialogs that end, and dialogs in other words

A transcript says what a dialog can exchange and how it can end, but not that it ends. A dialog that
repeats nothing does, in all surroundings (`Plain.exists_run`), and how it ends there is one of the
things that its transcripts tell (`follows_of_run`). A dialog with a loop ends in surroundings that do
not let every turn go on for ever (`ends_iterate`).

A dialog whose questions are put as dialogs over another vocabulary exchanges there what its own
exchanges come to, one after the other (`transcript_via`).
-/

namespace VideoCore.Dialog

variable {V W : Vocabulary} {α β τ : Type}

/-! ## One step after the other -/

/-- What holds before some steps, and is kept by each of them, holds after all of them. It speaks of
all that was exchanged so far. -/
theorem transcript_foldlM {step : β → α → Dialog V β} {P : List (Exchange V) → β → Prop}
    {list : List α} {first last : β} {events : List (Exchange V)} (before : List (Exchange V))
    (keeps : ∀ {before state a more next}, P before state → Transcript (step state a) more next →
      P (before ++ more) next)
    (start : P before first) (t : Transcript (list.foldlM step first) events last) :
    P (before ++ events) last := by
  induction list generalizing first before events with
  | nil =>
    obtain ⟨rfl, rfl⟩ := transcript_done.mp t
    rwa [List.append_nil]
  | cons a list ih =>
    rw [List.foldlM_cons] at t
    obtain ⟨more, rest, next, rfl, hstep, hrest⟩ := transcript_bind.mp t
    rw [← List.append_assoc]
    exact ih _ (keeps start hstep) hrest

/-! ## What the replies decide -/

/-- A dialog is led by the replies alone. Where two transcripts agree as far as the shorter one goes,
they are the same, and so are the ends. -/
theorem Transcript.unique {d : Dialog V α} {first first' rest rest' : List (Exchange V)} {a a' : α}
    (h : Transcript d first a) (k : Transcript d first' a')
    (hsame : first ++ rest = first' ++ rest') : first = first' ∧ a = a' := by
  induction h generalizing first' rest rest' with
  | done value =>
    cases k
    exact ⟨rfl, rfl⟩
  | ask reply _ ih =>
    cases k with
    | ask reply' k =>
      obtain ⟨hfirst, hmore⟩ := List.cons.inj hsame
      cases hfirst
      obtain ⟨rfl, rfl⟩ := ih k hmore
      exact ⟨rfl, rfl⟩
  | again _ _ ihturn ihrest =>
    cases k with
    | again hturn k =>
      simp only [List.append_assoc] at hsame
      obtain ⟨rfl, hstate⟩ := ihturn hturn hsame
      cases hstate
      obtain ⟨rfl, rfl⟩ := ihrest k (List.append_cancel_left hsame)
      exact ⟨rfl, rfl⟩
    | leave hturn k =>
      simp only [List.append_assoc] at hsame
      cases (ihturn hturn hsame).2
  | leave _ _ ihturn ihrest =>
    cases k with
    | again hturn k =>
      simp only [List.append_assoc] at hsame
      cases (ihturn hturn hsame).2
    | leave hturn k =>
      simp only [List.append_assoc] at hsame
      obtain ⟨rfl, hresult⟩ := ihturn hturn hsame
      cases hresult
      obtain ⟨rfl, rfl⟩ := ihrest k (List.append_cancel_left hsame)
      exact ⟨rfl, rfl⟩

theorem Transcript.determined {d : Dialog V α} {events : List (Exchange V)} {a a' : α}
    (h : Transcript d events a) (k : Transcript d events a') : a = a' := by
  have hsame : events ++ [] = events ++ [] := rfl
  exact (h.unique k hsame).2

/-- After the exchanges of its first part, a sequence has those of the second. -/
theorem transcript_bind_after {d : Dialog V α} {f : α → Dialog V β} {first rest : List (Exchange V)}
    {a : α} {b : β} (h : Transcript d first a) :
    Transcript (d.bind f) (first ++ rest) b ↔ Transcript (f a) rest b := by
  constructor
  · intro hboth
    obtain ⟨first', rest', a', hsplit, hfirst, hrest⟩ := hboth.split
    obtain ⟨rfl, rfl⟩ := h.unique hfirst hsplit
    rwa [List.append_cancel_left hsplit]
  · exact h.append

/-! ## Surroundings -/

/-- Some surroundings give the replies of some exchanges, from one state to another. -/
def Follows (answer : Surroundings V τ) : τ → List (Exchange V) → τ → Prop
  | t, [], t' => t' = t
  | t, e :: rest, t' => e.reply = (answer e.request t).1 ∧
      Follows answer (answer e.request t).2 rest t'

theorem Follows.append {answer : Surroundings V τ} {t u w : τ} {first rest : List (Exchange V)}
    (h : Follows answer t first u) (k : Follows answer u rest w) :
    Follows answer t (first ++ rest) w := by
  induction first generalizing t with
  | nil =>
    obtain rfl : u = t := h
    exact k
  | cons e first ih => exact ⟨h.1, ih h.2⟩

theorem Follows.split {answer : Surroundings V τ} {t t' : τ} {first rest : List (Exchange V)}
    (h : Follows answer t (first ++ rest) t') :
    ∃ u, Follows answer t first u ∧ Follows answer u rest t' := by
  induction first generalizing t with
  | nil => exact ⟨t, rfl, h⟩
  | cons e first ih =>
    obtain ⟨u, hfirst, hrest⟩ := ih h.2
    exact ⟨u, ⟨h.1, hfirst⟩, hrest⟩

/-- What happens in some surroundings is one of the things that can happen, with the replies that the
surroundings give. -/
theorem follows_of_run {answer : Surroundings V τ} {turns : Nat} {d : Dialog V α} {t t' : τ} {a : α}
    (h : d.run answer turns t = some (a, t')) :
    ∃ events, Transcript d events a ∧ Follows answer t events t' := by
  induction d generalizing t t' with
  | done value =>
    cases h
    exact ⟨[], .done value, rfl⟩
  | ask q next ih =>
    obtain ⟨events, hnext, hfollows⟩ := ih _ h
    exact ⟨_, .ask _ hnext, rfl, hfollows⟩
  | @repeatUntil σ β _ step start next ihstep ihnext =>
    rw [run] at h
    split at h
    · cases h
    · next value u hturn =>
      obtain ⟨rest, hnext, hrest⟩ := ihnext value h
      clear h
      -- the turns that were made are those of the transcript, one by one
      have hloop : ∀ (left : Nat) (s : σ) (w : τ),
          turn (fun s t => (step s).run answer turns t) left s w = some (value, u) →
          ∃ events, Transcript (.repeatUntil step s next) events a ∧ Follows answer w events t' := by
        intro left
        induction left with
        | zero => nofun
        | succ left ih =>
          intro s w hturn
          rw [turn] at hturn
          split at hturn
          · cases hturn
          · next s' w' hstep =>
            obtain ⟨first, hfirst, hbefore⟩ := ihstep s hstep
            obtain ⟨others, hothers, hafter⟩ := ih s' w' hturn
            exact ⟨_, .again hfirst hothers, hbefore.append hafter⟩
          · next value' w' hstep =>
            cases hturn
            obtain ⟨last, hlast, hbefore⟩ := ihstep s hstep
            exact ⟨_, .leave hlast hnext, hbefore.append hrest⟩
      exact hloop turns start t hturn

/-! ## Dialogs that repeat nothing -/

/-- A dialog that repeats nothing and asks only what is allowed. -/
def Plain (allowed : V.Request → Prop) : {α : Type} → Dialog V α → Prop
  | _, done _ => True
  | _, ask q next => allowed q ∧ ∀ reply, (next reply).Plain allowed
  | _, repeatUntil _ _ _ => False

section Plain

variable {allowed allowed' : V.Request → Prop} {d : Dialog V α}

theorem Plain.bind {f : α → Dialog V β} (h : d.Plain allowed) (k : ∀ a, (f a).Plain allowed) :
    (d.bind f).Plain allowed := by
  induction d with
  | done value => exact k value
  | ask q next ih => exact ⟨h.1, fun reply => ih reply (h.2 reply) k⟩
  | repeatUntil => exact h.elim

theorem Plain.imp (h : d.Plain allowed) (k : ∀ q, allowed q → allowed' q) : d.Plain allowed' := by
  induction d with
  | done value => trivial
  | ask q next ih => exact ⟨k q h.1, fun reply => ih reply (h.2 reply)⟩
  | repeatUntil => exact h.elim

theorem Plain.and (h : d.Plain allowed) (k : d.Plain allowed') :
    d.Plain fun q => allowed q ∧ allowed' q := by
  induction d with
  | done value => trivial
  | ask q next ih => exact ⟨⟨h.1, k.1⟩, fun reply => ih reply (h.2 reply) (k.2 reply)⟩
  | repeatUntil => exact h.elim

theorem Plain.asks (h : d.Plain allowed) : d.Asks allowed := by
  induction d with
  | done value => trivial
  | ask q next ih => exact ⟨h.1, fun reply => ih reply (h.2 reply)⟩
  | repeatUntil => exact h.elim

theorem Asks.imp (h : d.Asks allowed) (k : ∀ q, allowed q → allowed' q) : d.Asks allowed' := by
  induction d with
  | done value => trivial
  | ask q next ih => exact ⟨k q h.1, fun reply => ih reply (h.2 reply)⟩
  | repeatUntil step start next ihstep ihnext =>
    exact ⟨fun state => ihstep state (h.1 state), fun value => ihnext value (h.2 value)⟩

theorem Plain.foldlM {step : β → α → Dialog V β} (h : ∀ b a, (step b a).Plain allowed)
    (list : List α) (start : β) : (list.foldlM step start).Plain allowed := by
  induction list generalizing start with
  | nil => trivial
  | cons first rest ih =>
    rw [List.foldlM_cons]
    exact (h start first).bind fun b => ih b

theorem Plain.of_transcript {events : List (Exchange V)} {a : α} (h : d.Plain allowed)
    (t : Transcript d events a) : ∀ e ∈ events, allowed e.request :=
  h.asks.of_transcript t

/-- A dialog that repeats nothing ends, whatever the surroundings answer. -/
theorem Plain.exists_run (h : d.Plain allowed) (answer : Surroundings V τ) (turns : Nat) (t : τ) :
    ∃ a t', d.run answer turns t = some (a, t') := by
  induction d generalizing t with
  | done value => exact ⟨value, t, rfl⟩
  | ask q next ih => exact ih _ (h.2 _) _
  | repeatUntil => exact h.elim

end Plain

/-! ## What a dialog ensures -/

/-- A dialog repeats nothing, and whatever the replies, its exchanges have a property and it ends with a
value that meets a condition. -/
structure Ensures (P : List (Exchange V) → Prop) (post : α → Prop) (d : Dialog V α) : Prop where
  plain : d.Plain fun _ => True
  all : ∀ {events a}, Transcript d events a → P events ∧ post a

section Ensures

variable {P : List (Exchange V) → Prop} {mid post : α → Prop} {d : Dialog V α}

/-- A sequence repeats nothing if its second part does not for the values that the first can end with. -/
theorem Plain.bind_of_transcript {allowed : V.Request → Prop} {f : α → Dialog V β}
    (h : d.Plain allowed) (k : ∀ events a, Transcript d events a → (f a).Plain allowed) :
    (d.bind f).Plain allowed := by
  induction d with
  | done value => exact k [] value (.done value)
  | ask q next ih => exact ⟨h.1, fun reply => ih reply (h.2 reply) fun _ a t => k _ a (.ask reply t)⟩
  | repeatUntil => exact h.elim

theorem Ensures.done {a : α} (hnil : P []) (h : post a) : Ensures P post (.done a : Dialog V α) where
  plain := trivial
  all t := by
    obtain ⟨rfl, rfl⟩ := transcript_done.mp t
    exact ⟨hnil, h⟩

/-- What both parts of a sequence ensure, for exchanges in a row, the sequence ensures. -/
theorem Ensures.bind {f : α → Dialog V β} {post : β → Prop}
    (happend : ∀ {first rest}, P first → P rest → P (first ++ rest)) (h : Ensures P mid d)
    (k : ∀ a, mid a → Ensures P post (f a)) : Ensures P post (d.bind f) where
  plain := h.plain.bind_of_transcript fun _ a t => (k a (h.all t).2).plain
  all t := by
    obtain ⟨first, rest, a, rfl, hfirst, hrest⟩ := transcript_bind.mp t
    obtain ⟨hbefore, ha⟩ := h.all hfirst
    obtain ⟨hafter, hb⟩ := (k a ha).all hrest
    exact ⟨happend hbefore hafter, hb⟩

theorem Ensures.imp {Q : List (Exchange V) → Prop} {post' : α → Prop} (h : Ensures P post d)
    (hevents : ∀ {events}, P events → Q events) (hpost : ∀ {a}, post a → post' a) :
    Ensures Q post' d where
  plain := h.plain
  all t := (h.all t).imp hevents hpost

end Ensures

/-! ## Loops that end -/

section Ends

variable {answer : Surroundings V τ} {σ : Type}

/-- More turns do no harm to a loop that was over before. -/
theorem turn_mono {f g : σ → τ → Option ((σ ⊕ β) × τ)}
    (hfg : ∀ {s t r}, f s t = some r → g s t = some r) {m n : Nat} (hmn : m ≤ n) {s : σ} {t : τ}
    {r : β × τ} (h : turn f m s t = some r) : turn g n s t = some r := by
  induction m generalizing n s t with
  | zero => cases h
  | succ m ih =>
    obtain ⟨n, rfl⟩ : ∃ k, n = k + 1 := ⟨n - 1, by omega⟩
    rw [turn] at h ⊢
    cases hstep : f s t with
    | none =>
      rw [hstep] at h
      cases h
    | some made =>
      rw [hstep] at h
      rw [hfg hstep]
      rcases made with ⟨s' | value, t'⟩
      · exact ih (by omega) h
      · exact h

theorem run_mono {d : Dialog V α} {m n : Nat} (hmn : m ≤ n) {t : τ} {r : α × τ}
    (h : d.run answer m t = some r) : d.run answer n t = some r := by
  induction d generalizing t with
  | done value => exact h
  | ask q next ih => exact ih _ h
  | repeatUntil step start next ihstep ihnext =>
    rw [run] at h ⊢
    split at h
    · cases h
    · next value u hturn =>
      rw [turn_mono (fun hstep => ihstep _ hstep) hmn hturn]
      exact ihnext value h

/-- A dialog ends in some surroundings, if its loops may turn often enough. -/
def Ends (answer : Surroundings V τ) (d : Dialog V α) (t : τ) : Prop :=
  ∃ turns a t', d.run answer turns t = some (a, t')

theorem Plain.ends {allowed : V.Request → Prop} {d : Dialog V α} (h : d.Plain allowed) (t : τ) :
    d.Ends answer t :=
  ⟨0, h.exists_run answer 0 t⟩

theorem run_bind {d : Dialog V α} {f : α → Dialog V β} {turns : Nat} {t : τ} :
    (d.bind f).run answer turns t =
      (d.run answer turns t).bind fun (a, t') => (f a).run answer turns t' := by
  induction d generalizing t with
  | done value => rfl
  | ask q next ih => exact ih _
  | repeatUntil step start next _ ih =>
    simp only [bind, run]
    split
    · rfl
    · exact ih _

theorem Ends.bind {d : Dialog V α} {f : α → Dialog V β} {t : τ} (h : d.Ends answer t)
    (k : ∀ a t', (f a).Ends answer t') : (d.bind f).Ends answer t := by
  obtain ⟨m, a, u, hfirst⟩ := h
  obtain ⟨n, b, w, hrest⟩ := k a u
  refine ⟨max m n, b, w, ?_⟩
  rw [run_bind, run_mono (Nat.le_max_left m n) hfirst]
  exact run_mono (Nat.le_max_right m n) hrest

/-- A loop ends if something happens in every turn after which it goes on that cannot happen for
ever. -/
theorem ends_iterate {step : σ → Dialog V (σ ⊕ β)} {P : List (Exchange V) → Prop}
    (hstep : ∀ s t, (step s).Ends answer t)
    (hagain : ∀ {s s' events}, Transcript (step s) events (.inl s') → P events)
    (hlimited : WellFounded fun t' t => ∃ events, Follows answer t events t' ∧ P events) (s : σ)
    (t : τ) : (iterate step s).Ends answer t := by
  induction t using hlimited.induction generalizing s with
  | _ t ih =>
    obtain ⟨m, next, u, hturn⟩ := hstep s t
    rcases next with s' | value
    · -- the turn that was made, and then those of the loop from there
      obtain ⟨events, hevents, hfollows⟩ := follows_of_run hturn
      obtain ⟨n, b, w, hrest⟩ := ih u ⟨events, hfollows, hagain hevents⟩ s'
      refine ⟨max m n + 1, b, w, ?_⟩
      rw [iterate, run] at hrest ⊢
      split at hrest
      · cases hrest
      · next value u' hturns =>
        have hmade : (step s).run answer (max m n + 1) t = some (.inl s', u) :=
          run_mono (by omega) hturn
        have hothers : turn (fun s t => (step s).run answer (max m n + 1) t) (max m n) s' u =
            some (value, u') := turn_mono (run_mono (by omega)) (Nat.le_max_right m n) hturns
        rw [turn, hmade]
        dsimp only
        rw [hothers]
        exact hrest
    · refine ⟨m + 1, value, u, ?_⟩
      rw [iterate, run, turn, run_mono (Nat.le_succ m) hturn]
      rfl

/-- A dialog comes back in some surroundings, however often its loops may turn beyond what they need,
after some exchanges. -/
structure Returns (d : Dialog V α) (answer : Surroundings V τ) (t : τ) (events : List (Exchange V))
    (a : α) (t' : τ) : Prop where
  exchanged : Transcript d events a
  follows : Follows answer t events t'
  returned : ∃ n, ∀ turns, n ≤ turns → d.run answer turns t = some (a, t')

theorem Ends.returns {d : Dialog V α} {t : τ} (h : d.Ends answer t) :
    ∃ events a t', d.Returns answer t events a t' := by
  obtain ⟨n, a, t', hrun⟩ := h
  obtain ⟨events, hevents, hfollows⟩ := follows_of_run hrun
  exact ⟨events, a, t', hevents, hfollows, n, fun _ hturns => run_mono hturns hrun⟩

end Ends

/-! ## Other vocabularies -/

variable {rephrase : (q : V.Request) → Dialog W (V.Reply q)}

/-- What some exchanges come to in another vocabulary. -/
inductive Spells (rephrase : (q : V.Request) → Dialog W (V.Reply q)) :
    List (Exchange V) → List (Exchange W) → Prop where
  | nil : Spells rephrase [] []
  | cons {q : V.Request} {reply : V.Reply q} {words spelled : List (Exchange W)}
      {rest : List (Exchange V)} (first : Transcript (rephrase q) words reply)
      (more : Spells rephrase rest spelled) : Spells rephrase (⟨q, reply⟩ :: rest) (words ++ spelled)

theorem Spells.append {first rest : List (Exchange V)} {spelled more : List (Exchange W)}
    (h : Spells rephrase first spelled) (k : Spells rephrase rest more) :
    Spells rephrase (first ++ rest) (spelled ++ more) := by
  induction h with
  | nil => exact k
  | cons words _ ih =>
    rw [List.append_assoc]
    exact .cons words ih

theorem Spells.split {first rest : List (Exchange V)} {spelled : List (Exchange W)}
    (h : Spells rephrase (first ++ rest) spelled) :
    ∃ early late, spelled = early ++ late ∧ Spells rephrase first early ∧
      Spells rephrase rest late := by
  induction first generalizing spelled with
  | nil => exact ⟨[], spelled, rfl, .nil, h⟩
  | cons e first ih =>
    cases h with
    | cons words more =>
      obtain ⟨early, late, rfl, hearly, hlate⟩ := ih more
      exact ⟨_, late, (List.append_assoc ..).symm, .cons words hearly, hlate⟩

/-- What holds of the words of every exchange holds of all words. -/
theorem Spells.forall_mem {P : Exchange W → Prop} {events : List (Exchange V)}
    {spelled : List (Exchange W)} (h : Spells rephrase events spelled)
    (each : ∀ e ∈ events, ∀ words, Transcript (rephrase e.request) words e.reply → ∀ w ∈ words, P w) :
    ∀ w ∈ spelled, P w := by
  induction h with
  | nil => nofun
  | @cons q reply words spelled rest first more ih =>
    intro w hw
    rcases List.mem_append.mp hw with hw | hw
    · exact each ⟨q, reply⟩ List.mem_cons_self words first w hw
    · exact ih (fun e he => each e (List.mem_cons_of_mem _ he)) w hw

/-- The words of every exchange are among all words. -/
theorem Spells.words_of_mem {events : List (Exchange V)} {spelled : List (Exchange W)}
    (h : Spells rephrase events spelled) {e : Exchange V} (he : e ∈ events) :
    ∃ words, Transcript (rephrase e.request) words e.reply ∧ ∀ w ∈ words, w ∈ spelled := by
  induction h with
  | nil => cases he
  | @cons q reply words spelled rest first more ih =>
    rcases List.mem_cons.mp he with rfl | he
    · exact ⟨words, first, fun w hw => List.mem_append_left _ hw⟩
    · obtain ⟨words', hwords, hmem⟩ := ih he
      exact ⟨words', hwords, fun w hw => List.mem_append_right _ (hmem w hw)⟩

/-- Exchanges whose words are not looked at can be left out beforehand. What is looked at is a view of
the words that takes them one after the other. -/
theorem Spells.sift {γ : Type} {f : List (Exchange W) → List γ} {p : Exchange V → Bool}
    {events : List (Exchange V)} {spelled : List (Exchange W)} (h : Spells rephrase events spelled)
    (happend : ∀ first rest, f (first ++ rest) = f first ++ f rest)
    (hquiet : ∀ e ∈ events, p e = false → ∀ words, Transcript (rephrase e.request) words e.reply →
      f words = []) :
    ∃ sifted, Spells rephrase (events.filter p) sifted ∧ f sifted = f spelled := by
  induction h with
  | nil => exact ⟨[], .nil, rfl⟩
  | @cons q reply words spelled rest first more ih =>
    obtain ⟨sifted, hsifted, hseen⟩ := ih fun e he => hquiet e (List.mem_cons_of_mem _ he)
    cases hp : p ⟨q, reply⟩ with
    | true =>
      refine ⟨words ++ sifted, ?_, ?_⟩
      · rw [List.filter_cons_of_pos hp]
        exact .cons first hsifted
      · rw [happend, happend, hseen]
    | false =>
      refine ⟨sifted, ?_, ?_⟩
      · rw [List.filter_cons_of_neg (by simp [hp])]
        exact hsifted
      · have hwords : f words = [] := hquiet ⟨q, reply⟩ List.mem_cons_self hp words first
        rw [happend, hwords, List.nil_append, hseen]

/-- Steps one after the other, in other words. -/
theorem via_foldlM {step : β → α → Dialog V β} {step' : β → α → Dialog W β}
    (h : ∀ b a, (step b a).via rephrase = step' b a) (list : List α) (start : β) :
    (list.foldlM step start).via rephrase = list.foldlM step' start := by
  induction list generalizing start with
  | nil => rfl
  | cons first rest ih =>
    rw [List.foldlM_cons, List.foldlM_cons, bind_eq, via_bind, h]
    congr 1
    funext b
    exact ih b

/-- A dialog in other words exchanges what its own exchanges come to. -/
theorem transcript_via {d : Dialog V α} {spelled : List (Exchange W)} {a : α} :
    Transcript (d.via rephrase) spelled a ↔
      ∃ events, Transcript d events a ∧ Spells rephrase events spelled := by
  constructor
  · intro h
    induction d generalizing spelled with
    | done value =>
      obtain ⟨rfl, rfl⟩ := transcript_done.mp h
      exact ⟨[], .done _, .nil⟩
    | ask q next ih =>
      obtain ⟨words, rest, reply, rfl, hwords, hrest⟩ := transcript_bind.mp h
      obtain ⟨events, hevents, hspelled⟩ := ih reply hrest
      exact ⟨_, .ask reply hevents, .cons hwords hspelled⟩
    | @repeatUntil σ β _ step start next ihstep ihnext =>
      -- the loop of the one is followed turn by turn by the loop of the other
      generalize hd : (repeatUntil step start next).via rephrase = d at h
      induction h generalizing start with
      | done => cases hd
      | ask => cases hd
      | @again _ _ _ _ _ state _ _ _ _ hturn _ _ ih =>
        cases hd
        obtain ⟨turn, hstep, hfirst⟩ := ihstep _ hturn
        obtain ⟨events, hevents, hmore⟩ := ih state next ihnext rfl
        exact ⟨_, .again hstep hevents, hfirst.append hmore⟩
      | leave hturn hlast _ _ =>
        cases hd
        obtain ⟨turn, hstep, hfirst⟩ := ihstep _ hturn
        obtain ⟨events, hevents, hmore⟩ := ihnext _ hlast
        exact ⟨_, .leave hstep hevents, hfirst.append hmore⟩
  · rintro ⟨events, hevents, hspelled⟩
    induction hevents generalizing spelled with
    | done value =>
      cases hspelled
      exact .done value
    | ask reply _ ih =>
      cases hspelled with
      | cons words more => exact words.append (ih more)
    | again _ _ ihturn ihrest =>
      obtain ⟨early, late, rfl, hearly, hlate⟩ := hspelled.split
      exact .again (ihturn hearly) (ihrest hlate)
    | leave _ _ ihturn ihrest =>
      obtain ⟨early, late, rfl, hearly, hlate⟩ := hspelled.split
      exact .leave (ihturn hearly) (ihrest hlate)

/-- What a dialog in other words asks, if every question that it asks may be put so. -/
theorem Plain.via {allowed : V.Request → Prop} {allowed' : W.Request → Prop} {d : Dialog V α}
    (h : d.Plain allowed) (k : ∀ q, allowed q → (rephrase q).Plain allowed') :
    (d.via rephrase).Plain allowed' := by
  induction d with
  | done value => trivial
  | ask q next ih => exact (k q h.1).bind fun reply => ih reply (h.2 reply)
  | repeatUntil => exact h.elim

end VideoCore.Dialog
