import Mathlib.Data.List.Count
import Mathlib.Data.List.Nodup
import Mathlib.Data.List.Perm.Basic
import VideoCore.Proofs.Linux.Openers

/-!
# Opening a system as a whole

The backends of a configuration are opened one after the other. Here it is said what can happen on a
machine on which any call may fail: which backends are tried, when the system is given up, and what is
left switched on then.

`Course` is the shape that every opening has: some backends are tried in order, and those of them that
could be opened join the ones that were open before. If a backend fails that the configuration depends
on, it is the last one to be tried, and all that has joined is stopped again, so nothing stays switched
on (`opening_all_or_nothing`).
-/

namespace VideoCore.Linux

open Firmware
open Dialog (Transcript)
open Trial (Yields yields_pure yields_throw yields_bind yields_map yields_discard yields_lift_bind)

variable {c : Config} {kind : BackendKind} {events : List (Exchange Linux)}

/-! ## Stages -/

/-- The stage of a backend. -/
def stage (c : Config) : BackendKind → Stage
  | .mailbox => mailboxStage c
  | .sharedMemory => sharedMemoryStage c
  | .v3d => v3dStage c
  | .gpuService => gpuServiceStage c
  | .emulator => fun o => return o

/-- The order in which backends are opened. -/
def openingOrder : List BackendKind := [.mailbox, .sharedMemory, .v3d, .gpuService]

theorem nodup_openingOrder : openingOrder.Nodup := by
  decide

theorem stages_eq (c : Config) : stages c = openingOrder.map (stage c) := rfl

/-- What is open after a backend was tried. A backend that failed may be missing if nothing depends
on it. -/
def settle (c : Config) (kind : BackendKind) (o : Opened) :
    Except Fault (Opened → Opened) → Except Fault Opened
  | .ok add => .ok (add o)
  | .error fault => if c.dependsOn kind then .error fault else .ok o

/-- A stage that cannot do without its backend, if that is activated. -/
theorem yields_needed {α : Type} {attempt : Opening α} {add : α → Opened → Opened} {o : Opened}
    {r : Except Fault Opened} (hopener : opener c kind = do return add (← attempt))
    (hneeded : c.dependsOn kind = true)
    (h : Yields (if !c.activates kind then pure o else do return add (← attempt) o) events r) :
    (c.activates kind = false ∧ events = [] ∧ r = .ok o) ∨
      (c.activates kind = true ∧ ∃ q, Yields (opener c kind) events q ∧ r = settle c kind o q) := by
  cases hactive : c.activates kind with
  | false =>
    simp only [hactive] at h
    exact .inl ⟨rfl, yields_pure.mp h⟩
  | true =>
    simp only [hactive] at h
    obtain ⟨q, hopen, rfl⟩ := yields_map.mp h
    rw [hopener]
    refine .inr ⟨rfl, _, yields_map.mpr ⟨q, hopen, rfl⟩, ?_⟩
    cases q with
    | ok value => rfl
    | error fault =>
      show Except.error fault = if c.dependsOn kind then Except.error fault else Except.ok o
      rw [if_pos hneeded]

/-- The registers may be missing if nothing depends on them. -/
theorem yields_v3dStage {o : Opened} {r : Except Fault Opened} (h : Yields (v3dStage c o) events r) :
    (c.activatesV3d = false ∧ events = [] ∧ r = .ok o) ∨
      (c.activatesV3d = true ∧ ∃ q, Yields (opener c .v3d) events q ∧ r = settle c .v3d o q) := by
  cases hactive : c.activatesV3d with
  | false =>
    simp only [v3dStage, hactive] at h
    exact .inl ⟨rfl, yields_pure.mp h⟩
  | true =>
    simp only [v3dStage, hactive] at h
    obtain ⟨opening, rest, q, rfl, hopen, hrest⟩ := yields_outcome_bind.mp h
    have hend : rest = [] ∧ r = settle c .v3d o (q.map fun block o =>
        { backends := { o.backends with v3d := some {} },
          links := { o.links with registers := some block } }) := by
      cases q with
      | ok block => exact yields_pure.mp hrest
      | error fault =>
        show rest = [] ∧ r = if c.needsV3d then .error fault else .ok o
        dsimp only at hrest
        split at hrest
        · next hneeds =>
          rw [if_pos hneeds]
          exact yields_throw.mp hrest
        · next hneeds =>
          rw [if_neg hneeds]
          exact yields_pure.mp hrest
    obtain ⟨rfl, rfl⟩ := hend
    rw [List.append_nil]
    exact .inr ⟨rfl, _, yields_map.mpr ⟨q, hopen, rfl⟩, rfl⟩

/-- A stage tries its backend if the configuration activates it. -/
theorem yields_stage {o : Opened} {r : Except Fault Opened} (h : Yields (stage c kind o) events r) :
    (c.activates kind = false ∧ events = [] ∧ r = .ok o) ∨
      (c.activates kind = true ∧ ∃ q, Yields (opener c kind) events q ∧ r = settle c kind o q) := by
  cases kind with
  | emulator => exact .inl ⟨rfl, yields_pure.mp h⟩
  | v3d => exact yields_v3dStage h
  | mailbox | sharedMemory | gpuService => exact yields_needed rfl rfl h

/-! ## Backends that are tried -/

/-- One backend that is tried: what that exchanges, and how it ends. -/
structure Try where
  kind : BackendKind
  events : List (Exchange Linux)
  result : Except Fault Unit

/-- What can happen when a backend is opened. -/
def Try.Happens (c : Config) (t : Try) : Prop :=
  Yields (discard (opener c t.kind)) t.events t.result

/-- A backend failed that the system cannot do without. -/
def Try.Fatal (c : Config) (t : Try) : Prop :=
  c.dependsOn t.kind = true ∧ ∃ fault, t.result = .error fault

/-- All that was exchanged while some backends were tried. -/
def exchanged (tries : List Try) : List (Exchange Linux) := tries.flatMap Try.events

/-- Those of some backends that could be opened have joined the ones that were open before. -/
inductive Gathers : List Try → Opened → Opened → Prop where
  | start (o : Opened) : Gathers [] o o
  | joined {t : Try} {rest : List Try} {o o' o'' : Opened} (ok : t.result = .ok ())
      (new : o.backends.has t.kind = false) (joins : Joins t.kind t.events o o')
      (more : Gathers rest o' o'') : Gathers (t :: rest) o o''
  | spared {t : Try} {rest : List Try} {o o' : Opened} {fault : Fault}
      (failed : t.result = .error fault) (quiet : switches t.events = [])
      (more : Gathers rest o o') : Gathers (t :: rest) o o'

namespace Gathers

variable {tries : List Try} {o o' : Opened}

/-- The backends that are up are those that were before and those that could be opened. -/
theorem has_iff (h : Gathers tries o o') :
    o'.backends.has kind = true ↔
      o.backends.has kind = true ∨ ∃ t ∈ tries, t.kind = kind ∧ t.result = .ok () := by
  induction h with
  | start => simp
  | @joined t _ _ _ _ ok new joins more ih =>
    rw [ih, joins.has, Bool.or_eq_true, beq_iff_eq, or_assoc, List.exists_mem_cons_iff]
    have hfirst : (t.kind = kind ∧ t.result = .ok ()) ↔ kind = t.kind := by
      rw [and_iff_left ok]
      exact eq_comm
    rw [hfirst]
  | spared failed quiet more ih =>
    rw [ih]
    simp [failed]

/-- There is a link to every backend that is up. -/
theorem reaches (h : Gathers tries o o')
    (hlinked : ∀ k, o.backends.has k = true → Reaches o.links k = true) :
    ∀ k, o'.backends.has k = true → Reaches o'.links k = true := by
  induction h with
  | start => exact hlinked
  | joined ok new joins more ih =>
    apply ih
    intro k hk
    rw [joins.has, Bool.or_eq_true] at hk
    rw [joins.reaches, Bool.or_eq_true]
    exact hk.imp_left (hlinked k)
  | spared failed quiet more ih => exact ih hlinked

end Gathers

/-! ## What is switched on -/

/-- The facilities of the backends that are open. -/
def Opened.facilities (o : Opened) : List Facility :=
  (Backends.kinds.filter o.backends.has).flatMap (Linux.facilities o.links)

theorem nodup_kinds : Backends.kinds.Nodup := by
  decide

theorem mem_facilities {o : Opened} {f : Facility} (h : f ∈ o.facilities) :
    o.backends.has f.kind = true := by
  obtain ⟨k, hk, hf⟩ := List.mem_flatMap.mp h
  rw [kind_of_mem_facilities hf]
  exact (List.mem_filter.mp hk).2

theorem Opened.nodup_facilities (o : Opened) : o.facilities.Nodup := by
  apply List.nodup_flatMap.mpr
  refine ⟨fun k _ => Linux.nodup_facilities o.links k, ?_⟩
  refine (nodup_kinds.filter _).imp ?_
  -- a facility belongs to one backend
  intro k k' hne f hf hf'
  apply hne
  rw [← kind_of_mem_facilities hf, ← kind_of_mem_facilities hf']

/-- A backend that joins brings the facilities of its link. -/
theorem Joins.facilities_perm {o o' : Opened} (h : Joins kind events o o')
    (hnew : o.backends.has kind = false) :
    o'.facilities.Perm (o.facilities ++ Linux.facilities o'.links kind) := by
  have hkinds : (Backends.kinds.filter o'.backends.has).Perm
      (Backends.kinds.filter o.backends.has ++ [kind]) := by
    refine (List.perm_ext_iff_of_nodup (nodup_kinds.filter _) ?_).mpr ?_
    · refine List.nodup_append.mpr ⟨nodup_kinds.filter _, List.nodup_singleton _, ?_⟩
      intro k hk k' hk' heq
      rw [List.mem_singleton.mp hk'] at heq
      have hup := (List.mem_filter.mp hk).2
      rw [heq, hnew] at hup
      cases hup
    · intro k
      simp [h.has, Session.mem_kinds]
  have hothers : (Backends.kinds.filter o.backends.has).flatMap (Linux.facilities o'.links) =
      o.facilities := by
    apply List.flatMap_congr
    intro k hk
    apply h.others
    rintro rfl
    have hup := (List.mem_filter.mp hk).2
    rw [hnew] at hup
    cases hup
  have hall := hkinds.flatMap_right (Linux.facilities o'.links)
  rw [List.flatMap_append, hothers, List.flatMap_singleton] at hall
  exact hall

theorem Gathers.switched {tries : List Try} {o o' : Opened} (h : Gathers tries o o') :
    ∃ ons, switches (exchanged tries) = ons.map .on ∧ o'.facilities.Perm (o.facilities ++ ons) := by
  induction h with
  | start o => exact ⟨[], rfl, by rw [List.append_nil]⟩
  | @joined t rest o o' o'' ok new joins more ih =>
    obtain ⟨ons, hons, hperm⟩ := ih
    refine ⟨Linux.facilities o'.links t.kind ++ ons, ?_, ?_⟩
    · rw [exchanged, List.flatMap_cons, switches_append, joins.switched, List.map_append]
      exact congrArg _ hons
    · rw [← List.append_assoc]
      exact hperm.trans ((joins.facilities_perm new).append_right ons)
  | @spared t rest o o' fault failed quiet more ih =>
    obtain ⟨ons, hons, hperm⟩ := ih
    refine ⟨ons, ?_, hperm⟩
    rw [exchanged, List.flatMap_cons, switches_append, quiet, List.nil_append]
    exact hons

/-! ## Giving up -/

/-- What a backend asks when it is stopped. -/
def Parting : Hardware.Request → Prop
  | .property m => m = Mailbox.powerOrder false
  | .report _ | .retire _ => True
  | _ => False

theorem stop_givesUp (links : Links) (b : Backends) (kind : BackendKind) :
    (across links (b.stop kind)).Plain Request.GivesUp := by
  have hparting : (b.stop kind).Plain Parting :=
    b.stop_plain (fun _ => rfl) (fun _ => trivial) trivial
  apply hparting.via
  intro q hq
  cases q with
  | property m =>
    cases h : links.mailbox with
    | none => simp only [serve, h]; trivial
    | some file =>
      simp only [serve, h]
      exact Trial.plain_request hq
  | report d => exact Trial.plain_request trivial
  | retire kind =>
    show (retire links kind).Plain Request.GivesUp
    rw [retire_eq]
    apply askAll_plain
    exact fun w hw => (mem_retirement hw).2
  | _ => exact hq.elim

/-- Everything that is open is switched off when it is given up. -/
theorem switches_abandon {o : Opened} (h : Transcript (abandon o) events ()) :
    ∃ offs : List Facility, switches events = offs.map .off ∧ offs.Perm o.facilities := by
  have hall : ∀ (kinds : List BackendKind) (events : List (Exchange Linux)),
      (∀ k ∈ kinds, o.backends.has k = true) →
      Transcript (kinds.forM fun k => across o.links (o.backends.stop k)) events () →
      switches events =
        (kinds.flatMap fun k => (Linux.facilities o.links k).reverse).map .off := by
    intro kinds
    induction kinds with
    | nil =>
      intro events _ h
      obtain ⟨rfl, -⟩ := Dialog.transcript_done.mp h
      rfl
    | cons first rest ih =>
      intro events hup h
      obtain ⟨stopping, last, u, rfl, hstop, hrest⟩ := Dialog.transcript_bind.mp h
      have hlast := ih last (fun k hk => hup k (List.mem_cons_of_mem first hk)) hrest
      rw [switches_append, switches_stop (hup first List.mem_cons_self) hstop, hlast,
        List.flatMap_cons, List.map_append]
  have hup : ∀ k ∈ Backends.kinds.filter o.backends.has, o.backends.has k = true :=
    fun k hk => (List.mem_filter.mp hk).2
  refine ⟨_, hall _ _ hup h, ?_⟩
  exact List.Perm.flatMap_left _ fun k _ => List.reverse_perm _

theorem count_off_offs (f : Facility) (offs : List Facility) :
    (offs.map Switch.off).count (.off f) = offs.count f :=
  List.count_map_of_injective offs Switch.off (fun _ _ h => Switch.off.inj h) f

/-- Nothing is switched off by switching on. -/
theorem count_off_ons (f : Facility) (ons : List Facility) :
    (ons.map Switch.on).count (.off f) = 0 := by
  apply List.count_eq_zero.mpr
  intro h
  obtain ⟨_, -, heq⟩ := List.mem_map.mp h
  cases heq

theorem rolledBack_offs (offs : List Facility) : RolledBack (offs.map .off) := by
  induction offs with
  | nil => exact rolledBack_nil
  | cons f rest ih =>
    rw [List.map_cons, rolledBack_cons]
    exact ⟨nofun, ih⟩

/-- What undoes itself, followed by the end of other facilities, is rolled back. -/
theorem RolledBack.append_offs {failing : List Switch} {offs : List Facility}
    (h : RolledBack failing) (hapart : ∀ s ∈ failing, s.facility ∉ offs) :
    RolledBack (failing ++ offs.map .off) := by
  induction failing with
  | nil => exact rolledBack_offs offs
  | cons s rest ih =>
    obtain ⟨hfirst, hrest⟩ := rolledBack_cons.mp h
    rw [List.cons_append, rolledBack_cons]
    refine ⟨?_, ih hrest fun t ht => hapart t (List.mem_cons_of_mem s ht)⟩
    rintro f rfl
    have hother : offs.count f = 0 := List.count_eq_zero.mpr (hapart (.on f) List.mem_cons_self)
    rw [List.count_append, hfirst f rfl, count_off_offs, hother]

/-- What is switched on beforehand, and off exactly once afterwards, is rolled back. -/
theorem RolledBack.preceded {ons : List Facility} {rest : List Switch} (h : RolledBack rest)
    (honce : ∀ f ∈ ons, rest.count (.off f) = 1) : RolledBack (ons.map .on ++ rest) := by
  induction ons with
  | nil => exact h
  | cons g ons ih =>
    rw [List.map_cons, List.cons_append, rolledBack_cons]
    refine ⟨?_, ih fun f hf => honce f (List.mem_cons_of_mem g hf)⟩
    rintro f heq
    cases heq
    rw [List.count_append, count_off_ons, Nat.zero_add, honce g List.mem_cons_self]

/-- What is switched on first and switched off last, in any order, is rolled back if what comes in
between is, and concerns other facilities. -/
theorem RolledBack.between {ons offs : List Facility} {failing : List Switch}
    (h : RolledBack failing) (hnodup : ons.Nodup) (hperm : offs.Perm ons)
    (hapart : ∀ s ∈ failing, s.facility ∉ ons) :
    RolledBack (ons.map .on ++ (failing ++ offs.map .off)) := by
  have hlast : RolledBack (failing ++ offs.map .off) :=
    h.append_offs fun s hs hmem => hapart s hs (hperm.mem_iff.mp hmem)
  apply hlast.preceded
  intro f hf
  have hnone : failing.count (.off f) = 0 :=
    List.count_eq_zero.mpr fun hmem => hapart _ hmem hf
  rw [List.count_append, hnone, Nat.zero_add, count_off_offs, hperm.count_eq,
    List.count_eq_one_of_mem hnodup hf]

/-! ## The sequence -/

/-- Some backends were tried in order and those that could be opened have joined. -/
structure Tried (c : Config) (tries : List Try) (o o' : Opened) : Prop where
  happens : ∀ t ∈ tries, t.Happens c
  spared : ∀ t ∈ tries, ¬ t.Fatal c
  gathers : Gathers tries o o'

/-- How opening some backends can go, with others open already. Either all that the configuration
activates are tried, or one of them fails the system, and then what is open is given up. -/
inductive Course (c : Config) (kinds : List BackendKind) (o : Opened) :
    List (Exchange Linux) → Except Fault Opened → Prop where
  | complete {tries : List Try} {o' : Opened} (order : tries.map Try.kind = kinds.filter c.activates)
      (tried : Tried c tries o o') : Course c kinds o (exchanged tries) (.ok o')
  | abandoned {earlier : List Try} {last : Try} {later : List BackendKind} {fault : Fault}
      {o' : Opened} {undoing : List (Exchange Linux)}
      (order : earlier.map Try.kind ++ last.kind :: later = kinds.filter c.activates)
      (tried : Tried c earlier o o') (happens : last.Happens c) (needed : c.dependsOn last.kind = true)
      (failed : last.result = .error fault) (new : o'.backends.has last.kind = false)
      (undone : Transcript (abandon o') undoing ()) :
      Course c kinds o (exchanged earlier ++ (last.events ++ undoing)) (.error fault)

namespace Course

variable {kinds kinds' : List BackendKind} {o o' : Opened} {r : Except Fault Opened}

/-- A backend that is not activated is passed over. -/
theorem passed (h : Course c kinds o events r)
    (hkinds : kinds'.filter c.activates = kinds.filter c.activates) : Course c kinds' o events r := by
  cases h with
  | complete order tried => exact .complete (order.trans hkinds.symm) tried
  | abandoned order tried happens needed failed new undone =>
    exact .abandoned (order.trans hkinds.symm) tried happens needed failed new undone

/-- A backend is tried before others, and does not fail the system. -/
theorem preceded {t : Try} (h : Course c kinds o' events r)
    (hkinds : kinds'.filter c.activates = t.kind :: kinds.filter c.activates) (happens : t.Happens c)
    (spared : ¬ t.Fatal c) (gathers : ∀ tries o'', Gathers tries o' o'' → Gathers (t :: tries) o o'') :
    Course c kinds' o (t.events ++ events) r := by
  have hcons : ∀ {tries o''}, Tried c tries o' o'' → Tried c (t :: tries) o o'' := by
    intro tries o'' tried
    exact ⟨List.forall_mem_cons.mpr ⟨happens, tried.happens⟩,
      List.forall_mem_cons.mpr ⟨spared, tried.spared⟩, gathers _ _ tried.gathers⟩
  cases h with
  | complete order tried =>
    refine .complete ?_ (hcons tried)
    rw [hkinds, List.map_cons, order]
  | @abandoned earlier last later fault o'' undoing order tried happens' needed failed new undone =>
    have horder : (t :: earlier).map Try.kind ++ last.kind :: later =
        kinds'.filter c.activates := by
      rw [hkinds, List.map_cons, List.cons_append, order]
    rw [← List.append_assoc]
    exact .abandoned horder (hcons tried) happens' needed failed new undone

variable {rest : List BackendKind} {first : List (Exchange Linux)}

/-- A backend that could be opened joins, and the others are tried after it. -/
theorem opened {add : Opened → Opened} (h : Course c rest (add o) events r)
    (hactive : c.activates kind = true) (hnew : o.backends.has kind = false)
    (hopen : Yields (opener c kind) first (.ok add)) (hjoins : Joins kind first o (add o)) :
    Course c (kind :: rest) o (first ++ events) r := by
  have happens : Try.Happens c ⟨kind, first, .ok ()⟩ := yields_discard.mpr ⟨.ok add, hopen, rfl⟩
  have hspared : ¬ Try.Fatal c ⟨kind, first, .ok ()⟩ := by
    rintro ⟨-, fault, hfault⟩
    cases hfault
  exact h.preceded (List.filter_cons_of_pos hactive) happens hspared
    fun _ _ more => .joined rfl hnew hjoins more

/-- A backend that failed is missing, and the others are tried all the same. -/
theorem missed {fault : Fault} (h : Course c rest o events r) (hactive : c.activates kind = true)
    (hspared : c.dependsOn kind = false) (hopen : Yields (opener c kind) first (.error fault)) :
    Course c (kind :: rest) o (first ++ events) r := by
  have happens : Try.Happens c ⟨kind, first, .error fault⟩ :=
    yields_discard.mpr ⟨.error fault, hopen, rfl⟩
  have hharmless : ¬ Try.Fatal c ⟨kind, first, .error fault⟩ := by
    rintro ⟨hneeded, -⟩
    rw [hspared] at hneeded
    cases hneeded
  exact h.preceded (List.filter_cons_of_pos hactive) happens hharmless
    fun _ _ more => .spared rfl (switches_opener_spared hspared hopen) more

/-- A backend that failed ends the opening, and what is open is given up. -/
theorem failed {fault : Fault} {undoing : List (Exchange Linux)} (hactive : c.activates kind = true)
    (hneeded : c.dependsOn kind = true) (hnew : o.backends.has kind = false)
    (hopen : Yields (opener c kind) first (.error fault))
    (hundone : Transcript (abandon o) undoing ()) :
    Course c (kind :: rest) o (first ++ undoing) (.error fault) := by
  have happens : Try.Happens c ⟨kind, first, .error fault⟩ :=
    yields_discard.mpr ⟨.error fault, hopen, rfl⟩
  have horder : ([] : List Try).map Try.kind ++ kind :: rest.filter c.activates =
      (kind :: rest).filter c.activates := (List.filter_cons_of_pos hactive).symm
  have htried : Tried c [] o o := ⟨by simp, by simp, .start o⟩
  exact .abandoned horder htried happens hneeded rfl hnew hundone

end Course

/-- Every opening takes its course. -/
theorem openStages_course {kinds : List BackendKind} {o : Opened} {r : Except Fault Opened}
    (hnew : ∀ k ∈ kinds, o.backends.has k = false) (hnodup : kinds.Nodup)
    (h : Yields (openStages (kinds.map (stage c)) o) events r) : Course c kinds o events r := by
  induction kinds generalizing o events with
  | nil =>
    obtain ⟨rfl, rfl⟩ := yields_pure.mp h
    exact .complete rfl ⟨by simp, by simp, .start o⟩
  | cons kind rest ih =>
    obtain ⟨hfresh, hrestnodup⟩ := List.nodup_cons.mp hnodup
    obtain ⟨hkind, hrest⟩ := List.forall_mem_cons.mp hnew
    obtain ⟨first, more, q, rfl, hstage, hmore⟩ := yields_outcome_bind.mp h
    rcases yields_stage hstage with ⟨hidle, rfl, rfl⟩ | ⟨hactive, p, hopen, rfl⟩
    · refine (ih hrest hrestnodup hmore).passed ?_
      rw [List.filter_cons_of_neg (by simp [hidle])]
    cases p with
    | ok add =>
      have hreal : kind ≠ .emulator := by
        rintro rfl
        cases hactive
      have hjoins := opener_joins hreal hopen o
      have hstill : ∀ k ∈ rest, (add o).backends.has k = false := by
        intro k hk
        rw [hjoins.has, hrest k hk, Bool.false_or]
        apply beq_eq_false_iff_ne.mpr
        rintro rfl
        exact hfresh hk
      exact (ih hstill hrestnodup hmore).opened hactive hkind hopen hjoins
    | error fault =>
      cases hneeded : c.dependsOn kind with
      | true =>
        simp only [settle, hneeded] at hmore
        obtain ⟨undoing, last, u, rfl, hundone, hthrow⟩ := yields_lift_bind.mp hmore
        obtain ⟨rfl, rfl⟩ := yields_throw.mp hthrow
        rw [List.append_nil]
        exact .failed hactive hneeded hkind hopen hundone
      | false =>
        simp only [settle, hneeded] at hmore
        exact (ih hrest hrestnodup hmore).missed hactive hneeded hopen

/-! ## Ending -/

/-- A request that gives up one of the backends that are open. -/
structure Undoes (o : Opened) (q : Request) : Prop where
  givesUp : q.GivesUp
  open_backend : ∃ kind, o.backends.has kind = true ∧ Within kind q

theorem abandon_plain (o : Opened) : (abandon o).Plain (Undoes o) := by
  have hall : ∀ kinds : List BackendKind, (∀ k ∈ kinds, o.backends.has k = true) →
      (kinds.forM fun k => across o.links (o.backends.stop k)).Plain (Undoes o) := by
    intro kinds hup
    induction kinds with
    | nil => trivial
    | cons kind rest ih =>
      have hkind := hup kind List.mem_cons_self
      have hstop := (stop_givesUp o.links o.backends kind).and
        (across_within (o.backends.stop_within kind) o.links)
      refine (hstop.imp ?_).bind fun _ => ih fun k hk => hup k (List.mem_cons_of_mem kind hk)
      exact fun q hq => ⟨hq.1, kind, hkind, hq.2⟩
  exact hall _ fun k hk => (List.mem_filter.mp hk).2

theorem plain_needed {α : Type} {allowed : Request → Prop} {active : Bool} {attempt : Opening α}
    {add : α → Opened} {o : Opened} (h : Trial.Plain allowed attempt) :
    Trial.Plain allowed (if !active then pure o else do return add (← attempt)) := by
  cases active with
  | false => exact Trial.plain_pure o
  | true => exact Trial.plain_map h

/-- A stage asks only what opening its backend may ask. -/
theorem stage_plain (c : Config) (kind : BackendKind) (o : Opened) :
    Trial.Plain (Opens kind) (stage c kind o) := by
  cases kind with
  | emulator => exact Trial.plain_pure o
  | mailbox => exact plain_needed openMailbox_plain
  | sharedMemory => exact plain_needed (openSharedMemory_plain _)
  | gpuService => exact plain_needed openGpuService_plain
  | v3d =>
    show Trial.Plain _ (v3dStage c o)
    unfold v3dStage
    split
    · exact Trial.plain_pure o
    have hopen : Trial.Plain (Opens .v3d) openV3d := openV3d_plain.imp fun _ h => h.1
    refine Trial.plain_bind (Trial.plain_lift hopen.run) fun opened => ?_
    cases opened with
    | ok block => exact Trial.plain_pure _
    | error fault =>
      dsimp only
      split
      · exact Trial.plain_throw fault
      · exact Trial.plain_pure o

theorem openStages_plain (c : Config) (kinds : List BackendKind) (o : Opened) :
    Trial.Plain (fun _ => True) (openStages (kinds.map (stage c)) o) := by
  induction kinds generalizing o with
  | nil => exact Trial.plain_pure _
  | cons kind rest ih =>
    have hstage : Trial.Plain (fun _ => True) (stage c kind o) :=
      (stage_plain c kind o).imp fun _ _ => trivial
    refine Trial.plain_bind (Trial.plain_lift hstage.run) fun opened => ?_
    cases opened with
    | ok o' => exact ih o'
    | error fault =>
      have habandon : (abandon o).Plain fun _ => True := (abandon_plain o).imp fun _ _ => trivial
      exact Trial.plain_bind (Trial.plain_lift habandon) fun _ => Trial.plain_throw _

/-! ## All or nothing -/

theorem has_initial {kind : BackendKind} :
    (Opened.initial c).backends.has kind = true ↔ kind = .emulator ∧ c.emulated = true := by
  cases kind <;> cases h : c.emulated <;> simp [Opened.initial, Backends.has, h]

theorem opening_fresh : ∀ k ∈ openingOrder, (Opened.initial c).backends.has k = false := by
  intro k hk
  cases hup : (Opened.initial c).backends.has k with
  | false => rfl
  | true =>
    obtain ⟨rfl, -⟩ := has_initial.mp hup
    simp [openingOrder] at hk

theorem has_ofBackends (c : Config) (b : Backends) (kind : BackendKind) :
    (System.ofBackends c b).backends.has kind = b.has kind := by
  cases kind <;> simp [System.ofBackends, Backends.has]

theorem facilities_initial (c : Config) : (Opened.initial c).facilities = [] := by
  cases h : c.emulated <;>
    simp [Opened.facilities, Opened.initial, Backends.kinds, Backends.has, Linux.facilities, h]

theorem backend?_ne_emulator (q : Request) : q.backend? ≠ some .emulator := by
  cases q <;> nofun

/-- All backends that the configuration activates were tried and none failed that the system needs.
The system has those that could be opened. -/
structure Succeeds (c : Config) (tries : List Try) (events : List (Exchange Linux))
    (system : System) : Prop where
  order : tries.map Try.kind = openingOrder.filter c.activates
  spared : ∀ t ∈ tries, ¬ t.Fatal c
  exchanges : events = exchanged tries
  has_iff : ∀ kind, system.backends.has kind = true ↔
    (kind = .emulator ∧ c.emulated = true) ∨ ∃ t ∈ tries, t.kind = kind ∧ t.result = .ok ()

/-- The last backend that was tried is the first one that failed the system, and what came before is
undone. -/
structure Fails (c : Config) (tries : List Try) (events : List (Exchange Linux)) (fault : Fault) :
    Prop where
  first : ∃ earlier last, tries = earlier ++ [last] ∧ (∀ t ∈ earlier, ¬ t.Fatal c) ∧
    c.dependsOn last.kind = true ∧ last.result = .error fault
  untouched : ∃ later, tries.map Try.kind ++ later = openingOrder.filter c.activates ∧
    ∀ kind ∈ later, ∀ e ∈ events, e.request.backend? ≠ some kind
  undone : ∃ undoing, events = exchanged tries ++ undoing ∧ ∀ e ∈ undoing, e.request.GivesUp
  rolledBack : RolledBack (switches events)

/-- What is exchanged while a backend is tried opens that backend and no other. -/
theorem Try.Happens.opens {t : Try} (h : t.Happens c) : ∀ e ∈ t.events, Opens t.kind e.request :=
  (Trial.plain_discard (opener_plain c t.kind)).run.of_transcript h

theorem Try.Happens.within {t : Try} (h : t.Happens c) : ∀ e ∈ t.events, Within t.kind e.request :=
  fun e he => (h.opens e he).within

theorem backend?_of_mem_exchanged {tries : List Try} (h : ∀ t ∈ tries, t.Happens c)
    {e : Exchange Linux} (he : e ∈ exchanged tries) {kind : BackendKind}
    (hkind : e.request.backend? = some kind) : kind ∈ tries.map Try.kind := by
  obtain ⟨t, ht, hevent⟩ := List.mem_flatMap.mp he
  obtain rfl := ((h t ht).within e hevent).eq hkind
  exact List.mem_map_of_mem ht

/-- When the last of some backends fails and the others are given up, nothing stays switched on. -/
theorem rolledBack_of_abandoned {earlier : List Try} {last : Try} {o o' : Opened} {fault : Fault}
    {undoing : List (Exchange Linux)} (hnone : o.facilities = []) (h : Gathers earlier o o')
    (happens : last.Happens c) (failed : last.result = .error fault)
    (new : o'.backends.has last.kind = false) (undone : Transcript (abandon o') undoing ()) :
    RolledBack (switches (exchanged earlier ++ (last.events ++ undoing))) := by
  obtain ⟨ons, hons, hperm⟩ := h.switched
  obtain ⟨offs, hoffs, hoffsperm⟩ := switches_abandon undone
  rw [hnone, List.nil_append] at hperm
  rw [switches_append, switches_append, hons, hoffs]
  obtain ⟨q, hopen, hq⟩ := yields_discard.mp happens
  have hself : RolledBack (switches last.events) := by
    cases q with
    | ok add =>
      rw [failed] at hq
      cases hq
    | error fault => exact rolledBack_opener hopen
  apply hself.between (hperm.nodup_iff.mp o'.nodup_facilities) (hoffsperm.trans hperm)
  -- what the last backend switched belongs to itself, and it is not among the others
  intro s hs hmem
  have hkind : s.facility.kind = last.kind := kind_of_mem_switches happens.within hs
  have hup := mem_facilities (hperm.mem_iff.mpr hmem)
  rw [hkind, new] at hup
  cases hup

/-- When the last of some backends fails and the others are given up, nothing reaches one that was not
tried. -/
theorem untouched_of_abandoned {earlier : List Try} {last : Try} {o : Opened}
    {undoing : List (Exchange Linux)} (happens : ∀ t ∈ earlier ++ [last], t.Happens c)
    (gathers : Gathers earlier (.initial c) o) (undone : Transcript (abandon o) undoing ())
    (huntried : kind ∉ (earlier ++ [last]).map Try.kind) {e : Exchange Linux}
    (he : e ∈ exchanged (earlier ++ [last]) ++ undoing) : e.request.backend? ≠ some kind := by
  intro hkind
  rcases List.mem_append.mp he with he | he
  · exact huntried (backend?_of_mem_exchanged happens he hkind)
  obtain ⟨k, hup, hwithin⟩ := ((abandon_plain o).of_transcript undone e he).open_backend
  obtain rfl := hwithin.eq hkind
  rcases gathers.has_iff.mp hup with hinitial | ⟨t, ht, rfl, -⟩
  · -- no request to the machine reaches the emulator
    obtain ⟨rfl, -⟩ := has_initial.mp hinitial
    exact backend?_ne_emulator _ hkind
  · exact huntried (List.mem_map_of_mem (List.mem_append_left [last] ht))

/-- A system that is given up because one of its backends failed. -/
theorem fails_of_abandoned {earlier : List Try} {last : Try} {later : List BackendKind} {fault : Fault}
    {o : Opened} {undoing : List (Exchange Linux)}
    (order : earlier.map Try.kind ++ last.kind :: later = openingOrder.filter c.activates)
    (tried : Tried c earlier (.initial c) o) (happens : ∀ t ∈ earlier ++ [last], t.Happens c)
    (needed : c.dependsOn last.kind = true) (failed : last.result = .error fault)
    (new : o.backends.has last.kind = false) (undone : Transcript (abandon o) undoing ()) :
    Fails c (earlier ++ [last]) (exchanged earlier ++ (last.events ++ undoing)) fault := by
  have hexchanged : exchanged earlier ++ (last.events ++ undoing) =
      exchanged (earlier ++ [last]) ++ undoing := by
    simp [exchanged]
  have hsplit : (earlier ++ [last]).map Try.kind ++ later = openingOrder.filter c.activates := by
    rw [← order]
    simp
  have hnodup : ((earlier ++ [last]).map Try.kind ++ later).Nodup := by
    rw [hsplit]
    exact nodup_openingOrder.filter _
  constructor
  case first => exact ⟨earlier, last, rfl, tried.spared, needed, failed⟩
  case untouched =>
    refine ⟨later, hsplit, ?_⟩
    intro kind hkind e he
    rw [hexchanged] at he
    refine untouched_of_abandoned happens tried.gathers undone ?_ he
    intro htried
    exact (List.nodup_append.mp hnodup).2.2 kind htried kind hkind rfl
  case undone =>
    exact ⟨undoing, hexchanged, fun e he => ((abandon_plain o).of_transcript undone e he).givesUp⟩
  case rolledBack =>
    have hlast : last.Happens c := happens last (by simp)
    exact rolledBack_of_abandoned (facilities_initial c) tried.gathers hlast failed new undone

/-- Opening a system repeats nothing. -/
theorem openSystem_plain (c : Config) : Trial.Plain (fun _ => True) (openSystem c) :=
  Trial.plain_map (openStages_plain c openingOrder (.initial c))

/-- Opening a system takes its course from what the configuration starts with. -/
theorem opening_course {result : Except Fault (System × Links)}
    (h : Yields (openSystem c) events result) :
    ∃ r, Course c openingOrder (.initial c) events r ∧
      result = r.map fun o => (.ofBackends c o.backends, o.links) := by
  obtain ⟨r, hstages, rfl⟩ := yields_map.mp h
  rw [stages_eq] at hstages
  exact ⟨r, openStages_course opening_fresh nodup_openingOrder hstages, rfl⟩

/-- **Opening a system is all or nothing.** On every machine it ends. The backends that the
configuration activates are tried in order, each at most once, and the system is refused exactly if
one fails that the system needs. Its fault is then the fault of the opening, no backend is tried after
it, and everything that was switched on is switched off again. -/
theorem opening_all_or_nothing (c : Config) :
    (∀ {τ : Type} (machine : Surroundings Linux τ) (turns : Nat) (state : τ),
      ∃ result state', (openSystem c).run.run machine turns state = some (result, state')) ∧
    ∀ (events : List (Exchange Linux)) (result : Except Fault (System × Links)),
      Yields (openSystem c) events result →
      ∃ tries : List Try, (∀ t ∈ tries, t.Happens c) ∧
        ((∃ fault, result = .error fault) ↔ ∃ t ∈ tries, t.Fatal c) ∧
        match result with
        | .ok (system, _) => Succeeds c tries events system
        | .error fault => Fails c tries events fault := by
  constructor
  · intro τ machine turns state
    exact (openSystem_plain c).run.exists_run machine turns state
  intro events result h
  obtain ⟨r, course, rfl⟩ := opening_course h
  cases course with
  | @complete tries o order tried =>
    refine ⟨tries, tried.happens, ?_, order, tried.spared, rfl, ?_⟩
    · constructor
      · rintro ⟨fault, hfault⟩
        cases hfault
      · rintro ⟨t, ht, hfatal⟩
        exact absurd hfatal (tried.spared t ht)
    · intro kind
      rw [has_ofBackends, tried.gathers.has_iff, has_initial]
  | @abandoned earlier last later fault o undoing order tried happens needed failed new undone =>
    have hhappens : ∀ t ∈ earlier ++ [last], t.Happens c := by
      intro t ht
      rcases List.mem_append.mp ht with ht | ht
      · exact tried.happens t ht
      · rw [List.mem_singleton.mp ht]
        exact happens
    have hfatal : ∃ t ∈ earlier ++ [last], t.Fatal c := ⟨last, by simp, needed, fault, failed⟩
    refine ⟨earlier ++ [last], hhappens, ⟨fun _ => hfatal, fun _ => ⟨fault, rfl⟩⟩, ?_⟩
    exact fails_of_abandoned order tried hhappens needed failed new undone

/-- A system that was opened has switched nothing off again, and there is a link to each of its
backends. -/
theorem opening_lasts {system : System} {links : Links}
    (h : Yields (openSystem c) events (.ok (system, links))) :
    (∀ e ∈ events, e.request.ended? = none) ∧
      ∀ kind, system.backends.has kind = true → Reaches links kind = true := by
  obtain ⟨r, course, hr⟩ := opening_course h
  cases course with
  | abandoned => cases hr
  | @complete tries o order tried =>
    cases hr
    constructor
    · intro e he
      obtain ⟨ons, hons, -⟩ := tried.gathers.switched
      cases hended : e.request.ended? with
      | none => rfl
      | some f =>
        have hoff : switch? e = some (.off f) := by rw [switch?, hended]
        have hmem : Switch.off f ∈ switches (exchanged tries) := List.mem_filterMap.mpr ⟨e, he, hoff⟩
        rw [hons] at hmem
        obtain ⟨_, -, heq⟩ := List.mem_map.mp hmem
        cases heq
    · intro kind hkind
      rw [has_ofBackends] at hkind
      refine tried.gathers.reaches ?_ kind hkind
      intro k hk
      obtain ⟨rfl, -⟩ := has_initial.mp hk
      rfl

/-! ### A library that is missing -/

/-- A configuration that needs shared memory and the GPU service. -/
def unprivileged : Config := { execution := .gpuService, memory := .shared }

/-- The shared memory service starts, and then the library of the GPU service is found nowhere. -/
def startWithoutService : List (Exchange Linux) :=
  [⟨.fileExists poolDevice, false⟩, ⟨.fileExists ownMemoryDevice, true⟩,
    ⟨.openLibrary "/opt/vc/lib/libvcsm.so" loadFlags, .ok ⟨1⟩⟩] ++
  LibraryNeeds.sharedMemory.symbols.map (fun symbol => ⟨.findSymbol ⟨1⟩ symbol, .ok ()⟩) ++
  [⟨.sharedInit 0 (-1), (0 : Int32)⟩,
    ⟨.openLibrary "/opt/vc/lib/libbcm_host.so" loadFlags, .error "absent"⟩,
    ⟨.openLibrary "/usr/lib/arm-linux-gnueabihf/libbcm_host.so" loadFlags, .error "absent"⟩,
    ⟨.openLibrary "libbcm_host.so" loadFlags, .error "absent"⟩,
    ⟨.sharedExit, ()⟩, ⟨.closeLibrary ⟨1⟩, ()⟩]

theorem startWithoutService_happens : Yields (openSystem unprivileged) startWithoutService
    (.error (.library "libbcm_host.so" "absent")) :=
  .ask _ (.ask _ (.ask _ (.ask _ (.ask _ (.ask _ (.ask _ (.ask _ (.ask _ (.ask _ (.ask _ (.ask _
    (.ask _ (.ask _ (.ask _ (.ask _ (.ask _ (.done _)))))))))))))))))

theorem opening_all_or_nothing_sample :
    (∃ tries : List Try, (∀ t ∈ tries, t.Happens unprivileged) ∧
      ((∃ fault, (.error (.library "libbcm_host.so" "absent") : Except Fault (System × Links)) =
        .error fault) ↔ ∃ t ∈ tries, t.Fatal unprivileged) ∧
      Fails unprivileged tries startWithoutService (.library "libbcm_host.so" "absent")) ∧
    switches startWithoutService = [.on .sharedMemory, .off .sharedMemory] :=
  ⟨(opening_all_or_nothing unprivileged).2 _ _ startWithoutService_happens, rfl⟩

end VideoCore.Linux
