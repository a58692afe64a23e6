import VideoCore.Proofs.Linux.Opening
import VideoCore.Proofs.System.Absence

/-!
# Backends that are switched off

For every backend of the hardware there is a variable by which the user switches it off. `Spared` says
what that ought to come to in all that is exchanged with the machine: nothing reaches the backend, and
the way to it is not opened either. That holds for the opening of a system whatever else its
configuration selects (`opening_spares`), so it holds for the system of the process (`get_spares`).

The registers have no request of their own once they are mapped, and physical memory is mapped for the
buffers of the mailbox as well. What is mapped with the registers switched off is memory that the
firmware has locked for a buffer (`MapsBuffers`).
-/

namespace VideoCore

namespace Config

/-- Whether a backend is switched off. -/
def disables (c : Config) : BackendKind → Bool
  | .mailbox => c.disableMailbox
  | .v3d => c.disableV3d
  | .sharedMemory => c.disableSharedMemory
  | .gpuService => c.disableGpuService
  | .emulator => false

/-- The setting that switches a backend off. -/
def disabling? : BackendKind → Option Setting
  | .mailbox => some .noMailbox
  | .v3d => some .noV3d
  | .sharedMemory => some .noSharedMemory
  | .gpuService => some .noGpuService
  | .emulator => none

variable {c : Config} {kind : BackendKind}

/-- Nothing that is selected activates a backend that is switched off. -/
theorem activates_of_disables (h : c.disables kind = true) : c.activates kind = false := by
  cases kind with
  | emulator => rfl
  | _ =>
    simp only [disables] at h
    simp [activates, activatesMailbox, activatesV3d, activatesSharedMemory, activatesGpuService, h]

theorem activates_of_emulated (h : c.emulated = true) : c.activates kind = false := by
  cases kind with
  | emulator => rfl
  | _ => simp [activates, activatesMailbox, activatesV3d, activatesSharedMemory, activatesGpuService, h]

theorem disables_ofEnvironment {setting : Setting} (h : disabling? kind = some setting)
    (privileged : Bool) (env : Environment) :
    (ofEnvironment privileged env).1.disables kind = flag env setting := by
  cases kind with
  | emulator => cases h
  | _ =>
    cases h
    rfl

end Config

namespace Linux

open Firmware
open Dialog (Transcript Ensures Spells)
open Trial (Yields)

variable {c : Config} {kind : BackendKind} {links : Links}
variable {events first rest : List (Exchange Linux)}

/-! ## Backends that are left alone -/

/-- The firmware locks a buffer at a physical address. -/
def Locks (address : UInt32) (e : Exchange Linux) : Prop :=
  ∃ (file : File) (handle : UInt32) (answer : Vector UInt32 _) (bus : BusAddress),
    e = ⟨.propertyCall file (.ofRequest .lockMemory [handle] 1), .ok answer⟩ ∧
      Mailbox.answerOf _ (.ok answer) = bus.value ∧ bus.physical = address

/-- Physical memory is mapped only where the firmware has locked a buffer. -/
abbrev MapsBuffers (events : List (Exchange Linux)) : Prop := MapsLocked Request.mapped? Locks events

/-- A backend is left alone. Nothing reaches it, the device of the mailbox is not opened, and the
registers are not mapped. -/
structure Spared (kind : BackendKind) (events : List (Exchange Linux)) : Prop where
  unreached : ∀ e ∈ events, e.request.backend? ≠ some kind
  unopened : kind = .mailbox → ∀ e ∈ events, e.request.device? ≠ some mailboxDevice
  unmapped : kind = .v3d → MapsBuffers events

theorem spared_nil : Spared kind [] :=
  ⟨List.forall_mem_nil _, fun _ => List.forall_mem_nil _, fun _ => mapsLocked_nil⟩

theorem Spared.append (h : Spared kind first) (k : Spared kind rest) : Spared kind (first ++ rest) where
  unreached := List.forall_mem_append.mpr ⟨h.unreached, k.unreached⟩
  unopened hkind := List.forall_mem_append.mpr ⟨h.unopened hkind, k.unopened hkind⟩
  unmapped hkind := (h.unmapped hkind).append (k.unmapped hkind)

/-- What is nobody's, opens no device and maps nothing leaves every backend alone. -/
theorem spared_of_nobody (h : ∀ e ∈ events, e.request.backend? = none)
    (hdevice : ∀ e ∈ events, e.request.device? = none)
    (hmapped : ∀ e ∈ events, e.request.mapped? = none) : Spared kind events where
  unreached e he hkind := by
    rw [h e he] at hkind
    cases hkind
  unopened _ e he hopens := by
    rw [hdevice e he] at hopens
    cases hopens
  unmapped _ := mapsLocked_of_none hmapped

/-- Opening a backend leaves the others alone. -/
theorem spared_of_opens {other : BackendKind} (hne : other ≠ kind)
    (h : ∀ e ∈ events, Opens other e.request) : Spared kind events where
  unreached e he hkind := hne ((h e he).within.eq hkind)
  unopened hkind e he hopens := by
    subst hkind
    rcases (h e he).device with hnone | hsome
    · rw [hnone] at hopens
      cases hopens
    · rw [hsome] at hopens
      cases other with
      | mailbox => exact hne rfl
      | v3d => exact absurd hopens (by decide)
      | sharedMemory | gpuService | emulator => cases hopens
  unmapped hkind := by
    subst hkind
    exact mapsLocked_of_none fun e he => (h e he).mapped.resolve_right hne

/-! ## Over links -/

/-- Memory that is mapped for a buffer among the backends is mapped for it on the machine. -/
theorem mapsBuffers_of_spells {spoken : List (Exchange Hardware)} (h : Hardware.MapsBuffers spoken)
    (hspelled : Spells (serve links) spoken events) : MapsBuffers events := by
  have hasked : ∀ w ∈ events, ∀ address, w.request.mapped? = some address →
      ∃ e ∈ spoken, e.request.mapped? = some address := by
    refine hspelled.forall_mem ?_
    intro e he words hwords w hw address hmapped
    rcases ((serve_serves links e.request).of_transcript hwords w hw).mapped with hnone | hsame
    · rw [hnone] at hmapped
      cases hmapped
    · exact ⟨e, he, hsame.symm.trans hmapped⟩
  intro w hw address hmapped
  obtain ⟨e, he, hmaps⟩ := hasked w hw address hmapped
  obtain ⟨lock, hlock, handle, answer, bus, rfl, hanswer, hbus⟩ := h e he address hmaps
  obtain ⟨words, hwords, hmem⟩ := hspelled.words_of_mem hlock
  -- the firmware answered, so there is a link to the mailbox
  cases hlink : links.mailbox with
  | none =>
    simp only [Mailbox.trip, serve, hlink] at hwords
    cases (Dialog.transcript_done.mp hwords).2
  | some file =>
    simp only [Mailbox.trip, serve, hlink] at hwords
    obtain rfl := Trial.transcript_request.mp hwords
    exact ⟨_, hmem _ List.mem_cons_self, file, handle, answer, bus, rfl, hanswer, hbus⟩

/-- Over links a backend that is not up is left alone. The device of the mailbox is not opened there. -/
theorem spared_of_spells {b : Backends} {spoken : List (Exchange Hardware)}
    (h : Hardware.KeepsTo b spoken) (hspelled : Spells (serve links) spoken events)
    (habsent : b.has kind = false) : Spared kind events where
  unreached := by
    refine hspelled.forall_mem ?_
    intro e he words hwords w hw hkind
    rcases ((serve_serves links e.request).of_transcript hwords w hw).backend with hnone | hsame
    · rw [hnone] at hkind
      cases hkind
    · rw [h.reached e he kind (hsame.symm.trans hkind)] at habsent
      cases habsent
  unopened _ := by
    refine hspelled.forall_mem ?_
    intro e he words hwords w hw hopens
    rcases ((serve_serves links e.request).of_transcript hwords w hw).device with hnone | ⟨-, hsome⟩
    · rw [hnone] at hopens
      cases hopens
    · rw [hsome] at hopens
      exact absurd hopens (by decide)
  unmapped _ := mapsBuffers_of_spells h.mapped hspelled

theorem across_keeps {α : Type} {access : Access α} {b : Backends} {post : α → Prop}
    (h : Ensures (Hardware.KeepsTo b) post access) (links : Links) :
    Ensures (fun events => ∀ kind, b.has kind = false → Spared kind events) post
      (across links access) where
  plain := h.plain.via fun q _ => (serve_serves links q).imp fun _ _ => trivial
  all t := by
    obtain ⟨spoken, hspoken, hspelled⟩ := Dialog.transcript_via.mp t
    obtain ⟨hkeeps, hpost⟩ := h.all hspoken
    exact ⟨fun kind habsent => spared_of_spells hkeeps hspelled habsent, hpost⟩

/-! ## Opening -/

theorem exchanged_spares {tries : List Try} (happens : ∀ t ∈ tries, t.Happens c)
    (h : kind ∉ tries.map Try.kind) : Spared kind (exchanged tries) := by
  induction tries with
  | nil => exact spared_nil
  | cons t tries ih =>
    obtain ⟨hfirst, hrest⟩ := List.forall_mem_cons.mp happens
    obtain ⟨hne, hnone⟩ := not_or.mp (List.mem_cons.not.mp h)
    rw [exchanged, List.flatMap_cons]
    exact (spared_of_opens (Ne.symm hne) hfirst.opens).append (ih hrest hnone)

/-- Opening a system leaves every backend alone that its configuration does not activate, also when the
system is given up. -/
theorem opening_spares {result : Except Fault (System × Links)} (h : Yields (openSystem c) events result)
    (hidle : c.activates kind = false) : Spared kind events := by
  have hpassed : kind ∉ openingOrder.filter c.activates := by
    simp [List.mem_filter, hidle]
  obtain ⟨r, course, -⟩ := opening_course h
  cases course with
  | complete order tried =>
    rw [← order] at hpassed
    exact exchanged_spares tried.happens hpassed
  | @abandoned earlier last later fault o undoing order tried happens needed failed new undone =>
    have hhappens : ∀ t ∈ earlier ++ [last], t.Happens c := by
      simpa [or_imp, forall_and] using And.intro tried.happens happens
    have huntried : kind ∉ (earlier ++ [last]).map Try.kind := by
      intro hmem
      apply hpassed
      rw [← order]
      simp only [List.map_append, List.map_cons, List.map_nil, List.mem_append, List.mem_cons,
        List.not_mem_nil, or_false] at hmem ⊢
      tauto
    have hundone : Spared kind undoing := by
      have hundoes := (abandon_plain o).of_transcript undone
      refine ⟨?_, fun _ => ?_, fun _ => ?_⟩
      · intro e he
        exact untouched_of_abandoned hhappens tried.gathers undone huntried (List.mem_append_right _ he)
      · intro e he hopens
        rw [(hundoes e he).givesUp.device?] at hopens
        cases hopens
      · exact mapsLocked_of_none fun e he => (hundoes e he).givesUp.mapped?
    have hall : exchanged earlier ++ (last.events ++ undoing) =
        exchanged (earlier ++ [last]) ++ undoing := by
      simp [exchanged]
    rw [hall]
    exact (exchanged_spares hhappens huntried).append hundone

/-- A system has no backend that its configuration does not activate. -/
theorem absent_of_opening {system : System} (h : Yields (openSystem c) events (.ok (system, links)))
    (hidle : c.activates kind = false) (hkind : kind ≠ .emulator) :
    system.config = c ∧ system.backends.has kind = false := by
  obtain ⟨r, course, hr⟩ := opening_course h
  cases course with
  | abandoned => cases hr
  | @complete tries o order tried =>
    cases hr
    refine ⟨rfl, ?_⟩
    rw [has_ofBackends, Bool.eq_false_iff]
    intro hup
    rcases tried.gathers.has_iff.mp hup with hinitial | ⟨t, ht, rfl, -⟩
    · exact hkind (has_initial.mp hinitial).1
    · have hactive : t.kind ∈ openingOrder.filter c.activates := order ▸ List.mem_map_of_mem ht
      rw [(List.mem_filter.mp hactive).2] at hidle
      cases hidle

/-! ## The environment -/

/-- The variable that switches a backend off is on, wherever it is read. -/
def SwitchedOff (kind : BackendKind) (events : List (Exchange Linux)) : Prop :=
  ∃ setting, Config.disabling? kind = some setting ∧
    ∀ value : Option ByteArray, ⟨.environment setting.variableName, value⟩ ∈ events →
      (value.bind String.fromUTF8?).any Config.turnsOn = true

theorem SwitchedOff.left (h : SwitchedOff kind (first ++ rest)) : SwitchedOff kind first := by
  obtain ⟨setting, hsetting, hon⟩ := h
  exact ⟨setting, hsetting, fun value hvalue => hon value (List.mem_append_left _ hvalue)⟩

theorem SwitchedOff.ne_emulator (h : SwitchedOff kind events) : kind ≠ .emulator := by
  rintro rfl
  obtain ⟨setting, hsetting, -⟩ := h
  cases hsetting

/-- A request that only looks at the process and its environment. -/
def Request.Looks : Request → Prop
  | .environment _ | .effectiveUser => True
  | _ => False

theorem spared_of_looks (h : ∀ e ∈ events, e.request.Looks) : Spared kind events := by
  have hnobody : ∀ {q : Request}, q.Looks → q.backend? = none ∧ q.device? = none ∧ q.mapped? = none := by
    intro q hq
    cases q with
    | environment | effectiveUser => exact ⟨rfl, rfl, rfl⟩
    | _ => exact hq.elim
  exact spared_of_nobody (fun e he => (hnobody (h e he)).1) (fun e he => (hnobody (h e he)).2.1)
    fun e he => (hnobody (h e he)).2.2

theorem readVariables_plain (names : List String) : (readVariables names).Plain Request.Looks := by
  induction names with
  | nil => trivial
  | cons name rest ih => exact ⟨trivial, fun _ => ih.bind fun _ => trivial⟩

theorem readConfig_plain : readConfig.Plain Request.Looks :=
  ⟨trivial, fun _ => (readVariables_plain _).bind fun _ => trivial⟩

/-- The first of some variables has the value that was told for it, if that is a text, and the others
have theirs. -/
theorem transcript_readVariables_cons {first : String} {names : List String}
    {values : List (String × String)} (h : Transcript (readVariables (first :: names)) events values) :
    ∃ (told : Option ByteArray) (more : List (Exchange Linux)) (others : List (String × String)),
      events = ⟨.environment first, told⟩ :: more ∧ Transcript (readVariables names) more others ∧
        values.lookup first = (told.bind String.fromUTF8?).or (others.lookup first) ∧
        ∀ name, name ≠ first → values.lookup name = others.lookup name := by
  obtain ⟨told, more, rfl, hmore⟩ := Dialog.transcript_ask.mp h
  obtain ⟨others, hothers, rfl⟩ := Dialog.transcript_map.mp hmore
  refine ⟨told, more, others, rfl, hothers, ?_⟩
  cases told.bind String.fromUTF8? with
  | none => exact ⟨rfl, fun _ _ => rfl⟩
  | some text =>
    refine ⟨List.lookup_cons_self, fun name hname => ?_⟩
    show List.lookup name ((first, text) :: others) = others.lookup name
    rw [List.lookup_cons, beq_eq_false_iff_ne.mpr hname]

theorem lookup_unread {names : List String} {values : List (String × String)} {name : String}
    (h : Transcript (readVariables names) events values) (hname : name ∉ names) :
    values.lookup name = none := by
  induction names generalizing events values with
  | nil =>
    obtain ⟨-, rfl⟩ := Dialog.transcript_done.mp h
    rfl
  | cons first names ih =>
    obtain ⟨hne, hrest⟩ := not_or.mp (List.mem_cons.not.mp hname)
    obtain ⟨told, more, others, -, hothers, -, hlookup⟩ := transcript_readVariables_cons h
    rw [hlookup name hne]
    exact ih hothers hrest

/-- A variable that is read has the value that was told for it, if that is a text. -/
theorem lookup_read {names : List String} {values : List (String × String)} {name : String}
    (hnodup : names.Nodup) (h : Transcript (readVariables names) events values) (hname : name ∈ names) :
    ∃ told : Option ByteArray, ⟨.environment name, told⟩ ∈ events ∧
      values.lookup name = told.bind String.fromUTF8? := by
  induction names generalizing events values with
  | nil => cases hname
  | cons first names ih =>
    obtain ⟨hfirst, hnodup⟩ := List.nodup_cons.mp hnodup
    obtain ⟨told, more, others, rfl, hothers, htold, hlookup⟩ := transcript_readVariables_cons h
    rcases List.mem_cons.mp hname with rfl | hrest
    · refine ⟨told, List.mem_cons_self, ?_⟩
      rw [htold, lookup_unread hothers hfirst, Option.or_none]
    · have hne : name ≠ first := fun hsame => hfirst (hsame ▸ hrest)
      obtain ⟨later, hlater, htext⟩ := ih hnodup hothers hrest
      exact ⟨later, List.mem_cons_of_mem _ hlater, (hlookup name hne).trans htext⟩

/-- A flag of the configuration is on if the value that was told for its variable turns it on. -/
theorem flag_of_readConfig {warnings : List Config.Warning} (setting : Config.Setting)
    (h : Transcript readConfig events (c, warnings)) :
    ∃ (privileged : Bool) (env : Config.Environment) (told : Option ByteArray),
      c = (Config.ofEnvironment privileged env).1 ∧
      ⟨.environment setting.variableName, told⟩ ∈ events ∧
      Config.flag env setting = (told.bind String.fromUTF8?).any Config.turnsOn := by
  obtain ⟨user, more, rfl, hmore⟩ := Dialog.transcript_ask.mp h
  obtain ⟨values, hvalues, hconfig⟩ := Dialog.transcript_map.mp hmore
  obtain ⟨told, htold, hlookup⟩ := lookup_read Config.Setting.nodup_variableNames hvalues
    (List.mem_map_of_mem (Config.Setting.mem_all setting))
  refine ⟨user == privilegedUser, fun name => values.lookup name, told, congrArg Prod.fst hconfig,
    List.mem_cons_of_mem _ htold, ?_⟩
  rw [Config.flag, hlookup]

/-- A backend that is switched off by its variable is switched off in the configuration. -/
theorem disables_of_readConfig {warnings : List Config.Warning} (hoff : SwitchedOff kind events)
    (h : Transcript readConfig events (c, warnings)) : c.disables kind = true := by
  obtain ⟨setting, hsetting, hon⟩ := hoff
  obtain ⟨privileged, env, told, rfl, htold, hflag⟩ := flag_of_readConfig setting h
  rw [Config.disables_ofEnvironment hsetting, hflag]
  exact hon told htold

/-- The system of the process leaves a backend alone that is switched off. -/
theorem get_spares {s s' : SharedSystem} {result : Except Fault (System × Links)}
    (hoff : SwitchedOff kind events) (h : Transcript s.get events (result, s')) : Spared kind events := by
  unfold SharedSystem.get at h
  split at h
  · obtain ⟨rfl, -⟩ := Dialog.transcript_done.mp h
    exact spared_nil
  · obtain ⟨reading, more, ⟨c, warnings⟩, rfl, hreading, hmore⟩ := Dialog.transcript_bind.mp h
    obtain ⟨opening, last, r, rfl, hopening, hlast⟩ := Dialog.transcript_bind.mp hmore
    obtain ⟨rfl, -⟩ := Dialog.transcript_done.mp hlast
    have hidle := Config.activates_of_disables (disables_of_readConfig hoff.left hreading)
    rw [List.append_nil]
    exact (spared_of_looks (readConfig_plain.of_transcript hreading)).append
      (opening_spares hopening hidle)

theorem get_plain (s : SharedSystem) : s.get.Plain fun _ => True := by
  unfold SharedSystem.get
  split
  · trivial
  · refine (readConfig_plain.imp fun _ _ => trivial).bind fun read => ?_
    exact (openSystem_plain read.1).run.bind fun _ => trivial

end Linux

end VideoCore
