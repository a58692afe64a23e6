import VideoCore.Linux.Opening
import VideoCore.Proofs.Linux.Facilities

/-!
# Opening one backend

Every backend is opened in some steps, and each of them may fail. When one does, the backend undoes
the steps before it by itself, so a backend that could not be opened leaves nothing switched on
(`rolledBack_opener`), and one that was opened has switched on what its link stands for
(`opener_joins`).
-/

namespace VideoCore

namespace Config

/-- Whether a backend is opened. -/
def activates (c : Config) : BackendKind → Bool
  | .mailbox => c.activatesMailbox
  | .sharedMemory => c.activatesSharedMemory
  | .v3d => c.activatesV3d
  | .gpuService => c.activatesGpuService
  | .emulator => false

/-- Whether there is no system without a backend, once it is to be opened. -/
def dependsOn (c : Config) : BackendKind → Bool
  | .v3d => c.needsV3d
  | _ => true

end Config

namespace Linux

open Firmware
open Dialog (Transcript Spells)
open Trial (Yields yields_pure yields_throw yields_bind yields_map yields_lift_bind yields_ask
  yields_ask_discard)

variable {events : List (Exchange Linux)}

/-! ## What opening may ask -/

/-- The device that is opened for a backend. That of physical memory is opened for the registers. -/
def device? : BackendKind → Option String
  | .mailbox => some mailboxDevice
  | .v3d => some Hardware.memoryDevice
  | _ => none

/-- A request that opening a backend may make. It reaches no other backend and opens no other device,
and physical memory is mapped for the registers alone. -/
structure Opens (kind : BackendKind) (q : Request) : Prop where
  within : Within kind q
  device : q.device? = none ∨ q.device? = device? kind
  mapped : q.mapped? = none ∨ kind = .v3d

theorem Opens.ofNobody {kind : BackendKind} {q : Request} (h : q.backend? = none)
    (hdevice : q.device? = none) (hmapped : q.mapped? = none) : Opens kind q :=
  ⟨.inl h, .inl hdevice, .inl hmapped⟩

theorem Opens.ofBackend {kind : BackendKind} {q : Request} (h : q.backend? = some kind) :
    Opens kind q := by
  refine ⟨.inr h, .inl ?_, .inl ?_⟩
  all_goals
    cases q with
    | openDevice | mapFile => cases h
    | _ => rfl

/-! ## Libraries -/

/-- A request to the loader of libraries. -/
def Request.Loads : Request → Prop
  | .openLibrary _ _ | .findSymbol _ _ | .closeLibrary _ => True
  | _ => False

theorem Request.Loads.quiet {q : Request} (h : q.Loads) : ¬ q.Switches := by
  cases q with
  | openLibrary | findSymbol | closeLibrary => exact id
  | _ => exact h.elim

theorem Request.Loads.opens {q : Request} (h : q.Loads) (kind : BackendKind) : Opens kind q := by
  cases q with
  | openLibrary | findSymbol | closeLibrary => exact .ofNobody rfl rfl rfl
  | _ => exact h.elim

theorem openFirst_plain (paths : List String) (reason : Option String) :
    (openFirst paths reason).Plain Request.Loads := by
  induction paths generalizing reason with
  | nil => trivial
  | cons path rest ih =>
    refine ⟨trivial, fun opened => ?_⟩
    cases opened with
    | ok library => trivial
    | error reason => exact ih (some reason)

theorem findSymbols_plain (library : Library) (symbols : List String) :
    (findSymbols library symbols).Plain Request.Loads := by
  induction symbols with
  | nil => trivial
  | cons symbol rest ih =>
    refine ⟨trivial, fun found => ?_⟩
    cases found with
    | ok _ => exact ih
    | error reason => trivial

theorem loadLibrary_plain (needs : LibraryNeeds) : Trial.Plain Request.Loads (loadLibrary needs) := by
  have hopen : Trial.Plain Request.Loads (openLibrary needs.name) := by
    refine Trial.plain_bind (Trial.plain_lift (openFirst_plain _ _)) fun opened => ?_
    cases opened with
    | ok library => exact Trial.plain_pure _
    | error fromFolders =>
      refine Trial.plain_first trivial fun opened => ?_
      cases opened with
      | ok library => exact Trial.plain_pure _
      | error reason => exact Trial.plain_throw _
  refine Trial.plain_bind hopen fun library => ?_
  refine Trial.plain_bind (Trial.plain_lift (findSymbols_plain library _)) fun found => ?_
  cases found with
  | ok _ => exact Trial.plain_pure _
  | error reason => exact Trial.plain_first trivial fun _ => Trial.plain_throw _

theorem switches_loadLibrary {needs : LibraryNeeds} {r : Except Fault Library}
    (h : Yields (loadLibrary needs) events r) : switches events = [] := by
  apply switches_of_quiet
  intro e he
  exact ((loadLibrary_plain needs).run.of_transcript h e he).quiet

/-! ## Over links -/

/-- An attempt over links exchanges what its own exchanges come to. -/
theorem yields_tryAcross {α : Type} {links : Links} {attempt : Attempt α} {r : Except Fault α} :
    Yields (tryAcross links attempt) events r ↔
      ∃ spoken, Hardware.Performs attempt spoken r ∧ Spells (serve links) spoken events :=
  Dialog.transcript_via

/-- A part that is tried, with what follows for either end. -/
theorem yields_outcome_bind {α β : Type} {x : Opening α} {f : Except Fault α → Opening β}
    {r : Except Fault β} :
    Yields (outcome x >>= f) events r ↔
      ∃ first rest q, events = first ++ rest ∧ Yields x first q ∧ Yields (f q) rest r :=
  yields_lift_bind

/-! ## The mailbox -/

theorem openMailboxDevice_plain (path : String) :
    Trial.Plain (fun q : Request => q = .openDevice path false) (openMailboxDevice path) := by
  unfold openMailboxDevice
  split
  · exact Trial.plain_throw _
  · refine Trial.plain_first rfl fun opened => ?_
    cases opened with
    | ok file => exact Trial.plain_pure _
    | error cause => exact Trial.plain_throw _

theorem switches_openMailboxDevice {path : String} {r : Except Fault File}
    (h : Yields (openMailboxDevice path) events r) : switches events = [] := by
  apply switches_of_quiet
  intro e he
  rw [(openMailboxDevice_plain path).run.of_transcript h e he]
  exact id

/-- A mailbox that starts has switched the power on. One that does not start switches it off all the
same. -/
theorem switches_start {file : File} {r : Except Fault Unit}
    (h : Yields (tryAcross { mailbox := some file } Mailbox.start) events r) :
    (r = .ok () ∧ switches events = [.on (.power file)]) ∨
      ((∃ fault, r = .error fault) ∧ switches events = [.off (.power file)]) := by
  obtain ⟨spoken, hstart, hspelled⟩ := yields_tryAcross.mp h
  obtain ⟨reply, rest, rfl, hend⟩ := Mailbox.performs_start hstart
  cases hspelled with
  | cons hsent more =>
    obtain rfl := Trial.transcript_request.mp hsent
    rcases hend with ⟨rfl, haccepted, rfl⟩ | ⟨hr, hrefused, hstop⟩
    · cases more
      refine .inl ⟨rfl, ?_⟩
      rw [List.append_nil, switches_cons, switch?_powerOrder, haccepted]
      rfl
    · have hfault : ∃ fault, r = .error fault := by
        cases r with
        | ok _ => exact absurd rfl hr
        | error fault => exact ⟨fault, rfl⟩
      refine .inr ⟨hfault, ?_⟩
      have hup : ({ mailbox := true } : Backends).has .mailbox = true := rfl
      have hoff := switches_stop hup (Dialog.transcript_via.mpr ⟨rest, hstop, more⟩)
      rw [switches_append, hoff, switches_cons, switch?_powerOrder, hrefused]
      rfl

/-- The mailbox switches the power on if it can be opened. If not, it may have sent the order to
switch off. -/
theorem switches_openMailbox {r : Except Fault File} (h : Yields openMailbox events r) :
    (∃ file, r = .ok file ∧ switches events = [.on (.power file)]) ∨
      (∃ fault, r = .error fault) ∧
        (switches events = [] ∨ ∃ file, switches events = [.off (.power file)]) := by
  rcases yields_bind.mp h with ⟨fault, hdevice, rfl⟩ | ⟨opening, rest, file, rfl, hdevice, h⟩
  · exact .inr ⟨⟨fault, rfl⟩, .inl (switches_openMailboxDevice hdevice)⟩
  · rw [switches_append, switches_openMailboxDevice hdevice, List.nil_append]
    obtain ⟨q, hstart, rfl⟩ := yields_map.mp h
    rcases switches_start hstart with ⟨rfl, hon⟩ | ⟨⟨fault, rfl⟩, hoff⟩
    · exact .inl ⟨file, rfl, hon⟩
    · exact .inr ⟨⟨fault, rfl⟩, .inr ⟨file, hoff⟩⟩

/-! ## Shared memory -/

theorem switches_openSharedMemory {preferPool : Bool} {r : Except Fault (SharedMemory × Library)}
    (h : Yields (openSharedMemory preferPool) events r) :
    (∃ link, r = .ok link ∧ switches events = [.on .sharedMemory]) ∨
      (∃ fault, r = .error fault) ∧ switches events = [] := by
  obtain ⟨pool, afterPool, rfl, hpool⟩ := yields_ask.mp h
  obtain ⟨own, afterOwn, rfl, hown⟩ := yields_ask.mp hpool
  have hdevices : switches (⟨.fileExists poolDevice, pool⟩ :: ⟨.fileExists ownMemoryDevice, own⟩ ::
      afterOwn) = switches afterOwn := rfl
  rw [hdevices]
  cases hflavour : chooseFlavour preferPool pool own with
  | none =>
    simp only [hflavour] at hown
    obtain ⟨rfl, rfl⟩ := yields_throw.mp hown
    exact .inr ⟨⟨_, rfl⟩, rfl⟩
  | some usesPool =>
    simp only [hflavour] at hown
    rcases yields_bind.mp hown with ⟨fault, hload, rfl⟩ | ⟨loading, rest, library, rfl, hload, hinit⟩
    · exact .inr ⟨⟨fault, rfl⟩, switches_loadLibrary hload⟩
    rw [switches_append, switches_loadLibrary hload, List.nil_append]
    obtain ⟨status, afterInit, rfl, hstatus⟩ := yields_ask.mp hinit
    split at hstatus
    · next hrefused =>
      obtain ⟨closed, last, rfl, hclosed⟩ := yields_ask.mp hstatus
      obtain ⟨rfl, rfl⟩ := yields_throw.mp hclosed
      refine .inr ⟨⟨_, rfl⟩, ?_⟩
      rw [switches_cons, switch?_sharedInit, if_neg hrefused]
      rfl
    · next haccepted =>
      obtain ⟨rfl, rfl⟩ := yields_pure.mp hstatus
      refine .inl ⟨_, rfl, ?_⟩
      rw [switches_cons, switch?_sharedInit, if_pos (not_not.mp haccepted)]
      rfl

/-! ## The GPU service -/

/-- What is connected is disconnected again if the GPU service cannot be started on top of it. -/
theorem switches_connectGpuService {r : Except Fault Instance}
    (h : Yields connectGpuService events r) :
    (∃ service, r = .ok service ∧
        switches events = [.on (.messages service), .on .gpu, .on .interpreter]) ∨
      (∃ fault, r = .error fault) ∧
        (switches events = [] ∨
          ∃ service, switches events = [.on (.messages service), .off (.messages service)]) := by
  obtain ⟨⟨initialised, service⟩, afterInitialise, rfl, hinitialised⟩ := yields_ask.mp h
  rw [switches_cons]
  show (∃ service, _ ∧ switches afterInitialise = _) ∨
    _ ∧ (switches afterInitialise = [] ∨ ∃ service, switches afterInitialise = _)
  dsimp only at hinitialised
  split at hinitialised
  · obtain ⟨rfl, rfl⟩ := yields_throw.mp hinitialised
    exact .inr ⟨⟨_, rfl⟩, .inl rfl⟩
  obtain ⟨connected, afterConnect, rfl, hconnected⟩ := yields_ask.mp hinitialised
  rw [switches_cons, switch?_messagesConnect]
  split at hconnected
  · next hrefused =>
    obtain ⟨rfl, rfl⟩ := yields_throw.mp hconnected
    refine .inr ⟨⟨_, rfl⟩, .inl ?_⟩
    rw [if_neg hrefused]
    rfl
  next haccepted =>
  rw [if_pos (not_not.mp haccepted)]
  obtain ⟨started, afterStart, rfl, hstarted⟩ := yields_ask.mp hconnected
  rw [switches_cons, switch?_gpuInit]
  split at hstarted
  · next hrefused =>
    obtain ⟨disconnected, last, rfl, hlast⟩ := yields_ask_discard.mp hstarted
    obtain ⟨rfl, rfl⟩ := yields_throw.mp hlast
    refine .inr ⟨⟨_, rfl⟩, .inr ⟨service, ?_⟩⟩
    rw [if_neg hrefused]
    rfl
  · next haccepted =>
    obtain ⟨interpreting, last, rfl, hlast⟩ := yields_ask.mp hstarted
    obtain ⟨rfl, rfl⟩ := yields_pure.mp hlast
    refine .inl ⟨service, rfl, ?_⟩
    rw [if_pos (not_not.mp haccepted)]
    rfl

theorem switches_openGpuService {r : Except Fault (Library × Instance)}
    (h : Yields openGpuService events r) :
    (∃ library service, r = .ok (library, service) ∧
        switches events = [.on (.messages service), .on .gpu, .on .interpreter]) ∨
      (∃ fault, r = .error fault) ∧
        (switches events = [] ∨
          ∃ service, switches events = [.on (.messages service), .off (.messages service)]) := by
  rcases yields_bind.mp h with ⟨fault, hload, rfl⟩ | ⟨loading, rest, library, rfl, hload, hrest⟩
  · exact .inr ⟨⟨fault, rfl⟩, .inl (switches_loadLibrary hload)⟩
  rw [switches_append, switches_loadLibrary hload, List.nil_append]
  obtain ⟨connecting, last, connected, rfl, hconnect, hlast⟩ := yields_outcome_bind.mp hrest
  rcases switches_connectGpuService hconnect with ⟨service, rfl, hon⟩ | ⟨⟨fault, rfl⟩, hoff⟩
  · obtain ⟨rfl, rfl⟩ := yields_pure.mp hlast
    refine .inl ⟨library, service, rfl, ?_⟩
    rw [List.append_nil, hon]
  · obtain ⟨closed, none, rfl, hclosed⟩ := yields_ask.mp hlast
    obtain ⟨rfl, rfl⟩ := yields_throw.mp hclosed
    refine .inr ⟨⟨fault, rfl⟩, ?_⟩
    have hclosing : switches (connecting ++ [⟨.closeLibrary library, closed⟩]) =
        switches connecting := by
      rw [switches_append]
      exact List.append_nil _
    rw [hclosing]
    exact hoff

/-! ## Every backend -/

/-- Opens a backend, to be added to those that are open. -/
def opener (c : Config) : BackendKind → Opening (Opened → Opened)
  | .mailbox => do
    let file ← openMailbox
    return fun o =>
      { backends := { o.backends with mailbox := true },
        links := { o.links with mailbox := some file } }
  | .sharedMemory => do
    let link ← openSharedMemory (c.memory == .sharedPool)
    return fun o =>
      { backends := { o.backends with sharedMemory := some link.1 },
        links := { o.links with sharedMemory := some link.2 } }
  | .v3d => do
    let block ← openV3d
    return fun o =>
      { backends := { o.backends with v3d := some {} },
        links := { o.links with registers := some block } }
  | .gpuService => do
    let link ← openGpuService
    return fun o =>
      { backends := { o.backends with gpuService := some {} },
        links := { o.links with gpuService := some link } }
  | .emulator => return id

section Opener

variable {c : Config} {kind : BackendKind}

theorem loadLibrary_opens (needs : LibraryNeeds) (kind : BackendKind) :
    Trial.Plain (Opens kind) (loadLibrary needs) :=
  (loadLibrary_plain needs).imp fun _ h => h.opens kind

theorem start_plain {allowed : Hardware.Request → Prop} (horder : ∀ m, allowed (.property m))
    (hreport : ∀ d, allowed (.report d)) (hretire : allowed (.retire .mailbox)) :
    Trial.Plain allowed Mailbox.start := by
  have hswitch : Trial.Plain allowed (Mailbox.enableQpus true) := by
    refine Trial.plain_map (Trial.plain_map (Trial.plain_map ?_))
    refine Trial.plain_first (horder _) fun reply => ?_
    cases reply with
    | error cause => exact Trial.plain_throw _
    | ok words => exact Trial.plain_pure _
  have hstop : Mailbox.stop.Plain allowed := Mailbox.stop_plain horder hreport hretire
  refine Trial.plain_bind (Hardware.plain_outcome hswitch) fun answer => ?_
  rcases answer with fault | _ | _
  · exact Trial.plain_bind (Trial.plain_lift hstop) fun _ => Trial.plain_throw _
  · exact Trial.plain_bind (Trial.plain_lift hstop) fun _ => Trial.plain_throw _
  · exact Trial.plain_pure _

/-- What is asked of a backend without mapping memory stays with it on the machine. -/
theorem Serves.opens {kind : BackendKind} {q : Hardware.Request} {w : Request} (h : Serves q w)
    (hwithin : Hardware.Within kind q) (hmapped : q.mapped? = none) : Opens kind w where
  within := h.within hwithin
  device := h.device.imp_right fun hdevice => absurd hmapped hdevice.1
  mapped := by
    have hnone := h.mapped
    rw [hmapped, or_self] at hnone
    exact .inl hnone

theorem openMailbox_plain : Trial.Plain (Opens .mailbox) openMailbox := by
  have hdevice : Trial.Plain (Opens .mailbox) (openMailboxDevice mailboxDevice) := by
    refine (openMailboxDevice_plain _).imp ?_
    rintro q rfl
    exact ⟨.inl rfl, .inr rfl, .inl rfl⟩
  refine Trial.plain_bind hdevice fun file => ?_
  have hstart : Trial.Plain
      (fun q : Hardware.Request => Hardware.Within .mailbox q ∧ q.mapped? = none) Mailbox.start :=
    start_plain (fun _ => ⟨.inr rfl, rfl⟩) (fun _ => ⟨.inl rfl, rfl⟩) ⟨.inr rfl, rfl⟩
  refine Trial.plain_map ⟨Dialog.Plain.via hstart.run fun q hq => ?_⟩
  exact (serve_serves _ q).imp fun w hw => hw.opens hq.1 hq.2

theorem openSharedMemory_plain (preferPool : Bool) :
    Trial.Plain (Opens .sharedMemory) (openSharedMemory preferPool) := by
  refine Trial.plain_first (.ofNobody rfl rfl rfl) fun pool => ?_
  refine Trial.plain_first (.ofNobody rfl rfl rfl) fun own => ?_
  dsimp only
  split
  · exact Trial.plain_throw _
  · refine Trial.plain_bind (loadLibrary_opens _ _) fun library => ?_
    refine Trial.plain_first (.ofBackend rfl) fun status => ?_
    split
    · exact Trial.plain_first (.ofNobody rfl rfl rfl) fun _ => ⟨trivial⟩
    · exact Trial.plain_pure _

/-- Mapping the registers switches nothing. -/
theorem openV3d_plain : Trial.Plain (fun q : Request => Opens .v3d q ∧ ¬ q.Switches) openV3d := by
  have hload : Trial.Plain (fun q : Request => Opens .v3d q ∧ ¬ q.Switches) (loadLibrary .chip) :=
    (loadLibrary_plain .chip).imp fun _ h => ⟨h.opens .v3d, h.quiet⟩
  refine Trial.plain_bind hload fun library => ?_
  refine Trial.plain_first ⟨.ofBackend rfl, id⟩ fun peripherals => ?_
  have hmap : Trial.Plain (fun q : Request => Opens .v3d q ∧ ¬ q.Switches)
      (tryAcross {} (Hardware.mapPhysical (peripherals + V3d.blockOffset) V3d.blockLength)) := by
    have huses : Trial.Plain (Hardware.Works .v3d)
        (Hardware.mapPhysical (peripherals + V3d.blockOffset) V3d.blockLength) :=
      Mailbox.mapPhysical_works _ _
    refine ⟨Dialog.Plain.via huses.run fun q hq => ?_⟩
    refine (serve_serves _ q).imp fun w hw => ⟨⟨hw.within hq.within, ?_, .inr rfl⟩, hw.inUse hq.inUse⟩
    exact hw.device.imp_right And.right
  refine Trial.plain_bind (Trial.plain_lift hmap.run) fun mapped => ?_
  exact Trial.plain_first ⟨.ofNobody rfl rfl rfl, id⟩ fun _ => ⟨trivial⟩

theorem openGpuService_plain : Trial.Plain (Opens .gpuService) openGpuService := by
  have hconnect : Trial.Plain (Opens .gpuService) connectGpuService := by
    refine Trial.plain_first (.ofBackend rfl) fun initialised => ?_
    dsimp only
    split
    · exact ⟨trivial⟩
    refine Trial.plain_first (.ofBackend rfl) fun connected => ?_
    split
    · exact ⟨trivial⟩
    refine Trial.plain_first (.ofBackend rfl) fun started => ?_
    split
    · have hdisconnect : (ask (.messagesDisconnect initialised.2)).Plain (Opens .gpuService) :=
        Trial.plain_request (.ofBackend rfl)
      exact Trial.plain_bind (Trial.plain_discard (Trial.plain_lift hdisconnect)) fun _ => ⟨trivial⟩
    · exact Trial.plain_first (.ofBackend rfl) fun _ => Trial.plain_pure _
  refine Trial.plain_bind (loadLibrary_opens _ _) fun library => ?_
  refine Trial.plain_bind (Trial.plain_lift hconnect.run) fun connected => ?_
  cases connected with
  | ok service => exact Trial.plain_pure _
  | error fault => exact Trial.plain_first (.ofNobody rfl rfl rfl) fun _ => Trial.plain_throw _

/-- Opening a backend reaches no other, and opens and maps only what is its own. -/
theorem opener_plain (c : Config) (kind : BackendKind) :
    Trial.Plain (Opens kind) (opener c kind) := by
  cases kind with
  | mailbox => exact Trial.plain_map openMailbox_plain
  | sharedMemory => exact Trial.plain_map (openSharedMemory_plain _)
  | v3d => exact Trial.plain_map (openV3d_plain.imp fun _ h => h.1)
  | gpuService => exact Trial.plain_map openGpuService_plain
  | emulator => exact Trial.plain_pure _

/-- There is a link to a backend. The emulator needs none. -/
def Reaches (links : Links) : BackendKind → Bool
  | .mailbox => links.mailbox.isSome
  | .v3d => links.registers.isSome
  | .sharedMemory => links.sharedMemory.isSome
  | .gpuService => links.gpuService.isSome
  | .emulator => true

/-- A backend has been added to those that are open: it is up and there is a link to it, what was
switched on is what the link stands for, and the other backends are as they were. -/
structure Joins (kind : BackendKind) (events : List (Exchange Linux)) (o o' : Opened) : Prop where
  has : ∀ k, o'.backends.has k = (o.backends.has k || k == kind)
  reaches : ∀ k, Reaches o'.links k = (Reaches o.links k || k == kind)
  switched : switches events = (facilities o'.links kind).map .on
  others : ∀ k, k ≠ kind → facilities o'.links k = facilities o.links k

/-- Mapping the registers switches nothing, whether or not it succeeds. -/
theorem switches_openV3d {r : Except Fault HostAddress} (h : Yields openV3d events r) :
    switches events = [] := by
  apply switches_of_quiet
  intro e he
  exact (openV3d_plain.run.of_transcript h e he).2

/-- A backend that was opened can be added to any that are open. -/
theorem opener_joins {add : Opened → Opened} (hkind : kind ≠ .emulator)
    (h : Yields (opener c kind) events (.ok add)) (o : Opened) : Joins kind events o (add o) := by
  cases kind with
  | emulator => exact absurd rfl hkind
  | mailbox =>
    obtain ⟨q, hopen, hq⟩ := yields_map.mp h
    rcases switches_openMailbox hopen with ⟨file, rfl, hon⟩ | ⟨⟨fault, rfl⟩, -⟩
    · cases hq
      constructor
      case switched => exact hon
      all_goals intro k; cases k <;> simp [Backends.has, Reaches, facilities]
    · cases hq
  | sharedMemory =>
    obtain ⟨q, hopen, hq⟩ := yields_map.mp h
    rcases switches_openSharedMemory hopen with ⟨link, rfl, hon⟩ | ⟨⟨fault, rfl⟩, -⟩
    · cases hq
      constructor
      case switched => exact hon
      all_goals intro k; cases k <;> simp [Backends.has, Reaches, facilities]
    · cases hq
  | v3d =>
    obtain ⟨q, hopen, hq⟩ := yields_map.mp h
    cases q with
    | error fault => cases hq
    | ok block =>
      cases hq
      constructor
      case switched => exact switches_openV3d hopen
      all_goals intro k; cases k <;> simp [Backends.has, Reaches, facilities]
  | gpuService =>
    obtain ⟨q, hopen, hq⟩ := yields_map.mp h
    rcases switches_openGpuService hopen with ⟨library, service, rfl, hon⟩ | ⟨⟨fault, rfl⟩, -⟩
    · cases hq
      constructor
      case switched => exact hon
      all_goals intro k; cases k <;> simp [Backends.has, Reaches, facilities]
    · cases hq

/-- A backend that could not be opened leaves nothing switched on. -/
theorem rolledBack_opener {fault : Fault} (h : Yields (opener c kind) events (.error fault)) :
    RolledBack (switches events) := by
  cases kind with
  | emulator => cases (yields_pure.mp h).2
  | mailbox =>
    obtain ⟨q, hopen, hq⟩ := yields_map.mp h
    rcases switches_openMailbox hopen with ⟨file, rfl, -⟩ | ⟨-, hnone | ⟨file, hoff⟩⟩
    · cases hq
    · rw [hnone]
      exact rolledBack_nil
    · rw [hoff]
      exact rolledBack_off _
  | sharedMemory =>
    obtain ⟨q, hopen, hq⟩ := yields_map.mp h
    rcases switches_openSharedMemory hopen with ⟨link, rfl, -⟩ | ⟨-, hnone⟩
    · cases hq
    · rw [hnone]
      exact rolledBack_nil
  | v3d =>
    obtain ⟨q, hopen, -⟩ := yields_map.mp h
    rw [switches_openV3d hopen]
    exact rolledBack_nil
  | gpuService =>
    obtain ⟨q, hopen, hq⟩ := yields_map.mp h
    rcases switches_openGpuService hopen with ⟨library, service, rfl, -⟩ | ⟨-, hnone | ⟨service, hboth⟩⟩
    · cases hq
    · rw [hnone]
      exact rolledBack_nil
    · rw [hboth]
      exact rolledBack_on_off _

/-- A backend that is not depended on switches nothing. -/
theorem switches_opener_spared {q : Except Fault (Opened → Opened)} (hspared : c.dependsOn kind = false)
    (h : Yields (opener c kind) events q) : switches events = [] := by
  cases kind with
  | v3d =>
    obtain ⟨q, hopen, -⟩ := yields_map.mp h
    exact switches_openV3d hopen
  | _ => cases hspared

end Opener

end Linux

end VideoCore
