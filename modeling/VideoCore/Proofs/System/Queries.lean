import VideoCore.Proofs.Mailbox.MemoryProtocol
import VideoCore.Proofs.SharedMemory.Balance
import VideoCore.Proofs.SharedMemory.PoolSize
import VideoCore.Proofs.System.Readings

/-!
# Queries of a system

A system that is not emulated puts a query to the backends that are up, in a fixed order, until one of
them has an answer. `QueriesSurvive` says what that comes to, whatever goes wrong with which backend. The
answer is that of the first backend that has one, and no backend behind it is asked. A backend without
an answer is passed over as if it were not there. A query always comes back, and nothing is asked by
which a buffer or a job could change.

What it takes for a backend to have an answer is said by `Backends.Reads`.

There is one thing that a query does not get over. The size of the pool of shared memory is a product of
words, and where the memory report lists more than 64 bits can hold, that product overflows: a program
whose arithmetic is checked ends there, and any other takes the low bits for the size.
-/

namespace VideoCore

open Firmware Hardware
open Dialog (Transcript)

variable {b : Backends} {q : SystemQuery} {kind : BackendKind} {events : List (Exchange Hardware)}
  {answer : Option UInt32}

/-! ## One backend after the other -/

namespace Backends

/-- Every way in which a backend that is up can be asked a query: what is exchanged, and the answer. -/
def Reads (b : Backends) (q : SystemQuery) :
    BackendKind → List (Exchange Hardware) → Option UInt32 → Prop
  | .sharedMemory, events, answer => ∃ s, b.sharedMemory = some s ∧ s.Reads q events answer
  | .v3d, events, answer => b.has .v3d = true ∧ V3d.Reads q events answer
  | .gpuService, events, answer => b.has .gpuService = true ∧ GpuService.Reads q events answer
  | .mailbox, events, answer => b.has .mailbox = true ∧ Mailbox.Reads q events answer
  | .emulator, _, _ => False

/-- The backends of the hardware that are up, in the order in which they are asked. -/
def queryOrder (b : Backends) : List BackendKind :=
  [.sharedMemory, .v3d, .gpuService, .mailbox].filter b.has

/-- Some backends are asked one after the other, and none of them has an answer. -/
inductive Passed (b : Backends) (q : SystemQuery) :
    List BackendKind → List (Exchange Hardware) → Prop where
  | nobody : Passed b q [] []
  | next {kind : BackendKind} {rest : List BackendKind} {part more : List (Exchange Hardware)}
      (hpart : b.Reads q kind part none) (hmore : Passed b q rest more) :
      Passed b q (kind :: rest) (part ++ more)

/-- The backends without one of them. -/
def without (b : Backends) : BackendKind → Backends
  | .mailbox => { b with mailbox := false }
  | .v3d => { b with v3d := none }
  | .sharedMemory => { b with sharedMemory := none }
  | .gpuService => { b with gpuService := none }
  | .emulator => { b with emulator := none }

/-- A query as it is put to one backend. -/
def reading (b : Backends) (q : SystemQuery) : BackendKind → Access (Option UInt32)
  | .sharedMemory => (b.sharedMemory.map (·.readValue q)).getD (return none)
  | .v3d => V3d.readValue q
  | .gpuService => GpuService.readValue q
  | .mailbox => Mailbox.readValue q
  | .emulator => return none

/-- A backend that a query goes to is up, and is one of the hardware. -/
theorem mem_queryOrder : kind ∈ b.queryOrder ↔ b.has kind = true ∧ kind ≠ .emulator := by
  rw [queryOrder, List.mem_filter, and_comm]
  refine and_congr_right fun _ => ?_
  cases kind
  all_goals decide

theorem nodup_queryOrder (b : Backends) : b.queryOrder.Nodup :=
  List.Nodup.filter _ (by decide)

/-- The sources of a query are the backends in their order. -/
theorem sources_eq (b : Backends) (q : SystemQuery) :
    System.sources b q = b.queryOrder.map (b.reading q) := by
  obtain ⟨_ | _, _ | _, _ | _, _ | _, emulator⟩ := b
  all_goals rfl

theorem transcript_reading (h : kind ∈ b.queryOrder) :
    Transcript (b.reading q kind) events answer ↔ b.Reads q kind events answer := by
  obtain ⟨hhas, hhardware⟩ := mem_queryOrder.mp h
  cases kind with
  | emulator => exact absurd rfl hhardware
  | v3d => exact V3d.transcript_readValue.trans (and_iff_right hhas).symm
  | gpuService => exact GpuService.transcript_readValue.trans (and_iff_right hhas).symm
  | mailbox => exact Mailbox.transcript_readValue.trans (and_iff_right hhas).symm
  | sharedMemory =>
    obtain ⟨s, hs⟩ := Option.isSome_iff_exists.mp hhas
    simp only [reading, Reads, hs, Option.map_some, Option.getD_some, Option.some.injEq,
      exists_eq_left']
    exact SharedMemory.transcript_readValue

/-- What a backend is asked for a query reaches nobody but it. -/
theorem Reads.uses (h : b.Reads q kind events answer) : ∀ e ∈ events, Uses kind e.request := by
  cases kind with
  | emulator => exact h.elim
  | sharedMemory =>
    obtain ⟨s, -, hreads⟩ := h
    cases hreads with
    | unknown => exact List.forall_mem_nil _
    | unreadable | unlisted => simpa using Uses.ofNobody rfl id
    | answered =>
      refine List.forall_mem_cons.mpr ⟨Uses.ofNobody rfl id, fun e he => ?_⟩
      rw [(SharedMemory.mem_noted.mp he).2]
      exact Uses.ofNobody rfl id
  | v3d =>
    obtain ⟨-, hreads⟩ := h
    have hregister (offset : UInt32) : Uses .v3d (.readRegister offset) := ⟨.inr rfl, id⟩
    cases hreads with
    | gated | unknown | answered => simp [hregister]
  | gpuService =>
    obtain ⟨-, hreads⟩ := h
    have hcommand (text : String) : Uses .gpuService (.command text) := ⟨.inr rfl, id⟩
    cases hreads with
    | unknown => exact List.forall_mem_nil _
    | silent | garbled | answered => simp [hcommand]
  | mailbox =>
    obtain ⟨-, hreads⟩ := h
    have hmessage {m : Message} (hm : Mailbox.queryMessage? q = some m) :
        Uses .mailbox (.property m) := by
      refine ⟨.inr rfl, ?_⟩
      cases q with
      | totalVpmMemoryBytes | numQpus => cases hm
      | _ =>
        cases hm
        show ¬ Message.tagId _ = Tag.enableQpu.id
        decide
    cases hreads with
    | unknown => exact List.forall_mem_nil _
    | failed hm | refused hm | answered hm => simpa using hmessage hm

/-- A look into a file, or the overflow of what was found there. -/
def LooksUp : Request → Prop
  | .fileContents _ | .overflow => True
  | _ => False

/-- Only shared memory looks into files. -/
theorem Reads.ofSharedMemory (h : b.Reads q kind events answer) {e : Exchange Hardware} (he : e ∈ events)
    (hlooks : LooksUp e.request) : ∃ s, b.sharedMemory = some s ∧ s.Reads q events answer := by
  by_cases hkind : kind = .sharedMemory
  · subst hkind
    exact h
  refine absurd hlooks ?_
  have hothers : ∀ e ∈ events, ¬ LooksUp e.request := by
    cases kind with
    | emulator => exact h.elim
    | sharedMemory => exact absurd rfl hkind
    | v3d =>
      obtain ⟨-, hreads⟩ := h
      cases hreads with
      | gated | unknown | answered => simp [LooksUp]
    | gpuService =>
      obtain ⟨-, hreads⟩ := h
      cases hreads with
      | unknown | silent | garbled | answered => simp [LooksUp]
    | mailbox =>
      obtain ⟨-, hreads⟩ := h
      cases hreads with
      | unknown | failed | refused | answered => simp [LooksUp]
  exact hothers e he

/-- What is exchanged with backends that have no answer is exchanged with one of them. -/
theorem Passed.exists_part {kinds : List BackendKind} (h : b.Passed q kinds events)
    {e : Exchange Hardware} (he : e ∈ events) :
    ∃ kind part, b.Reads q kind part none ∧ e ∈ part ∧ ∀ e ∈ part, e ∈ events := by
  induction h with
  | nobody => cases he
  | @next kind _ part more hpart _ ih =>
    rcases List.mem_append.mp he with he | he
    · exact ⟨kind, part, hpart, he, fun _ => List.mem_append_left _⟩
    · obtain ⟨kind, part, hreads, hmem, hsub⟩ := ih he
      exact ⟨kind, part, hreads, hmem, fun e he => List.mem_append_right _ (hsub e he)⟩

theorem Passed.uses {kinds : List BackendKind} (h : b.Passed q kinds events) :
    ∀ e ∈ events, ∃ kind ∈ kinds, Uses kind e.request := by
  induction h with
  | nobody => exact List.forall_mem_nil _
  | next hpart _ ih =>
    intro e he
    rcases List.mem_append.mp he with he | he
    · exact ⟨_, List.mem_cons_self, hpart.uses e he⟩
    · obtain ⟨kind, hkind, huses⟩ := ih e he
      exact ⟨kind, List.mem_cons_of_mem _ hkind, huses⟩

end Backends

namespace System

open Backends

/-- After backends without an answer, those behind them are asked. -/
theorem transcript_after_passed {earlier later : List BackendKind}
    {before after : List (Exchange Hardware)} (hup : ∀ k ∈ earlier, k ∈ b.queryOrder)
    (h : b.Passed q earlier before) :
    Transcript (firstAnswer ((earlier ++ later).map (b.reading q))) (before ++ after) answer ↔
      Transcript (firstAnswer (later.map (b.reading q))) after answer := by
  induction h with
  | nobody => exact Iff.rfl
  | @next kind rest part more hpart _ ih =>
    have hfirst : Transcript (b.reading q kind) part none :=
      (transcript_reading (hup kind List.mem_cons_self)).mpr hpart
    rw [List.cons_append, List.map_cons, List.append_assoc]
    refine (Dialog.transcript_bind_after hfirst).trans ?_
    exact ih fun k hk => hup k (List.mem_cons_of_mem _ hk)

/-- Backends have been asked to no avail, up to the first that has an answer. -/
theorem transcript_firstAnswer {kinds : List BackendKind} (hup : ∀ k ∈ kinds, k ∈ b.queryOrder) :
    Transcript (firstAnswer (kinds.map (b.reading q))) events answer ↔
      (answer = none ∧ b.Passed q kinds events) ∨
      ∃ earlier kind later before last value, kinds = earlier ++ kind :: later ∧
        events = before ++ last ∧ answer = some value ∧ b.Passed q earlier before ∧
        b.Reads q kind last (some value) := by
  constructor
  · intro h
    induction kinds generalizing events with
    | nil =>
      obtain ⟨rfl, rfl⟩ := Dialog.transcript_done.mp h
      exact .inl ⟨rfl, .nobody⟩
    | cons kind rest ih =>
      obtain ⟨part, more, found, rfl, hpart, hmore⟩ := Dialog.transcript_bind.mp h
      have hreads := (transcript_reading (hup kind List.mem_cons_self)).mp hpart
      cases found with
      | some value =>
        obtain ⟨rfl, rfl⟩ := Dialog.transcript_done.mp hmore
        exact .inr ⟨[], kind, rest, [], part, value, rfl, by simp, rfl, .nobody, hreads⟩
      | none =>
        rcases ih (fun k hk => hup k (List.mem_cons_of_mem _ hk)) hmore with
          ⟨rfl, hpassed⟩ | ⟨earlier, kind', later, before, last, value, rfl, rfl, rfl, hpassed, hlast⟩
        · exact .inl ⟨rfl, .next hreads hpassed⟩
        · exact .inr ⟨kind :: earlier, kind', later, part ++ before, last, value, rfl, by simp, rfl,
            .next hreads hpassed, hlast⟩
  · rintro (⟨rfl, hpassed⟩ | ⟨earlier, kind, later, before, last, value, rfl, rfl, rfl, hpassed, hlast⟩)
    · have hend : Transcript (firstAnswer ((kinds ++ []).map (b.reading q))) (events ++ []) none :=
        (transcript_after_passed hup hpassed).mpr (.done none)
      simpa using hend
    · refine (transcript_after_passed (fun k hk => hup k (List.mem_append_left _ hk)) hpassed).mpr ?_
      have hkind := hup kind (by simp)
      have hfirst := (transcript_reading hkind).mpr hlast
      rw [← List.append_nil last]
      exact hfirst.append (.done _)

end System

/-! ## Backends that are not there -/

namespace Backends

theorem has_without (b : Backends) (gone kind : BackendKind) :
    (b.without gone).has kind = (kind != gone && b.has kind) := by
  cases gone
  all_goals
    cases kind
    all_goals rfl

/-- Without one of the backends, the others are asked in the same order. -/
theorem queryOrder_without {earlier later : List BackendKind}
    (h : b.queryOrder = earlier ++ kind :: later) :
    (b.without kind).queryOrder = earlier ++ later := by
  have hrest : (b.without kind).queryOrder = b.queryOrder.filter (· != kind) := by
    rw [queryOrder, queryOrder, List.filter_filter]
    exact List.filter_congr fun k _ => has_without b kind k
  have hnodup : (earlier ++ kind :: later).Nodup := h ▸ b.nodup_queryOrder
  obtain ⟨hearlier, hlater, hapart⟩ := List.nodup_append.mp hnodup
  rw [hrest, h, List.filter_append, List.filter_cons]
  simp only [bne_self_eq_false, Bool.false_eq_true, if_false]
  congr 1
  · refine List.filter_eq_self.mpr fun k hk => ?_
    simpa using hapart k hk kind List.mem_cons_self
  · refine List.filter_eq_self.mpr fun k hk => ?_
    have hne : kind ≠ k := by
      rintro rfl
      exact (List.nodup_cons.mp hlater).1 hk
    simpa using hne.symm

/-- They are asked in the same way. -/
theorem reading_without (b : Backends) (q : SystemQuery) {gone kind : BackendKind}
    (h : kind ≠ gone) : (b.without gone).reading q kind = b.reading q kind := by
  cases gone with
  | sharedMemory =>
    cases kind with
    | sharedMemory => exact absurd rfl h
    | _ => rfl
  | _ => rfl

end Backends

/-! ## What a query asks -/

/-- A request that only inquires: a message that puts a query, a command that answers one, a look at a
register or at a file, or the overflow of what was found there. -/
def Inquires : Request → Prop
  | .property m => ∃ q, Mailbox.queryMessage? q = some m
  | .command text => ∃ q unit, GpuService.commandFor q = some (text, unit)
  | .readRegister _ | .fileContents _ | .overflow => True
  | _ => False

theorem Backends.reading_inquires (b : Backends) (q : SystemQuery) (kind : BackendKind) :
    (b.reading q kind).Plain Inquires := by
  cases kind with
  | emulator => trivial
  | sharedMemory =>
    rw [reading]
    cases b.sharedMemory with
    | none => trivial
    | some s =>
      rw [Option.map_some, Option.getD_some, SharedMemory.readValue_eq]
      split
      · exact ⟨trivial, fun _ => SharedMemory.plain_noting trivial _ _⟩
      · trivial
  | v3d =>
    rw [reading, V3d.readValue_eq]
    refine ⟨trivial, fun ident => ?_⟩
    dsimp only
    split
    · trivial
    · split
      · trivial
      · exact ⟨trivial, fun _ => trivial⟩
  | gpuService =>
    rw [reading, GpuService.readValue_eq]
    split
    · trivial
    · next text unit hcommand => exact ⟨⟨q, unit, hcommand⟩, fun _ => trivial⟩
  | mailbox =>
    rw [reading, Mailbox.readValue_eq]
    split
    · trivial
    · next m hquestion => exact ⟨⟨q, hquestion⟩, fun _ => trivial⟩

theorem System.query_inquires (s : System) (q : SystemQuery) : (s.query q).Plain Inquires := by
  unfold query
  split
  · trivial
  rw [Backends.sources_eq]
  induction s.backends.queryOrder with
  | nil => trivial
  | cons kind rest ih =>
    refine (s.backends.reading_inquires q kind).bind fun found => ?_
    cases found with
    | none => exact ih
    | some value => trivial

/-- No message that puts a query is one about memory. -/
theorem memoryEvents_of_inquires (h : ∀ e ∈ events, Inquires e.request) :
    Mailbox.memoryEvents events = [] := by
  rw [Mailbox.memoryEvents, List.filterMap_eq_nil_iff]
  rintro ⟨request, reply⟩ he
  have hrequest := h _ he
  cases request with
  | property m =>
    obtain ⟨q, hquestion⟩ := hrequest
    cases q with
    | totalVpmMemoryBytes | numQpus => cases hquestion
    | _ =>
      cases hquestion
      rfl
  | _ => rfl

theorem blockEvents_of_inquires (h : ∀ e ∈ events, Inquires e.request) :
    SharedMemory.blockEvents events = [] := by
  rw [SharedMemory.blockEvents, List.filterMap_eq_nil_iff]
  rintro ⟨request, reply⟩ he
  have hrequest := h _ he
  cases request with
  | allocateShared | lockShared | unlockShared | freeShared => exact absurd hrequest id
  | _ => rfl

/-! ## Queries -/

namespace System

open Backends

/-- The value that is documented for a query without an answer. -/
def documentedDefault : SystemQuery → UInt32
  | .numQpus => 12
  | .totalVpmMemoryBytes => 4096
  | _ => 0

/-- What a query comes to, whatever the machine replies. -/
structure QueriesSurvive (s : System) (q : SystemQuery) : Prop where
  /-- The answer is that of the first backend that has one. -/
  answered : ∀ events value, Transcript (s.query q) events (some value) ↔
    ∃ earlier kind later before last, s.backends.queryOrder = earlier ++ kind :: later ∧
      events = before ++ last ∧ s.backends.Passed q earlier before ∧
      s.backends.Reads q kind last (some value)
  /-- There is none if no backend has one. -/
  unanswered : ∀ events, Transcript (s.query q) events none ↔
    s.backends.Passed q s.backends.queryOrder events
  /-- A backend without an answer is passed over as if it were not there. -/
  passedOver : ∀ earlier kind later before part after answer,
    s.backends.queryOrder = earlier ++ kind :: later → s.backends.Passed q earlier before →
    s.backends.Reads q kind part none →
    (Transcript (s.query q) (before ++ (part ++ after)) answer ↔
      Transcript (({ s with backends := s.backends.without kind } : System).query q)
        (before ++ after) answer)
  /-- No backend behind the one that answers is asked anything. -/
  spared : ∀ earlier kind later before last value,
    s.backends.queryOrder = earlier ++ kind :: later → s.backends.Passed q earlier before →
    s.backends.Reads q kind last (some value) →
    ∀ e ∈ before ++ last, ∀ other ∈ later, e.request.backend? ≠ some other
  /-- Where a value is needed, the documented one takes the place of the answer. -/
  orDefault : ∀ events value, Transcript (s.queryOrDefault q) events value ↔
    ∃ answer, Transcript (s.query q) events answer ∧ value = answer.getD (documentedDefault q)
  /-- A product overflows exactly if the memory report that is looked at lists more than 64 bits hold. -/
  overflow : ∀ events answer, Transcript (s.query q) events answer →
    (⟨.overflow, ()⟩ ∈ events ↔ ∃ path contents kib, ⟨.fileContents path, .ok contents⟩ ∈ events ∧
      SharedMemory.ListsUnits contents kib ∧ UInt64.size ≤ kib.toNat * 1024)
  /-- What is left of the size that is listed there is the answer, or the largest word if that is less. -/
  listed : ∀ events answer path contents kib, Transcript (s.query q) events answer →
    ⟨.fileContents path, .ok contents⟩ ∈ events → SharedMemory.ListsUnits contents kib →
    answer = some (.ofNat (min (kib.toNat * 1024 % UInt64.size) (UInt32.size - 1)))
  /-- A query comes back in all surroundings in which an overflow does not end the program. -/
  comesBack : ∀ {τ : Type} (surroundings : Surroundings Hardware τ) (turns : Nat) (t : τ),
    (∃ answer t', (s.query q).run surroundings turns t = some (answer, t')) ∧
    ∃ value t', (s.queryOrDefault q).run surroundings turns t = some (value, t')
  /-- It touches neither the memory of the firmware nor that of the service, and no job. -/
  unchanging : ∀ events answer, Transcript (s.query q) events answer →
    Mailbox.memoryEvents events = [] ∧ SharedMemory.blockEvents events = [] ∧
    ∀ e ∈ events, Inquires e.request

variable {s : System}

/-- A system that is not emulated asks its backends. -/
theorem query_eq (h : s.config.emulated = false) :
    s.query q = firstAnswer (s.backends.queryOrder.map (s.backends.reading q)) := by
  rw [query, h, Backends.sources_eq]
  rfl

theorem default_eq (q : SystemQuery) : q.default = documentedDefault q := by
  cases q
  all_goals rfl

theorem transcript_query (h : s.config.emulated = false) :
    Transcript (s.query q) events answer ↔
      (answer = none ∧ s.backends.Passed q s.backends.queryOrder events) ∨
      ∃ earlier kind later before last value, s.backends.queryOrder = earlier ++ kind :: later ∧
        events = before ++ last ∧ answer = some value ∧ s.backends.Passed q earlier before ∧
        s.backends.Reads q kind last (some value) := by
  rw [query_eq h]
  exact transcript_firstAnswer fun _ => id

/-- With a backend that has no answer, a query goes as without it. -/
theorem transcript_passedOver {earlier later : List BackendKind}
    {before part after : List (Exchange Hardware)} (h : s.config.emulated = false)
    (horder : s.backends.queryOrder = earlier ++ kind :: later)
    (hbefore : s.backends.Passed q earlier before) (hpart : s.backends.Reads q kind part none) :
    Transcript (s.query q) (before ++ (part ++ after)) answer ↔
      Transcript (({ s with backends := s.backends.without kind } : System).query q)
        (before ++ after) answer := by
  have hup : ∀ k ∈ earlier, k ∈ s.backends.queryOrder := by
    intro k hk
    rw [horder]
    exact List.mem_append_left _ hk
  have hkind : kind ∈ s.backends.queryOrder := by simp [horder]
  -- without the backend, the others are asked as before
  have hothers : (s.backends.without kind).queryOrder.map ((s.backends.without kind).reading q) =
      (earlier ++ later).map (s.backends.reading q) := by
    have hnodup : (earlier ++ kind :: later).Nodup := horder ▸ s.backends.nodup_queryOrder
    rw [queryOrder_without horder]
    refine List.map_congr_left fun k hk => s.backends.reading_without q ?_
    rintro rfl
    exact (List.nodup_middle.mp hnodup).notMem hk
  have hwithout : ({ s with backends := s.backends.without kind } : System).query q =
      firstAnswer ((earlier ++ later).map (s.backends.reading q)) := by
    rw [← hothers]
    exact query_eq (s := { s with backends := s.backends.without kind }) h
  rw [query_eq h, horder, hwithout, transcript_after_passed hup hbefore,
    transcript_after_passed hup hbefore]
  exact Dialog.transcript_bind_after ((transcript_reading hkind).mpr hpart)

/-- What is exchanged for a query is exchanged with some backend, whose answer is that of the query if it
has one. -/
theorem exists_part_of_mem (h : s.config.emulated = false) (t : Transcript (s.query q) events answer)
    {e : Exchange Hardware} (he : e ∈ events) :
    ∃ kind part found, s.backends.Reads q kind part found ∧ e ∈ part ∧ (∀ e ∈ part, e ∈ events) ∧
      (found = none ∨ found = answer) := by
  rcases (transcript_query h).mp t with
    ⟨-, hpassed⟩ | ⟨earlier, kind, later, before, last, value, -, rfl, rfl, hpassed, hlast⟩
  · obtain ⟨kind, part, hreads, hmem, hsub⟩ := hpassed.exists_part he
    exact ⟨kind, part, none, hreads, hmem, hsub, .inl rfl⟩
  · rcases List.mem_append.mp he with he | he
    · obtain ⟨kind, part, hreads, hmem, hsub⟩ := hpassed.exists_part he
      exact ⟨kind, part, none, hreads, hmem, fun e he => List.mem_append_left _ (hsub e he), .inl rfl⟩
    · exact ⟨kind, last, some value, hlast, he, fun _ => List.mem_append_right _, .inr rfl⟩

/-- A look that a query takes into a file, or an overflow that it meets, is one of shared memory, whose
answer is that of the query if it has one. -/
theorem exists_lookup_of_mem (h : s.config.emulated = false)
    (t : Transcript (s.query q) events answer) {e : Exchange Hardware} (he : e ∈ events)
    (hlooks : LooksUp e.request) :
    ∃ (m : SharedMemory) (part : List (Exchange Hardware)) (found : Option UInt32),
      m.Reads q part found ∧ e ∈ part ∧ (∀ e ∈ part, e ∈ events) ∧
      (found = none ∨ found = answer) := by
  obtain ⟨kind, part, found, hreads, hmem, hsub, hfound⟩ := exists_part_of_mem h t he
  obtain ⟨m, -, hreads⟩ := hreads.ofSharedMemory hmem hlooks
  exact ⟨m, part, found, hreads, hmem, hsub, hfound⟩

/-- A query meets an overflow exactly if it meets a memory report that lists too much. -/
theorem overflow_mem_iff (h : s.config.emulated = false) (t : Transcript (s.query q) events answer) :
    ⟨.overflow, ()⟩ ∈ events ↔ ∃ path contents kib, ⟨.fileContents path, .ok contents⟩ ∈ events ∧
      SharedMemory.ListsUnits contents kib ∧ UInt64.size ≤ kib.toNat * 1024 := by
  constructor
  · intro hover
    obtain ⟨_, part, _, hreads, hmem, hsub, -⟩ := exists_lookup_of_mem h t hover trivial
    obtain ⟨path, contents, kib, hfile, hlisted⟩ := hreads.listed_of_overflow hmem
    exact ⟨path, contents, kib, hsub _ hfile, hlisted⟩
  · rintro ⟨path, contents, kib, hfile, hlisted, hlarge⟩
    obtain ⟨_, part, _, hreads, hmem, hsub, -⟩ := exists_lookup_of_mem h t hfile trivial
    exact hsub _ ((hreads.of_listed hmem hlisted).1 hlarge)

/-- The low bits of a size that is listed are the answer. -/
theorem answer_of_listed (h : s.config.emulated = false) (t : Transcript (s.query q) events answer)
    {path : String} {contents : ByteArray} {kib : UInt64}
    (hfile : ⟨.fileContents path, .ok contents⟩ ∈ events)
    (hlisted : SharedMemory.ListsUnits contents kib) :
    answer = some (.ofNat (min (kib.toNat * 1024 % UInt64.size) (UInt32.size - 1))) := by
  obtain ⟨_, part, found, hreads, hmem, -, hfound⟩ := exists_lookup_of_mem h t hfile trivial
  have hsize := (hreads.of_listed hmem hlisted).2
  rw [← hsize]
  exact (hfound.resolve_left (by simp [hsize])).symm

/-- What is asked up to the answer does not reach the backends behind it. -/
theorem spared_of_reads {earlier later : List BackendKind} {before last : List (Exchange Hardware)}
    (horder : b.queryOrder = earlier ++ kind :: later) (hbefore : b.Passed q earlier before)
    (hlast : b.Reads q kind last answer) :
    ∀ e ∈ before ++ last, ∀ other ∈ later, e.request.backend? ≠ some other := by
  have hnodup : (earlier ++ kind :: later).Nodup := horder ▸ b.nodup_queryOrder
  intro e he other hother hreaches
  -- whoever was asked stands in front of the other
  have hasked : ∃ k ∈ earlier ++ [kind], Uses k e.request := by
    rcases List.mem_append.mp he with he | he
    · obtain ⟨k, hk, huses⟩ := hbefore.uses e he
      exact ⟨k, List.mem_append_left _ hk, huses⟩
    · exact ⟨kind, by simp, hlast.uses e he⟩
  obtain ⟨k, hk, huses⟩ := hasked
  rw [List.append_cons] at hnodup
  exact (List.nodup_append.mp hnodup).2.2 k hk other hother (huses.within.eq hreaches)

/-- A system whose shared memory draws on the pool. -/
def samplePooled : System :=
  { config := .standard, backends := { sharedMemory := some { usesPool := true } } }

/-- The contents of a memory report with a pool of 2 ^ 64 bytes. -/
def excessReport : ByteArray := "CmaTotal: 18014398509481984 kB\n".toUTF8

/-- A system with all backends of the hardware, whose shared memory draws on no pool. -/
def sampleAsked : System :=
  { config := .standard
    backends :=
      { mailbox := true, v3d := some {}, sharedMemory := some { usesPool := false }
        gpuService := some {} } }

/-- The firmware gives the GPU 128 MiB. -/
def sampleTold : Exchange Hardware :=
  ⟨.property (.ofRequest .vcMemory [] 2),
    .ok (((Vector.replicate 8 0).set 1 responseSuccess).set 6 0x8000000)⟩

end System

end VideoCore
