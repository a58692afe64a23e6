import VideoCore.Proofs.Session.Reach

/-!
# Who holds a backend

A backend is held by the system and by every buffer that came from it. What a verb does to that is
said here exactly: which backends are up never changes, the use of a backend changes nothing else, and
a backend is stopped by whoever lets go of it last.
-/

namespace VideoCore

open Hardware
open Dialog (Transcript)

/-! ## Backends that are up -/

namespace Backends

variable {b b' : Backends} {events : List (Exchange Hardware)}

theorem has_emulator {e e' : Emulator} (h : b.emulator = some e) :
    ({ b with emulator := some e' } : Backends).has = b.has := by
  funext kind
  cases kind with
  | emulator => simp [has, h]
  | _ => rfl

theorem has_gpuService {g g' : GpuService} (h : b.gpuService = some g) :
    ({ b with gpuService := some g' } : Backends).has = b.has := by
  funext kind
  cases kind with
  | gpuService => simp [has, h]
  | _ => rfl

theorem has_allocate {owner : Owner} {r : AllocationRequest} {buffer : Option Buffer}
    (h : Performs (b.allocate owner r) events (.ok (buffer, b'))) : b'.has = b.has := by
  cases owner with
  | mailbox | sharedMemory =>
    obtain ⟨_, -, hr⟩ := performs_map_ok.mp h
    cases hr
    rfl
  | emulator =>
    obtain ⟨-, ⟨-, -, rfl⟩ | ⟨e, e', he, -, rfl⟩⟩ := emulator_ways h
    · rfl
    · exact has_emulator he

theorem has_deallocate {buffer : Buffer} {result : Except Fault Bool}
    (h : Transcript (b.deallocate buffer) events (result, b')) : b'.has = b.has := by
  unfold deallocate at h
  cases howner : buffer.owner with
  | mailbox | sharedMemory =>
    simp only [howner] at h
    obtain ⟨_, -, hr⟩ := Dialog.transcript_map.mp h
    cases hr
    rfl
  | emulator =>
    simp only [howner] at h
    cases he : b.emulator with
    | none =>
      simp only [he] at h
      cases (Dialog.transcript_done.mp h).2
      rfl
    | some e =>
      simp only [he] at h
      obtain ⟨⟨_, e'⟩, -, hr⟩ := Dialog.transcript_map.mp h
      cases hr
      exact has_emulator he

theorem has_release {buffer : Buffer} {result : Except Fault Bool}
    (h : Transcript (b.release buffer) events (result, b')) : b'.has = b.has := by
  unfold release at h
  split at h
  · obtain ⟨_, _, _, -, -, hrest⟩ := Dialog.transcript_bind.mp h
    exact has_deallocate hrest
  · exact has_deallocate h

theorem has_execute {kind : BackendKind} {d : Dispatch} {handle : Handle GpuService.JobWait}
    (h : Performs (b.execute kind d) events (.ok (handle, b'))) : b'.has = b.has := by
  unfold execute at h
  cases kind with
  | sharedMemory => cases (performs_throw.mp h).2
  | mailbox =>
    obtain ⟨_, -, hr⟩ := performs_map_ok.mp h
    cases hr
    rfl
  | v3d =>
    cases hv : b.v3d with
    | none =>
      simp only [hv] at h
      cases (performs_throw.mp h).2
    | some v =>
      simp only [hv] at h
      obtain ⟨_, -, hr⟩ := performs_map_ok.mp h
      cases hr
      rfl
  | gpuService =>
    cases hg : b.gpuService with
    | none =>
      simp only [hg] at h
      cases (performs_throw.mp h).2
    | some g =>
      simp only [hg] at h
      obtain ⟨_, -, hr⟩ := performs_map_ok.mp h
      cases hr
      exact has_gpuService hg
  | emulator =>
    cases he : b.emulator with
    | none =>
      simp only [he] at h
      cases (performs_throw.mp h).2
    | some e =>
      simp only [he] at h
      obtain ⟨_, -, hr⟩ := performs_map_ok.mp h
      cases hr
      exact has_emulator he

theorem has_write {buffer : Buffer} {offset : Nat} {bytes : ByteArray}
    (h : Transcript (b.writeBuffer? buffer offset bytes) events (some b')) : b'.has = b.has := by
  unfold writeBuffer? at h
  split at h
  · cases (Dialog.transcript_done.mp h).2
  split at h
  · obtain ⟨_, -, hr⟩ := Dialog.transcript_map.mp h
    cases hr
    rfl
  · obtain ⟨_, -, hr⟩ := Dialog.transcript_map.mp h
    cases hr
    rfl
  · obtain ⟨-, hb⟩ := Dialog.transcript_done.mp h
    cases he : b.emulator with
    | none =>
      rw [he] at hb
      cases hb
    | some e =>
      rw [he] at hb
      cases hb
      exact has_emulator he

end Backends

namespace Session

variable {s s' t : Session} {events : List (Exchange Hardware)} {kind : BackendKind}

/-! ## Holders -/

/-- Every name stands for one buffer, and no buffer was forgotten. -/
structure Tidy (s : Session) : Prop where
  names : s.buffers.names.Nodup
  kept : s.kept = []

/-- A backend is held by the system, by its buffers that have a name and by those that were forgotten. -/
theorem holds_iff_of_names (names : s.buffers.names.Nodup) :
    s.holds kind = true ↔ s.attached = true ∨
      (∃ name b, s.buffers.get? name = some b ∧ b.owner.kind = kind) ∨
      ∃ owner ∈ s.kept, owner.kind = kind := by
  simp only [holds, Bool.or_eq_true, List.any_eq_true, List.mem_append, List.mem_map, beq_iff_eq,
    or_and_right, exists_or]
  refine or_congr_right (or_congr_left ?_)
  constructor
  · rintro ⟨owner, ⟨b, hmem, rfl⟩, hkind⟩
    obtain ⟨name, hname⟩ := (Directory.mem_values names).mp hmem
    exact ⟨name, b, hname, hkind⟩
  · rintro ⟨name, b, hname, hkind⟩
    exact ⟨b.owner, ⟨b, (Directory.mem_values names).mpr ⟨name, hname⟩, rfl⟩, hkind⟩

theorem holds_iff (tidy : s.Tidy) :
    s.holds kind = true ↔
      s.attached = true ∨ ∃ name b, s.buffers.get? name = some b ∧ b.owner.kind = kind := by
  rw [holds_iff_of_names tidy.names, tidy.kept]
  simp only [List.not_mem_nil, false_and, exists_false, or_false]

/-- No buffer is left of a backend that nobody holds. -/
theorem owner_ne_of_unheld {name : String} {b : Buffer} (names : s.buffers.names.Nodup)
    (h : s.holds kind = false) (hsome : s.buffers.get? name = some b) : b.owner.kind ≠ kind := by
  intro hkind
  have hheld := (holds_iff_of_names names).mpr (.inr (.inl ⟨name, b, hsome, hkind⟩))
  rw [h] at hheld
  cases hheld

/-- None was forgotten that the backend would be up for. -/
theorem kept_ne_of_unheld {owner : Owner} (names : s.buffers.names.Nodup)
    (h : s.holds kind = false) (hkept : owner ∈ s.kept) : owner.kind ≠ kind := by
  intro hkind
  have hheld := (holds_iff_of_names names).mpr (.inr (.inr ⟨owner, hkept, hkind⟩))
  rw [h] at hheld
  cases hheld

/-- Sessions that are held alike: the state of the backends and the handles may differ. -/
structure HeldAlike (s s' : Session) : Prop where
  buffers : s'.buffers = s.buffers
  attached : s'.attached = s.attached
  kept : s'.kept = s.kept
  stopped : s'.stopped = s.stopped
  has : s'.system.backends.has = s.system.backends.has

theorem HeldAlike.refl (s : Session) : HeldAlike s s := ⟨rfl, rfl, rfl, rfl, rfl⟩

theorem HeldAlike.tidy (h : HeldAlike s s') (tidy : s.Tidy) : s'.Tidy where
  names := h.buffers ▸ tidy.names
  kept := h.kept.trans tidy.kept

theorem HeldAlike.holds (h : HeldAlike s s') (kind : BackendKind) :
    s'.holds kind = s.holds kind := by
  rw [Session.holds, h.attached, h.buffers, h.kept, Session.holds]

theorem heldAlike_withBackends {backends : Backends} (h : backends.has = s.system.backends.has) :
    HeldAlike s (s.withBackends backends) :=
  ⟨rfl, rfl, rfl, rfl, h⟩

theorem tidy_erase (tidy : s.Tidy) (name : String) :
    Tidy { s with buffers := s.buffers.erase name } :=
  ⟨Directory.nodup_erase tidy.names name, tidy.kept⟩

theorem tidy_put (tidy : s.Tidy) (name : String) (b : Buffer) :
    Tidy { s with buffers := s.buffers.put name b } :=
  ⟨Directory.nodup_put tidy.names name b, tidy.kept⟩

/-- A backend that is held, but not by one buffer, is held without that buffer. -/
theorem holds_erase (names : s.buffers.names.Nodup) {name : String} {b : Buffer}
    (hsome : s.buffers.get? name = some b) (hother : b.owner.kind ≠ kind)
    (h : s.holds kind = true) :
    ({ s with buffers := s.buffers.erase name } : Session).holds kind = true := by
  rw [holds_iff_of_names (Directory.nodup_erase names name)]
  refine ((holds_iff_of_names names).mp h).imp_right (Or.imp_left ?_)
  rintro ⟨other, c, hc, hkind⟩
  have hne : other ≠ name := by
    rintro rfl
    rw [hsome] at hc
    cases hc
    exact hother hkind
  exact ⟨other, c, by rw [Directory.get?_erase_of_ne _ hne, hc], hkind⟩

/-- A backend that nobody holds is not held after another buffer has ended. -/
theorem unheld_erase (names : s.buffers.names.Nodup) (name : String) (h : s.holds kind = false) :
    ({ s with buffers := s.buffers.erase name } : Session).holds kind = false := by
  rw [← Bool.not_eq_true] at h ⊢
  refine mt (fun hheld => ?_) h
  rw [holds_iff_of_names (Directory.nodup_erase names name)] at hheld
  rw [holds_iff_of_names names]
  refine hheld.imp_right (Or.imp_left ?_)
  rintro ⟨other, c, hc, hkind⟩
  rw [Directory.get?_erase] at hc
  split at hc
  · cases hc
  · exact ⟨other, c, hc, hkind⟩

/-- A buffer that is forgotten holds its owner as before. -/
theorem holds_forgotten (names : s.buffers.names.Nodup) {name : String} {b : Buffer}
    (hsome : s.buffers.get? name = some b) (kind : BackendKind) :
    ({ s with buffers := s.buffers.erase name, kept := b.owner :: s.kept } : Session).holds kind =
      s.holds kind := by
  rw [Bool.eq_iff_iff, holds_iff_of_names (Directory.nodup_erase names name), holds_iff_of_names names]
  refine or_congr_right ?_
  constructor
  · rintro (⟨other, c, hc, hkind⟩ | ⟨owner, howner, hkind⟩)
    · rw [Directory.get?_erase] at hc
      split at hc
      · cases hc
      · exact .inl ⟨other, c, hc, hkind⟩
    · rcases List.mem_cons.mp howner with rfl | hkept
      · exact .inl ⟨name, b, hsome, hkind⟩
      · exact .inr ⟨owner, hkept, hkind⟩
  · rintro (⟨other, c, hc, hkind⟩ | ⟨owner, hkept, hkind⟩)
    · by_cases hname : other = name
      · subst hname
        rw [hsome] at hc
        cases hc
        exact .inr ⟨b.owner, List.mem_cons_self, hkind⟩
      · exact .inl ⟨other, c, by rw [Directory.get?_erase_of_ne _ hname, hc], hkind⟩
    · exact .inr ⟨owner, List.mem_cons_of_mem _ hkept, hkind⟩

/-- A hold that is given up is one on its own backend alone. -/
theorem holds_surrendered {owner : Owner} (names : s.buffers.names.Nodup) (hother : owner.kind ≠ kind) :
    ({ s with kept := s.kept.erase owner } : Session).holds kind = s.holds kind := by
  rw [Bool.eq_iff_iff, holds_iff_of_names (s := { s with kept := s.kept.erase owner }) names,
    holds_iff_of_names names]
  refine or_congr_right (or_congr_right (exists_congr fun other => and_congr_left fun hkind => ?_))
  refine List.mem_erase_of_ne ?_
  rintro rfl
  exact hother hkind

/-! ## Stopping -/

/-- A backend is stopped once, when nobody holds it. -/
theorem stopUnheld_cases (h : Transcript (s.stopUnheld kind) events s') :
    (events = [] ∧ s' = s ∧ (s.system.backends.has kind = true → kind ∉ s.stopped →
      s.holds kind = true)) ∨
    (s.holds kind = false ∧ kind ∉ s.stopped ∧ s.system.backends.has kind = true ∧
      Transcript (s.system.backends.stop kind) events () ∧
      s' = { s with stopped := kind :: s.stopped }) := by
  unfold stopUnheld at h
  split at h
  · next hcondition =>
    obtain ⟨rfl, rfl⟩ := Dialog.transcript_done.mp h
    refine .inl ⟨rfl, rfl, fun hhas hrunning => ?_⟩
    simpa [hhas, hrunning] using hcondition
  · next hcondition =>
    obtain ⟨_, hstop, rfl⟩ := Dialog.transcript_map.mp h
    simp only [Bool.or_eq_true, List.contains_eq_mem, decide_eq_true_eq, Bool.not_eq_true', not_or,
      Bool.not_eq_true, Bool.not_eq_false] at hcondition
    exact .inr ⟨hcondition.1.1, hcondition.1.2, hcondition.2, hstop, rfl⟩

/-- Stopping one backend leaves the others as they are. -/
theorem stopUnheld_other {other : BackendKind} (hne : other ≠ kind)
    (h : Transcript (s.stopUnheld kind) events s') :
    s'.buffers = s.buffers ∧ s'.attached = s.attached ∧ s'.kept = s.kept ∧
      s'.system = s.system ∧ (other ∈ s'.stopped ↔ other ∈ s.stopped) := by
  rcases stopUnheld_cases h with ⟨-, rfl, -⟩ | ⟨-, -, -, -, rfl⟩
  · exact ⟨rfl, rfl, rfl, rfl, Iff.rfl⟩
  · exact ⟨rfl, rfl, rfl, rfl, by simp [hne]⟩

/-! ## Uses -/

theorem write_heldAlike {name : String} {offset : Nat} {bytes : ByteArray}
    (h : Transcript (s.perform (.write name offset bytes)) events s') : HeldAlike s s' := by
  rcases write_backend h with rfl | ⟨buffer, backends, -, hwrite, rfl⟩
  · exact .refl s'
  · exact heldAlike_withBackends (Backends.has_write hwrite)

theorem execute_heldAlike {name : String} {path : Option BackendKind} {d : Dispatch}
    (h : Transcript (s.perform (.execute name path d)) events s') : HeldAlike s s' := by
  obtain ⟨⟨result, _⟩, h, rfl⟩ := Dialog.transcript_map.mp h
  obtain ⟨first, rest, outcome, rfl, hattempt, h⟩ := Dialog.transcript_bind.mp h
  rcases outcome with fault | ⟨handle, backends⟩
  · cases (Dialog.transcript_done.mp h).2
    exact .refl s
  · cases (Dialog.transcript_done.mp h).2
    rcases executing_ways hattempt with ⟨-, fault, hfault⟩ | ⟨kind, hkind⟩
    · cases hfault
    · exact ⟨rfl, rfl, rfl, rfl, Backends.has_execute hkind⟩

theorem heldAlike_withTracker (s : Session) (tracker : GpuService.Tracker) :
    HeldAlike s (s.withTracker tracker) := by
  refine heldAlike_withBackends ?_
  funext kind
  cases kind with
  | gpuService => simp [Backends.has]
  | _ => rfl

theorem wait_heldAlike {name : String} (h : Transcript (s.perform (.wait name)) events s') :
    HeldAlike s s' := by
  obtain ⟨⟨result, _⟩, h, rfl⟩ := Dialog.transcript_map.mp h
  unfold wait at h
  split at h
  · cases (Dialog.transcript_done.mp h).2
    exact .refl s
  · obtain ⟨⟨⟨passed, handle⟩, tracker⟩, -, h⟩ := Dialog.transcript_map.mp h
    cases h
    have halike := heldAlike_withTracker s tracker
    exact ⟨halike.buffers, halike.attached, halike.kept, halike.stopped, halike.has⟩

/-! ## Out of sight -/

/-- Everything but what is about buffers out of sight. -/
def Verb.InSight : Verb → Prop
  | .forget _ | .surrender _ => False
  | _ => True

theorem Verb.Orderly.inSight {verb : Verb} (h : verb.Orderly) : verb.InSight := by
  cases verb with
  | forget | surrender => exact h
  | _ => trivial

theorem stopUnheld_kept (h : Transcript (s.stopUnheld kind) events s') : s'.kept = s.kept := by
  rcases stopUnheld_cases h with ⟨-, rfl, -⟩ | ⟨-, -, -, -, rfl⟩ <;> rfl

theorem GivenUp.kept {buffer : Buffer} (h : GivenUp s buffer events s') : s'.kept = s.kept := by
  obtain ⟨_, _, _, _, backends, -, -, hstop, -⟩ := h
  exact stopUnheld_kept (s := s.withBackends backends) hstop

theorem GivenUpByName.kept {name : String} (h : GivenUpByName s name events s') :
    s'.kept = s.kept := by
  rcases h with ⟨-, -, rfl⟩ | ⟨buffer, -, hgiven⟩
  · rfl
  · exact hgiven.kept

theorem perform_kept {verb : Verb} (h : Transcript (s.perform verb) events s')
    (hverb : verb.InSight) : s'.kept = s.kept := by
  cases verb with
  | allocate name source r =>
    obtain ⟨first, rest, outcome, -, -, hafter⟩ := allocate_keeps h
    match outcome with
    | .error fault => rw [hafter.2]
    | .ok (none, backends) =>
      rw [hafter.2]
      rfl
    | .ok (some buffer, backends) =>
      rcases keep_givenUp hafter with ⟨-, -, rfl⟩ | ⟨previous, -, hgiven⟩
      · rfl
      · exact hgiven.kept
  | release name => exact (release_givenUp h).kept
  | drop name => exact (drop_givenUp h).kept
  | forget | surrender => exact hverb.elim
  | deallocate buffer =>
    obtain ⟨result, backends, -, rfl⟩ := deallocate_backend h
    rfl
  | write name offset bytes => exact (write_heldAlike h).kept
  | execute name path d => exact (execute_heldAlike h).kept
  | wait name => exact (wait_heldAlike h).kept
  | notify id =>
    obtain ⟨-, rfl⟩ := Dialog.transcript_done.mp h
    rfl
  | detach =>
    refine Dialog.transcript_foldlM (P := fun _ t => t.kept = s.kept) [] ?_ rfl h
    intro _ t kind more u hkept hstop
    exact (stopUnheld_kept hstop).trans hkept

/-- Who forgets no buffer leaves those out of sight as they are. -/
theorem run_kept {allowed : Session → Verb → Prop} (hallowed : ∀ t verb, allowed t verb → verb.Orderly)
    (run : Run allowed s events s') : s'.kept = s.kept := by
  refine run.induct (P := fun _ t => t.kept = s.kept) rfl ?_
  intro _ t verb _ u hkept hverb hstep
  exact (perform_kept hstep (hallowed t verb hverb).inSight).trans hkept

end Session

end VideoCore
