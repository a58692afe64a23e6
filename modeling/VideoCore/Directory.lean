/-!
# Directories

Things kept under names, in ascending order of the names. A name stands for at most one thing.
-/

namespace VideoCore

/-- Things under names. -/
structure Directory (α : Type) where
  entries : List (String × α) := []

namespace Directory

variable {α : Type}

/-- What is kept under a name. -/
def get? (d : Directory α) (name : String) : Option α :=
  (d.entries.find? fun entry => entry.1 == name).map (·.2)

/-- The directory without what is kept under a name. -/
def erase (d : Directory α) (name : String) : Directory α :=
  ⟨d.entries.filter fun entry => entry.1 != name⟩

/-- The directory with something kept under a name, in the place of what was there. -/
def put (d : Directory α) (name : String) (a : α) : Directory α :=
  let rest := (d.erase name).entries
  ⟨rest.takeWhile (fun entry => entry.1 < name) ++ (name, a) ::
    rest.dropWhile (fun entry => entry.1 < name)⟩

/-- The names, in ascending order. -/
def names (d : Directory α) : List String :=
  d.entries.map (·.1)

/-- What is kept, in the order of the names. -/
def values (d : Directory α) : List α :=
  d.entries.map (·.2)

@[simp] theorem get?_erase_self (d : Directory α) (name : String) :
    (d.erase name).get? name = none := by
  simp only [get?, erase, Option.map_eq_none_iff, List.find?_eq_none]
  intro entry h
  simpa using (List.mem_filter.mp h).2

theorem get?_erase_of_ne (d : Directory α) {name other : String} (h : other ≠ name) :
    (d.erase name).get? other = d.get? other := by
  simp only [get?, erase, List.find?_filter]
  congr 2
  funext entry
  by_cases he : entry.1 = other
  · simp [he, h]
  · simp [he]

theorem get?_put_self (d : Directory α) (name : String) (a : α) :
    (d.put name a).get? name = some a := by
  have hfirst : (((d.erase name).entries.takeWhile fun entry => entry.1 < name).find?
      fun entry => entry.1 == name) = none := by
    rw [List.find?_eq_none]
    intro entry h
    simpa [erase] using (List.mem_filter.mp (List.takeWhile_subset _ h)).2
  rw [get?, put, List.find?_append, hfirst, Option.none_or, List.find?_cons_of_pos (by simp)]
  rfl

theorem get?_put_of_ne (d : Directory α) {name other : String} (a : α) (h : other ≠ name) :
    (d.put name a).get? other = d.get? other := by
  rw [← get?_erase_of_ne d h]
  simp only [get?, put, List.find?_append]
  rw [List.find?_cons_of_neg (by simpa using h.symm), ← List.find?_append,
    List.takeWhile_append_dropWhile]

/-- What a directory keeps after one more thing was put into it. -/
theorem get?_put (d : Directory α) (name other : String) (a : α) :
    (d.put name a).get? other = if other = name then some a else d.get? other := by
  split
  · next h => rw [h, get?_put_self]
  · next h => exact get?_put_of_ne d a h

/-- What a directory keeps after a name was given up. -/
theorem get?_erase (d : Directory α) (name other : String) :
    (d.erase name).get? other = if other = name then none else d.get? other := by
  split
  · next h => rw [h, get?_erase_self]
  · next h => exact get?_erase_of_ne d h

/-! ## Names that stand for one thing -/

theorem names_erase (d : Directory α) (name : String) :
    (d.erase name).names = d.names.filter (· != name) := by
  simp only [names, erase, List.filter_map]
  rfl

theorem not_mem_names_erase (d : Directory α) (name : String) : name ∉ (d.erase name).names := by
  simp [names_erase]

theorem entries_put_perm (d : Directory α) (name : String) (a : α) :
    (d.put name a).entries.Perm ((name, a) :: (d.erase name).entries) := by
  have hsplit := List.takeWhile_append_dropWhile (p := fun entry => entry.1 < name)
    (l := (d.erase name).entries)
  rw [← hsplit]
  exact List.perm_middle

theorem names_put_perm (d : Directory α) (name : String) (a : α) :
    (d.put name a).names.Perm (name :: (d.erase name).names) :=
  (entries_put_perm d name a).map _

theorem values_put_perm (d : Directory α) (name : String) (a : α) :
    (d.put name a).values.Perm (a :: (d.erase name).values) :=
  (entries_put_perm d name a).map _

theorem nodup_erase {d : Directory α} (h : d.names.Nodup) (name : String) :
    (d.erase name).names.Nodup := by
  rw [names_erase]
  exact h.filter _

theorem nodup_put {d : Directory α} (h : d.names.Nodup) (name : String) (a : α) :
    (d.put name a).names.Nodup := by
  rw [(names_put_perm d name a).nodup_iff, List.nodup_cons]
  exact ⟨not_mem_names_erase d name, nodup_erase h name⟩

theorem mem_of_get? {d : Directory α} {name : String} {a : α} (h : d.get? name = some a) :
    (name, a) ∈ d.entries := by
  obtain ⟨entry, hfind, rfl⟩ := Option.map_eq_some_iff.mp h
  have hname : entry.1 = name := by simpa using List.find?_some hfind
  rw [← hname]
  exact List.mem_of_find?_eq_some hfind

theorem get?_eq_none {d : Directory α} {name : String} (h : name ∉ d.names) :
    d.get? name = none := by
  cases hget : d.get? name with
  | none => rfl
  | some a => exact absurd (List.mem_map_of_mem (mem_of_get? hget)) h

theorem get?_of_mem {d : Directory α} (h : d.names.Nodup) {name : String} {a : α}
    (hmem : (name, a) ∈ d.entries) : d.get? name = some a := by
  obtain ⟨entries⟩ := d
  simp only [get?, names] at h hmem ⊢
  induction entries with
  | nil => cases hmem
  | cons entry rest ih =>
    rw [List.map_cons, List.nodup_cons] at h
    rcases List.mem_cons.mp hmem with rfl | hrest
    · simp
    · have hne : entry.1 ≠ name := by
        intro heq
        exact h.1 (heq ▸ List.mem_map_of_mem hrest)
      rw [List.find?_cons_of_neg (by simpa using hne)]
      exact ih h.2 hrest

/-- Giving up a name that stands for nothing changes nothing. -/
theorem erase_of_get?_eq_none {d : Directory α} {name : String} (h : d.get? name = none) :
    d.erase name = d := by
  obtain ⟨entries⟩ := d
  simp only [get?, Option.map_eq_none_iff, List.find?_eq_none] at h
  simp only [erase, mk.injEq, List.filter_eq_self]
  intro entry hentry
  simpa using h entry hentry

/-- What is kept is what stands under one name, and the rest. -/
theorem values_perm_erase {d : Directory α} (h : d.names.Nodup) {name : String} {a : α}
    (hget : d.get? name = some a) : d.values.Perm (a :: (d.erase name).values) := by
  obtain ⟨before, after, hsplit⟩ := List.append_of_mem (mem_of_get? hget)
  have hnames : (before.map (·.1) ++ name :: after.map (·.1)).Nodup := by
    simpa [names, hsplit] using h
  -- no other entry has the name, so the rest is what stands before it and after it
  have hother : ∀ entry ∈ before ++ after, entry.1 != name := by
    intro entry hentry
    rw [List.perm_middle.nodup_iff, List.nodup_cons, ← List.map_append] at hnames
    rw [bne_iff_ne]
    rintro rfl
    exact hnames.1 (List.mem_map_of_mem hentry)
  have herase : (d.erase name).entries = before ++ after := by
    rw [erase, hsplit, List.filter_append, List.filter_cons_of_neg (by simp), ← List.filter_append]
    exact List.filter_eq_self.mpr hother
  rw [values, values, herase, hsplit, List.map_append, List.map_append, List.map_cons]
  exact List.perm_middle

/-- What is kept is what is found under the names. -/
theorem mem_values {d : Directory α} (h : d.names.Nodup) {a : α} :
    a ∈ d.values ↔ ∃ name, d.get? name = some a := by
  constructor
  · intro ha
    obtain ⟨⟨name, b⟩, hmem, rfl⟩ := List.mem_map.mp ha
    exact ⟨name, get?_of_mem h hmem⟩
  · rintro ⟨name, hname⟩
    exact List.mem_map.mpr ⟨_, mem_of_get? hname, rfl⟩

end Directory

end VideoCore
