/-
The parts of paths. What is joined to a path adds its part behind those of the path
(`components_join`), so a path with one part names an entry of a directory exactly when that part is
a name of its own, and neither the directory itself nor the one above it (`entryOf_join_iff`).
-/
import ScopedRetrieval.Proofs.Text.Cutting
import ScopedRetrieval.Proofs.Volume.Resolution

namespace ScopedRetrieval.Volume.Path

/-! ## Names and their parts -/

theorem of_mem_names {path name : String} (h : name ∈ names path) :
    name ≠ "" ∧ '/' ∉ name.toList := by
  obtain ⟨hmem, hempty⟩ := List.mem_filter.1 h
  obtain ⟨cs, hcs, rfl⟩ := List.mem_map.1 hmem
  rw [String.toList_ofList]
  exact ⟨by simpa using hempty, Text.notMem_of_mem_splitOn hcs⟩

namespace Component

theorem ofName_eq_current_iff (name : String) : ofName name = current ↔ name = "." := by
  unfold ofName
  split
  · rename_i h
    simp [h]
  · rename_i h
    split <;> simp [h]

theorem ofName_eq_normal_iff (part name : String) :
    ofName part = normal name ↔ part = name ∧ name ≠ "." ∧ name ≠ ".." := by
  unfold ofName
  split
  · rename_i h
    subst h
    simp
    rintro rfl
    simp
  · rename_i h
    split
    · rename_i h'
      subst h'
      simp
      rintro rfl
      simp
    · rename_i h'
      simp
      rintro rfl
      exact ⟨h, h'⟩

theorem ofName_ne_root (name : String) : ofName name ≠ root := by
  unfold ofName
  split
  · exact nofun
  · split <;> exact nofun

end Component

/-! ## The parts of a path -/

theorem components_of_isAbsolute {path : String} (h : isAbsolute path = true) :
    components path = .root :: ((names path).map Component.ofName).filter (· ≠ .current) := by
  unfold components
  dsimp only
  rw [if_pos h]

theorem components_of_relative {path : String} (h : isAbsolute path = false) :
    components path = ((names path).map Component.ofName).take 1 ++
      (((names path).map Component.ofName).drop 1).filter (· ≠ .current) := by
  unfold components
  dsimp only
  rw [h, if_neg Bool.false_ne_true]

/-- Only the first part of a relative path can be its own directory. -/
theorem filter_components {path : String} (h : isAbsolute path = false) :
    (components path).filter (· ≠ .current) =
      ((names path).map Component.ofName).filter (· ≠ .current) := by
  rw [components_of_relative h, List.filter_append, List.filter_filter]
  simp only [Bool.and_self]
  rw [← List.filter_append, List.take_append_drop]

/-- A path that is joined to another one adds its parts; where it starts is no part any more. -/
theorem components_join {rest : String} (hrest : isAbsolute rest = false) (path : String) :
    components (join path rest) =
      if components path = [] then components rest
      else components path ++ (components rest).filter (· ≠ .current) := by
  have hjoin := isAbsolute_join hrest path
  cases hpath : isAbsolute path with
  | true =>
    rw [hpath] at hjoin
    rw [components_of_isAbsolute hjoin, components_of_isAbsolute hpath, names_join hrest,
      if_neg (List.cons_ne_nil _ _), filter_components hrest, List.map_append, List.filter_append,
      List.cons_append]
  | false =>
    rw [hpath] at hjoin
    rw [components_of_relative hjoin, components_of_relative hpath, names_join hrest]
    cases hnames : names path with
    | nil => exact (components_of_relative hrest).symm
    | cons first others =>
      rw [if_neg (List.append_ne_nil_of_left_ne_nil (by simp) _), filter_components hrest]
      simp

/-! ## Paths with one part -/

theorem isAbsolute_of_components_normal {path name : String} {parts : List Component}
    (h : components path = .normal name :: parts) : isAbsolute path = false := by
  rw [Bool.eq_false_iff]
  intro habsolute
  rw [components_of_isAbsolute habsolute] at h
  cases h

/-- A path whose only part is a name consists of that name with dots and slashes behind it. -/
theorem exists_steps_of_components {path name : String} (h : components path = [.normal name]) :
    EntryName name ∧ ∃ dots, steps path = name :: dots ∧ ∀ d ∈ dots, d = "." ∨ d = "" := by
  rw [components_of_relative (isAbsolute_of_components_normal h)] at h
  obtain ⟨slash, hsteps, hslash⟩ := exists_steps_eq path
  cases hnames : names path with
  | nil =>
    rw [hnames] at h
    cases h
  | cons first others =>
    rw [hnames] at h
    obtain ⟨hfirst, hothers⟩ := List.cons.inj h
    obtain ⟨rfl, hdot, hdots⟩ := (Component.ofName_eq_normal_iff _ _).1 hfirst
    obtain ⟨hempty, hno⟩ := of_mem_names (hnames ▸ List.mem_cons_self)
    refine ⟨⟨hempty, hno, hdot, hdots⟩, others ++ slash, by rw [hsteps, hnames]; rfl, ?_⟩
    intro d hd
    rcases List.mem_append.1 hd with hd | hd
    · have hcurrent := List.filter_eq_nil_iff.1 hothers _ (List.mem_map_of_mem hd)
      exact .inl ((Component.ofName_eq_current_iff d).1 (by simpa using hcurrent))
    · rcases hslash with rfl | rfl
      · cases hd
      · exact .inr (List.mem_singleton.1 hd)

theorem ne_root_of_mem_components {path : String} (h : isAbsolute path = false) {part : Component}
    (hpart : part ∈ components path) : part ≠ .root := by
  rw [components_of_relative h] at hpart
  have hmem : part ∈ (names path).map Component.ofName := by
    rcases List.mem_append.1 hpart with hpart | hpart
    · exact List.mem_of_mem_take hpart
    · exact List.mem_of_mem_drop (List.mem_filter.1 hpart).1
  obtain ⟨name, -, rfl⟩ := List.mem_map.1 hmem
  exact Component.ofName_ne_root name

/-! ## Entries of a directory -/

/-- The path is that of something in the directory with the other path: it adds one name to it, and
that is a name of its own. -/
def EntryOf (directory path : String) : Prop :=
  ∃ name, EntryName name ∧ components path = components directory ++ [.normal name]

/-- What is joined to a path and has one part adds a name exactly if that part is the name. -/
theorem components_join_eq_concat_iff {rest : String} (hrest : isAbsolute rest = false)
    {part : Component} (hpart : components rest = [part]) (directory name : String) :
    components (join directory rest) = components directory ++ [.normal name] ↔
      part = .normal name := by
  rw [components_join hrest, hpart]
  constructor
  · intro h
    split at h
    · rename_i hnil
      rw [hnil] at h
      exact List.singleton_inj.1 h
    · have hmem : Component.normal name ∈ [part].filter (· ≠ .current) := by
        rw [List.append_cancel_left h]
        exact List.mem_singleton_self _
      exact (List.mem_singleton.1 (List.mem_filter.1 hmem).1).symm
  · rintro rfl
    split
    · rename_i hnil
      rw [hnil, List.nil_append]
    · rfl

/-- What is joined to the path of a directory and has one part gives the path of an entry, except
for the two parts that are the directory itself and the one above it. -/
theorem entryOf_join_iff {rest : String} (hrest : isAbsolute rest = false) {part : Component}
    (hpart : components rest = [part]) (directory : String) :
    EntryOf directory (join directory rest) ↔ part ≠ .current ∧ part ≠ .parent := by
  constructor
  · rintro ⟨name, -, hname⟩
    rw [(components_join_eq_concat_iff hrest hpart directory name).1 hname]
    exact ⟨nofun, nofun⟩
  · rintro ⟨hcurrent, hparent⟩
    cases part with
    | root =>
      exact absurd rfl (ne_root_of_mem_components hrest (hpart ▸ List.mem_singleton_self _))
    | current => exact absurd rfl hcurrent
    | parent => exact absurd rfl hparent
    | normal name =>
      exact ⟨name, (exists_steps_of_components hpart).1,
        (components_join_eq_concat_iff hrest hpart directory name).2 rfl⟩

end ScopedRetrieval.Volume.Path
