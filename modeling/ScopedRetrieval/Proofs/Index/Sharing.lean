/-
An index in memory, where its snapshots share its map. A snapshot is taken without a copy: it
points at the map of the index. The index therefore works in place only on a map that is its own,
and first makes a copy of one that a snapshot points at. From outside this looks like an index and
snapshots that are values (`observed_run`), so no change shows in a snapshot taken before it.
-/
import ScopedRetrieval.Proofs.Index.LastStored
import Mathlib.Logic.Function.Basic

namespace ScopedRetrieval

open Index (Change)

/-! ## The index in memory -/

/-- A snapshot as it is held. -/
structure View where
  -- where its map is, which is not copied
  address : Nat
  generation : UInt64

/-- An index whose map is in memory, and the snapshots of it that are held. -/
structure SharedIndex where
  maps : Nat → KeyMap Entry := fun _ => .empty
  -- from here on no address is in use
  fresh : Nat := 1
  -- where the map of the index is
  current : Nat := 0
  generation : UInt64 := 0
  loaded : Bool := false
  -- in the order in which they were taken, `none` for those that were given up
  views : List (Option View) := []
  current_lt : current < fresh := by decide
  views_lt : ∀ v, some v ∈ views → v.address < fresh := by simp

/-- What can be asked of an index and of the snapshots taken of it. -/
inductive Call where
  | change (c : Change)
  | get (id : String)
  | enumerate
  /-- Gives up the snapshot that was taken after so many others. -/
  | release (n : Nat)

namespace SharedIndex

def new : SharedIndex := {}

def entries (s : SharedIndex) : KeyMap Entry := s.maps s.current

def get? (s : SharedIndex) (id : String) : Option Entry := s.entries.find? id

/-- What a snapshot shows. -/
def read (s : SharedIndex) (v : View) : Snapshot := ⟨s.maps v.address, v.generation⟩

/-- Whether a snapshot points at the map of the index. -/
def isShared (s : SharedIndex) : Bool := s.views.any fun v => v.any (·.address == s.current)

/-- Goes on with another map, at an address of its own. -/
def allocate (s : SharedIndex) (m : KeyMap Entry) : SharedIndex :=
  { s with
    maps := Function.update s.maps s.fresh m
    fresh := s.fresh + 1
    current := s.fresh
    current_lt := Nat.lt_succ_self _
    views_lt := fun v hv => Nat.lt_succ_of_lt (s.views_lt v hv) }

/-- Makes the map of the index its own: one that a snapshot points at is copied. -/
def own (s : SharedIndex) : SharedIndex := if s.isShared then s.allocate s.entries else s

def overwrite (s : SharedIndex) (m : KeyMap Entry) : SharedIndex :=
  { s with maps := Function.update s.maps s.current m }

/-- Changes the map of the index in place, once it is its own. -/
def modify (s : SharedIndex) (f : KeyMap Entry → KeyMap Entry) : SharedIndex :=
  s.own.overwrite (f s.own.entries)

def bump (s : SharedIndex) : SharedIndex := { s with generation := s.generation + 1 }

def markLoaded (s : SharedIndex) : SharedIndex := { s with loaded := true }

def put (s : SharedIndex) (e : Entry) : SharedIndex := (s.modify (·.insert e.document.id e)).bump

def remove (s : SharedIndex) (id : String) : Bool × SharedIndex :=
  if s.entries.contains id then (true, (s.modify (·.erase id)).bump) else (false, s)

def replaceAll (s : SharedIndex) (entries : List Entry) : SharedIndex :=
  (s.allocate (Index.entryMap entries)).bump.markLoaded

def clear (s : SharedIndex) : SharedIndex := (s.allocate .empty).bump

def enumerate (s : SharedIndex) : SharedIndex :=
  { s with
    -- nothing is copied: the snapshot points at the map of the index
    views := s.views ++ [some ⟨s.current, s.generation⟩]
    views_lt := fun v hv => by
      rcases List.mem_append.1 hv with hv | hv
      · exact s.views_lt v hv
      · obtain rfl := Option.some.inj (List.mem_singleton.1 hv)
        exact s.current_lt }

def release (s : SharedIndex) (n : Nat) : SharedIndex :=
  { s with
    views := s.views.set n none
    views_lt := fun v hv => by
      rcases List.mem_or_eq_of_mem_set hv with hv | hv
      · exact s.views_lt v hv
      · cases hv }

def apply (s : SharedIndex) : Change → SharedIndex
  | .put e => s.put e
  | .remove id => (s.remove id).2
  | .replaceAll entries => s.replaceAll entries
  | .clear => s.clear
  | .markLoaded => s.markLoaded

def perform (s : SharedIndex) : Call → SharedIndex
  | .change c => s.apply c
  | .get _ => s
  | .enumerate => s.enumerate
  | .release n => s.release n

def run (s : SharedIndex) (calls : List Call) : SharedIndex := calls.foldl perform s

end SharedIndex

/-! ## The index and its snapshots as values -/

/-- An index and the snapshots taken of it, each with what it showed when it was taken. -/
structure Session where
  index : Index := .empty
  snapshots : List (Option Snapshot) := []

namespace Session

def perform (s : Session) : Call → Session
  | .change c => { s with index := c.apply s.index }
  | .get _ => s
  | .enumerate => { s with snapshots := s.snapshots ++ [some s.index.snapshot] }
  | .release n => { s with snapshots := s.snapshots.set n none }

def run (s : Session) (calls : List Call) : Session := calls.foldl perform s

end Session

namespace SharedIndex

def toIndex (s : SharedIndex) : Index := ⟨s.entries, s.generation, s.loaded⟩

def snapshots (s : SharedIndex) : List (Option Snapshot) := s.views.map (·.map s.read)

/-- What is seen of an index in memory and of its snapshots. -/
def observed (s : SharedIndex) : Session := ⟨s.toIndex, s.snapshots⟩

variable (s : SharedIndex)

@[simp] theorem toIndex_bump :
    s.bump.toIndex = { s.toIndex with generation := s.toIndex.generation + 1 } := rfl

@[simp] theorem toIndex_markLoaded : s.markLoaded.toIndex = s.toIndex.markLoaded := rfl

@[simp] theorem snapshots_bump : s.bump.snapshots = s.snapshots := rfl

@[simp] theorem snapshots_markLoaded : s.markLoaded.snapshots = s.snapshots := rfl

/-! ## Maps of their own -/

/-- Snapshots show the same as before where their maps are left alone. -/
theorem snapshots_update {a : Nat} (h : ∀ v, some v ∈ s.views → v.address ≠ a)
    (m : KeyMap Entry) :
    s.views.map (·.map fun v => (⟨Function.update s.maps a m v.address, v.generation⟩ : Snapshot)) =
      s.snapshots := by
  refine List.map_congr_left fun v hv => ?_
  cases v with
  | none => rfl
  | some v => simp [read, Function.update_of_ne (h v hv)]

@[simp] theorem snapshots_allocate (m : KeyMap Entry) : (s.allocate m).snapshots = s.snapshots :=
  s.snapshots_update (fun v hv => Nat.ne_of_lt (s.views_lt v hv)) m

@[simp] theorem toIndex_allocate (m : KeyMap Entry) :
    (s.allocate m).toIndex = { s.toIndex with entries := m } := by
  have : (s.allocate m).entries = m := Function.update_self ..
  unfold toIndex
  rw [this]
  rfl

theorem isShared_eq_false_iff :
    s.isShared = false ↔ ∀ v, some v ∈ s.views → v.address ≠ s.current := by
  unfold isShared
  rw [List.any_eq_false]
  constructor
  · intro h v hv
    simpa using h (some v) hv
  · intro h v hv
    cases v with
    | none => simp
    | some v => simpa using h v hv

/-- Making a map its own shows nowhere, and then no snapshot points at it. -/
theorem own_spec : s.own.toIndex = s.toIndex ∧ s.own.snapshots = s.snapshots ∧
    s.own.isShared = false := by
  unfold own
  split
  -- the copy is at a new address, to which nothing points yet
  · refine ⟨s.toIndex_allocate _, s.snapshots_allocate _, ?_⟩
    rw [isShared_eq_false_iff]
    exact fun v hv => Nat.ne_of_lt (s.views_lt v hv)
  · rename_i h
    exact ⟨rfl, rfl, by simpa using h⟩

@[simp] theorem toIndex_modify (f : KeyMap Entry → KeyMap Entry) :
    (s.modify f).toIndex = { s.toIndex with entries := f s.toIndex.entries } := by
  have hoverwrite : (s.modify f).entries = f s.own.toIndex.entries := Function.update_self ..
  show (⟨(s.modify f).entries, s.own.toIndex.generation, s.own.toIndex.loaded⟩ : Index) = _
  rw [hoverwrite, s.own_spec.1]

/-- No snapshot notices that the index changes its map. -/
@[simp] theorem snapshots_modify (f : KeyMap Entry → KeyMap Entry) :
    (s.modify f).snapshots = s.snapshots := by
  obtain ⟨-, hsnapshots, hown⟩ := s.own_spec
  rw [← hsnapshots]
  exact s.own.snapshots_update (s.own.isShared_eq_false_iff.1 hown) _

/-! ## Call by call -/

theorem remove_spec (id : String) : (s.remove id).1 = (s.toIndex.remove id).1 ∧
    (s.remove id).2.toIndex = (s.toIndex.remove id).2 ∧
    (s.remove id).2.snapshots = s.snapshots ∧ ((s.remove id).1 = false → (s.remove id).2 = s) := by
  have hentries : s.entries = s.toIndex.entries := rfl
  unfold remove Index.remove
  rw [hentries]
  split <;> simp

/-- A change does to the index in memory what it does to the index, and nothing to its snapshots. -/
theorem observed_apply (c : Change) :
    (s.apply c).observed = ⟨c.apply s.toIndex, s.snapshots⟩ := by
  cases c with
  | put e => simp [observed, apply, put, Change.apply, Index.put]
  | remove id =>
    obtain ⟨-, hindex, hsnapshots, -⟩ := s.remove_spec id
    exact congrArg₂ Session.mk hindex hsnapshots
  | replaceAll entries =>
    simp [observed, apply, replaceAll, Change.apply, Index.replaceAll, Index.markLoaded]
  | clear => simp [observed, apply, clear, Change.apply, Index.clear]
  | markLoaded => rfl

theorem snapshots_enumerate :
    s.enumerate.snapshots = s.snapshots ++ [some s.toIndex.snapshot] := by
  show (s.views ++ [_]).map _ = s.views.map _ ++ _
  rw [List.map_append]
  rfl

theorem snapshots_release (n : Nat) : (s.release n).snapshots = s.snapshots.set n none := by
  show (s.views.set n none).map _ = (s.views.map _).set n none
  rw [List.map_set]
  rfl

theorem observed_perform (call : Call) : (s.perform call).observed = s.observed.perform call := by
  cases call with
  | change c => exact s.observed_apply c
  | get id => rfl
  | enumerate => exact congrArg (Session.mk s.toIndex) s.snapshots_enumerate
  | release n => exact congrArg (Session.mk s.toIndex) (s.snapshots_release n)

/-- Index and snapshots in memory are seen as the values they stand for, whatever the calls. -/
theorem observed_run (calls : List Call) : (s.run calls).observed = s.observed.run calls := by
  induction calls generalizing s with
  | nil => rfl
  | cons call rest ih =>
    show ((s.perform call).run rest).observed = (s.observed.perform call).run rest
    rw [ih, observed_perform]

end SharedIndex

/-! ## What becomes of a snapshot -/

def Call.change? : Call → Option Change
  | .change c => some c
  | .get _ | .enumerate | .release _ => none

/-- The changes that some calls make, in their order. -/
def Call.changesOf (calls : List Call) : List Change := calls.filterMap Call.change?

def Call.takes : Call → Bool
  | .enumerate => true
  | .change _ | .get _ | .release _ => false

/-- How many snapshots some calls take, which is the number of the next one. -/
def Call.taken (calls : List Call) : Nat := calls.countP Call.takes

namespace Session

theorem index_run (s : Session) (calls : List Call) :
    (s.run calls).index = s.index.replay (Call.changesOf calls) := by
  induction calls generalizing s with
  | nil => rfl
  | cons call rest ih =>
    show ((s.perform call).run rest).index = _
    rw [ih]
    cases call <;> rfl

theorem length_snapshots_run (s : Session) (calls : List Call) :
    (s.run calls).snapshots.length = s.snapshots.length + Call.taken calls := by
  induction calls generalizing s with
  | nil => rfl
  | cons call rest ih =>
    show ((s.perform call).run rest).snapshots.length = _ + (call :: rest).countP Call.takes
    rw [ih, List.countP_cons, Call.taken]
    cases call with
    | change | get => rfl
    | enumerate => simp [perform, Call.takes]; omega
    | release => simp [perform, Call.takes]

theorem snapshots_perform {s : Session} {n : Nat} {snapshot : Option Snapshot}
    (h : s.snapshots[n]? = some snapshot) {call : Call} (hcall : call ≠ .release n) :
    (s.perform call).snapshots[n]? = some snapshot := by
  cases call with
  | change | get => exact h
  | enumerate =>
    obtain ⟨hn, -⟩ := List.getElem?_eq_some_iff.1 h
    show (s.snapshots ++ [_])[n]? = _
    rw [List.getElem?_append_left hn, h]
  | release m =>
    have hne : m ≠ n := fun heq => hcall (heq ▸ rfl)
    show (s.snapshots.set m none)[n]? = _
    rw [List.getElem?_set_ne hne, h]

theorem snapshots_run {s : Session} {n : Nat} {snapshot : Option Snapshot}
    (h : s.snapshots[n]? = some snapshot) {calls : List Call} (hcalls : .release n ∉ calls) :
    (s.run calls).snapshots[n]? = some snapshot := by
  induction calls generalizing s with
  | nil => exact h
  | cons call rest ih =>
    rw [List.mem_cons, not_or] at hcalls
    exact ih (snapshots_perform h (Ne.symm hcalls.1)) hcalls.2

/-- A snapshot that is not given up keeps the entries and the generation of the moment it was
taken. -/
theorem snapshots_run_enumerate (before after : List Call)
    (h : .release (Call.taken before) ∉ after) :
    (run {} (before ++ .enumerate :: after)).snapshots[Call.taken before]? =
      some (some (Index.replay .empty (Call.changesOf before)).snapshot) := by
  have hlength : (run {} before).snapshots.length = Call.taken before := by
    rw [length_snapshots_run]
    exact Nat.zero_add _
  have htaken : ((run {} before).perform .enumerate).snapshots[Call.taken before]? =
      some (some (Index.replay .empty (Call.changesOf before)).snapshot) := by
    show ((run {} before).snapshots ++ [_])[_]? = _
    rw [← hlength, List.getElem?_concat_length, index_run]
  -- what comes after it gives up other snapshots at most
  rw [run, List.foldl_append]
  exact snapshots_run htaken h

end Session

/-- After whatever calls an index in memory is the index that their changes make, which finds and
lists just what was stored last; a removal that finds nothing leaves all as it was, in memory too;
and every snapshot that was taken and not given up shows the index of the moment it was taken. -/
theorem SharedIndex.run_reflects_calls (calls : List Call) :
    let s := SharedIndex.new.run calls
    s.toIndex = Index.replay .empty (Call.changesOf calls) ∧
      s.toIndex.Reflects (Call.changesOf calls) ∧
      (∀ id, s.get? id = s.toIndex.get? id ∧ (s.remove id).1 = (s.toIndex.remove id).1 ∧
        ((s.remove id).1 = false → (s.remove id).2 = s)) ∧
      ∀ before after, calls = before ++ .enumerate :: after → .release (Call.taken before) ∉ after →
        s.snapshots[Call.taken before]? =
          some (some (Index.replay .empty (Call.changesOf before)).snapshot) := by
  intro s
  have hobserved : s.observed = Session.run {} calls := SharedIndex.new.observed_run calls
  have hindex : s.toIndex = Index.replay .empty (Call.changesOf calls) := by
    show s.observed.index = _
    rw [hobserved, Session.index_run]
  refine ⟨hindex, ?_, fun id => ⟨rfl, (s.remove_spec id).1, (s.remove_spec id).2.2.2⟩, ?_⟩
  · rw [hindex]
    exact Index.reflects_replay _
  · rintro before after rfl hreleased
    show s.observed.snapshots[_]? = _
    rw [hobserved]
    exact Session.snapshots_run_enumerate before after hreleased

end ScopedRetrieval
