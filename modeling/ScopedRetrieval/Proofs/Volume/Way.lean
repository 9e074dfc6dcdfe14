/-
The way along the names of a path, one step for each name (`walk_stays`, `walk_ascends`,
`walk_enters`, `walk_follows`). A path leads to what its way ends at, and what it leads to stands at
its place (`resolve_eq_ok_iff`, `find?_place_of_resolve`).
-/
import ScopedRetrieval.Volume.Attributes
import Mathlib.Data.List.Basic
import Mathlib.Tactic.Common

namespace ScopedRetrieval.Volume

/-! ## What is found -/

namespace Target

/-- The place that is meant, whether something is there or not. -/
def place : Target → String
  | found place _ => place
  | absent directory name => Volume.place directory name

/-- What is at the place. -/
def node? : Target → Option Node
  | found _ node => some node
  | absent .. => none

end Target

/-! ## Ways -/

/-- A name that is looked up in a directory. -/
structure LookedUp (name : String) : Prop where
  ne_dot : ¬(name = "." ∨ name = "")
  ne_dots : name ≠ ".."
  short : ¬nameLimit < name.utf8ByteSize

/-- More names may stand behind one, but where a file is to be made no slash at the end. -/
def GoesOn (finish : Finish) (rest : List String) : Prop := ¬(finish = .create ∧ rest = [""])

theorem goesOn_nil (finish : Finish) : GoesOn finish [] := by
  rintro ⟨-, h⟩
  cases h

/-- The way from a directory along some names, through as many links as may be followed. -/
inductive Way (v : Volume) (finish : Finish) : Nat → String → List String → Target → Prop
  | ends {links here node} (hfind : v.nodes.find? here = some node) :
      Way v finish links here [] (.found here node)
  | stays {links here name rest target} (hon : GoesOn finish rest) (hdot : name = "." ∨ name = "")
      (hrest : Way v finish links here rest target) : Way v finish links here (name :: rest) target
  | ascends {links here rest target} (hon : GoesOn finish rest)
      (hrest : Way v finish links (directoryOf here) rest target) :
      Way v finish links here (".." :: rest) target
  | misses {links here name} (hname : LookedUp name)
      (hfind : v.nodes.find? (place here name) = none) :
      Way v finish links here [name] (.absent here name)
  | enters {links here name rest node target} (hon : GoesOn finish rest) (hname : LookedUp name)
      (hfind : v.nodes.find? (place here name) = some node) (hitem : node.item = .directory)
      (hrest : Way v finish links (place here name) rest target) :
      Way v finish links here (name :: rest) target
  /-- A file ends the way, and where it is to stay there, so does a link. -/
  | finds {links here name node} (hname : LookedUp name)
      (hfind : v.nodes.find? (place here name) = some node)
      (hitem : (∃ content, node.item = .file content) ∨
        finish = .stay ∧ ∃ aim, node.item = .link aim) :
      Way v finish links here [name] (.found (place here name) node)
  | follows {links here name rest node aim target} (hon : GoesOn finish rest)
      (hname : LookedUp name) (hfind : v.nodes.find? (place here name) = some node)
      (hitem : node.item = .link aim) (hpast : ¬(rest.isEmpty ∧ finish = .stay))
      (hrest : Way v finish links (startOf here aim) (Path.steps aim ++ rest) target) :
      Way v finish (links + 1) here (name :: rest) target

/-! ## Steps -/

/-- Follows a link, if another one may be followed. -/
def followed (v : Volume) (finish : Finish) :
    Nat → String → String → List String → Except Fault Target
  | 0, _, _, _ => .error .linkLoop
  | links + 1, here, aim, rest => v.walk finish links (startOf here aim) (Path.steps aim ++ rest)

theorem walk_eq_stepThrough (v : Volume) (finish : Finish) (links : Nat) :
    v.walk finish links = v.stepThrough finish (v.followed finish links) := by
  cases links with
  | zero => rw [walk]; rfl
  | succ links => rw [walk]; rfl

theorem walk_nil (v : Volume) (finish : Finish) (links : Nat) (here : String) :
    v.walk finish links here [] =
      match v.nodes.find? here with
      | some node => .ok (.found here node)
      | none => .error .notFound := by
  cases links <;> rfl

theorem walk_cons (v : Volume) (finish : Finish) (links : Nat) (here name : String)
    (rest : List String) :
    v.walk finish links here (name :: rest) =
      if finish = .create ∧ rest = [""] then .error .isDirectory
      else if name = "." ∨ name = "" then v.walk finish links here rest
      else if name = ".." then v.walk finish links (directoryOf here) rest
      else if nameLimit < name.utf8ByteSize then .error .nameTooLong
      else
        match v.nodes.find? (place here name) with
        | none => if rest.isEmpty then .ok (.absent here name) else .error .notFound
        | some node =>
          match node.item with
          | .directory => v.walk finish links (place here name) rest
          | .file _ =>
            if rest.isEmpty then .ok (.found (place here name) node) else .error .notDirectory
          | .link aim =>
            if rest.isEmpty ∧ finish = .stay then .ok (.found (place here name) node)
            else v.followed finish links here aim rest := by
  cases links <;> rfl

section

variable {v : Volume} {finish : Finish} {links : Nat} {here name aim : String}
  {rest : List String} {node : Node} (hon : GoesOn finish rest)

include hon

theorem walk_stays (hdot : name = "." ∨ name = "") :
    v.walk finish links here (name :: rest) = v.walk finish links here rest := by
  rw [walk_cons, if_neg hon, if_pos hdot]

theorem walk_ascends :
    v.walk finish links here (".." :: rest) = v.walk finish links (directoryOf here) rest := by
  rw [walk_cons, if_neg hon, if_neg (by decide), if_pos rfl]

variable (hname : LookedUp name) (hfind : v.nodes.find? (place here name) = some node)

include hname hfind

theorem walk_enters (hitem : node.item = .directory) :
    v.walk finish links here (name :: rest) = v.walk finish links (place here name) rest := by
  rw [walk_cons, if_neg hon, if_neg hname.ne_dot, if_neg hname.ne_dots, if_neg hname.short, hfind]
  dsimp only
  rw [hitem]

theorem walk_follows (hitem : node.item = .link aim) (hpast : ¬(rest.isEmpty ∧ finish = .stay)) :
    v.walk finish (links + 1) here (name :: rest) =
      v.walk finish links (startOf here aim) (Path.steps aim ++ rest) := by
  rw [walk_cons, if_neg hon, if_neg hname.ne_dot, if_neg hname.ne_dots, if_neg hname.short, hfind]
  dsimp only
  rw [hitem]
  exact if_neg hpast

end

/-! ## Whole ways -/

section

variable {v : Volume} {finish : Finish} {links : Nat} {here path : String} {names : List String}
  {target : Target}

theorem way_of_walk (h : v.walk finish links here names = .ok target) :
    v.Way finish links here names target := by
  induction links using Nat.strongRecOn generalizing here names with | ind links ihLinks =>
  induction names generalizing here with
  | nil =>
    rw [walk_nil] at h
    split at h
    · rename_i node hfind
      cases h
      exact .ends hfind
    · cases h
  | cons name rest ih =>
    rw [walk_cons] at h
    split at h
    · cases h
    rename_i hon
    split at h
    · rename_i hdot
      exact .stays hon hdot (ih h)
    rename_i hdot
    split at h
    · rename_i hdots
      exact hdots ▸ .ascends hon (ih h)
    rename_i hdots
    split at h
    · cases h
    rename_i hshort
    have hname : LookedUp name := ⟨hdot, hdots, hshort⟩
    cases hfind : v.nodes.find? (place here name) with
    | none =>
      rw [hfind] at h
      dsimp only at h
      split at h
      · rename_i hend
        cases h
        exact List.isEmpty_iff.1 hend ▸ .misses hname hfind
      · cases h
    | some node =>
      rw [hfind] at h
      dsimp only at h
      cases hitem : node.item with
      | directory =>
        rw [hitem] at h
        exact .enters hon hname hfind hitem (ih h)
      | file content =>
        rw [hitem] at h
        dsimp only at h
        split at h
        · rename_i hend
          cases h
          exact List.isEmpty_iff.1 hend ▸ .finds hname hfind (.inl ⟨content, hitem⟩)
        · cases h
      | link aim =>
        rw [hitem] at h
        dsimp only at h
        split at h
        · rename_i hend
          cases h
          exact List.isEmpty_iff.1 hend.1 ▸ .finds hname hfind (.inr ⟨hend.2, aim, hitem⟩)
        · rename_i hpast
          cases links with
          | zero => cases h
          | succ links =>
            exact .follows hon hname hfind hitem hpast (ihLinks links (Nat.lt_succ_self links) h)

theorem Way.walk_eq_ok (h : v.Way finish links here names target) :
    v.walk finish links here names = .ok target := by
  induction h with
  | ends hfind => rw [walk_nil, hfind]
  | stays hon hdot _ ih => rw [walk_stays hon hdot, ih]
  | ascends hon _ ih => rw [walk_ascends hon, ih]
  | misses hname hfind =>
    rw [walk_cons, if_neg (goesOn_nil _), if_neg hname.ne_dot, if_neg hname.ne_dots,
      if_neg hname.short, hfind]
    rfl
  | enters hon hname hfind hitem _ ih => rw [walk_enters hon hname hfind hitem, ih]
  | finds hname hfind hitem =>
    rw [walk_cons, if_neg (goesOn_nil _), if_neg hname.ne_dot, if_neg hname.ne_dots,
      if_neg hname.short, hfind]
    dsimp only
    rcases hitem with ⟨content, hitem⟩ | ⟨hstay, aim, hitem⟩
    · rw [hitem]
      rfl
    · rw [hitem]
      exact if_pos ⟨rfl, hstay⟩
  | follows hon hname hfind hitem hpast _ ih => rw [walk_follows hon hname hfind hitem hpast, ih]

/-- A slash at the end of a path leaves it where it is. -/
theorem Way.exists_eq_found {name : String} (hname : name = "")
    (h : v.Way finish links here [name] target) : ∃ node, target = .found here node := by
  cases h with
  | stays _ _ hrest =>
    cases hrest
    exact ⟨_, rfl⟩
  | ascends => exact absurd hname (by decide)
  | misses hlooked => exact absurd (.inr hname) hlooked.ne_dot
  | enters _ hlooked => exact absurd (.inr hname) hlooked.ne_dot
  | finds hlooked => exact absurd (.inr hname) hlooked.ne_dot
  | follows _ hlooked => exact absurd (.inr hname) hlooked.ne_dot

/-- What is found is what stands at its place. -/
theorem Way.find?_place (h : v.Way finish links here names target) :
    v.nodes.find? target.place = target.node? := by
  induction h with
  | ends hfind => exact hfind
  | stays _ _ _ ih => exact ih
  | ascends _ _ ih => exact ih
  | misses _ hfind => exact hfind
  | enters _ _ _ _ _ ih => exact ih
  | finds _ hfind _ => exact hfind
  | follows _ _ _ _ _ _ ih => exact ih

/-- A path leads to the end of its way, if it is neither empty nor too long. -/
theorem resolve_eq_ok_iff : v.resolve finish path = .ok target ↔
    path.isEmpty = false ∧ ¬pathLimit ≤ path.utf8ByteSize ∧
      v.Way finish linkLimit (startOf v.current path) (Path.steps path) target := by
  unfold resolve resolveNames
  constructor
  · intro h
    split at h
    · cases h
    rename_i hempty
    split at h
    · cases h
    rename_i hlong
    exact ⟨by simpa using hempty, hlong, way_of_walk h⟩
  · rintro ⟨hempty, hlong, hway⟩
    rw [hempty, if_neg Bool.false_ne_true, if_neg hlong, hway.walk_eq_ok]

theorem find?_place_of_resolve (h : v.resolve finish path = .ok target) :
    v.nodes.find? target.place = target.node? :=
  (resolve_eq_ok_iff.1 h).2.2.find?_place

end

end ScopedRetrieval.Volume
