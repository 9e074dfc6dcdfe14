/-
What a path to an entry of a directory touches. A single name that is joined to the path of a
directory is looked up at its place there, and what stands elsewhere makes no difference
(`resolve_entry_congr`, `resolve_entry_eq_ok`); so what is written and set at such a path changes
that one place (`changedAt_of_write`, `changedAt_of_setAttribute`).
-/
import ScopedRetrieval.Proofs.Volume.Change
import ScopedRetrieval.Proofs.Volume.Components

namespace ScopedRetrieval.Volume

/-! ## Looking at one place -/

/-- What is joined to the path is looked up in the directory: the path leads there, or it is empty
and the directory is the one where relative paths start. -/
def StartsAt (v : Volume) (path directory : String) : Prop :=
  v.LeadsTo path directory ∨ path = "" ∧ directory = v.current

theorem StartsAt.of_keepsWays {v w : Volume} {path directory : String} (hvw : v.KeepsWays w)
    (h : v.StartsAt path directory) : w.StartsAt path directory :=
  h.imp (fun h => h.of_keepsWays hvw) fun h => ⟨h.1, h.2.trans hvw.current.symm⟩

theorem lookIn_eq_ok {v : Volume} {directory name : String} {target : Target}
    (h : v.lookIn directory name = .ok target) :
    v.nodes.find? (place directory name) = none ∧ target = .absent directory name ∨
      ∃ node, v.nodes.find? (place directory name) = some node ∧
        target = .found (place directory name) node := by
  unfold lookIn at h
  split at h
  · cases h
  cases hfind : v.nodes.find? (place directory name) with
  | none =>
    rw [hfind] at h
    exact .inl ⟨rfl, (Except.ok.inj h).symm⟩
  | some node =>
    rw [hfind] at h
    exact .inr ⟨node, rfl, (Except.ok.inj h).symm⟩

section

variable {v : Volume} {root directory id name : String}
  (hid : Path.components id = [.normal name]) (hroot : v.StartsAt root directory)
  (hlink : v.NoLinkAt (place directory name))

include hid hroot hlink

/-- The way to the entry begins in its directory, and there is no link on it. -/
theorem resolve_entry (finish : Finish) :
    v.resolve finish (Path.join root id) =
      if pathLimit ≤ (Path.join root id).utf8ByteSize then .error .nameTooLong
      else v.walk finish 0 directory (Path.steps id) := by
  have hrelative := Path.isAbsolute_of_components_normal hid
  obtain ⟨hname, dots, hsteps, hdots⟩ := Path.exists_steps_of_components hid
  rw [hsteps]
  rcases hroot with hroot | ⟨rfl, rfl⟩
  · exact resolve_join_eq_walk hname hlink hdots hroot hrelative hsteps finish
  · have hempty : id.isEmpty = false := by
      rw [Bool.eq_false_iff]
      intro hempty
      rw [String.isEmpty_iff.1 hempty] at hid
      cases hid
    rw [Path.join_empty hrelative]
    unfold resolve resolveNames startOf
    rw [hempty, hrelative, hsteps, if_neg Bool.false_ne_true, if_neg Bool.false_ne_true]
    split
    · rfl
    · exact stepThrough_entry_congr hname hlink hdots rfl finish _ _

theorem resolve_entry_congr {w : Volume} (hroot' : w.StartsAt root directory)
    (hfind : w.nodes.find? (place directory name) = v.nodes.find? (place directory name))
    (finish : Finish) :
    w.resolve finish (Path.join root id) = v.resolve finish (Path.join root id) := by
  have hlink' : w.NoLinkAt (place directory name) := by
    unfold NoLinkAt
    rw [hfind]
    exact hlink
  obtain ⟨hname, dots, hsteps, hdots⟩ := Path.exists_steps_of_components hid
  rw [resolve_entry hid hroot hlink, resolve_entry hid hroot' hlink', hsteps]
  unfold walk
  rw [stepThrough_entry_congr hname hlink hdots hfind]

/-- Whatever is found is what stands at the place. -/
theorem resolve_entry_eq_ok {finish : Finish} {target : Target}
    (h : v.resolve finish (Path.join root id) = .ok target) :
    v.nodes.find? (place directory name) = none ∧ target = .absent directory name ∨
      ∃ node, v.nodes.find? (place directory name) = some node ∧
        target = .found (place directory name) node := by
  obtain ⟨hname, dots, hsteps, hdots⟩ := Path.exists_steps_of_components hid
  rw [resolve_entry hid hroot hlink, hsteps] at h
  split at h
  · cases h
  · exact lookIn_eq_ok (lookIn_of_stepThrough_entry hname hlink hdots h)

end

theorem resolve_of_attributeNode {v : Volume} {path place : String} {node : Node}
    (h : v.attributeNode path = .ok (place, node)) :
    v.resolve .stay path = .ok (.found place node) := by
  rw [← node_eq_ok_iff]
  unfold attributeNode at h
  cases hcheck : checkPath .invalid path with
  | error fault =>
    rw [hcheck] at h
    cases h
  | ok =>
    cases hnode : v.node .stay path with
    | error fault =>
      rw [hcheck, hnode] at h
      cases h
    | ok found =>
      rw [hcheck, hnode] at h
      simp only [bind, Except.bind] at h
      split at h
      · exact h
      · cases h

/-! ## Changing one place -/

theorem KeepsWays.trans {u v w : Volume} (h : u.KeepsWays v) (h' : v.KeepsWays w) :
    u.KeepsWays w := by
  refine ⟨h'.current.trans h.current, fun place node hfind hway => ?_⟩
  obtain ⟨node', hfind', hitem⟩ := h.item place node hfind hway
  obtain ⟨node'', hfind'', hitem'⟩ := h'.item place node' hfind' (hitem.symm ▸ hway)
  exact ⟨node'', hfind'', hitem'.trans hitem⟩

/-- The volumes differ at most in what stands at the place, and there a file at most came or
changed, or attributes did. -/
structure ChangedAt (v w : Volume) (place : String) : Prop where
  elsewhere : ∀ place', place' ≠ place → w.nodes.find? place' = v.nodes.find? place'
  keepsAttributes : w.keepsAttributes = v.keepsAttributes
  keepsWays : v.KeepsWays w
  noLink : v.NoLinkAt place → w.NoLinkAt place

namespace ChangedAt

variable {u v w : Volume} {place : String}

theorem refl (v : Volume) (place : String) : v.ChangedAt v place :=
  ⟨fun _ _ => rfl, rfl, .refl v, id⟩

theorem trans (h : u.ChangedAt v place) (h' : v.ChangedAt w place) : u.ChangedAt w place where
  elsewhere place' hne := (h'.elsewhere place' hne).trans (h.elsewhere place' hne)
  keepsAttributes := h'.keepsAttributes.trans h.keepsAttributes
  keepsWays := h.keepsWays.trans h'.keepsWays
  noLink hlink := h'.noLink (h.noLink hlink)

/-- A directory or a link that was at the place must stay what it was. -/
theorem of_put {node : Node}
    (hway : ∀ before, v.nodes.find? place = some before →
      (∀ content, before.item ≠ .file content) → node.item = before.item)
    (hlink : v.NoLinkAt place → ∀ target, node.item ≠ .link target) :
    v.ChangedAt (v.put place node) place := by
  constructor
  case elsewhere =>
    intro place' hne
    rw [find?_put, if_neg hne]
  case keepsAttributes => rfl
  case keepsWays =>
    refine ⟨rfl, fun place' before hbefore hitem => ?_⟩
    rw [find?_put]
    split
    · rename_i heq
      exact ⟨node, rfl, hway before (heq ▸ hbefore) hitem⟩
    · exact ⟨before, hbefore, rfl⟩
  case noLink =>
    intro hbefore after target hafter
    rw [find?_put, if_pos rfl, Option.some_inj] at hafter
    rw [← hafter]
    exact hlink hbefore target

end ChangedAt

section

variable {v w : Volume} {root directory id name : String}
  (hid : Path.components id = [.normal name]) (hroot : v.StartsAt root directory)
  (hlink : v.NoLinkAt (place directory name))

include hid hroot hlink

theorem changedAt_of_write {content : List UInt8}
    (h : v.write (Path.join root id) content = .ok w) :
    v.ChangedAt w (place directory name) := by
  rcases write_cases h with ⟨directory', name', hresolve, rfl⟩ | ⟨place', node, before, hresolve,
    hfile, rfl⟩
  · rcases resolve_entry_eq_ok hid hroot hlink hresolve with ⟨habsent, htarget⟩ | ⟨_, -, htarget⟩
    · cases htarget
      refine .of_put (fun before hbefore => ?_) fun _ => nofun
      rw [habsent] at hbefore
      cases hbefore
    · cases htarget
  · rcases resolve_entry_eq_ok hid hroot hlink hresolve with ⟨-, htarget⟩ | ⟨_, hfind, htarget⟩
    · cases htarget
    · cases htarget
      refine .of_put (fun before' hbefore hway => ?_) fun _ => nofun
      rw [hfind] at hbefore
      cases hbefore
      exact absurd hfile (hway before)

theorem changedAt_of_setAttribute {key : String} {value : List UInt8}
    (h : v.setAttribute (Path.join root id) key value = .ok w) :
    v.ChangedAt w (place directory name) := by
  obtain ⟨place', node, hnode, hnoLink, rfl⟩ := setAttribute_cases h
  have hresolve := resolve_of_attributeNode hnode
  rcases resolve_entry_eq_ok hid hroot hlink hresolve with ⟨-, htarget⟩ | ⟨_, hfind, htarget⟩
  · cases htarget
  · cases htarget
    refine .of_put (fun before hbefore _ => ?_) fun _ => hnoLink
    rw [hfind] at hbefore
    cases hbefore
    rfl

end

end ScopedRetrieval.Volume
