/-
What paths lead to after a file was put at one place: to that file where their way ends there, and
to what it was before everywhere else (`resolve_put`). A path under which a file can be made leads
to the same end whether a link there is followed or is what is meant, except that it may then end at
the link (`resolve_of_create`). So what is written at a path is found there (`resolve_put_place`).
-/
import ScopedRetrieval.Proofs.Volume.Footprint

namespace ScopedRetrieval.Volume

/-! ## What is found -/

namespace Target

/-- The attributes of what is at the place. -/
def attributes (target : Target) : KeyMap (List UInt8) :=
  (target.node?.map (·.attributes)).getD .empty

/-- Nothing but a file is at the place. -/
def MayBeFile (target : Target) : Prop :=
  ∀ node, target.node? = some node → ∃ content, node.item = .file content

/-- What is found after a node was put at a place. -/
def afterPut (place : String) (node : Node) (target : Target) : Target :=
  if target.place = place then .found place node else target

theorem afterPut_of_eq {p : String} {target : Target} (h : target.place = p) (node : Node) :
    target.afterPut p node = .found p node :=
  if_pos h

theorem afterPut_of_ne {p : String} {target : Target} (h : target.place ≠ p) (node : Node) :
    target.afterPut p node = target :=
  if_neg h

end Target

/-! ## A file that is put at a place -/

section

variable {v : Volume} {finish : Finish} {links : Nat} {here path : String} {names : List String}
  {target : Target}

/-- Something that is no file can only be found where it was before a file was put somewhere. -/
theorem find?_put_of_not_file {p q : String}
    (hfile : ∀ before, v.nodes.find? p = some before → ∃ content, before.item = .file content)
    {found : Node} (hfind : v.nodes.find? q = some found)
    (hitem : ∀ content, found.item ≠ .file content) (node : Node) :
    (v.put p node).nodes.find? q = some found := by
  rw [find?_put, if_neg, hfind]
  rintro rfl
  obtain ⟨content, hcontent⟩ := hfile found hfind
  exact hitem content hcontent

/-- A file that comes or changes is found if the way ends at its place, and is in no other way. -/
theorem Way.put {p : String} {node : Node} {bytes : List UInt8} (hnode : node.item = .file bytes)
    (hfile : ∀ before, v.nodes.find? p = some before → ∃ content, before.item = .file content)
    (h : v.Way finish links here names target) :
    (v.put p node).Way finish links here names (target.afterPut p node) := by
  have hself : (v.put p node).nodes.find? p = some node := (find?_put ..).trans (if_pos rfl)
  have hother : ∀ {q}, q ≠ p → (v.put p node).nodes.find? q = v.nodes.find? q := fun hq =>
    (find?_put ..).trans (if_neg hq)
  induction h with
  | @ends _ here found hfind =>
    by_cases hp : (Target.found here found).place = p
    · rw [Target.afterPut_of_eq hp]
      obtain rfl : here = p := hp
      exact .ends hself
    · rw [Target.afterPut_of_ne hp]
      exact .ends ((hother hp).trans hfind)
  | stays hon hdot _ ih => exact .stays hon hdot ih
  | ascends hon _ ih => exact .ascends hon ih
  | @misses _ here name hname hfind =>
    by_cases hp : (Target.absent here name).place = p
    · rw [Target.afterPut_of_eq hp]
      obtain rfl : Volume.place here name = p := hp
      exact .finds hname hself (.inl ⟨bytes, hnode⟩)
    · rw [Target.afterPut_of_ne hp]
      exact .misses hname ((hother hp).trans hfind)
  | enters hon hname hfind hitem _ ih =>
    refine .enters hon hname (find?_put_of_not_file hfile hfind (fun _ => ?_) node) hitem ih
    rw [hitem]
    exact nofun
  | @finds _ here name found hname hfind hitem =>
    by_cases hp : (Target.found (Volume.place here name) found).place = p
    · rw [Target.afterPut_of_eq hp]
      obtain rfl : Volume.place here name = p := hp
      exact .finds hname hself (.inl ⟨bytes, hnode⟩)
    · rw [Target.afterPut_of_ne hp]
      exact .finds hname ((hother hp).trans hfind) hitem
  | follows hon hname hfind hitem hpast _ ih =>
    refine .follows hon hname (find?_put_of_not_file hfile hfind (fun _ => ?_) node) hitem hpast ih
    rw [hitem]
    exact nofun

/-- The way to a file that is there or can be made ends there also if it is to follow a link or to
stay; only that it may stay at a link. -/
theorem Way.of_create (h : v.Way .create links here names target) (finish : Finish) :
    v.Way finish links here names target ∨ finish = .stay ∧ ∃ place node aim,
      v.Way .stay links here names (.found place node) ∧ node.item = .link aim := by
  have hany : ∀ {rest}, GoesOn .create rest → GoesOn finish rest := fun hon h => hon ⟨rfl, h.2⟩
  have hstay : ∀ {rest}, GoesOn .stay rest := (nomatch ·.1)
  induction h with
  | ends hfind => exact .inl (.ends hfind)
  | stays hon hdot _ ih =>
    rcases ih with hrest | ⟨hfinish, place, node, aim, hrest, hlink⟩
    · exact .inl (.stays (hany hon) hdot hrest)
    · exact .inr ⟨hfinish, place, node, aim, .stays hstay hdot hrest, hlink⟩
  | ascends hon _ ih =>
    rcases ih with hrest | ⟨hfinish, place, node, aim, hrest, hlink⟩
    · exact .inl (.ascends (hany hon) hrest)
    · exact .inr ⟨hfinish, place, node, aim, .ascends hstay hrest, hlink⟩
  | misses hname hfind => exact .inl (.misses hname hfind)
  | enters hon hname hfind hitem _ ih =>
    rcases ih with hrest | ⟨hfinish, place, node, aim, hrest, hlink⟩
    · exact .inl (.enters (hany hon) hname hfind hitem hrest)
    · exact .inr ⟨hfinish, place, node, aim, .enters hstay hname hfind hitem hrest, hlink⟩
  | finds hname hfind hitem =>
    rcases hitem with hitem | ⟨hcreate, -⟩
    · exact .inl (.finds hname hfind (.inl hitem))
    · cases hcreate
  | @follows _ here name rest node aim _ hon hname hfind hitem _ _ ih =>
    by_cases hend : rest.isEmpty ∧ finish = .stay
    · obtain rfl := List.isEmpty_iff.1 hend.1
      exact .inr ⟨hend.2, _, node, aim, .finds hname hfind (.inr ⟨rfl, aim, hitem⟩), hitem⟩
    · rcases ih with hrest | ⟨hfinish, place, found, aim', hrest, hlink⟩
      · exact .inl (.follows (hany hon) hname hfind hitem hend hrest)
      · have hpast : ¬(rest.isEmpty ∧ Finish.stay = .stay) := fun h => hend ⟨h.1, hfinish⟩
        refine .inr ⟨hfinish, place, found, aim', ?_, hlink⟩
        exact .follows hstay hname hfind hitem hpast hrest

/-! ## Paths -/

theorem resolve_put {p : String} {node : Node} {bytes : List UInt8}
    (hnode : node.item = .file bytes)
    (hfile : ∀ before, v.nodes.find? p = some before → ∃ content, before.item = .file content)
    (h : v.resolve finish path = .ok target) :
    (v.put p node).resolve finish path = .ok (target.afterPut p node) := by
  obtain ⟨hempty, hlong, hway⟩ := resolve_eq_ok_iff.1 h
  exact resolve_eq_ok_iff.2 ⟨hempty, hlong, hway.put hnode hfile⟩

theorem resolve_of_create (h : v.resolve .create path = .ok target) (finish : Finish) :
    v.resolve finish path = .ok target ∨ finish = .stay ∧ ∃ place node aim,
      v.resolve .stay path = .ok (.found place node) ∧ node.item = .link aim := by
  obtain ⟨hempty, hlong, hway⟩ := resolve_eq_ok_iff.1 h
  rcases hway.of_create finish with hway | ⟨hfinish, place, node, aim, hway, hlink⟩
  · exact .inl (resolve_eq_ok_iff.2 ⟨hempty, hlong, hway⟩)
  · exact .inr ⟨hfinish, place, node, aim, resolve_eq_ok_iff.2 ⟨hempty, hlong, hway⟩, hlink⟩

/-! ## Writing -/

/-- Writing puts a file at the end of the way, with the attributes of the one that was there. -/
theorem write_eq_put {w : Volume} {content : List UInt8} (h : v.write path content = .ok w) :
    (∀ fault, checkPath fault path = .ok ()) ∧
      ∃ target, v.resolve .create path = .ok target ∧ target.MayBeFile ∧
        w = v.put target.place ⟨.file content, target.attributes⟩ := by
  constructor
  · intro fault
    unfold write at h
    unfold checkPath at h ⊢
    split at h
    · cases h
    · rename_i hnul
      exact if_neg hnul
  · rcases write_cases h with ⟨directory, name, hresolve, hw⟩ | ⟨place, node, before, hresolve,
      hfile, hw⟩
    · exact ⟨_, hresolve, nofun, hw⟩
    · refine ⟨_, hresolve, fun node' hnode => ?_, hw⟩
      cases hnode
      exact ⟨before, hfile⟩

section

variable {bytes : List UInt8} {attributes : KeyMap (List UInt8)} (hfile : target.MayBeFile)

include hfile

/-- A path leads to the file that is put at the end of its way. -/
theorem resolve_put_place (h : v.resolve finish path = .ok target) :
    (v.put target.place ⟨.file bytes, attributes⟩).resolve finish path =
      .ok (.found target.place ⟨.file bytes, attributes⟩) := by
  have hthere := find?_place_of_resolve h
  rw [resolve_put rfl (fun before hbefore => hfile before (hthere ▸ hbefore)) h,
    Target.afterPut_of_eq rfl]

/-- A path that stays at a link still does when a file is put at the end of the way behind it. -/
theorem resolve_put_of_link (htarget : v.resolve .create path = .ok target) {place : String}
    {link : Node} {aim : String} (hlink : link.item = .link aim)
    (h : v.resolve .stay path = .ok (.found place link)) :
    (v.put target.place ⟨.file bytes, attributes⟩).resolve .stay path =
      .ok (.found place link) := by
  have hthere := find?_place_of_resolve htarget
  have hbefore : ∀ before, v.nodes.find? target.place = some before →
      ∃ content, before.item = .file content := fun before hbefore =>
    hfile before (hthere ▸ hbefore)
  rw [resolve_put rfl hbefore h, Target.afterPut_of_ne]
  intro hplace
  obtain ⟨content, hcontent⟩ := hbefore link (hplace ▸ find?_place_of_resolve h)
  rw [hlink] at hcontent
  cases hcontent

end

/-- What is found at a path has its attributes set, unless it is a link. -/
theorem setAttribute_eq_put {w : Volume} {name place : String} {value : List UInt8} {node : Node}
    (hresolve : v.resolve .stay path = .ok (.found place node))
    (h : v.setAttribute path name value = .ok w) : (∀ aim, node.item ≠ .link aim) ∧
      w = v.put place { node with attributes := node.attributes.insert name value } := by
  obtain ⟨place', node', hattribute, hlink, rfl⟩ := setAttribute_cases h
  have hsame := hresolve.symm.trans (resolve_of_attributeNode hattribute)
  cases hsame
  exact ⟨hlink, rfl⟩

end

end ScopedRetrieval.Volume
