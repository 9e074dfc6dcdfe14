/-
What changes of a volume leave. A file that is written and an attribute that is set change the node
at one place (`write_cases`, `setAttribute_cases`), and a directory shows what stands at the places
right in it (`mem_entriesIn_iff`).
-/
import ScopedRetrieval.Proofs.KeyMap.Enumeration
import ScopedRetrieval.Proofs.Volume.Resolution
import Mathlib.Data.List.Nodup

namespace ScopedRetrieval.Volume

/-! ## One place -/

theorem find?_put (v : Volume) (place place' : String) (node : Node) :
    (v.put place node).nodes.find? place' =
      if place' = place then some node else v.nodes.find? place' :=
  v.nodes.find?_insert place place' node

/-- Of two nodes put at one place the later one stays. -/
theorem put_put (v : Volume) (place : String) (node node' : Node) :
    (v.put place node).put place node' = v.put place node' := by
  have hnodes : (v.nodes.insert place node).insert place node' = v.nodes.insert place node' := by
    refine KeyMap.ext_find? fun k => ?_
    rw [KeyMap.find?_insert, KeyMap.find?_insert, KeyMap.find?_insert]
    split <;> rfl
  unfold put
  rw [hnodes]

/-- A path leads to its directory also after a node was put where nothing was. -/
theorem LeadsTo.put {v : Volume} {path directory place : String} (h : v.LeadsTo path directory)
    (habsent : v.nodes.find? place = none) (node : Node) :
    (v.put place node).LeadsTo path directory := by
  have hextends : v.Extends (v.put place node) := by
    refine ⟨rfl, fun place' before hbefore => ⟨before, ?_, rfl⟩⟩
    rw [find?_put, if_neg, hbefore]
    rintro rfl
    rw [habsent] at hbefore
    cases hbefore
  exact h.of_keepsWays hextends.keepsWays

theorem place_inj {directory name name' : String} :
    place directory name = place directory name' ↔ name = name' := by
  unfold place
  rw [← String.toList_inj]
  simp only [String.toList_append, List.append_right_inj, String.toList_inj]

/-! ## What a change does -/

/-- Writing makes a file where nothing is, or changes the content of one that is there. -/
theorem write_cases {v w : Volume} {path : String} {content : List UInt8}
    (h : v.write path content = .ok w) :
    (∃ directory name, v.resolve .create path = .ok (.absent directory name) ∧
        w = v.put (place directory name) ⟨.file content, .empty⟩) ∨
      ∃ place node before, v.resolve .create path = .ok (.found place node) ∧
        node.item = .file before ∧ w = v.put place { node with item := .file content } := by
  unfold write at h
  cases hcheck : checkPath .nulInPath path with
  | error fault =>
    rw [hcheck] at h
    cases h
  | ok =>
    cases hresolve : v.resolve .create path with
    | error fault =>
      rw [hcheck, hresolve] at h
      cases h
    | ok target =>
      rw [hcheck, hresolve] at h
      cases target with
      | absent directory name => exact .inl ⟨directory, name, rfl, (Except.ok.inj h).symm⟩
      | found place node =>
        simp only [bind, Except.bind] at h
        split at h
        · rename_i before hitem
          exact .inr ⟨place, node, before, rfl, hitem, (Except.ok.inj h).symm⟩
        · cases h

/-- Setting an attribute changes no more than that attribute of what is at the path, and that is no
link. -/
theorem setAttribute_cases {v w : Volume} {path key : String} {value : List UInt8}
    (h : v.setAttribute path key value = .ok w) :
    ∃ place node, v.attributeNode path = .ok (place, node) ∧
      (∀ target, node.item ≠ .link target) ∧
      w = v.put place { node with attributes := node.attributes.insert key value } := by
  unfold setAttribute at h
  cases hcheck : checkPath .invalid path with
  | error fault =>
    rw [hcheck] at h
    cases h
  | ok =>
    cases hattribute : checkAttribute key value with
    | error fault =>
      rw [hcheck, hattribute] at h
      cases h
    | ok =>
      cases hnode : v.attributeNode path with
      | error fault =>
        rw [hcheck, hattribute, hnode] at h
        cases h
      | ok found =>
        rw [hcheck, hattribute, hnode] at h
        obtain ⟨place, node⟩ := found
        simp only [bind, Except.bind] at h
        split at h
        · cases h
        · split at h
          · cases h
          · rename_i hlink
            rw [if_neg Bool.false_ne_true] at h
            split at h
            · cases h
            · exact ⟨place, node, rfl, hlink, (Except.ok.inj h).symm⟩

/-! ## What is at a path -/

section

variable {v : Volume} {path place : String} {node : Node}

theorem read_of_node (hcheck : checkPath .nulInPath path = .ok ())
    (hnode : v.node .follow path = .ok (place, node)) {content : List UInt8}
    (hfile : node.item = .file content) : v.read path = .ok content := by
  unfold read
  rw [hcheck, hnode]
  simp only [bind, Except.bind, hfile]
  rfl

theorem attributeNode_of_node (hcheck : checkPath .invalid path = .ok ())
    (hnode : v.node .stay path = .ok (place, node)) (hkeeps : v.keepsAttributes = true) :
    v.attributeNode path = .ok (place, node) := by
  unfold attributeNode
  rw [hcheck, hnode, hkeeps]
  rfl

end

/-! ## One file -/

section

variable {v w : Volume} {path directory name : String} (hname : PlainName name)
  (hpath : v.LeadsTo path directory)

include hname hpath

/-- A file that is made appears in its directory, without attributes, and nothing else changes. -/
theorem write_eq_ok (habsent : v.nodes.find? (place directory name) = none)
    {content : List UInt8} (h : v.write (Path.join path name) content = .ok w) :
    Fits path name ∧ w = v.put (place directory name) ⟨.file content, .empty⟩ := by
  unfold write checkPath at h
  rw [resolve_join hname (noLinkAt_of_absent habsent) hpath] at h
  unfold lookIn at h
  rw [habsent] at h
  split at h
  · cases h
  rename_i htext
  rw [List.contains_iff_mem] at htext
  split at h
  · cases h
  rename_i hlong
  split at h
  · cases h
  rename_i hlongName
  exact ⟨⟨htext, Nat.lt_of_not_le hlong, Nat.le_of_not_lt hlongName⟩, (Except.ok.inj h).symm⟩

variable (hfits : Fits path name) {node : Node} {content : List UInt8}
  (hfind : v.nodes.find? (place directory name) = some node) (hfile : node.item = .file content)

include hfits hfind hfile

theorem read_join : v.read (Path.join path name) = .ok content :=
  read_of_node (hfits.checkPath _)
    (node_join hname (noLinkAt_of_file hfind hfile) hpath hfits hfind .follow) hfile

variable (hkeeps : v.keepsAttributes = true)

include hkeeps

theorem attributeNode_join :
    v.attributeNode (Path.join path name) = .ok (place directory name, node) :=
  attributeNode_of_node (hfits.checkPath _)
    (node_join hname (noLinkAt_of_file hfind hfile) hpath hfits hfind .stay) hkeeps

end

/-! ## What a directory shows -/

theorem node_eq_ok_iff (v : Volume) (finish : Finish) (path place : String) (node : Node) :
    v.node finish path = .ok (place, node) ↔ v.resolve finish path = .ok (.found place node) := by
  unfold Volume.node
  cases hresolve : v.resolve finish path with
  | error fault => simp [bind, Except.bind]
  | ok target =>
    cases target with
    | found place' node' => simp [bind, Except.bind, pure, Except.pure]
    | absent directory name => simp [bind, Except.bind, throw, throwThe, MonadExceptOf.throw]

theorem nameWithin?_eq_some_iff (directory place' name : String) :
    nameWithin? directory place' = some name ↔
      '/' ∉ name.toList ∧ place' = place directory name := by
  have hplace : (place directory name).toList = directory.toList ++ ['/'] ++ name.toList := by
    unfold place
    rw [String.toList_append, String.toList_append]
    rfl
  unfold nameWithin?
  dsimp only
  constructor
  · intro h
    split at h
    · rename_i hwithin
      obtain ⟨hstart, hslash⟩ := hwithin
      obtain ⟨rest, hrest⟩ := List.isPrefixOf_iff_prefix.1 hstart
      rw [← hrest, List.drop_left] at h hslash
      cases h
      refine ⟨by simpa using hslash, ?_⟩
      rw [← String.toList_inj, ← hrest, hplace, String.toList_ofList]
    · cases h
  · rintro ⟨hslash, rfl⟩
    rw [hplace, List.drop_left, String.ofList_toList, if_pos]
    refine ⟨List.isPrefixOf_iff_prefix.2 (List.prefix_append _ _), ?_⟩
    simpa using hslash

/-- The names right in the directory at a place and what they stand for. -/
def entriesIn (v : Volume) (directory : String) : List (String × Item) :=
  v.nodes.toList.filterMap fun e => (nameWithin? directory e.1).map (·, e.2.item)

theorem mem_entriesIn_iff (v : Volume) (directory name : String) (item : Item) :
    (name, item) ∈ v.entriesIn directory ↔ '/' ∉ name.toList ∧
      ∃ node, v.nodes.find? (place directory name) = some node ∧ node.item = item := by
  unfold entriesIn
  rw [List.mem_filterMap]
  constructor
  · rintro ⟨⟨place', node⟩, hmem, hname⟩
    obtain ⟨name', hwithin, hpair⟩ := Option.map_eq_some_iff.1 hname
    cases hpair
    obtain ⟨hslash, rfl⟩ := (nameWithin?_eq_some_iff _ _ _).1 hwithin
    exact ⟨hslash, node, (v.nodes.mem_entries_iff _ _).1 hmem, rfl⟩
  · rintro ⟨hslash, node, hfind, rfl⟩
    refine ⟨(place directory name, node), (v.nodes.mem_entries_iff _ _).2 hfind, ?_⟩
    rw [(nameWithin?_eq_some_iff _ _ _).2 ⟨hslash, rfl⟩]
    rfl

/-- A directory has each name once. -/
theorem names_entriesIn_nodup (v : Volume) (directory : String) :
    ((v.entriesIn directory).map (·.1)).Nodup := by
  have hnames : (v.entriesIn directory).map (·.1) =
      v.nodes.keys.filterMap (nameWithin? directory) := by
    unfold entriesIn KeyMap.keys KeyMap.toList
    rw [List.map_filterMap, List.filterMap_map]
    refine List.filterMap_congr fun e _ => ?_
    rw [Option.map_map]
    exact Option.map_id'
  rw [hnames]
  refine List.Nodup.filterMap (fun place' place'' name h h' => ?_) v.nodes.keys_nodup
  rw [((nameWithin?_eq_some_iff _ _ _).1 h).2, ((nameWithin?_eq_some_iff _ _ _).1 h').2]

theorem entries_eq_ok_iff (v : Volume) (path : String) (entries : List (String × Item)) :
    v.entries path = .ok entries ↔ checkPath .nulInPath path = .ok () ∧
      ∃ directory, v.LeadsTo path directory ∧ entries = v.entriesIn directory := by
  unfold Volume.entries entriesIn LeadsTo
  simp only [← node_eq_ok_iff]
  cases hcheck : checkPath .nulInPath path with
  | error fault => simp [bind, Except.bind]
  | ok =>
    cases hnode : v.node .follow path with
    | error fault => simp [bind, Except.bind]
    | ok found =>
      obtain ⟨directory, node⟩ := found
      simp only [bind, Except.bind, pure, Except.pure]
      cases hitem : node.item with
      | directory => simp [hitem, eq_comm]
      | file content => simp [hitem, throw, throwThe, MonadExceptOf.throw]
      | link target => simp [hitem, throw, throwThe, MonadExceptOf.throw]

/-! ## What users see -/

theorem userKey?_eq_some_iff (name key : String) :
    userKey? name = some key ↔ name = userNamespace ++ key := by
  unfold userKey?
  constructor
  · intro h
    split at h
    · rename_i hstart
      obtain ⟨rest, hrest⟩ := List.isPrefixOf_iff_prefix.1 hstart
      rw [← hrest, List.drop_left] at h
      cases h
      rw [← String.toList_inj, ← hrest, String.toList_append, String.toList_ofList]
    · cases h
  · rintro rfl
    rw [String.toList_append, List.drop_left, String.ofList_toList, if_pos]
    exact List.isPrefixOf_iff_prefix.2 (List.prefix_append _ _)

theorem userNamespace_append_inj {key key' : String} :
    userNamespace ++ key = userNamespace ++ key' ↔ key = key' := by
  rw [← userKey?_eq_some_iff, (userKey?_eq_some_iff _ key).2 rfl, Option.some.injEq]

/-- The volumes show users the same: what is where, and which of their attributes it has. What they
have in other namespaces may differ. -/
structure SameForUsers (v w : Volume) : Prop where
  current : w.current = v.current
  keepsAttributes : w.keepsAttributes = v.keepsAttributes
  item : ∀ place, (w.nodes.find? place).map (·.item) = (v.nodes.find? place).map (·.item)
  value : ∀ place node node' key, v.nodes.find? place = some node →
    w.nodes.find? place = some node' →
    node'.attributes.find? (userNamespace ++ key) = node.attributes.find? (userNamespace ++ key)

/-- An attribute in another namespace may appear. -/
theorem sameForUsers_put {v : Volume} {place : String} {node : Node}
    (hfind : v.nodes.find? place = some node) {name : String} (hname : userKey? name = none)
    (value : List UInt8) :
    v.SameForUsers (v.put place { node with attributes := node.attributes.insert name value }) := by
  constructor
  case current => rfl
  case keepsAttributes => rfl
  case item =>
    intro place'
    rw [find?_put]
    split
    · rename_i heq
      rw [heq, hfind]
      rfl
    · rfl
  case value =>
    intro place' before after key hbefore hafter
    rw [find?_put] at hafter
    split at hafter
    · rename_i heq
      rw [heq, hfind] at hbefore
      cases hbefore
      cases hafter
      refine (KeyMap.find?_insert ..).trans (if_neg ?_)
      rintro rfl
      rw [(userKey?_eq_some_iff _ key).2 rfl] at hname
      cases hname
    · rw [hbefore] at hafter
      cases hafter
      rfl

theorem SameForUsers.extends {v w : Volume} (h : v.SameForUsers w) : v.Extends w := by
  refine ⟨h.current, fun place node hfind => ?_⟩
  have hitem := h.item place
  rw [hfind] at hitem
  exact Option.map_eq_some_iff.1 hitem

end ScopedRetrieval.Volume
