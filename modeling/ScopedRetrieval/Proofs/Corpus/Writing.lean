/-
What writing a document does. The attributes that users see on a file are those it had, overridden
by the given ones (`overridden_withAttributes`): each is seen without the name of their namespace,
and where two are seen under one name the later one counts. A document that is written has the new
content and these attributes, and no other document changes.
-/
import ScopedRetrieval.Proofs.Corpus.Identifier
import ScopedRetrieval.Proofs.Text.ByteOrder
import ScopedRetrieval.Proofs.Volume.Rewriting
import Mathlib.Data.Finset.Max

namespace ScopedRetrieval.DirectoryCorpus

open Volume (Node Item place userNamespace)

/-! ## Names of attributes -/

/-- The name under which users see an attribute that is set under a key: the name of their
namespace, where a key begins with it, is left out once. -/
def bareKey (key : String) : String := (Volume.userKey? key).getD key

theorem namespaced_eq (key : String) : namespaced key = userNamespace ++ bareKey key := by
  unfold namespaced bareKey
  cases hkey : Volume.userKey? key with
  | none => rfl
  | some bare => exact (Volume.userKey?_eq_some_iff key bare).1 hkey

theorem bareKey_of_userKey?_eq_none {key : String} (h : Volume.userKey? key = none) :
    bareKey key = key := by
  rw [bareKey, h, Option.getD_none]

/-! ## Overriding attributes -/

/-- Given attributes override those that were there. Each is stored under its bare name; of several
that are stored under one name the last one in the order of bytes stays. -/
structure Overridden (before given after : Attributes) : Prop where
  stored : ∀ key value, given.find? key = some value →
    (∀ other ∈ given.keys, bareKey other = bareKey key → Text.utf8 other ≤ Text.utf8 key) →
    after.find? (bareKey key) = some value
  kept : ∀ name, (∀ key ∈ given.keys, bareKey key ≠ name) → after.find? name = before.find? name

/-- Of the keys that are stored under one name there is a last one. -/
theorem exists_last_key {given : Attributes} {key : String} (hkey : key ∈ given.keys) :
    ∃ last ∈ given.keys, bareKey last = bareKey key ∧
      ∀ other ∈ given.keys, bareKey other = bareKey key → Text.utf8 other ≤ Text.utf8 last := by
  have hmem : ∀ other, other ∈ (given.keys.filter (bareKey · = bareKey key)).toFinset ↔
      other ∈ given.keys ∧ bareKey other = bareKey key := by
    intro other
    rw [List.mem_toFinset, List.mem_filter, decide_eq_true_iff]
  obtain ⟨last, hlast, hmax⟩ := Finset.exists_max_image _ id ⟨key, (hmem key).2 ⟨hkey, rfl⟩⟩
  obtain ⟨hgiven, hbare⟩ := (hmem last).1 hlast
  refine ⟨last, hgiven, hbare, fun other hother hsame => ?_⟩
  exact (Text.utf8_le_utf8_iff other last).2 (hmax other ((hmem other).2 ⟨hother, hsame⟩))

namespace Overridden

variable {before given after after' : Attributes}

/-- What attributes become is determined by what they were and what is given. -/
theorem unique (h : Overridden before given after) (h' : Overridden before given after') :
    after = after' := by
  refine KeyMap.ext_find? fun name => ?_
  by_cases hname : ∃ key ∈ given.keys, bareKey key = name
  · obtain ⟨key, hkey, rfl⟩ := hname
    obtain ⟨last, hlast, hbare, hmax⟩ := exists_last_key hkey
    obtain ⟨value, hvalue⟩ := (given.mem_keys_iff last).1 hlast
    rw [← hbare] at hmax ⊢
    rw [h.stored last value hvalue hmax, h'.stored last value hvalue hmax]
  · have hother : ∀ key ∈ given.keys, bareKey key ≠ name := fun key hkey heq =>
      hname ⟨key, hkey, heq⟩
    rw [h.kept name hother, h'.kept name hother]

/-- With nothing before, keys outside the namespace of users are kept as they are given. -/
theorem eq_given (h : Overridden .empty given after)
    (hkeys : ∀ key ∈ given.keys, Volume.userKey? key = none) : after = given := by
  have hbare : ∀ key ∈ given.keys, bareKey key = key := fun key hkey =>
    bareKey_of_userKey?_eq_none (hkeys key hkey)
  have hgiven : Overridden .empty given given := by
    constructor
    case stored =>
      intro key value hvalue _
      rw [hbare key ((given.mem_keys_iff key).2 ⟨value, hvalue⟩), hvalue]
    case kept =>
      intro name hother
      rw [KeyMap.find?_empty, Option.eq_none_iff_forall_ne_some]
      intro value hvalue
      have hname := (given.mem_keys_iff name).2 ⟨value, hvalue⟩
      exact hother name hname (hbare name hname)
  exact h.unique hgiven

end Overridden

/-! ## Attributes that are set -/

/-- The attributes that users see on a node. -/
def seen (node : Node) : Attributes :=
  .ofList (node.attributes.keys.filterMap (attributeOf node))

theorem find?_seen (node : Node) (name : String) : (seen node).find? name =
    (node.attributes.find? (userNamespace ++ name)).map Text.ofBytesLenient :=
  find?_ofList_attributeOf .rfl name

theorem lookup_namespaced_of_last {given : Attributes} {key value : String}
    (hvalue : given.find? key = some value)
    (hlast : ∀ other ∈ given.keys, bareKey other = bareKey key → Text.utf8 other ≤ Text.utf8 key) :
    (given.toList.map fun e => (namespaced e.1, Text.utf8 e.2)).reverse.lookup
      (userNamespace ++ bareKey key) = some (Text.utf8 value) := by
  obtain ⟨earlier, later, hsplit⟩ := List.append_of_mem ((given.mem_entries_iff key value).2 hvalue)
  have hascending := given.ascending
  rw [hsplit, List.pairwise_append, List.pairwise_cons] at hascending
  rw [KeyMap.lookup_reverse_eq_some_iff]
  refine ⟨earlier.map fun e => (namespaced e.1, Text.utf8 e.2),
    later.map fun e => (namespaced e.1, Text.utf8 e.2), ?_, ?_⟩
  · unfold KeyMap.toList
    rw [hsplit, List.map_append, List.map_cons, namespaced_eq]
  · intro e he hname
    -- what comes later has a greater key, and so another name
    obtain ⟨⟨other, _⟩, hother, rfl⟩ := List.mem_map.1 he
    rw [namespaced_eq, Volume.userNamespace_append_inj] at hname
    have hgiven : other ∈ given.keys := by
      unfold KeyMap.keys
      rw [hsplit]
      exact List.mem_map_of_mem (List.mem_append_right _ (List.mem_cons_of_mem _ hother))
    have hle := (Text.utf8_le_utf8_iff other key).1 (hlast other hgiven hname)
    exact String.not_lt.2 hle (hascending.2.1.1 _ hother)

/-- What users see on a file is overridden by the attributes that are set. -/
theorem overridden_withAttributes (item : Item) (before : KeyMap (List UInt8))
    (given : Attributes) :
    Overridden (seen ⟨item, before⟩) given (seen ⟨item, withAttributes given.toList before⟩) := by
  constructor
  case stored =>
    intro key value hvalue hlast
    rw [find?_seen]
    dsimp only
    rw [withAttributes, KeyMap.find?_foldl_insert, lookup_namespaced_of_last hvalue hlast]
    exact congrArg some (Text.ofBytesLenient_utf8 value)
  case kept =>
    intro name hother
    have hnone : (given.toList.map fun e => (namespaced e.1, Text.utf8 e.2)).reverse.lookup
        (userNamespace ++ name) = none := by
      refine KeyMap.lookup_eq_none_of_notMem fun hmem => ?_
      rw [List.map_reverse, List.mem_reverse, List.map_map] at hmem
      obtain ⟨e, he, hname⟩ := List.mem_map.1 hmem
      rw [Function.comp_apply, namespaced_eq, Volume.userNamespace_append_inj] at hname
      exact hother e.1 (List.mem_map_of_mem he) hname
    rw [find?_seen, find?_seen]
    dsimp only
    rw [withAttributes, KeyMap.find?_foldl_insert, hnone, Option.none_or]

/-! ## A document that is written -/

section

variable {c : DirectoryCorpus} {v w : Volume} {id path content : String} {attributes : Attributes}

/-- No attributes are set on a link. -/
theorem setAttributes_of_link {p aim : String} {link : Node}
    (hstay : v.resolve .stay path = .ok (.found p link)) (hlink : link.item = .link aim)
    {pairs : List (String × String)} (h : setAttributes id path v pairs = (w, .ok ())) :
    pairs = [] ∧ w = v := by
  cases pairs with
  | nil => exact ⟨rfl, (congrArg Prod.fst h).symm⟩
  | cons e rest =>
    unfold setAttributes at h
    split at h
    · rename_i u hset
      exact absurd hlink ((Volume.setAttribute_eq_put hstay hset).1 aim)
    · cases congrArg Prod.snd h

/-- A document that is written is a file at the end of the way of its path, with its attributes set
over those that were there. Only a link at the path itself keeps attributes from being set. -/
theorem write_eq_put (hpath : c.pathFor id = .ok path)
    (h : c.write v id content attributes = (w, .ok ())) :
    (∀ fault, Volume.checkPath fault path = .ok ()) ∧
      ∃ target, v.resolve .create path = .ok target ∧ target.MayBeFile ∧
        w = v.put target.place
          ⟨.file (Text.utf8 content), withAttributes attributes.toList target.attributes⟩ ∧
        (v.resolve .stay path = .ok target ∨ attributes.toList = [] ∧ ∃ p link aim,
          v.resolve .stay path = .ok (.found p link) ∧ link.item = .link aim) := by
  unfold write at h
  rw [hpath] at h
  dsimp only at h
  split at h
  · cases congrArg Prod.snd h
  rename_i u hwrite
  obtain ⟨hcheck, target, hcreate, hfile, rfl⟩ := Volume.write_eq_put hwrite
  refine ⟨hcheck, target, hcreate, hfile, ?_⟩
  rcases Volume.resolve_of_create hcreate .stay with hstay | ⟨-, p, link, aim, hstay, hlink⟩
  · refine ⟨setAttributes_eq_put (fun before => ?_) h, .inl hstay⟩
    exact Volume.resolve_put_place hfile hstay
  · obtain ⟨hnil, hw⟩ :=
      setAttributes_of_link (Volume.resolve_put_of_link hfile hcreate hlink hstay) hlink h
    rw [hnil]
    exact ⟨hw, .inr ⟨rfl, p, link, aim, hstay, hlink⟩⟩

theorem attributes_eq_seen (hpath : c.pathFor id = .ok path)
    (hcheck : Volume.checkPath .invalid path = .ok ()) (hkeeps : v.keepsAttributes = true)
    {p : String} {node : Node} (hresolve : v.resolve .stay path = .ok (.found p node)) :
    c.attributes v id = .ok (seen node) :=
  attributes_of_attributeNode hpath
    (Volume.attributeNode_of_node hcheck ((Volume.node_eq_ok_iff ..).2 hresolve) hkeeps)

/-- There are no attributes at a path that leads nowhere. -/
theorem attributes_ne_ok_of_node (hpath : c.pathFor id = .ok path) {fault : Volume.Fault}
    (hnode : v.node .stay path = .error fault) (before : Attributes) :
    c.attributes v id ≠ .ok before := by
  unfold DirectoryCorpus.attributes Volume.attributeNames Volume.attributeNode
  rw [hpath]
  simp only [bind, Except.bind, hnode]
  cases Volume.checkPath .invalid path <;> exact nofun

theorem content_write (hpath : c.pathFor id = .ok path)
    (h : c.write v id content attributes = (w, .ok ())) : c.content w id = .ok content := by
  obtain ⟨hcheck, target, hcreate, hfile, hw, -⟩ := write_eq_put hpath h
  rcases Volume.resolve_of_create hcreate .follow with hfollow | ⟨hstay, -⟩
  · have hnode := (w.node_eq_ok_iff ..).2 (hw ▸ Volume.resolve_put_place hfile hfollow)
    exact content_of_read hpath (Volume.read_of_node (hcheck _) hnode rfl)
  · cases hstay

/-- The attributes of a document are those it had, if there was one, overridden by the given
ones. -/
theorem attributes_write (hpath : c.pathFor id = .ok path) (hkeeps : v.keepsAttributes = true)
    (h : c.write v id content attributes = (w, .ok ())) :
    ∃ before after, (c.attributes v id = .ok before ∨
        v.node .stay path = .error .notFound ∧ before = .empty) ∧
      c.attributes w id = .ok after ∧ Overridden before attributes after := by
  obtain ⟨hcheck, target, hcreate, hfile, hw, hend⟩ := write_eq_put hpath h
  have hread : ∀ {p node}, w.resolve .stay path = .ok (.found p node) →
      c.attributes w id = .ok (seen node) := fun hresolve =>
    attributes_eq_seen hpath (hcheck _) (hw ▸ hkeeps) hresolve
  rcases hend with hstay | ⟨hnil, p, link, aim, hstay, hlink⟩
  · have hafter := hread (hw ▸ Volume.resolve_put_place hfile hstay)
    cases target with
    | found p node =>
      exact ⟨_, _, .inl (attributes_eq_seen hpath (hcheck _) hkeeps hstay), hafter,
        overridden_withAttributes node.item node.attributes attributes⟩
    | absent directory name =>
      refine ⟨_, _, .inr ⟨?_, rfl⟩, hafter, overridden_withAttributes .directory .empty attributes⟩
      unfold Volume.node
      rw [hstay]
      rfl
  · -- at a link no attributes are given, and those of the link stay
    have hafter := hread (hw ▸ Volume.resolve_put_of_link hfile hcreate hlink hstay)
    have hsame := overridden_withAttributes link.item link.attributes attributes
    rw [hnil] at hsame
    exact ⟨_, _, .inl (attributes_eq_seen hpath (hcheck _) hkeeps hstay), hafter, hsame⟩

end

/-- A document under another name in the same directory stays as it is, also if the writing fails
half way. -/
theorem other_document_write {c : DirectoryCorpus} {v : Volume}
    {directory id name id' name' : String} (hid : Volume.Path.components id = [.normal name])
    (hid' : Volume.Path.components id' = [.normal name']) (hne : name' ≠ name)
    (hroot : v.StartsAt c.root directory) (hlink : v.NoLinkAt (place directory name))
    (hlink' : v.NoLinkAt (place directory name')) (content : String) (attributes : Attributes) :
    c.content (c.write v id content attributes).1 id' = c.content v id' ∧
      c.attributes (c.write v id content attributes).1 id' = c.attributes v id' := by
  have hchanged := changedAt_write hid hroot hlink content attributes
  have hpath : c.pathFor id' = .ok (Volume.Path.join c.root id') :=
    pathFor_eq_ok_iff.2 ⟨Volume.Path.isAbsolute_of_components_normal hid', ⟨_, hid'⟩, rfl⟩
  have hresolve := Volume.resolve_entry_congr hid' hroot hlink'
    (hroot.of_keepsWays hchanged.keepsWays)
    (hchanged.elsewhere _ fun heq => hne (Volume.place_inj.1 heq))
  exact ⟨content_congr hpath (hresolve .follow),
    attributes_congr hpath (hresolve .stay) hchanged.keepsAttributes⟩

/-- A document that is written has the new content, and users see on it the attributes it had, none
on a new one, overridden by the given ones. These are all it has if it is new and none of them is in
the namespace of users. Every other document in the directory stays as it is. -/
theorem write_overrides_attributes {c : DirectoryCorpus} {v w : Volume} {id path content : String}
    {attributes : Attributes} (hpath : c.pathFor id = .ok path) (hkeeps : v.keepsAttributes = true)
    (h : c.write v id content attributes = (w, .ok ())) :
    c.content w id = .ok content ∧
    (∃ before after, (c.attributes v id = .ok before ∨
        v.node .stay path = .error .notFound ∧ before = .empty) ∧
      c.attributes w id = .ok after ∧ Overridden before attributes after) ∧
    (v.node .stay path = .error .notFound →
      (∀ key ∈ attributes.keys, Volume.userKey? key = none) →
      c.attributes w id = .ok attributes) ∧
    ∀ directory name id' name', Volume.Path.components id = [.normal name] →
      Volume.Path.components id' = [.normal name'] → name' ≠ name → v.StartsAt c.root directory →
      v.NoLinkAt (place directory name) → v.NoLinkAt (place directory name') →
      c.content w id' = c.content v id' ∧ c.attributes w id' = c.attributes v id' := by
  obtain ⟨before, after, hbefore, hafter, hover⟩ := attributes_write hpath hkeeps h
  refine ⟨content_write hpath h, ⟨before, after, hbefore, hafter, hover⟩, ?_, ?_⟩
  · intro hnew hkeys
    rcases hbefore with hbefore | ⟨-, rfl⟩
    · exact absurd hbefore (attributes_ne_ok_of_node hpath hnew before)
    · rw [hafter, hover.eq_given hkeys]
  · intro directory name id' name' hid hid' hne hroot hlink hlink'
    obtain rfl : (c.write v id content attributes).1 = w := congrArg Prod.fst h
    exact other_document_write hid hid' hne hroot hlink hlink' content attributes

/-- A document is written over, with keys of which two pairs are stored under one name: of the first
pair the key in the namespace of users comes later, of the second one the other key. A new document
has what is given, and a third one stays as it is. -/
theorem write_overrides_attributes_plan :
    let c : DirectoryCorpus := ⟨"corpus"⟩
    let notes : Node := ⟨.file (Text.utf8 "n"), .ofList [("user.level", Text.utf8 "1")]⟩
    let plan : Node := ⟨.file (Text.utf8 "old"), .ofList [("security.label", Text.utf8 "s"),
      ("user.abc", Text.utf8 "0"), ("user.owner", Text.utf8 "ops")]⟩
    let v : Volume := { nodes := .ofList [("", ⟨.directory, .empty⟩),
      ("/corpus", ⟨.directory, .empty⟩), ("/corpus/notes", notes), ("/corpus/plan", plan)] }
    let given : Attributes :=
      .ofList [("abc", "1"), ("user.abc", "2"), ("user.zebra", "3"), ("zebra", "4")]
    let w := (c.write v "plan" "new" given).1
    let memo : Attributes := .ofList [("type", "public")]
    c.content w "plan" = .ok "new" ∧
      (∃ after, c.attributes w "plan" = .ok after ∧ after.find? "abc" = some "2" ∧
        after.find? "zebra" = some "4" ∧ after.find? "owner" = some "ops") ∧
      c.content w "notes" = c.content v "notes" ∧ c.attributes w "notes" = c.attributes v "notes" ∧
      c.attributes (c.write v "memo" "m" memo).1 "memo" = .ok memo := by
  intro c notes plan v given w memo
  have hplan : c.write v "plan" "new" given = (w, .ok ()) := Prod.ext rfl (by decide +kernel)
  have hmemo : c.write v "memo" "m" memo = ((c.write v "memo" "m" memo).1, .ok ()) :=
    Prod.ext rfl (by decide +kernel)
  have hpath : c.pathFor "plan" = .ok "corpus/plan" := by decide +kernel
  have hmemoPath : c.pathFor "memo" = .ok "corpus/memo" := by decide +kernel
  have hcorpus : v.StartsAt c.root "/corpus" :=
    .inl ⟨_, (v.node_eq_ok_iff .follow c.root "/corpus" ⟨.directory, .empty⟩).1
      (by decide +kernel), rfl⟩
  obtain ⟨hcontent, ⟨before, after, hbefore, hafter, hover⟩, -, hothers⟩ :=
    write_overrides_attributes hpath rfl hplan
  have hnode : v.resolve .stay "corpus/plan" = .ok (.found "/corpus/plan" plan) :=
    (v.node_eq_ok_iff ..).1 (by decide +kernel)
  have hold : before.find? "owner" = some "ops" := by
    rcases hbefore with hbefore | ⟨hnone, -⟩
    · rw [attributes_eq_seen hpath (by decide +kernel) rfl hnode] at hbefore
      cases hbefore
      exact (find?_seen plan "owner").trans (congrArg some (Text.ofBytesLenient_utf8 "ops"))
    · rw [(v.node_eq_ok_iff ..).2 hnode] at hnone
      cases hnone
  have habc := hover.stored "user.abc" "2" (by decide +kernel) (by decide +kernel)
  have hzebra := hover.stored "zebra" "4" (by decide +kernel) (by decide +kernel)
  have howner := (hover.kept "owner" (by decide +kernel)).trans hold
  rw [show bareKey "user.abc" = "abc" by decide +kernel] at habc
  rw [show bareKey "zebra" = "zebra" by decide +kernel] at hzebra
  have hplanFile : v.nodes.find? (place "/corpus" "plan") = some plan := by decide +kernel
  have hnotesFile : v.nodes.find? (place "/corpus" "notes") = some notes := by decide +kernel
  obtain ⟨hnotes, hnotesAttributes⟩ := hothers "/corpus" "plan" "notes" "notes" (by decide +kernel)
    (by decide +kernel) (by decide) hcorpus (Volume.noLinkAt_of_file hplanFile rfl)
    (Volume.noLinkAt_of_file hnotesFile rfl)
  obtain ⟨-, -, hnew, -⟩ := write_overrides_attributes hmemoPath rfl hmemo
  exact ⟨hcontent, ⟨after, hafter, habc, hzebra, howner⟩, hnotes, hnotesAttributes,
    hnew (by decide +kernel) (by decide +kernel)⟩

end ScopedRetrieval.DirectoryCorpus
