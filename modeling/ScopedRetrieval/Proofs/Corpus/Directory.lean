/-
Corpora in directories: what is written is what is read. Documents that are written one after the
other into an empty directory leave one file each and nothing else (`writeAll_eq_ok`), and as long
as users see these files, the directory lists the documents and gives each back as it was
(`Stores.content_eq`, `Stores.userAttributes_eq`, `Stores.identifiers_eq`).
-/
import ScopedRetrieval.Corpus.Directory
import ScopedRetrieval.Proofs.Loader.Report
import ScopedRetrieval.Proofs.Text.Decoding
import ScopedRetrieval.Proofs.Volume.Rewriting

namespace ScopedRetrieval.DirectoryCorpus

open Volume (PlainName Fits Node place userNamespace)

variable {c : DirectoryCorpus} {directory : String}

theorem pathFor_plainName {id : String} (hid : PlainName id) :
    c.pathFor id = .ok (Volume.Path.join c.root id) := by
  have hcomponents : Volume.Path.components id = [.normal id] := by
    unfold Volume.Path.components Volume.Path.Component.ofName
    rw [Volume.Path.names_of_plainName hid, hid.isAbsolute, List.map_singleton,
      if_neg hid.entryName.ne_dot, if_neg hid.entryName.ne_dots]
    rfl
  unfold pathFor
  rw [hcomponents, hid.isAbsolute]
  rfl

/-! ## Writing -/

/-- The attributes of a file as which those of a document are stored. -/
def stored (attributes : Attributes) : KeyMap (List UInt8) :=
  .ofList (attributes.toList.map fun e => (namespaced e.1, Text.utf8 e.2))

/-- The attributes of a file after others were set, one after the other. -/
def withAttributes (pairs : List (String × String)) (before : KeyMap (List UInt8)) :
    KeyMap (List UInt8) :=
  (pairs.map fun e => (namespaced e.1, Text.utf8 e.2)).foldl (fun m e => m.insert e.1 e.2) before

/-- The file as which a document is stored. -/
def fileOf (d : Document) : Node := ⟨.file (Text.utf8 d.content), stored d.attributes⟩

/-- The volume with files for some documents in a directory. -/
def filled (v : Volume) (directory : String) (documents : List Document) : Volume :=
  documents.foldl (fun v d => v.put (place directory d.id) (fileOf d)) v

/-- Attributes that are set on the file at a path end up on it, each in place of one of the same
name. -/
theorem setAttributes_eq_put {v w : Volume} {id path p : String} {bytes : List UInt8}
    (hstay : ∀ before, (v.put p ⟨.file bytes, before⟩).resolve .stay path =
      .ok (.found p ⟨.file bytes, before⟩))
    {pairs : List (String × String)} {before : KeyMap (List UInt8)}
    (h : setAttributes id path (v.put p ⟨.file bytes, before⟩) pairs = (w, .ok ())) :
    w = v.put p ⟨.file bytes, withAttributes pairs before⟩ := by
  induction pairs generalizing before with
  | nil => exact (congrArg Prod.fst h).symm
  | cons e rest ih =>
    unfold setAttributes at h
    split at h
    · rename_i u hset
      obtain ⟨-, rfl⟩ := Volume.setAttribute_eq_put (hstay before) hset
      rw [Volume.put_put] at h
      exact ih h
    · cases congrArg Prod.snd h

section

variable {v w : Volume} (hpath : v.LeadsTo c.root directory)

include hpath

/-- A document that is written into a directory appears there as a new file. -/
theorem write_eq_ok {d : Document} (hid : PlainName d.id)
    (habsent : v.nodes.find? (place directory d.id) = none)
    (h : c.write v d.id d.content d.attributes = (w, .ok ())) :
    Fits c.root d.id ∧ w = v.put (place directory d.id) (fileOf d) := by
  unfold write at h
  rw [pathFor_plainName hid] at h
  dsimp only at h
  split at h
  · cases congrArg Prod.snd h
  · rename_i u hwrite
    obtain ⟨hfits, rfl⟩ := Volume.write_eq_ok hid hpath habsent hwrite
    refine ⟨hfits, setAttributes_eq_put (fun before => ?_) h⟩
    have hfind : (v.put (place directory d.id) ⟨.file (Text.utf8 d.content), before⟩).nodes.find?
        (place directory d.id) = some ⟨.file (Text.utf8 d.content), before⟩ :=
      (Volume.find?_put ..).trans (if_pos rfl)
    exact (Volume.node_eq_ok_iff ..).1 (Volume.node_join hid (Volume.noLinkAt_of_file hfind rfl)
      (hpath.put habsent _) hfits hfind .stay)

/-- Documents with names of their own that are written one after the other into a directory that
has none of them appear there as new files. -/
theorem writeAll_eq_ok {documents : List Document} (hids : (documents.map (·.id)).Nodup)
    (hplain : ∀ d ∈ documents, PlainName d.id)
    (habsent : ∀ d ∈ documents, v.nodes.find? (place directory d.id) = none)
    (h : c.writeAll v documents = (w, .ok ())) :
    (∀ d ∈ documents, Fits c.root d.id) ∧ w = filled v directory documents := by
  induction documents generalizing v with
  | nil => exact ⟨nofun, (congrArg Prod.fst h).symm⟩
  | cons d rest ih =>
    obtain ⟨hd, hrest⟩ := List.forall_mem_cons.1 hplain
    obtain ⟨hdAbsent, hrestAbsent⟩ := List.forall_mem_cons.1 habsent
    obtain ⟨hnew, hrestIds⟩ := List.nodup_cons.1 hids
    unfold writeAll at h
    split at h
    · rename_i u hwrite
      obtain ⟨hfits, rfl⟩ := write_eq_ok hpath hd hdAbsent hwrite
      have hstillAbsent : ∀ d' ∈ rest,
          (v.put (place directory d.id) (fileOf d)).nodes.find? (place directory d'.id) = none := by
        intro d' hd'
        rw [Volume.find?_put, if_neg, hrestAbsent d' hd']
        intro heq
        exact hnew (List.mem_map.2 ⟨d', hd', Volume.place_inj.1 heq⟩)
      obtain ⟨hrestFits, hw⟩ := ih (hpath.put hdAbsent _) hrestIds hrest hstillAbsent h
      exact ⟨List.forall_mem_cons.2 ⟨hfits, hrestFits⟩, hw⟩
    · cases congrArg Prod.snd h

end

/-! ## What was written -/

/-- Elsewhere nothing changes. -/
theorem find?_filled_of_ne {documents : List Document} {p : String}
    (hp : ∀ d ∈ documents, p ≠ place directory d.id) (v : Volume) :
    (filled v directory documents).nodes.find? p = v.nodes.find? p := by
  induction documents generalizing v with
  | nil => rfl
  | cons d rest ih =>
    obtain ⟨hd, hrest⟩ := List.forall_mem_cons.1 hp
    refine (ih hrest _).trans ?_
    rw [Volume.find?_put, if_neg hd]

theorem find?_filled_of_mem {documents : List Document} (hids : (documents.map (·.id)).Nodup)
    {d : Document} (hd : d ∈ documents) (v : Volume) :
    (filled v directory documents).nodes.find? (place directory d.id) = some (fileOf d) := by
  induction documents generalizing v with
  | nil => cases hd
  | cons d' rest ih =>
    obtain ⟨hnew, hrest⟩ := List.nodup_cons.1 hids
    rcases List.mem_cons.1 hd with rfl | hd
    · -- no later document has the same name
      have hlater : ∀ d' ∈ rest, place directory d.id ≠ place directory d'.id := fun d' hd' heq =>
        hnew (List.mem_map.2 ⟨d', hd', (Volume.place_inj.1 heq).symm⟩)
      refine (find?_filled_of_ne hlater _).trans ?_
      rw [Volume.find?_put, if_pos rfl]
    · exact ih hrest hd _

theorem current_filled (v : Volume) (documents : List Document) :
    (filled v directory documents).current = v.current := by
  induction documents generalizing v with
  | nil => rfl
  | cons d rest ih => exact ih _

theorem keepsAttributes_filled (v : Volume) (documents : List Document) :
    (filled v directory documents).keepsAttributes = v.keepsAttributes := by
  induction documents generalizing v with
  | nil => rfl
  | cons d rest ih => exact ih _

theorem extends_filled {v : Volume} {documents : List Document}
    (habsent : ∀ d ∈ documents, v.nodes.find? (place directory d.id) = none) :
    v.Extends (filled v directory documents) := by
  refine ⟨current_filled v documents, fun p node hfind => ⟨node, ?_, rfl⟩⟩
  rw [find?_filled_of_ne (fun d hd heq => ?_) v, hfind]
  rw [heq, habsent d hd] at hfind
  cases hfind

/-- Attributes whose names are not in the namespace of users are stored in it. -/
theorem find?_stored {attributes : Attributes}
    (hkeys : ∀ key ∈ attributes.keys, Volume.userKey? key = none) (key : String) :
    (stored attributes).find? (userNamespace ++ key) =
      (attributes.find? key).map Text.utf8 := by
  have hpairs : attributes.toList.map (fun e => (namespaced e.1, Text.utf8 e.2)) =
      attributes.toList.map fun e => (userNamespace ++ e.1, Text.utf8 e.2) := by
    refine List.map_congr_left fun e he => ?_
    unfold namespaced
    rw [hkeys e.1 (List.mem_map_of_mem he)]
    rfl
  unfold stored
  rw [hpairs]
  exact KeyMap.find?_ofList_map (fun _ _ => Volume.userNamespace_append_inj.1) Text.utf8 attributes
    key

/-! ## What users see -/

/-- Users see the documents in the directory of the corpus, and nothing else. -/
structure Stores (c : DirectoryCorpus) (v : Volume) (directory : String)
    (documents : List Document) : Prop where
  text : Volume.checkPath .nulInPath c.root = .ok ()
  leads : v.LeadsTo c.root directory
  keeps : v.keepsAttributes = true
  fits : ∀ d ∈ documents, Fits c.root d.id
  file : ∀ d ∈ documents, ∃ node, v.nodes.find? (place directory d.id) = some node ∧
    node.item = .file (Text.utf8 d.content) ∧ ∀ key,
      node.attributes.find? (userNamespace ++ key) = (d.attributes.find? key).map Text.utf8
  only : ∀ name node, '/' ∉ name.toList → v.nodes.find? (place directory name) = some node →
    ∃ d ∈ documents, d.id = name

/-- After documents were written into an empty directory, users see them there, whatever the files
have in other namespaces. -/
theorem stores_of_writeAll {v u w : Volume} {documents : List Document}
    (hempty : v.entries c.root = .ok []) (hkeeps : v.keepsAttributes = true)
    (hids : (documents.map (·.id)).Nodup) (hplain : ∀ d ∈ documents, PlainName d.id)
    (hkeys : ∀ d ∈ documents, ∀ key ∈ d.attributes.keys, Volume.userKey? key = none)
    (hwrite : c.writeAll v documents = (u, .ok ())) (hw : u.SameForUsers w) :
    ∃ directory, c.Stores w directory documents := by
  obtain ⟨htext, directory, hpath, hnil⟩ := (v.entries_eq_ok_iff c.root []).1 hempty
  have hnone : ∀ name, '/' ∉ name.toList → v.nodes.find? (place directory name) = none := by
    intro name hslash
    rw [Option.eq_none_iff_forall_ne_some]
    intro node hfind
    have hmem := (v.mem_entriesIn_iff directory name node.item).2 ⟨hslash, node, hfind, rfl⟩
    rw [← hnil] at hmem
    cases hmem
  have habsent : ∀ d ∈ documents, v.nodes.find? (place directory d.id) = none := fun d hd =>
    hnone d.id (hplain d hd).no_slash
  obtain ⟨hfits, rfl⟩ := writeAll_eq_ok hpath hids hplain habsent hwrite
  refine ⟨directory, ?_⟩
  constructor
  case text => exact htext
  case leads =>
    exact (hpath.of_keepsWays (extends_filled habsent).keepsWays).of_keepsWays hw.extends.keepsWays
  case keeps => rw [hw.keepsAttributes, keepsAttributes_filled, hkeeps]
  case fits => exact hfits
  case file =>
    intro d hd
    have hfind : (filled v directory documents).nodes.find? (place directory d.id) =
        some (fileOf d) := find?_filled_of_mem hids hd v
    obtain ⟨node, hnode, hitem⟩ := hw.extends.item _ _ hfind
    refine ⟨node, hnode, hitem, fun key => ?_⟩
    rw [hw.value _ _ _ key hfind hnode]
    exact find?_stored (hkeys d hd) key
  case only =>
    intro name node hslash hfind
    -- under any other name nothing was there at the start, and nothing was put there since
    by_contra hno
    have hother : ∀ d ∈ documents, place directory name ≠ place directory d.id :=
      fun d hd heq => hno ⟨d, hd, (Volume.place_inj.1 heq).symm⟩
    have hitem := hw.item (place directory name)
    rw [hfind, find?_filled_of_ne hother, hnone name hslash] at hitem
    cases hitem

/-! ## Reading -/

/-- The identifiers that the entries of a directory make, in ascending order. -/
def identifiers (entries : List (String × Volume.Item)) : List String :=
  ((entries.filter fun e => e.2 matches .file _ && e.1.toList.head? ≠ some '.').map (·.1)).mergeSort
    fun a b => a ≤ b

/-- The provider reads the corpus as it is on a volume. The names in the directory and those of
attributes may come in any order, and the answers after any time. -/
structure Serves (c : DirectoryCorpus) (v : Volume) (p : MetadataProvider) : Prop where
  list : ∀ entries, v.entries c.root = .ok entries → ∃ listed : List (String × Volume.Item),
    listed.Perm entries ∧ p.list.outcome = .ok (identifiers listed)
  content : ∀ id, (p.content id).outcome = c.content v id
  attributes : ∀ id path names, c.pathFor id = .ok path → v.attributeNames path = .ok names →
    ∃ listed : List String, listed.Perm names ∧
      (p.attributes id).outcome = .ok (userAttributes v path listed)

/-- The corpus itself reads them in ascending order. -/
theorem serves_toProvider (c : DirectoryCorpus) (v : Volume) : c.Serves v (c.toProvider v) := by
  constructor
  case list =>
    intro entries hentries
    refine ⟨entries, .rfl, ?_⟩
    show c.list v = _
    unfold DirectoryCorpus.list
    rw [hentries]
    rfl
  case content => exact fun _ => rfl
  case attributes =>
    intro id path names hpath hnames
    refine ⟨names, .rfl, ?_⟩
    show c.attributes v id = _
    unfold DirectoryCorpus.attributes
    rw [hpath]
    simp only [bind, Except.bind, hnames]
    rfl

/-- The attribute that a name stands for among those of a file, if users may set it. -/
def attributeOf (node : Node) (name : String) : Option (String × String) :=
  (Volume.userKey? name).bind fun key =>
    (node.attributes.find? name).map fun value => (key, Text.ofBytesLenient value)

theorem attributeOf_eq_some_iff (node : Node) (name key value : String) :
    attributeOf node name = some (key, value) ↔ name = userNamespace ++ key ∧
      ∃ bytes, node.attributes.find? name = some bytes ∧ Text.ofBytesLenient bytes = value := by
  unfold attributeOf
  rw [Option.bind_eq_some_iff, ← Volume.userKey?_eq_some_iff]
  constructor
  · rintro ⟨key', hkey, hpair⟩
    obtain ⟨bytes, hbytes, heq⟩ := Option.map_eq_some_iff.1 hpair
    cases heq
    exact ⟨hkey, bytes, hbytes, rfl⟩
  · rintro ⟨hkey, bytes, hbytes, rfl⟩
    exact ⟨key, hkey, Option.map_eq_some_iff.2 ⟨bytes, hbytes, rfl⟩⟩

theorem content_of_read {v : Volume} {id path text : String} (hpath : c.pathFor id = .ok path)
    (hread : v.read path = .ok (Text.utf8 text)) : c.content v id = .ok text := by
  unfold content Volume.readText
  rw [hpath]
  simp only [bind, Except.bind, hread, Text.ofUtf8?_utf8]
  rfl

theorem userAttributes_eq_ofList {v : Volume} {path p : String} {node : Node}
    (hnode : v.attributeNode path = .ok (p, node)) (names : List String) :
    userAttributes v path names = .ofList (names.filterMap (attributeOf node)) := by
  have hget : ∀ name, v.getAttribute path name = .ok (node.attributes.find? name) := by
    intro name
    unfold Volume.getAttribute
    rw [hnode]
    rfl
  unfold userAttributes
  congr 1
  refine List.filterMap_congr fun name _ => ?_
  unfold attributeOf
  rw [hget]
  cases Volume.userKey? name with
  | none => rfl
  | some key =>
    cases node.attributes.find? name with
    | none => rfl
    | some bytes => rfl

/-- The attributes that users see on a node, in whatever order their names come. -/
theorem find?_ofList_attributeOf {node : Node} {listed : List String}
    (hlisted : listed.Perm node.attributes.keys) (key : String) :
    (KeyMap.ofList (listed.filterMap (attributeOf node))).find? key =
      (node.attributes.find? (userNamespace ++ key)).map Text.ofBytesLenient := by
  have hmem : ∀ key value, (key, value) ∈ listed.filterMap (attributeOf node) ↔
      (node.attributes.find? (userNamespace ++ key)).map Text.ofBytesLenient = some value := by
    intro key value
    rw [List.mem_filterMap, Option.map_eq_some_iff]
    constructor
    · rintro ⟨_, -, hname⟩
      obtain ⟨rfl, bytes, hbytes, hvalue⟩ := (attributeOf_eq_some_iff ..).1 hname
      exact ⟨bytes, hbytes, hvalue⟩
    · rintro ⟨bytes, hbytes, hvalue⟩
      refine ⟨userNamespace ++ key, hlisted.mem_iff.2 ?_, ?_⟩
      · exact (node.attributes.mem_keys_iff _).2 ⟨bytes, hbytes⟩
      · exact (attributeOf_eq_some_iff ..).2 ⟨rfl, bytes, hbytes, hvalue⟩
  refine Option.ext fun value => ?_
  rw [KeyMap.find?_ofList_eq_some_iff, hmem]
  intro key value value' hvalue hvalue'
  rw [hmem] at hvalue hvalue'
  exact Option.some.inj (hvalue.symm.trans hvalue')

namespace Stores

variable {v : Volume} {documents : List Document} (h : c.Stores v directory documents)
  (hplain : ∀ d ∈ documents, PlainName d.id) {d : Document} (hd : d ∈ documents)

include h hplain

/-- The visible files are the documents, each once. -/
theorem identifiers_eq (hids : (documents.map (·.id)).Nodup)
    {listed : List (String × Volume.Item)} (hlisted : listed.Perm (v.entriesIn directory)) :
    identifiers listed = (documents.map (·.id)).mergeSort (· ≤ ·) := by
  refine mergeSort_eq_of_perm id ?_ fun _ _ _ _ => id
  refine ((hlisted.filter _).map _).trans ((List.perm_ext_iff_of_nodup ?_ hids).2 fun name => ?_)
  · exact (v.names_entriesIn_nodup directory).sublist (List.filter_sublist.map _)
  rw [List.mem_map, List.mem_map]
  constructor
  · rintro ⟨⟨name, item⟩, hmem, rfl⟩
    obtain ⟨hslash, node, hfind, -⟩ :=
      (v.mem_entriesIn_iff directory name item).1 (List.mem_filter.1 hmem).1
    exact h.only name node hslash hfind
  · rintro ⟨d, hd, rfl⟩
    obtain ⟨node, hfind, hitem, -⟩ := h.file d hd
    refine ⟨(d.id, node.item), List.mem_filter.2 ⟨?_, ?_⟩, rfl⟩
    · exact (v.mem_entriesIn_iff ..).2 ⟨(hplain d hd).no_slash, node, hfind, rfl⟩
    · rw [hitem]
      exact decide_eq_true (hplain d hd).not_hidden

include hd

theorem content_eq : c.content v d.id = .ok d.content := by
  obtain ⟨node, hfind, hitem, -⟩ := h.file d hd
  have hread := Volume.read_join (hplain d hd) h.leads (h.fits d hd) hfind hitem
  exact content_of_read (pathFor_plainName (hplain d hd)) hread

theorem exists_attributeNode : ∃ node : Node,
    v.attributeNode (Volume.Path.join c.root d.id) = .ok (place directory d.id, node) ∧
      ∀ key, node.attributes.find? (userNamespace ++ key) =
        (d.attributes.find? key).map Text.utf8 := by
  obtain ⟨node, hfind, hitem, hvalues⟩ := h.file d hd
  exact ⟨node, Volume.attributeNode_join (hplain d hd) h.leads (h.fits d hd) hfind hitem h.keeps,
    hvalues⟩

/-- In whatever order the names of the attributes come, those of the document are read. -/
theorem userAttributes_eq {names listed : List String}
    (hnames : v.attributeNames (Volume.Path.join c.root d.id) = .ok names)
    (hlisted : listed.Perm names) :
    userAttributes v (Volume.Path.join c.root d.id) listed = d.attributes := by
  obtain ⟨node, hnode, hvalues⟩ := h.exists_attributeNode hplain hd
  obtain rfl : node.attributes.keys = names := by
    unfold Volume.attributeNames at hnames
    rw [hnode] at hnames
    exact Except.ok.inj hnames
  refine KeyMap.ext_find? fun key => ?_
  rw [userAttributes_eq_ofList hnode, find?_ofList_attributeOf hlisted, hvalues, Option.map_map]
  exact (Option.map_congr fun value _ => Text.ofBytesLenient_utf8 value).trans Option.map_id'

end Stores

end ScopedRetrieval.DirectoryCorpus
