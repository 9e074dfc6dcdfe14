/-
What identifiers reach. An identifier is accepted if it is a relative path with one part
(`pathFor_eq_ok_iff`). If that part is a name, whatever is read and written under the identifier is
at the place of that name in the directory of the corpus (`content_congr`, `attributes_congr`,
`changedAt_write`); the parts that stand for directories are accepted as well, and with them the
path is not that of an entry.
-/
import ScopedRetrieval.Proofs.Corpus.Directory
import ScopedRetrieval.Proofs.Volume.Footprint

namespace ScopedRetrieval.DirectoryCorpus

open Volume (place)

variable {c : DirectoryCorpus} {id path : String}

/-! ## Accepted identifiers -/

theorem pathFor_eq_ok_iff : c.pathFor id = .ok path ↔
    Volume.Path.isAbsolute id = false ∧ (∃ part, Volume.Path.components id = [part]) ∧
      path = Volume.Path.join c.root id := by
  unfold pathFor
  rw [← List.length_eq_one_iff]
  constructor
  · intro h
    split at h
    · cases h
    · rename_i hone
      obtain ⟨hlength, hrelative⟩ := not_or.1 hone
      exact ⟨by simpa using hrelative, Decidable.not_not.1 hlength, (Except.ok.inj h).symm⟩
  · rintro ⟨hrelative, hlength, rfl⟩
    rw [if_neg]
    rw [hlength, hrelative]
    simp

/-- An accepted identifier is that of an entry, unless it stands for the directory of the corpus or
for the one above it. -/
theorem entryOf_pathFor_iff (h : c.pathFor id = .ok path) : Volume.Path.EntryOf c.root path ↔
    Volume.Path.components id ≠ [.current] ∧ Volume.Path.components id ≠ [.parent] := by
  obtain ⟨hrelative, ⟨part, hpart⟩, rfl⟩ := pathFor_eq_ok_iff.1 h
  rw [Volume.Path.entryOf_join_iff hrelative hpart, hpart]
  simp

/-! ## Reading -/

section

variable {v w : Volume} (hpath : c.pathFor id = .ok path)

include hpath

theorem content_congr (hresolve : w.resolve .follow path = v.resolve .follow path) :
    c.content w id = c.content v id := by
  unfold content
  rw [hpath]
  simp only [bind, Except.bind]
  unfold Volume.readText Volume.read Volume.node
  rw [hresolve]

theorem attributes_congr (hresolve : w.resolve .stay path = v.resolve .stay path)
    (hkeeps : w.keepsAttributes = v.keepsAttributes) :
    c.attributes w id = c.attributes v id := by
  have hnode : w.attributeNode path = v.attributeNode path := by
    unfold Volume.attributeNode Volume.node
    rw [hresolve, hkeeps]
  unfold attributes userAttributes Volume.attributeNames Volume.getAttribute
  rw [hpath]
  simp only [bind, Except.bind, hnode]

end

/-- The attributes of a document are those of what is at its path. -/
theorem attributes_of_attributeNode {v : Volume} {node : Volume.Node} {found : String}
    (hpath : c.pathFor id = .ok path) (hnode : v.attributeNode path = .ok (found, node)) :
    c.attributes v id = .ok (.ofList (node.attributes.keys.filterMap (attributeOf node))) := by
  have hnames : v.attributeNames path = .ok node.attributes.keys := by
    unfold Volume.attributeNames
    rw [hnode]
    rfl
  unfold attributes
  rw [hpath]
  simp only [bind, Except.bind, hnames, userAttributes_eq_ofList hnode]
  rfl

/-! ## Writing -/

section

variable {v : Volume} {directory name : String}
  (hid : Volume.Path.components id = [.normal name]) (hroot : v.StartsAt c.root directory)
  (hlink : v.NoLinkAt (place directory name))

include hid hroot hlink

theorem changedAt_setAttributes (pairs : List (String × String)) :
    v.ChangedAt (setAttributes id (Volume.Path.join c.root id) v pairs).1
      (place directory name) := by
  induction pairs generalizing v with
  | nil => exact .refl v _
  | cons e rest ih =>
    unfold setAttributes
    split
    · rename_i u hset
      have hchanged := Volume.changedAt_of_setAttribute hid hroot hlink hset
      exact hchanged.trans
        (ih (hroot.of_keepsWays hchanged.keepsWays) (hchanged.noLink hlink))
    · exact .refl v _

/-- Also a document that is written in part changes no other place. -/
theorem changedAt_write (text : String) (attributes : Attributes) :
    v.ChangedAt (c.write v id text attributes).1 (place directory name) := by
  unfold write
  split
  · exact .refl v _
  rename_i path hpath
  obtain ⟨-, -, rfl⟩ := pathFor_eq_ok_iff.1 hpath
  split
  · exact .refl v _
  rename_i u hwrite
  have hchanged := Volume.changedAt_of_write hid hroot hlink hwrite
  exact hchanged.trans (changedAt_setAttributes hid (hroot.of_keepsWays hchanged.keepsWays)
    (hchanged.noLink hlink) attributes.toList)

end

/-! ## What identifiers reach -/

/-- The path of an accepted identifier is that of an entry of the directory of the corpus exactly if
the identifier is neither that directory nor the one above it. Content and attributes then depend on
nothing but what stands at the place of one name there, and whatever is written changes that place
alone. -/
theorem identifier_stays_inside_iff (h : c.pathFor id = .ok path) :
    (Volume.Path.EntryOf c.root path ↔
      Volume.Path.components id ≠ [.current] ∧ Volume.Path.components id ≠ [.parent]) ∧
    ∀ name, Volume.Path.components path = Volume.Path.components c.root ++ [.normal name] →
      ∀ (v : Volume) directory, v.StartsAt c.root directory → v.NoLinkAt (place directory name) →
        (∀ w : Volume, w.StartsAt c.root directory → w.keepsAttributes = v.keepsAttributes →
          w.nodes.find? (place directory name) = v.nodes.find? (place directory name) →
          c.content w id = c.content v id ∧ c.attributes w id = c.attributes v id) ∧
        ∀ text attributes,
          v.ChangedAt (c.write v id text attributes).1 (place directory name) := by
  refine ⟨entryOf_pathFor_iff h, fun name hname v directory hroot hlink => ?_⟩
  obtain ⟨hrelative, ⟨part, hpart⟩, rfl⟩ := pathFor_eq_ok_iff.1 h
  have hid : Volume.Path.components id = [.normal name] := by
    rw [hpart, (Volume.Path.components_join_eq_concat_iff hrelative hpart c.root name).1 hname]
  constructor
  · intro w hroot' hkeeps hfind
    have hresolve := Volume.resolve_entry_congr hid hroot hlink hroot' hfind
    exact ⟨content_congr h (hresolve .follow), attributes_congr h (hresolve .stay) hkeeps⟩
  · exact changedAt_write hid hroot hlink

/-- A document of a corpus, seen from two volumes that differ in all else that is in the corpus and
around it. -/
theorem identifier_stays_inside_iff_notes :
    let c : DirectoryCorpus := ⟨"outer/corpus/"⟩
    let notes : Volume.Node := ⟨.file (Text.utf8 "n"), .ofList [("user.level", Text.utf8 "1")]⟩
    let v : Volume := { nodes := .ofList [("", ⟨.directory, .empty⟩),
      ("/outer", ⟨.directory, .ofList [("user.owner", Text.utf8 "board")]⟩),
      ("/outer/corpus", ⟨.directory, .empty⟩), ("/outer/corpus/notes", notes)] }
    let w : Volume := { nodes := .ofList [("", ⟨.directory, .empty⟩),
      ("/outer", ⟨.directory, .empty⟩), ("/outer/corpus", ⟨.directory, .empty⟩),
      ("/outer/corpus/notes", notes), ("/outer/corpus/plan", ⟨.file [], .empty⟩)] }
    c.pathFor "notes" = .ok "outer/corpus/notes" ∧
      Volume.Path.EntryOf c.root "outer/corpus/notes" ∧
      c.content w "notes" = c.content v "notes" ∧
      c.attributes w "notes" = c.attributes v "notes" ∧
      v.ChangedAt (c.write v "notes" "m" (.ofList [("owner", "infra")])).1
        "/outer/corpus/notes" := by
  intro c notes v w
  have hpath : c.pathFor "notes" = .ok "outer/corpus/notes" := by decide +kernel
  have hv : v.StartsAt c.root "/outer/corpus" :=
    .inl ⟨_, (v.node_eq_ok_iff .follow c.root "/outer/corpus" ⟨.directory, .empty⟩).1
      (by decide +kernel), rfl⟩
  have hw : w.StartsAt c.root "/outer/corpus" :=
    .inl ⟨_, (w.node_eq_ok_iff .follow c.root "/outer/corpus" ⟨.directory, .empty⟩).1
      (by decide +kernel), rfl⟩
  have hfind : v.nodes.find? "/outer/corpus/notes" = some notes := by decide +kernel
  have hplace : place "/outer/corpus" "notes" = "/outer/corpus/notes" := by decide +kernel
  obtain ⟨hentry, hall⟩ := identifier_stays_inside_iff hpath
  obtain ⟨hread, hwrite⟩ := hall "notes" (by decide +kernel) v "/outer/corpus" hv
    (hplace ▸ Volume.noLinkAt_of_file hfind rfl)
  obtain ⟨hcontent, hattributes⟩ := hread w hw rfl (by decide +kernel)
  exact ⟨hpath, hentry.2 (by decide +kernel), hcontent, hattributes, hplace ▸ hwrite _ _⟩

/-- The parts that stand for the directory of the corpus and for the one above it are identifiers
that are accepted, and the attributes of these directories are read under them. -/
theorem identifier_reaches_directory_above :
    let c : DirectoryCorpus := ⟨"outer/corpus"⟩
    let v : Volume := { nodes := .ofList [("", ⟨.directory, .empty⟩),
      ("/outer", ⟨.directory, .ofList [("user.owner", Text.utf8 "board")]⟩),
      ("/outer/corpus", ⟨.directory, .ofList [("user.owner", Text.utf8 "infra")]⟩)] }
    c.pathFor "." = .ok "outer/corpus/." ∧ ¬Volume.Path.EntryOf c.root "outer/corpus/." ∧
      c.attributes v "." = .ok (.ofList [("owner", "infra")]) ∧
      c.pathFor ".." = .ok "outer/corpus/.." ∧ ¬Volume.Path.EntryOf c.root "outer/corpus/.." ∧
      c.attributes v ".." = .ok (.ofList [("owner", "board")]) := by
  intro c v
  have hread : ∀ id path found owner, c.pathFor id = .ok path →
      v.attributeNode path = .ok (found, ⟨.directory, .ofList [("user.owner", Text.utf8 owner)]⟩) →
      c.attributes v id = .ok (.ofList [("owner", owner)]) := by
    intro id path found owner hpath hnode
    have howner : attributeOf ⟨.directory, .ofList [("user.owner", Text.utf8 owner)]⟩ "user.owner" =
        some ("owner", owner) :=
      (attributeOf_eq_some_iff ..).2 ⟨by decide, _, rfl, Text.ofBytesLenient_utf8 owner⟩
    rw [attributes_of_attributeNode hpath hnode]
    show Except.ok (KeyMap.ofList (["user.owner"].filterMap _)) = _
    rw [List.filterMap_cons_some howner]
    rfl
  have hhere : c.pathFor "." = .ok "outer/corpus/." := by decide +kernel
  have habove : c.pathFor ".." = .ok "outer/corpus/.." := by decide +kernel
  have hhereEntry : ¬Volume.Path.EntryOf c.root "outer/corpus/." := fun h =>
    ((entryOf_pathFor_iff hhere).1 h).1 (by decide +kernel)
  have haboveEntry : ¬Volume.Path.EntryOf c.root "outer/corpus/.." := fun h =>
    ((entryOf_pathFor_iff habove).1 h).2 (by decide +kernel)
  exact ⟨hhere, hhereEntry, hread _ _ "/outer/corpus" _ hhere (by decide +kernel), habove,
    haboveEntry, hread _ _ "/outer" _ habove (by decide +kernel)⟩

end ScopedRetrieval.DirectoryCorpus
