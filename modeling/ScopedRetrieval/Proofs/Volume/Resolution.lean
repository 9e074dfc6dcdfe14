/-
Where paths lead. A name behind a path that leads to a directory is looked up in just that
directory, however many links and dots the path goes through, and nothing else is looked at
(`resolve_join_eq_walk`, `stepThrough_entry_congr`, `resolve_join`); and a path still leads there
after files came or changed elsewhere (`LeadsTo.of_keepsWays`).
-/
import ScopedRetrieval.Proofs.Volume.Way

namespace ScopedRetrieval.Volume

/-! ## Names of entries -/

/-- A name under which something can be in a directory: a single part of a path, and none of the two
that stand for directories. -/
structure EntryName (name : String) : Prop where
  ne_empty : name ≠ ""
  no_slash : '/' ∉ name.toList
  ne_dot : name ≠ "."
  ne_dots : name ≠ ".."

/-- A name that a directory shows to users: a single part of a path, and not hidden. -/
structure PlainName (name : String) : Prop where
  ne_empty : name ≠ ""
  no_slash : '/' ∉ name.toList
  not_hidden : name.toList.head? ≠ some '.'

instance (name : String) : Decidable (PlainName name) :=
  decidable_of_iff (name ≠ "" ∧ '/' ∉ name.toList ∧ name.toList.head? ≠ some '.')
    ⟨fun h => ⟨h.1, h.2.1, h.2.2⟩, fun h => ⟨h.ne_empty, h.no_slash, h.not_hidden⟩⟩

namespace PlainName

variable {name : String} (h : PlainName name)

include h

theorem entryName : EntryName name := by
  constructor
  case ne_empty => exact h.ne_empty
  case no_slash => exact h.no_slash
  case ne_dot =>
    rintro rfl
    exact h.not_hidden rfl
  case ne_dots =>
    rintro rfl
    exact h.not_hidden rfl

theorem isAbsolute : Path.isAbsolute name = false := by
  unfold Path.isAbsolute
  rw [decide_eq_false_iff_not]
  intro hhead
  exact h.no_slash (List.mem_of_mem_head? hhead)

end PlainName

/-! ## Names in a path -/

namespace Path

/-- The names on both sides of a slash. -/
theorem names_append_slash (path rest : List Char) :
    names (.ofList (path ++ '/' :: rest)) = names (.ofList path) ++ names (.ofList rest) := by
  have hsplit : (path ++ '/' :: rest).splitOn '/' = path.splitOn '/' ++ rest.splitOn '/' :=
    List.splitOnP_append_cons path rest (beq_self_eq_true '/')
  unfold names
  rw [String.toList_ofList, String.toList_ofList, String.toList_ofList, hsplit, List.map_append,
    List.filter_append]

theorem names_of_plainName {name : String} (h : PlainName name) : names name = [name] := by
  unfold names
  rw [List.splitOn_eq_singleton h.no_slash, List.map_singleton, String.ofList_toList]
  exact List.filter_cons_of_pos (by simpa using h.ne_empty)

section

variable {rest : String} (hrest : isAbsolute rest = false)

include hrest

/-- A path and a relative one behind it, with a slash between them that may have been there
before. -/
theorem exists_join_eq {path : String} (hpath : path ≠ "") :
    ∃ cs, join path rest = .ofList (cs ++ '/' :: rest.toList) ∧
      names (.ofList cs) = names path := by
  unfold join
  rw [hrest, if_neg Bool.false_ne_true]
  by_cases hslash : endsWithSlash path = true
  · have hlast : path.toList.getLast? = some '/' := of_decide_eq_true hslash
    obtain ⟨cs, hcs⟩ := List.getLast?_eq_some_iff.1 hlast
    refine ⟨cs, ?_, ?_⟩
    · rw [if_pos (Or.inr hslash), ← String.toList_inj, String.toList_append, hcs]
      simp
    · have hsplit := names_append_slash cs []
      rw [show names (.ofList []) = [] from rfl, List.append_nil, ← hcs, String.ofList_toList]
        at hsplit
      exact hsplit.symm
  · refine ⟨path.toList, ?_, by rw [String.ofList_toList]⟩
    have hempty : path.isEmpty = false := by simpa using hpath
    rw [if_neg (by simp [hslash, hempty]), ← String.toList_inj]
    simp

theorem join_empty : join "" rest = rest := by
  unfold join
  rw [hrest, if_neg Bool.false_ne_true, if_pos (.inl rfl), String.empty_append]

theorem names_join (path : String) : names (join path rest) = names path ++ names rest := by
  by_cases hpath : path = ""
  · rw [hpath, join_empty hrest]
    rfl
  · obtain ⟨cs, hjoin, hcs⟩ := exists_join_eq hrest hpath
    rw [hjoin, names_append_slash, hcs, String.ofList_toList]

theorem isAbsolute_join (path : String) : isAbsolute (join path rest) = isAbsolute path := by
  by_cases hpath : path = ""
  · rw [hpath, join_empty hrest, hrest]
    rfl
  have hne : path.toList ≠ [] := fun h => hpath (String.toList_eq_nil_iff.1 h)
  have hhead : ∀ rest : List Char, (path.toList ++ rest).head? = path.toList.head? := fun rest =>
    List.head?_append_of_ne_nil _ hne
  unfold join
  rw [hrest, if_neg Bool.false_ne_true]
  unfold isAbsolute
  split
  · rw [String.toList_append, hhead]
  · rw [String.toList_append, String.toList_append, List.append_assoc, hhead]

theorem endsWithSlash_join {path : String} (hpath : path ≠ "") (hne : rest ≠ "") :
    endsWithSlash (join path rest) = endsWithSlash rest := by
  have hlist : rest.toList ≠ [] := fun h => hne (String.toList_eq_nil_iff.1 h)
  obtain ⟨cs, hjoin, -⟩ := exists_join_eq hrest hpath
  unfold endsWithSlash
  rw [hjoin, String.toList_ofList, List.getLast?_append_of_ne_nil _ (List.cons_ne_nil _ _),
    List.getLast?_cons_of_ne_nil hlist]

/-- Behind the names of a path come the steps of what was joined to it. -/
theorem steps_join {path : String} (hpath : path ≠ "") (hnames : names rest ≠ []) :
    steps (join path rest) = names path ++ steps rest := by
  have hne : rest ≠ "" := by
    rintro rfl
    exact hnames rfl
  unfold steps
  dsimp only
  rw [names_join hrest, endsWithSlash_join hrest hpath hne]
  by_cases hslash : endsWithSlash rest = true
  · rw [if_pos (by simp [hslash, hnames]), if_pos (by simp [hslash, hnames]), List.append_assoc]
  · rw [if_neg (by simp [hslash]), if_neg (by simp [hslash])]

theorem join_ne_empty {path : String} (hpath : path ≠ "") : join path rest ≠ "" := by
  obtain ⟨cs, hjoin, -⟩ := exists_join_eq hrest hpath
  rw [hjoin]
  intro h
  have := congrArg String.toList h
  simp at this

end

/-- The names behind those of a path that stand for a slash at its end. -/
theorem exists_steps_eq (path : String) :
    ∃ slash, steps path = names path ++ slash ∧ (slash = [] ∨ slash = [""]) := by
  unfold steps
  dsimp only
  split
  · exact ⟨[""], rfl, .inr rfl⟩
  · exact ⟨[], (List.append_nil _).symm, .inl rfl⟩

theorem steps_of_plainName {name : String} (h : PlainName name) : steps name = [name] := by
  have hslash : endsWithSlash name = false := by
    unfold endsWithSlash
    rw [decide_eq_false_iff_not]
    exact fun hlast => h.no_slash (List.mem_of_getLast? hlast)
  unfold steps
  rw [names_of_plainName h, hslash]
  rfl

end Path

/-! ## From a path to a directory -/

/-- The path leads to the directory at a place. -/
def LeadsTo (v : Volume) (path directory : String) : Prop :=
  ∃ node, v.resolve .follow path = .ok (.found directory node) ∧ node.item = .directory

/-- Everything is still where it was, and is still what it was; more may be there. -/
structure Extends (v w : Volume) : Prop where
  current : w.current = v.current
  item : ∀ place node, v.nodes.find? place = some node →
    ∃ node', w.nodes.find? place = some node' ∧ node'.item = node.item

/-- No way is lost: what was a directory or a link is still there, and is still what it was. Files
may come, change and go. -/
structure KeepsWays (v w : Volume) : Prop where
  current : w.current = v.current
  item : ∀ place node, v.nodes.find? place = some node → (∀ content, node.item ≠ .file content) →
    ∃ node', w.nodes.find? place = some node' ∧ node'.item = node.item

theorem KeepsWays.refl (v : Volume) : v.KeepsWays v := ⟨rfl, fun _ node h _ => ⟨node, h, rfl⟩⟩

theorem Extends.keepsWays {v w : Volume} (h : v.Extends w) : v.KeepsWays w :=
  ⟨h.current, fun place node hfind _ => h.item place node hfind⟩

/-- Names that can stand at the end of a path: no slash where a file is to be made, and something
at all where links are not followed. -/
structure Ends (finish : Finish) (tail : List String) : Prop where
  slash : ∀ rest, ¬(finish = .create ∧ rest ++ tail = [""])
  link : ∀ rest, ¬((rest ++ tail).isEmpty = true ∧ finish = .stay)

theorem ends_nil : Ends .follow [] := ⟨fun _ => (nomatch ·.1), fun _ => (nomatch ·.2)⟩

theorem ends_cons (finish : Finish) {name : String} (hname : name ≠ "") (behind : List String) :
    Ends finish (name :: behind) := by
  constructor
  case slash =>
    rintro rest ⟨-, h⟩
    have hmem : name ∈ rest ++ name :: behind := List.mem_append_right _ List.mem_cons_self
    rw [h] at hmem
    exact hname (List.mem_singleton.1 hmem)
  case link =>
    rintro rest ⟨h, -⟩
    exact List.append_ne_nil_of_right_ne_nil _ (List.cons_ne_nil _ _) (List.isEmpty_iff.1 h)

/-- Where some names lead to a directory, those names with others behind them lead where the others
lead from there. -/
theorem walk_append {v w : Volume} (hvw : v.KeepsWays w) {finish : Finish} {directory : String}
    {node : Node} (hnode : node.item = .directory) {slash tail : List String}
    (hslash : slash = [] ∨ slash = [""]) (hends : Ends finish tail) {links : Nat}
    {names : List String} {here : String}
    (h : v.Way .follow links here (names ++ slash) (.found directory node)) :
    ∃ fewer, w.walk finish links here (names ++ tail) = w.walk finish fewer directory tail := by
  -- a link puts its own names before the others, so the names grow where the links get fewer
  induction links using Nat.strongRecOn generalizing names here with | ind links ihLinks =>
  induction names generalizing here with
  | nil =>
    refine ⟨links, ?_⟩
    rcases hslash with rfl | rfl
    · cases h
      rfl
    · obtain ⟨_, hhere⟩ := Way.exists_eq_found rfl h
      cases hhere
      rfl
  | cons name rest ih =>
    have hon : GoesOn finish (rest ++ tail) := hends.slash rest
    rw [List.cons_append] at h ⊢
    generalize hall : rest ++ slash = all at h
    -- what is looked up on the way is still there and of the same kind
    cases h with
    | stays _ hdot hrest =>
      rw [walk_stays hon hdot]
      exact ih (hall ▸ hrest)
    | ascends _ hrest =>
      rw [walk_ascends hon]
      exact ih (hall ▸ hrest)
    | enters _ hname hfind hitem hrest =>
      obtain ⟨next, hnext, hsame⟩ := hvw.item _ _ hfind (by rw [hitem]; exact fun _ => nofun)
      rw [walk_enters hon hname hnext (hsame.trans hitem)]
      exact ih (hall ▸ hrest)
    | finds _ _ hitem =>
      rcases hitem with ⟨content, hitem⟩ | ⟨hstay, -⟩
      · rw [hnode] at hitem
        cases hitem
      · cases hstay
    | @follows links _ _ _ _ aim _ _ hname hfind hitem _ hrest =>
      obtain ⟨next, hnext, hsame⟩ := hvw.item _ _ hfind (by rw [hitem]; exact fun _ => nofun)
      rw [walk_follows hon hname hnext (hsame.trans hitem) (hends.link rest), ← List.append_assoc]
      refine ihLinks links (Nat.lt_succ_self links) ?_
      rw [List.append_assoc, hall]
      exact hrest

theorem LeadsTo.ne_empty {v : Volume} {path directory : String} (h : v.LeadsTo path directory) :
    path ≠ "" := by
  rintro rfl
  obtain ⟨_, h, -⟩ := h
  cases h

theorem leadsTo_root {v : Volume} {node : Node} (hfind : v.nodes.find? "" = some node)
    (hnode : node.item = .directory) : v.LeadsTo "/" "" := by
  have hsteps : Path.steps "/" = [] := by decide +kernel
  refine ⟨node, ?_, hnode⟩
  unfold resolve resolveNames
  rw [if_neg (by decide), if_neg (by decide), hsteps, startOf, if_pos (by decide)]
  show v.stepThrough .follow _ "" [] = _
  unfold stepThrough
  rw [hfind]

/-- The path leads to the directory as long as no way is lost. -/
theorem LeadsTo.of_keepsWays {v w : Volume} {path directory : String} (hvw : v.KeepsWays w)
    (h : v.LeadsTo path directory) : w.LeadsTo path directory := by
  obtain ⟨node, hresolve, hnode⟩ := h
  obtain ⟨hempty, hlong, hway⟩ := resolve_eq_ok_iff.1 hresolve
  obtain ⟨node', hfind, hitem⟩ := hvw.item directory node (find?_place_of_resolve hresolve)
    (by rw [hnode]; exact fun _ => nofun)
  rw [← List.append_nil (Path.steps path)] at hway
  obtain ⟨fewer, hwalk⟩ := walk_append hvw hnode (.inl rfl) ends_nil hway
  rw [List.append_nil, (Way.ends hfind).walk_eq_ok] at hwalk
  refine ⟨node', resolve_eq_ok_iff.2 ⟨hempty, hlong, ?_⟩, hitem.trans hnode⟩
  rw [hvw.current]
  exact way_of_walk hwalk

/-! ## From a directory to a name in it -/

/-- What a name that is no link stands for in a directory. -/
def lookIn (v : Volume) (directory name : String) : Except Fault Target :=
  if nameLimit < name.utf8ByteSize then .error .nameTooLong
  else .ok <| match v.nodes.find? (place directory name) with
    | none => .absent directory name
    | some node => .found (place directory name) node

/-- A path with a name behind it that the limits allow. -/
structure Fits (path name : String) : Prop where
  text : '\x00' ∉ (Path.join path name).toList
  path : (Path.join path name).utf8ByteSize < pathLimit
  name : name.utf8ByteSize ≤ nameLimit

theorem Fits.checkPath {path name : String} (h : Fits path name) (fault : Fault) :
    checkPath fault (Path.join path name) = .ok () := by
  unfold Volume.checkPath
  rw [if_neg]
  rw [List.contains_iff_mem]
  exact h.text

/-- No link stands at the place. -/
def NoLinkAt (v : Volume) (place : String) : Prop :=
  ∀ node target, v.nodes.find? place = some node → node.item ≠ .link target

theorem noLinkAt_of_absent {v : Volume} {place : String} (h : v.nodes.find? place = none) :
    v.NoLinkAt place := by
  intro node target hfind
  rw [h] at hfind
  cases hfind

theorem noLinkAt_of_file {v : Volume} {place : String} {node : Node} {content : List UInt8}
    (h : v.nodes.find? place = some node) (hfile : node.item = .file content) :
    v.NoLinkAt place := by
  intro node' target hfind hlink
  rw [h] at hfind
  cases hfind
  rw [hfile] at hlink
  cases hlink

/-! ### Entries -/

/-- Dots and a slash behind the name of an entry stay where they are. -/
theorem stepThrough_stays_congr {v w : Volume} {here : String}
    (hfind : w.nodes.find? here = v.nodes.find? here) (finish : Finish)
    (onLink onLink' : String → String → List String → Except Fault Target) {dots : List String}
    (hdots : ∀ d ∈ dots, d = "." ∨ d = "") :
    w.stepThrough finish onLink' here dots = v.stepThrough finish onLink here dots := by
  induction dots with
  | nil =>
    unfold stepThrough
    rw [hfind]
  | cons d rest ih =>
    obtain ⟨hd, hrest⟩ := List.forall_mem_cons.1 hdots
    unfold stepThrough
    rw [if_pos hd, if_pos hd, ih hrest]

theorem stepThrough_stays_eq_ok {v : Volume} {here : String} {finish : Finish}
    {onLink : String → String → List String → Except Fault Target} {dots : List String}
    (hdots : ∀ d ∈ dots, d = "." ∨ d = "") {target : Target}
    (h : v.stepThrough finish onLink here dots = .ok target) :
    ∃ node, v.nodes.find? here = some node ∧ target = .found here node := by
  induction dots with
  | nil =>
    unfold stepThrough at h
    split at h
    · rename_i node hfind
      exact ⟨node, hfind, (Except.ok.inj h).symm⟩
    · cases h
  | cons d rest ih =>
    obtain ⟨hd, hrest⟩ := List.forall_mem_cons.1 hdots
    unfold stepThrough at h
    rw [if_pos hd] at h
    split at h
    · cases h
    · exact ih hrest h

section

variable {v w : Volume} {directory name : String} (hname : EntryName name)
  (hlink : v.NoLinkAt (place directory name)) {dots : List String}
  (hdots : ∀ d ∈ dots, d = "." ∨ d = "")

include hname hlink hdots

/-- The way to an entry, as far as it is in the directory, depends on what is at its place only. -/
theorem stepThrough_entry_congr
    (hfind : w.nodes.find? (place directory name) = v.nodes.find? (place directory name))
    (finish : Finish) (onLink onLink' : String → String → List String → Except Fault Target) :
    w.stepThrough finish onLink' directory (name :: dots) =
      v.stepThrough finish onLink directory (name :: dots) := by
  have hdot : ¬(name = "." ∨ name = "") := not_or_intro hname.ne_dot hname.ne_empty
  unfold stepThrough
  rw [hfind, if_neg hdot, if_neg hname.ne_dots, if_neg hdot, if_neg hname.ne_dots]
  cases hnode : v.nodes.find? (place directory name) with
  | none => rfl
  | some node =>
    dsimp only
    cases hkind : node.item with
    | directory => rw [stepThrough_stays_congr hfind finish onLink onLink' hdots]
    | file content => rfl
    | link target => exact absurd hkind (hlink node target hnode)

theorem lookIn_of_stepThrough_entry {finish : Finish}
    {onLink : String → String → List String → Except Fault Target} {target : Target}
    (h : v.stepThrough finish onLink directory (name :: dots) = .ok target) :
    v.lookIn directory name = .ok target := by
  unfold stepThrough at h
  unfold lookIn
  split at h
  · cases h
  rw [if_neg (not_or_intro hname.ne_dot hname.ne_empty), if_neg hname.ne_dots] at h
  split at h
  · cases h
  rename_i hshort
  rw [if_neg hshort]
  cases hnode : v.nodes.find? (place directory name) with
  | none =>
    rw [hnode] at h
    dsimp only at h ⊢
    split at h
    · exact h
    · cases h
  | some node =>
    rw [hnode] at h
    dsimp only at h ⊢
    cases hkind : node.item with
    | directory =>
      rw [hkind] at h
      obtain ⟨node', hnode', rfl⟩ := stepThrough_stays_eq_ok hdots h
      rw [hnode] at hnode'
      cases hnode'
      rfl
    | file content =>
      rw [hkind] at h
      dsimp only at h
      split at h
      · exact h
      · cases h
    | link target => exact absurd hkind (hlink node target hnode)

/-- A path to an entry behind one that leads to a directory goes on from that directory, and follows
no links there, whatever it is finished for. -/
theorem resolve_join_eq_walk {path rest : String} (hpath : v.LeadsTo path directory)
    (hrest : Path.isAbsolute rest = false) (hsteps : Path.steps rest = name :: dots)
    (finish : Finish) :
    v.resolve finish (Path.join path rest) =
      if pathLimit ≤ (Path.join path rest).utf8ByteSize then .error .nameTooLong
      else v.walk finish 0 directory (name :: dots) := by
  have hne := hpath.ne_empty
  have hnames : Path.names rest ≠ [] := by
    intro hnil
    unfold Path.steps at hsteps
    simp [hnil] at hsteps
  obtain ⟨node, hresolve, hnode⟩ := hpath
  have hjoin : (Path.join path rest).isEmpty = false := by
    simpa using Path.join_ne_empty hrest hne
  obtain ⟨slash, hpathSteps, hslash⟩ := Path.exists_steps_eq path
  obtain ⟨-, -, hway⟩ := resolve_eq_ok_iff.1 hresolve
  rw [hpathSteps] at hway
  obtain ⟨fewer, hwalk⟩ :=
    walk_append (KeepsWays.refl v) hnode hslash (ends_cons finish hname.ne_empty dots) hway
  unfold startOf at hwalk
  unfold resolve resolveNames startOf
  rw [hjoin, if_neg Bool.false_ne_true, Path.steps_join hrest hne hnames,
    Path.isAbsolute_join hrest, hsteps, hwalk, walk_eq_stepThrough, walk_eq_stepThrough,
    stepThrough_entry_congr hname hlink hdots rfl]

end

/-! ### Plain names -/

section

variable {v : Volume} {directory name : String} (hname : PlainName name)
  (hlink : v.NoLinkAt (place directory name))

include hname hlink

theorem stepThrough_plainName (finish : Finish)
    (onLink : String → String → List String → Except Fault Target) :
    v.stepThrough finish onLink directory [name] = v.lookIn directory name := by
  unfold stepThrough lookIn
  rw [if_neg (goesOn_nil finish), if_neg (not_or_intro hname.entryName.ne_dot hname.ne_empty),
    if_neg hname.entryName.ne_dots]
  split
  · rfl
  cases hfind : v.nodes.find? (place directory name) with
  | none => rfl
  | some node =>
    dsimp only
    cases hkind : node.item with
    | directory =>
      unfold stepThrough
      rw [hfind]
    | file content => rfl
    | link target => exact absurd hkind (hlink node target hfind)

/-- A plain name behind a path that leads to a directory is looked up in that directory, whatever
the path is finished for. -/
theorem resolve_join {path : String} (hpath : v.LeadsTo path directory) (finish : Finish) :
    v.resolve finish (Path.join path name) =
      if pathLimit ≤ (Path.join path name).utf8ByteSize then .error .nameTooLong
      else v.lookIn directory name := by
  rw [resolve_join_eq_walk hname.entryName hlink (List.forall_mem_nil _) hpath hname.isAbsolute
    (Path.steps_of_plainName hname) finish]
  unfold walk
  rw [stepThrough_plainName hname hlink]

/-- What is in a directory under a plain name that a path may end with. -/
theorem node_join {path : String} (hpath : v.LeadsTo path directory) {node : Node}
    (hfits : Fits path name) (hfind : v.nodes.find? (place directory name) = some node)
    (finish : Finish) :
    v.node finish (Path.join path name) = .ok (place directory name, node) := by
  unfold Volume.node
  rw [resolve_join hname hlink hpath, if_neg (Nat.not_le_of_lt hfits.path)]
  unfold lookIn
  rw [if_neg (Nat.not_lt_of_le hfits.name), hfind]
  rfl

end

end ScopedRetrieval.Volume
