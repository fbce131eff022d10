import Sweep.Proofs.Files.Writing
import Sweep.Proofs.Table

/-!
# The files of one directory

What can be done to files by plain names in one directory. Each name is a key of its own in the
tree, and to write, to rename or to remove the file of one name leaves the directory where it is and
the files of all other names as they are.
-/

namespace Sweep

namespace FileTree

open Sweep.Path (PlainName join leadIn pieces)

variable {t t' : FileTree} {way : List String} {directory name other path : String}

/-! ## Keys -/

/-- What stands before the names in a directory in their keys. -/
def within (way : List String) : String := if way.isEmpty then "/" else absolute way ++ "/"

theorem absolute_concat (way : List String) (name : String) :
    absolute (way ++ [name]) = within way ++ name := by
  rw [within]
  cases way with
  | nil => rfl
  | cons first rest =>
    rw [absolute, String.intercalate_append_of_ne_nil (List.cons_ne_nil _ _) (List.cons_ne_nil _ _),
      String.intercalate_singleton]
    simp only [List.isEmpty_cons, Bool.false_eq_true, if_false, absolute, String.append_assoc]

/-- Different names in a directory have different keys. -/
theorem absolute_concat_inj :
    absolute (way ++ [name]) = absolute (way ++ [other]) ↔ name = other := by
  rw [absolute_concat, absolute_concat, String.append_right_inj]

/-- A directory and a name in it have different keys. -/
theorem absolute_ne_concat (nonempty : name ≠ "") : absolute way ≠ absolute (way ++ [name]) := by
  intro same
  have lengths := congrArg String.length same
  rw [absolute_concat, within, String.length_append] at lengths
  have long : 0 < name.length := by
    rw [Nat.pos_iff_ne_zero]
    exact fun none => nonempty (String.length_eq_zero_iff.1 none)
  cases way with
  | nil =>
    have root : (absolute []).length = 1 := rfl
    have slash : "/".length = 1 := rfl
    simp only [List.isEmpty_nil, if_true] at lengths
    omega
  | cons =>
    simp only [List.isEmpty_cons, Bool.false_eq_true, if_false, String.length_append] at lengths
    omega

def without (t : FileTree) (way : List String) : FileTree :=
  { t with nodes := t.nodes.erase (absolute way) }

theorem nodeAt?_without {way other : List String} (inner : other ≠ []) :
    (t.without way).nodeAt? other =
      if absolute way = absolute other then none else t.nodeAt? other := by
  have named : other.isEmpty = false := by simpa using inner
  simp only [nodeAt?, named, Bool.false_eq_true, if_false, without, Table.get?_erase]

/-- To take away what is no directory keeps all directories. -/
theorem keeps_without (other : t.nodeAt? way ≠ some .directory) : t.Keeps (t.without way) where
  current := rfl
  directories {w} found := by
    by_cases inner : w = []
    · rw [inner]
      rfl
    · rw [nodeAt?_without inner, if_neg, found]
      intro same
      have outer : way ≠ [] := by
        rintro rfl
        exact other rfl
      refine absurd ?_ other
      simpa [nodeAt?, inner, outer, same] using found

theorem nodeAt?_concat : t.nodeAt? (way ++ [name]) = t.nodes.get? (absolute (way ++ [name])) := by
  simp [nodeAt?]

/-- The files in a directory and the directory lie at different ends. -/
theorem nodeAt?_put_child (nonempty : name ≠ "") (node : FileNode) :
    (t.put (way ++ [name]) node).nodeAt? way = t.nodeAt? way := by
  by_cases inner : way = []
  · rw [inner]
    rfl
  · rw [nodeAt?_put inner, if_neg (Ne.symm (absolute_ne_concat nonempty))]

theorem nodeAt?_without_child (nonempty : name ≠ "") :
    (t.without (way ++ [name])).nodeAt? way = t.nodeAt? way := by
  by_cases inner : way = []
  · rw [inner]
    rfl
  · rw [nodeAt?_without inner, if_neg (Ne.symm (absolute_ne_concat nonempty))]

theorem nodeAt?_put_other (other : name ≠ path) (node : FileNode) :
    (t.put (way ++ [path]) node).nodeAt? (way ++ [name]) = t.nodeAt? (way ++ [name]) := by
  rw [nodeAt?_put (List.concat_ne_nil _ _), if_neg]
  rw [absolute_concat_inj]
  exact Ne.symm other

theorem nodeAt?_put_self (node : FileNode) :
    (t.put (way ++ [name]) node).nodeAt? (way ++ [name]) = some node := by
  rw [nodeAt?_put (List.concat_ne_nil _ _), if_pos rfl]

theorem nodeAt?_without_other (other : name ≠ path) :
    (t.without (way ++ [path])).nodeAt? (way ++ [name]) = t.nodeAt? (way ++ [name]) := by
  rw [nodeAt?_without (List.concat_ne_nil _ _), if_neg]
  rw [absolute_concat_inj]
  exact Ne.symm other

theorem nodeAt?_without_self :
    (t.without (way ++ [name])).nodeAt? (way ++ [name]) = none := by
  rw [nodeAt?_without (List.concat_ne_nil _ _), if_pos rfl]

/-! ## Paths to names in the directory -/

/-- The way to the directory from which a path is seen. -/
def origin (t : FileTree) (path : String) : List String :=
  if Path.isAbsolute path then [] else t.current

/-- The text of a directory and a name as a system of files accepts them. -/
structure Fits (directory name : String) : Prop where
  noNul : '\x00' ∉ directory.toList
  path : (join directory name).utf8ByteSize < maxPathLength
  name : name.utf8ByteSize ≤ maxNameLength

theorem not_mem_nul_join (plain : PlainName name) :
    '\x00' ∈ (join directory name).toList ↔ '\x00' ∈ directory.toList := by
  rw [Path.join_eq plain.toPiece, String.toList_append, List.mem_append]
  have own := plain.noNul
  obtain ⟨rfl, same⟩ | ⟨before, same, whole, -⟩ := Path.leadIn_eq directory
  · rw [same]
    simp [own]
  · rw [same]
    obtain whole | whole := whole <;> rw [whole] <;> simp [own]

theorem walk_append (way before after : List String) :
    t.walk way (before ++ after) = (t.walk way before).bind fun w => t.walk w after := by
  induction before generalizing way with
  | nil => rfl
  | cons piece rest ih =>
    rw [List.cons_append, walk, walk]
    split_ifs
    · exact ih _
    · exact ih _
    · rfl
    · split
      · rfl
      · rfl
      · exact ih _

/-- The path to a directory leads some way from the root. -/
def Leads (t : FileTree) (directory : String) (way : List String) : Prop :=
  t.walk (t.origin directory) (pieces directory) = .ok way

theorem Keeps.leads (keeps : t.Keeps t') (leads : t.Leads directory way) :
    t'.Leads directory way := by
  have same : t'.origin directory = t.origin directory := by rw [origin, origin, keeps.current]
  rw [Leads, same]
  exact keeps.walk leads

theorem locate_join_eq (plain : PlainName name) : t.locate (join directory name) =
    if (join directory name).toList.contains '\x00' then .error .badName
    else if maxPathLength ≤ (join directory name).utf8ByteSize then .error .nameTooLong
    else (t.walk (t.origin directory) (pieces directory)).bind fun way =>
      if maxNameLength < name.utf8ByteSize then .error .nameTooLong
      else .ok ⟨way, some name, false⟩ := by
  have inhabited : (join directory name).isEmpty = false := by
    rw [Path.join_eq plain.toPiece]
    simp [plain.nonempty]
  have notDots : (name = "." || name = "..") = false := by simp [plain.notDot, plain.notDots]
  simp only [locate, inhabited, Path.isAbsolute_join plain.toPiece, Path.pieces_join plain.toPiece,
    List.getLast?_concat, List.dropLast_concat, notDots, Path.endsInSlash_join plain.toPiece,
    Bool.false_eq_true, if_false]
  rfl

/-- A path to a plain name leads to the name in the directory. -/
theorem locate_join (plain : PlainName name) (fits : Fits directory name)
    (leads : t.Leads directory way) :
    t.locate (join directory name) = .ok ⟨way, some name, false⟩ := by
  have noNul : ¬(join directory name).toList.contains '\x00' = true := by
    rw [List.contains_iff_mem, not_mem_nul_join plain]
    exact fits.noNul
  rw [locate_join_eq plain, if_neg noNul, if_neg (Nat.not_le.2 fits.path), leads, Except.bind,
    if_neg (Nat.not_lt.2 fits.name)]

/-- A path to a plain name leads nowhere else. -/
theorem exists_of_locate_join (plain : PlainName name) {place : Place}
    (located : t.locate (join directory name) = .ok place) :
    Fits directory name ∧ ∃ way, t.Leads directory way ∧ place = ⟨way, some name, false⟩ := by
  rw [locate_join_eq plain] at located
  split_ifs at located with nul long longName
  · obtain ⟨_, -, failed⟩ := exists_of_bind_ok located
    cases failed
  · obtain ⟨way, leads, same⟩ := exists_of_bind_ok located
    cases same
    refine ⟨⟨?_, Nat.not_le.1 long, Nat.not_lt.1 longName⟩, way, leads, rfl⟩
    rw [← not_mem_nul_join plain, ← List.contains_iff_mem]
    exact nul

/-! ## A file that is put in its place through another -/

/-- The tree after a file was written under one name in a directory and then given another name. -/
def putThrough (t : FileTree) (way : List String) (draft name : String) (node : FileNode) :
    FileTree :=
  ((t.put (way ++ [draft]) node).without (way ++ [draft])).put (way ++ [name]) node

section PutThrough

variable {draft : String} {node : FileNode}

theorem get?_putThrough (key : String) : (t.putThrough way draft name node).nodes.get? key =
    if absolute (way ++ [name]) = key then some node
    else if absolute (way ++ [draft]) = key then none else t.nodes.get? key := by
  refine (Table.get?_insert ..).trans (if_congr Iff.rfl rfl ?_)
  refine (Table.get?_erase ..).trans ?_
  split
  · rfl
  · next other => exact Table.get?_insert_of_ne other

theorem nodeAt?_putThrough_self : (t.putThrough way draft name node).nodeAt? (way ++ [name]) =
    some node :=
  nodeAt?_put_self node

theorem nodeAt?_putThrough_other (notName : other ≠ name) (notDraft : other ≠ draft) :
    (t.putThrough way draft name node).nodeAt? (way ++ [other]) = t.nodeAt? (way ++ [other]) := by
  rw [putThrough, nodeAt?_put_other notName, nodeAt?_without_other notDraft,
    nodeAt?_put_other notDraft]

theorem nodeAt?_putThrough_way (nonempty : name ≠ "") (nonempty' : draft ≠ "") :
    (t.putThrough way draft name node).nodeAt? way = t.nodeAt? way := by
  rw [putThrough, nodeAt?_put_child nonempty, nodeAt?_without_child nonempty',
    nodeAt?_put_child nonempty']

/-- The directory stays where it is while the file is written, taken away and put back. -/
theorem leads_putThrough (apart : name ≠ draft) (file : node ≠ .directory)
    (free : t.nodeAt? (way ++ [draft]) ≠ some .directory)
    (free' : t.nodeAt? (way ++ [name]) ≠ some .directory) (leads : t.Leads directory way) :
    (t.putThrough way draft name node).Leads directory way := by
  have drafted := (keeps_put free node).leads leads
  have written : (t.put (way ++ [draft]) node).nodeAt? (way ++ [draft]) ≠ some .directory := by
    rw [nodeAt?_put_self]
    simpa using file
  have bare := (keeps_without written).leads drafted
  refine (keeps_put ?_ node).leads bare
  rw [nodeAt?_without_other apart, nodeAt?_put_other apart]
  exact free'

end PutThrough

/-! ## Files in the directory -/

section Files

variable (plain : PlainName name) (fits : Fits directory name) (leads : t.Leads directory way)

include plain fits leads

theorem readText_join : t.readText (join directory name) =
    match t.nodeAt? (way ++ [name]) with
    | none => .error .notFound
    | some .directory => .error .isDirectory
    | some (.file content _) =>
      match Text.ofBytes? content with
      | some text => .ok text
      | none => .error .notText := by
  simp only [readText, readBytes, find, locate_join plain fits leads, Place.way, Option.toList]
  simp only [bind, Except.bind]
  rcases t.nodeAt? (way ++ [name]) with _ | ⟨content, executable⟩ | _
  · rfl
  · rfl
  · rfl

theorem writeBytes_join (absent : t.nodeAt? (way ++ [name]) = none) (bytes : ByteArray) :
    t.writeBytes (join directory name) bytes =
      .ok (t.put (way ++ [name]) (.file bytes false)) := by
  simp only [writeBytes, change, locate_join plain fits leads, Place.way, Option.toList]
  simp only [bind, Except.bind, absent, Bool.false_eq_true, if_false]

theorem removeFile_join : t.removeFile (join directory name) =
    match t.nodeAt? (way ++ [name]) with
    | none => .error .notFound
    | some .directory => .error .isDirectory
    | some (.file _ _) => .ok (t.without (way ++ [name])) := by
  simp only [removeFile, find, locate_join plain fits leads, Place.way, Option.toList]
  simp only [bind, Except.bind]
  rcases t.nodeAt? (way ++ [name]) with _ | ⟨content, executable⟩ | _
  · rfl
  · rfl
  · rfl

theorem rename_join (plain' : PlainName other) (fits' : Fits directory other) {content : ByteArray}
    {executable : Bool} (source : t.nodeAt? (way ++ [name]) = some (.file content executable))
    (target : t.nodeAt? (way ++ [other]) ≠ some .directory) :
    t.rename (join directory name) (join directory other) =
      .ok ((t.without (way ++ [name])).put (way ++ [other]) (.file content executable)) := by
  simp only [rename, find, locate_join plain fits leads, locate_join plain' fits' leads, Place.way,
    Option.toList]
  simp only [bind, Except.bind, source, Bool.false_eq_true, if_false]
  rfl

end Files

/-- What a path to a plain name is found to hold depends on the node of the name only. -/
theorem readText_congr (plain : PlainName name) (leads : t.Leads directory way)
    (leads' : t'.Leads directory way)
    (same : t'.nodeAt? (way ++ [name]) = t.nodeAt? (way ++ [name])) :
    t'.readText (join directory name) = t.readText (join directory name) := by
  have located : t'.locate (join directory name) = t.locate (join directory name) := by
    rw [locate_join_eq plain, locate_join_eq plain, leads, leads']
  have found : t'.find (join directory name) = t.find (join directory name) := by
    rw [find, find, located]
    cases h : t.locate (join directory name) with
    | error => rfl
    | ok place =>
      obtain ⟨-, way', leads'', rfl⟩ := exists_of_locate_join plain h
      obtain rfl : way = way' := Except.ok.inj (leads.symm.trans leads'')
      simp only [bind, Except.bind, Place.way, Option.toList, same]
  rw [readText, readText, readBytes, readBytes, found]

/-- A path by which a file is found leads to it. -/
theorem exists_of_find_file {content : ByteArray} {executable : Bool}
    (found : t.find path = .ok (.file content executable)) :
    ∃ place, t.locate path = .ok place ∧ place.asDirectory = false ∧
      t.nodeAt? place.way = some (.file content executable) := by
  obtain ⟨place, located, found⟩ := exists_of_bind_ok found
  split at found
  · cases found
  · next node =>
    split_ifs at found with directory
    cases found
    exact ⟨place, located, by simpa using directory, node⟩
  · cases found

/-- A text is read from a file. -/
theorem exists_of_readText {text : String} (read : t.readText path = .ok text) :
    ∃ content executable, t.find path = .ok (.file content executable) ∧
      Text.ofBytes? content = some text := by
  obtain ⟨bytes, bytesRead, decoded⟩ := exists_of_bind_ok read
  obtain ⟨node, found, isFile⟩ := exists_of_bind_ok bytesRead
  cases node with
  | directory => cases isFile
  | file content executable =>
    cases isFile
    refine ⟨_, _, found, ?_⟩
    split at decoded
    · next valid =>
      cases decoded
      exact valid
    · cases decoded

/-- What it means that a file could be moved. -/
theorem rename_eq {source target : String} (renamed : t.rename source target = .ok t') :
    ∃ start goal content executable, t.locate source = .ok start ∧ t.locate target = .ok goal ∧
      t.nodeAt? start.way = some (.file content executable) ∧
      t.nodeAt? goal.way ≠ some .directory ∧
      t' = (t.without start.way).put goal.way (.file content executable) := by
  obtain ⟨start, located, renamed⟩ := exists_of_bind_ok renamed
  obtain ⟨node, found, renamed⟩ := exists_of_bind_ok renamed
  cases node with
  | directory => cases renamed
  | file content executable =>
    obtain ⟨goal, located', renamed⟩ := exists_of_bind_ok renamed
    obtain ⟨start', again, -, node⟩ := exists_of_find_file found
    obtain rfl : start = start' := Except.ok.inj (located.symm.trans again)
    split at renamed
    · cases renamed
    · next target =>
      split_ifs at renamed
      cases renamed
      exact ⟨start, goal, content, executable, located, located', node, target, rfl⟩

/-- A path that ends in dots asks for a directory. -/
theorem asDirectory_of_dots (piece : Path.Piece name) (dots : name = "." ∨ name = "..")
    {place : Place}
    (located : t.locate (join directory name) = .ok place) : place.asDirectory = true := by
  have dots' : (name = "." || name = "..") = true := by simpa using dots
  simp only [locate, Path.pieces_join piece, List.getLast?_concat, dots', if_true] at located
  split_ifs at located
  all_goals
    obtain ⟨way, -, rfl⟩ := exists_of_map_ok located
    rfl

/-- A path to something in a directory that is no plain name is not the path of a text. -/
theorem readText_not_plain (piece : Path.Piece name) (notPlain : ¬PlainName name) (text : String) :
    t.readText (join directory name) ≠ .ok text := by
  intro read
  obtain ⟨content, executable, found, -⟩ := exists_of_readText read
  obtain ⟨place, located, file, -⟩ := exists_of_find_file found
  have notDirectory : place.asDirectory ≠ true := by simp [file]
  refine notPlain ⟨piece, ?_, ?_, ?_⟩
  · exact fun dot => notDirectory (asDirectory_of_dots piece (.inl dot) located)
  · exact fun dots => notDirectory (asDirectory_of_dots piece (.inr dots) located)
  · intro nul
    have nul' : (join directory name).toList.contains '\x00' = true := by
      rw [List.contains_iff_mem, Path.join_eq piece, String.toList_append]
      exact List.mem_append_right _ nul
    simp only [locate, nul', if_true] at located
    split_ifs at located

/-! ## What is listed of the directory -/

def childName? (way : List String) (key : String) : Option String :=
  (if (within way).toList.isPrefixOf key.toList then
    some (String.ofList (key.toList.drop (within way).length))
  else none).filter fun name => !name.isEmpty && !name.toList.contains '/'

theorem childName?_eq_some {key : String} : childName? way key = some name ↔
    key = within way ++ name ∧ name ≠ "" ∧ '/' ∉ name.toList := by
  rw [childName?, Option.filter_eq_some_iff]
  have named : (!name.isEmpty && !name.toList.contains '/') = true ↔
      name ≠ "" ∧ '/' ∉ name.toList := by
    simp
  rw [named]
  refine and_congr_left fun _ => ?_
  constructor
  · intro child
    split_ifs at child with starts
    obtain ⟨rest, whole⟩ := List.isPrefixOf_iff_prefix.1 starts
    have dropped : key.toList.drop (within way).length = rest := by
      rw [← whole, ← String.length_toList, List.drop_left]
    rw [dropped, Option.some.injEq] at child
    rw [← child, ← String.toList_inj, ← whole, String.toList_append, String.toList_ofList]
  · rintro rfl
    have starts : (within way).toList.isPrefixOf (within way ++ name).toList = true := by
      rw [List.isPrefixOf_iff_prefix, String.toList_append]
      exact List.prefix_append _ _
    rw [if_pos starts, String.toList_append, ← String.length_toList, List.drop_left,
      String.ofList_toList]

/-- The key of a plain name in a directory stands for this name. -/
theorem childName?_absolute (plain : PlainName name) :
    childName? way (absolute (way ++ [name])) = some name :=
  childName?_eq_some.2 ⟨absolute_concat way name, plain.nonempty, plain.noSlash⟩

/-- The text of a path as a system of files accepts it. -/
structure Spelled (path : String) : Prop where
  nonempty : path ≠ ""
  noNul : '\x00' ∉ path.toList
  short : path.utf8ByteSize < maxPathLength

theorem Fits.spelled (fits : Fits directory name) (plain : PlainName name)
    (nonempty : directory ≠ "") : Spelled directory := by
  refine ⟨nonempty, fits.noNul, ?_⟩
  have whole := fits.path
  rw [Path.join_eq plain.toPiece, String.utf8ByteSize_append] at whole
  have := Path.utf8ByteSize_le_leadIn directory
  omega

theorem spelled_of_locate {place : Place} (located : t.locate path = .ok place) : Spelled path := by
  simp only [locate] at located
  split_ifs at located with empty nul long
  all_goals
    refine ⟨by simpa using empty, ?_, Nat.not_le.1 long⟩
    rw [← List.contains_iff_mem]
    exact nul

theorem locate_of_spelled (spelled : Spelled path) : t.locate path =
    match (pieces path).getLast? with
    | none => .ok ⟨t.origin path, none, true⟩
    | some last =>
      if last = "." || last = ".." then
        (t.walk (t.origin path) (pieces path)).map fun way => ⟨way, none, true⟩
      else (t.walk (t.origin path) (pieces path).dropLast).bind fun above =>
        if maxNameLength < last.utf8ByteSize then .error .nameTooLong
        else .ok ⟨above, some last, Path.endsInSlash path⟩ := by
  have inhabited : path.isEmpty = false := by simpa using spelled.nonempty
  have noNul : path.toList.contains '\x00' = false := by
    rw [Bool.eq_false_iff, ne_eq, List.contains_iff_mem]
    exact spelled.noNul
  have short : ¬maxPathLength ≤ path.utf8ByteSize := Nat.not_le.2 spelled.short
  simp only [locate, inhabited, noNul, short, Bool.false_eq_true, if_false]
  rfl

/-- Where the path to a directory leads. -/
theorem locate_of_leads (spelled : Spelled directory) (leads : t.Leads directory way) :
    ∃ place, t.locate directory = .ok place ∧ place.way = way := by
  rw [locate_of_spelled spelled]
  rw [Leads] at leads
  cases last : (pieces directory).getLast? with
  | none =>
    rw [List.getLast?_eq_none_iff.1 last] at leads
    cases leads
    exact ⟨_, rfl, List.append_nil _⟩
  | some piece =>
    dsimp only
    split
    · rw [leads]
      exact ⟨_, rfl, List.append_nil _⟩
    · next dots =>
      simp only [Bool.or_eq_true, decide_eq_true_eq, not_or] at dots
      -- The last piece is no dots, so that it is followed into a directory.
      obtain ⟨before, whole⟩ := List.getLast?_eq_some_iff.1 last
      rw [whole, walk_append] at leads
      obtain ⟨above, walked, inside⟩ := exists_of_bind_ok leads
      rw [walk, if_neg dots.1, if_neg dots.2] at inside
      rw [whole, List.dropLast_concat, walked]
      split_ifs at inside with long
      split at inside
      · cases inside
      · cases inside
      · cases inside
        simp only [Except.bind, long, if_false]
        exact ⟨_, rfl, rfl⟩

/-- A path that is found to hold a directory leads there. -/
theorem leads_of_locate {place : Place} (located : t.locate directory = .ok place)
    (found : t.nodeAt? place.way = some .directory) : t.Leads directory place.way := by
  rw [locate_of_spelled (spelled_of_locate located)] at located
  rw [Leads]
  cases last : (pieces directory).getLast? with
  | none =>
    rw [List.getLast?_eq_none_iff.1 last]
    rw [last] at located
    cases located
    exact congrArg Except.ok (List.append_nil _).symm
  | some piece =>
    rw [last] at located
    dsimp only at located
    split at located
    · obtain ⟨way, walked, rfl⟩ := exists_of_map_ok located
      rw [walked]
      exact congrArg Except.ok (List.append_nil _).symm
    · next dots =>
      simp only [Bool.or_eq_true, decide_eq_true_eq, not_or] at dots
      obtain ⟨before, whole⟩ := List.getLast?_eq_some_iff.1 last
      obtain ⟨above, walked, inside⟩ := exists_of_bind_ok located
      rw [whole, List.dropLast_concat] at walked
      split_ifs at inside with long
      cases inside
      rw [Place.way, Option.toList] at found ⊢
      rw [whole, walk_append, walked, Except.bind, walk, if_neg dots.1, if_neg dots.2, if_neg long,
        found]
      rfl

/-- What is listed of a directory. -/
theorem list_of_leads (spelled : Spelled directory) (leads : t.Leads directory way) :
    t.list directory =
      match t.nodeAt? way with
      | none => .error .notFound
      | some (.file _ _) => .error .notDirectory
      | some .directory => .ok (t.nodes.keys.filterMap (childName? way)) := by
  obtain ⟨place, located, rfl⟩ := locate_of_leads spelled leads
  simp only [list, find, located]
  simp only [bind, Except.bind]
  rcases t.nodeAt? place.way with _ | ⟨content, executable⟩ | _
  · rfl
  · dsimp only
    cases place.asDirectory <;> rfl
  · dsimp only
    rw [List.filter_filterMap]
    rfl

/-- Something is listed of a directory only. -/
theorem exists_of_list {names : List String} (listed : t.list directory = .ok names) :
    Spelled directory ∧ ∃ way, t.Leads directory way ∧ t.nodeAt? way = some .directory := by
  obtain ⟨place, located, listed⟩ := exists_of_bind_ok listed
  refine ⟨spelled_of_locate located, place.way, ?_⟩
  obtain ⟨node, found, listed⟩ := exists_of_bind_ok listed
  cases node with
  | file => cases listed
  | directory =>
    rw [find, located] at found
    simp only [bind, Except.bind] at found
    split at found
    · cases found
    · split_ifs at found
      cases found
    · next node => exact ⟨leads_of_locate located node, node⟩

end FileTree

end Sweep
