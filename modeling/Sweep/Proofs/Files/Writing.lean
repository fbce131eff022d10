import Mathlib.Data.List.Basic
import Mathlib.Tactic.SplitIfs
import Sweep.Files.Path
import Sweep.Files.Tree
import Sweep.Proofs.Lists

/-!
# What is written is read

A path that is made of a directory and a plain name has the pieces of the directory and the name;
its last component, the extension of this, and what becomes of the path when the extension is
replaced are those of the name, whatever the text of the directory looks like.

A file that was written is read back as it was written. The way to it leads through directories
only, and none of them is the file, so that after the change the path leads to the same place.
-/

/-! ## Paths to the files of a directory -/

namespace Sweep.Path

/-- A text between two slashes. -/
structure Piece (name : String) : Prop where
  nonempty : name ≠ ""
  noSlash : '/' ∉ name.toList

/-- A name that a file can have: it is not one or two dots, and it has no character that paths must
not have. -/
structure PlainName (name : String) : Prop extends Piece name where
  notDot : name ≠ "."
  notDots : name ≠ ".."
  noNul : '\x00' ∉ name.toList

variable {directory name : String}

theorem Piece.notAbsolute (piece : Piece name) : isAbsolute name = false := by
  rw [isAbsolute, beq_eq_false_iff_ne]
  intro head
  exact piece.noSlash (List.mem_of_head? head)

/-! ## Joining -/

/-- What stands before a name when it is joined to a directory. -/
def leadIn (directory : String) : String :=
  if directory.isEmpty then "" else if endsInSlash directory then directory else directory ++ "/"

theorem join_eq (piece : Piece name) : join directory name = leadIn directory ++ name := by
  rw [join, piece.notAbsolute, leadIn, Bool.false_or]
  split
  · rw [String.empty_append]
  · split <;> rfl

/-- What stands before a name is nothing or ends in a slash. -/
theorem leadIn_eq (directory : String) :
    (directory = "" ∧ leadIn directory = "") ∨
      ∃ before, (leadIn directory).toList = before ++ ['/'] ∧
        (directory.toList = before ++ ['/'] ∨ directory.toList = before) ∧ directory ≠ "" := by
  rw [leadIn]
  split
  · next empty => exact .inl ⟨String.isEmpty_iff.1 empty, rfl⟩
  · next nonempty =>
    have inhabited : directory ≠ "" := fun empty => nonempty (String.isEmpty_iff.2 empty)
    refine .inr ?_
    split
    · next slash =>
      rw [endsInSlash, beq_iff_eq] at slash
      obtain ⟨before, ends⟩ := List.getLast?_eq_some_iff.1 slash
      exact ⟨before, ends, .inl ends, inhabited⟩
    · exact ⟨directory.toList, String.toList_append, .inr rfl, inhabited⟩

theorem utf8ByteSize_le_leadIn (directory : String) :
    directory.utf8ByteSize ≤ (leadIn directory).utf8ByteSize := by
  rw [leadIn]
  split_ifs with empty
  · obtain rfl : directory = "" := String.isEmpty_iff.1 empty
    exact Nat.le_refl _
  · exact Nat.le_refl _
  · rw [String.utf8ByteSize_append]
    exact Nat.le_add_right _ _

/-! ## Pieces -/

theorem cut_ne_nil (path : List Char) : cut path ≠ [] := by
  cases path with
  | nil => exact List.cons_ne_nil _ _
  | cons c rest =>
    rw [cut]
    split
    · exact List.cons_ne_nil _ _
    · split <;> exact List.cons_ne_nil _ _

theorem cut_of_noSlash {piece : List Char} (noSlash : '/' ∉ piece) : cut piece = [piece] := by
  induction piece with
  | nil => rfl
  | cons c rest ih =>
    have here : c ≠ '/' := fun same => noSlash (same ▸ List.mem_cons_self)
    rw [cut, if_neg here, ih fun later => noSlash (List.mem_cons_of_mem c later)]

theorem cut_append_slash (before after : List Char) :
    cut (before ++ '/' :: after) = cut before ++ cut after := by
  induction before with
  | nil => rfl
  | cons c rest ih =>
    rw [List.cons_append, cut, cut, ih]
    split
    · rfl
    · cases pieces : cut rest with
      | nil => exact absurd pieces (cut_ne_nil rest)
      | cons => rfl

theorem cut_append (before after : List Char) :
    cut (before ++ ['/'] ++ after) = cut before ++ cut after := by
  rw [List.append_assoc]
  exact cut_append_slash before after

/-- The pieces of a path to a name in a directory. -/
theorem pieces_join (piece : Piece name) :
    pieces (join directory name) = pieces directory ++ [name] := by
  have own : (cut name.toList).filter (fun piece => !piece.isEmpty) = [name.toList] := by
    rw [cut_of_noSlash piece.noSlash]
    simp [piece.nonempty]
  rw [join_eq piece, pieces, pieces, String.toList_append]
  obtain ⟨empty, same⟩ | ⟨before, same, whole, -⟩ := leadIn_eq directory
  · rw [same, empty]
    show List.map _ (List.filter _ (cut name.toList)) = [name]
    rw [own, List.map_singleton, String.ofList_toList]
  · have cutOff : (cut directory.toList).filter (fun piece => !piece.isEmpty) =
        (cut before).filter fun piece => !piece.isEmpty := by
      obtain whole | whole := whole
      · rw [whole, cut_append_slash, List.filter_append]
        exact List.append_nil _
      · rw [whole]
    rw [same, cut_append, List.filter_append, own, cutOff, List.map_append, List.map_singleton,
      String.ofList_toList]

/-- A path to a name in a directory starts where the path to the directory does. -/
theorem isAbsolute_join (piece : Piece name) :
    isAbsolute (join directory name) = isAbsolute directory := by
  rw [join_eq piece]
  obtain ⟨rfl, same⟩ | ⟨before, same, whole, nonempty⟩ := leadIn_eq directory
  · rw [same, String.empty_append, piece.notAbsolute]
    rfl
  · rw [isAbsolute, isAbsolute, String.toList_append, same]
    obtain whole | whole := whole
    · rw [whole]
      cases before <;> rfl
    · rw [whole]
      cases before with
      | nil => exact absurd (String.toList_inj.1 whole) nonempty
      | cons => rfl

theorem endsInSlash_join (piece : Piece name) : endsInSlash (join directory name) = false := by
  rw [join_eq piece, endsInSlash, String.toList_append, beq_eq_false_iff_ne]
  have inhabited : name.toList ≠ [] := fun empty => piece.nonempty (String.toList_inj.1 empty)
  rw [List.getLast?_append_of_ne_nil _ inhabited]
  exact fun last => piece.noSlash (List.mem_of_getLast? last)

/-! ## The last component -/

/-- A path that ends in a plain name is not trimmed. -/
theorem trimEnd_name (plain : PlainName name) (before : List Char) :
    trimEnd (name.toList.reverse ++ before) = name.toList.reverse ++ before := by
  have noSlash : '/' ∉ name.toList.reverse := fun mem => plain.noSlash (List.mem_reverse.1 mem)
  have inhabited : name.toList.reverse ≠ [] := by
    intro empty
    exact plain.nonempty (String.toList_inj.1 (List.reverse_eq_nil_iff.1 empty))
  have notDot : name.toList.reverse ≠ ['.'] := by
    intro dot
    exact plain.notDot (String.toList_inj.1 (List.reverse_eq_cons_iff.1 dot))
  rw [trimEnd.eq_def]
  split
  · next rest slash =>
    obtain ⟨empty, -⟩ | ⟨front, whole, -⟩ := List.append_eq_cons_iff.1 slash
    · exact absurd empty inhabited
    · exact absurd (whole ▸ List.mem_cons_self) noSlash
  · next rest dotSlash =>
    obtain ⟨empty, -⟩ | ⟨front, whole, others⟩ := List.append_eq_cons_iff.1 dotSlash
    · exact absurd empty inhabited
    · obtain ⟨rfl, -⟩ | ⟨more, rfl, -⟩ := List.append_eq_cons_iff.1 others.symm
      · exact absurd whole notDot
      · exact absurd (whole ▸ List.mem_cons_of_mem _ List.mem_cons_self) noSlash
  · rfl

theorem reverse_join (plain : PlainName name) : (join directory name).toList.reverse =
    name.toList.reverse ++ (leadIn directory).toList.reverse := by
  rw [join_eq plain.toPiece, String.toList_append, List.reverse_append]

theorem fileName?_join (plain : PlainName name) : fileName? (join directory name) = some name := by
  have own : ((name.toList.reverse ++ (leadIn directory).toList.reverse).takeWhile
      fun c => c != '/') = name.toList.reverse := by
    have stops : ((leadIn directory).toList.reverse.takeWhile fun c => c != '/') = [] := by
      obtain ⟨-, same⟩ | ⟨before, same, -⟩ := leadIn_eq directory
      · rw [same]
        rfl
      · rw [same, List.reverse_append]
        rfl
    rw [List.takeWhile_append_of_pos, stops, List.append_nil]
    intro c mem
    rw [bne_iff_ne]
    rintro rfl
    exact plain.noSlash (List.mem_reverse.1 mem)
  have notEmpty : name.toList.isEmpty = false := by simp [plain.nonempty]
  have notDot : (name.toList == ['.']) = false := by
    rw [beq_eq_false_iff_ne]
    exact fun same => plain.notDot (String.toList_inj.1 same)
  have notDots : (name.toList == ['.', '.']) = false := by
    rw [beq_eq_false_iff_ne]
    exact fun same => plain.notDots (String.toList_inj.1 same)
  simp only [fileName?, reverse_join plain, trimEnd_name plain, own, List.reverse_reverse, notEmpty,
    notDot, notDots, Bool.or_self, Bool.false_eq_true, if_false, String.ofList_toList]

/-- The extension of a path is that of its last name. -/
theorem extension?_join (plain : PlainName name) : extension? (join directory name) =
    (splitExtension name.toList.reverse).2.map fun e => String.ofList e.reverse := by
  rw [extension?, fileName?_join plain, Option.bind_some]

/-- To replace the extension of a path is to replace that of its last name. -/
theorem withExtension_join (plain : PlainName name) (extension : String) :
    withExtension (join directory name) extension =
      leadIn directory ++ (String.ofList (splitExtension name.toList.reverse).1.reverse ++ "." ++
        extension) := by
  have above :
      ((name.toList.reverse ++ (leadIn directory).toList.reverse).drop name.length).reverse =
      (leadIn directory).toList := by
    rw [← String.length_toList, ← List.length_reverse, List.drop_left, List.reverse_reverse]
  simp only [withExtension, fileName?_join plain, reverse_join plain, trimEnd_name plain, above,
    String.ofList_append, String.ofList_toList, String.append_assoc]

/-- A name is split at its last dot, unless this stands at the front. -/
theorem splitExtension_dot {extension stem : List Char} (noDot : '.' ∉ extension)
    (inhabited : stem ≠ []) :
    splitExtension (extension ++ '.' :: stem) = (stem, some extension) := by
  have plain : ∀ c ∈ extension, (c != '.') = true := by
    intro c mem
    rw [bne_iff_ne]
    rintro rfl
    exact noDot mem
  have stops : ('.' :: stem).takeWhile (fun c => c != '.') = [] := rfl
  have goesOn : ('.' :: stem).dropWhile (fun c => c != '.') = '.' :: stem := rfl
  rw [splitExtension, List.takeWhile_append_of_pos plain, List.dropWhile_append_of_pos plain, stops,
    goesOn, List.append_nil]
  simp only [List.isEmpty_eq_false_iff.2 inhabited, Bool.false_eq_true, if_false]

end Sweep.Path

/-! ## Files -/

namespace Sweep

theorem Text.ofBytes?_toBytes (s : String) : ofBytes? (toBytes s) = some s := by
  exact dif_pos s.isValidUTF8

namespace FileTree

variable {t t' : FileTree}

theorem nodeAt?_put {way other : List String} {node : FileNode} (inner : other ≠ []) :
    (t.put way node).nodeAt? other =
      if absolute way = absolute other then some node else t.nodeAt? other := by
  have named : other.isEmpty = false := by simpa using inner
  simp only [nodeAt?, named, Bool.false_eq_true, if_false, put, Table.get?_insert]

structure Keeps (t t' : FileTree) : Prop where
  current : t'.current = t.current
  directories : ∀ {way}, t.nodeAt? way = some .directory → t'.nodeAt? way = some .directory

/-- To put a file where there is no directory keeps all directories. -/
theorem keeps_put {way : List String} (other : t.nodeAt? way ≠ some .directory) (node : FileNode) :
    t.Keeps (t.put way node) where
  current := rfl
  directories {w} found := by
    by_cases inner : w = []
    · rw [inner]
      rfl
    · rw [nodeAt?_put inner]
      split
      · next same =>
        have outer : way ≠ [] := by
          rintro rfl
          exact other rfl
        refine absurd ?_ other
        simpa [nodeAt?, inner, outer, same] using found
      · exact found

namespace Keeps

variable (keeps : t.Keeps t')

include keeps

theorem walk {pieces way end_ : List String} (found : t.walk way pieces = .ok end_) :
    t'.walk way pieces = .ok end_ := by
  induction pieces generalizing way with
  | nil => exact found
  | cons piece rest ih =>
    rw [FileTree.walk] at found ⊢
    split_ifs at found ⊢
    · exact ih found
    · exact ih found
    · split at found
      · cases found
      · cases found
      · next inside =>
        rw [keeps.directories inside]
        exact ih found

theorem locate {path : String} {place : Place} (found : t.locate path = .ok place) :
    t'.locate path = .ok place := by
  simp only [FileTree.locate, keeps.current] at found ⊢
  generalize (if Path.isAbsolute path then [] else t.current) = start at found ⊢
  split_ifs at found ⊢
  split at found
  · exact found
  · next last _ =>
    by_cases dots : (last = "." || last = "..") = true
    · rw [if_pos dots] at found ⊢
      obtain ⟨way, walked, rfl⟩ := exists_of_map_ok found
      rw [keeps.walk walked]
      rfl
    · rw [if_neg dots] at found ⊢
      obtain ⟨directory, walked, named⟩ := exists_of_bind_ok found
      rw [keeps.walk walked]
      exact named

end Keeps

theorem change_eq {path : String} {f : ByteArray → ByteArray} {executable : Bool}
    (changed : t.change path f executable = .ok t') : ∃ place content executable,
      t.locate path = .ok place ∧ t.nodeAt? place.way ≠ some .directory ∧
      place.asDirectory = false ∧ t' = t.put place.way (.file (f content) executable) := by
  obtain ⟨place, located, changed⟩ := exists_of_bind_ok changed
  split at changed
  · cases changed
  · next content executable found =>
    split_ifs at changed with directory
    cases changed
    exact ⟨place, content, executable, located, by simp [found], by simpa using directory, rfl⟩
  · next missing =>
    split_ifs at changed with directory
    cases changed
    exact ⟨place, .empty, executable, located, by simp [missing], by simpa using directory, rfl⟩

theorem find_eq {path : String} {place : Place} {content : ByteArray} {executable : Bool}
    (located : t.locate path = .ok place)
    (node : t.nodeAt? place.way = some (.file content executable))
    (file : place.asDirectory = false) : t.find path = .ok (.file content executable) := by
  simp [find, located, bind, Except.bind, node, file]

/-- The bytes that were written into a file are those of it. -/
theorem readBytes_of_writeBytes {path : String} {bytes : ByteArray}
    (written : t.writeBytes path bytes = .ok t') : t'.readBytes path = .ok bytes := by
  obtain ⟨place, content, executable, located, other, file, rfl⟩ := change_eq written
  have located' := (keeps_put other (.file bytes executable)).locate located
  have inner : place.way ≠ [] := by
    intro outer
    rw [outer] at other
    exact other rfl
  have node : (t.put place.way (.file bytes executable)).nodeAt? place.way =
      some (.file bytes executable) := by
    rw [nodeAt?_put inner, if_pos rfl]
  rw [readBytes, find_eq located' node file]
  rfl

/-- A text that was written into a file is read from it. -/
theorem readText_of_writeText {path text : String} (written : t.writeText path text = .ok t') :
    t'.readText path = .ok text := by
  rw [readText, readBytes_of_writeBytes written]
  simp only [bind, Except.bind, Text.ofBytes?_toBytes]

end FileTree

end Sweep
