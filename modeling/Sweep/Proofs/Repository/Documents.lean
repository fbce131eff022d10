import Sweep.Proofs.Files.Directory
import Sweep.Repository.Directory

/-!
# The documents of a repository in a directory

The document of a run and the draft that it is first written to are files with plain names in the
directory of the repository, whatever characters the name of the run has. No draft has the name of a
document, and none is taken for one.
-/

namespace Sweep

open Sweep.Path (PlainName join)
open FileTree (absolute)

/-! ## Names -/

/-- The name of a run's document in its directory. -/
def recordName (runId : String) : String := fileStem runId ++ "." ++ recordExtension

/-- The name of the draft of a run's document. A document without a name of its own has its dot for
a name, and so gets its extension twice. -/
def draftName (runId : String) : String :=
  (if fileStem runId = "" then "." ++ recordExtension else fileStem runId) ++ "." ++
    (recordExtension ++ ".tmp")

/-- No character of a stem is one that would lead elsewhere. -/
theorem fileCharacter_ne {c d : Char} (not : d = '/' ∨ d = '\x00') : fileCharacter c ≠ d := by
  rw [fileCharacter]
  split
  · next allowed =>
    rintro rfl
    obtain rfl | rfl := not <;> exact absurd allowed (by decide)
  · obtain rfl | rfl := not <;> decide

theorem not_mem_fileStem {d : Char} (runId : String) (not : d = '/' ∨ d = '\x00') :
    d ∉ (fileStem runId).toList := by
  intro mem
  rw [fileStem, String.toList_ofList] at mem
  obtain ⟨c, -, same⟩ := List.mem_map.1 mem
  exact fileCharacter_ne not same

theorem toList_recordName (runId : String) :
    (recordName runId).toList = (fileStem runId).toList ++ ['.', 'j', 's', 'o', 'n'] := by
  rw [recordName, String.toList_append, String.toList_append, List.append_assoc]
  rfl

/-- What stands before the last dot of a draft's name. -/
def draftStem (runId : String) : List Char :=
  (if fileStem runId = "" then ['.', 'j', 's', 'o', 'n'] else (fileStem runId).toList) ++
    ['.', 'j', 's', 'o', 'n']

theorem toList_draftName (runId : String) :
    (draftName runId).toList = draftStem runId ++ ['.', 't', 'm', 'p'] := by
  rw [draftName, draftStem]
  split
  · rfl
  · simp only [String.toList_append, List.append_assoc]
    rfl

/-- A name with an extension is plain if its characters are. -/
theorem plainName_of_extension {name : String} {stem : List Char} {e : Char} {extension : List Char}
    (whole : name.toList = stem ++ '.' :: e :: extension) (letter : e ≠ '.')
    (noSlash : '/' ∉ name.toList) (noNul : '\x00' ∉ name.toList) : PlainName name := by
  refine ⟨⟨?_, noSlash⟩, ?_, ?_, noNul⟩
  · rintro rfl
    simp at whole
  · rintro rfl
    have lengths := congrArg List.length whole
    simp at lengths
    omega
  · rintro rfl
    have lengths := congrArg List.length whole
    simp at lengths
    obtain rfl : stem = [] := List.length_eq_zero_iff.1 (by omega)
    exact letter (List.cons.inj (List.cons.inj whole).2).1.symm

theorem plain_recordName (runId : String) : PlainName (recordName runId) := by
  apply plainName_of_extension (toList_recordName runId) (by decide)
  · rw [toList_recordName]
    simp [not_mem_fileStem runId (.inl rfl)]
  · rw [toList_recordName]
    simp [not_mem_fileStem runId (.inr rfl)]

theorem plain_draftName (runId : String) : PlainName (draftName runId) := by
  have noSlash : '/' ∉ draftStem runId := by
    rw [draftStem]
    split <;> simp [not_mem_fileStem runId (.inl rfl)]
  have noNul : '\x00' ∉ draftStem runId := by
    rw [draftStem]
    split <;> simp [not_mem_fileStem runId (.inr rfl)]
  apply plainName_of_extension (toList_draftName runId) (by decide)
  · rw [toList_draftName]
    simp [noSlash]
  · rw [toList_draftName]
    simp [noNul]

theorem recordName_inj {runId other : String} :
    recordName runId = recordName other ↔ fileStem runId = fileStem other := by
  rw [← String.toList_inj, toList_recordName, toList_recordName, List.append_left_inj,
    String.toList_inj]

/-- No draft has the name of a document. -/
theorem recordName_ne_draftName (runId other : String) : recordName runId ≠ draftName other := by
  intro same
  have ends := congrArg (fun name : String => name.toList.getLast?) same
  simp only [toList_recordName, toList_draftName] at ends
  rw [List.getLast?_append_of_ne_nil _ (List.cons_ne_nil _ _),
    List.getLast?_append_of_ne_nil _ (List.cons_ne_nil _ _)] at ends
  exact absurd ends (by decide)

/-- Where a run's document is. -/
theorem recordPath_eq (directory runId : String) :
    recordPath directory runId = join directory (recordName runId) := rfl

theorem reverse_recordName (runId : String) : (recordName runId).toList.reverse =
    ['n', 'o', 's', 'j'] ++ '.' :: (fileStem runId).toList.reverse := by
  rw [toList_recordName, List.reverse_append]
  rfl

/-- A draft is beside its document. -/
theorem draftPath_eq (directory runId : String) :
    draftPath (recordPath directory runId) = join directory (draftName runId) := by
  have noDot : '.' ∉ ['n', 'o', 's', 'j'] := by decide
  rw [recordPath_eq, draftPath, Path.withExtension_join (plain_recordName runId),
    reverse_recordName, Path.join_eq (plain_draftName runId).toPiece, draftName]
  split
  · next empty =>
    rw [empty]
    rfl
  · next nonempty =>
    have inhabited : (fileStem runId).toList.reverse ≠ [] := by simpa using nonempty
    rw [Path.splitExtension_dot noDot inhabited, List.reverse_reverse, String.ofList_toList]

/-! ## What a listing takes for a document -/

/-- A draft does not have the extension of documents. -/
theorem extension?_draft (directory runId : String) :
    Path.extension? (join directory (draftName runId)) = some "tmp" := by
  have noDot : '.' ∉ ['p', 'm', 't'] := by decide
  have reversed : (draftName runId).toList.reverse =
      ['p', 'm', 't'] ++ '.' :: (draftStem runId).reverse := by
    rw [toList_draftName, List.reverse_append]
    rfl
  have inhabited : (draftStem runId).reverse ≠ [] := by
    rw [draftStem]
    simp
  rw [Path.extension?_join (plain_draftName runId), reversed,
    Path.splitExtension_dot noDot inhabited]
  rfl

/-- A document has the extension of documents, unless it has no name but its extension. -/
theorem extension?_record (directory runId : String) :
    Path.extension? (join directory (recordName runId)) =
      if fileStem runId = "" then none else some recordExtension := by
  have noDot : '.' ∉ ['n', 'o', 's', 'j'] := by decide
  rw [Path.extension?_join (plain_recordName runId), reverse_recordName]
  split
  · next empty =>
    rw [empty]
    rfl
  · next nonempty =>
    have inhabited : (fileStem runId).toList.reverse ≠ [] := by simpa using nonempty
    rw [Path.splitExtension_dot noDot inhabited]
    rfl

namespace Backend

open FileTree (childName?)

variable {t t' : FileTree} {way : List String} {directory name runId : String}

theorem load_directory (directory : String) :
    (Backend.directory directory).load = loadRecord directory := by
  rw [Backend.directory]

theorem store_directory (directory : String) :
    (Backend.directory directory).store = storeRecord directory := by
  rw [Backend.directory]

theorem remove_directory (directory : String) :
    (Backend.directory directory).remove = removeRecord directory := by
  rw [Backend.directory]

theorem runIds_directory (directory : String) :
    (Backend.directory directory).runIds = recordedRuns directory := by
  rw [Backend.directory]

/-- No draft is taken for a document. -/
theorem recordedRun?_draft (t : FileTree) (directory runId : String) :
    recordedRun? t (join directory (draftName runId)) = none := by
  rw [recordedRun?, extension?_draft]
  rfl

theorem recordedRun?_not_plain (piece : Path.Piece name) (notPlain : ¬PlainName name) :
    recordedRun? t (join directory name) = none := by
  rw [recordedRun?]
  split
  · cases read : t.readText (join directory name) with
    | error => rfl
    | ok text => exact absurd read (FileTree.readText_not_plain piece notPlain text)
  · rfl

/-- The name of the run of the document that a key in the directory stands for. -/
def recordedAt? (t : FileTree) (directory : String) (way : List String) (key : String) :
    Option String :=
  (childName? way key).bind fun name => recordedRun? t (join directory name)

theorem recordedAt?_draft (t : FileTree) (directory : String) (way : List String) (runId : String) :
    recordedAt? t directory way (absolute (way ++ [draftName runId])) = none := by
  rw [recordedAt?, FileTree.childName?_absolute (plain_draftName runId), Option.bind_some,
    recordedRun?_draft]

/-- The runs that are listed are those of the documents at the keys in the directory. -/
theorem recordedRuns_eq (spelled : FileTree.Spelled directory) (leads : t.Leads directory way) :
    recordedRuns directory t =
      match t.nodeAt? way with
      | none => .error (.fileFault directory .notFound)
      | some (.file _ _) => .error (.fileFault directory .notDirectory)
      | some .directory => .ok ((t.nodes.keys.filterMap (recordedAt? t directory way)).mergeSort
          fun a b => decide (a ≤ b)) := by
  rw [recordedRuns, FileTree.list_of_leads spelled leads]
  cases t.nodeAt? way with
  | none => rfl
  | some node =>
    cases node with
    | file => rfl
    | directory =>
      dsimp only
      rw [List.filterMap_filterMap]
      rfl

theorem recordedRun?_congr {path : String} (same : t'.readText path = t.readText path) :
    recordedRun? t' path = recordedRun? t path := by
  rw [recordedRun?, recordedRun?, same]

theorem recordedRun?_of_readText {path text : String} {x : RunSnapshot}
    (read : t.readText path = .ok text) (decoded : RunSnapshot.read? text = some x) :
    recordedRun? t path =
      if Path.extension? path == some recordExtension then some x.run.runId else none := by
  rw [recordedRun?, read]
  dsimp only
  rw [decoded]
  rfl

/-- What is taken for documents depends on the plain names in the directory only. -/
theorem recordedAt?_congr (same : ∀ name, PlainName name →
      recordedRun? t' (join directory name) = recordedRun? t (join directory name)) :
    recordedAt? t' directory way = recordedAt? t directory way := by
  funext key
  rw [recordedAt?, recordedAt?]
  cases child : childName? way key with
  | none => rfl
  | some name =>
    obtain ⟨-, nonempty, noSlash⟩ := FileTree.childName?_eq_some.1 child
    have piece : Path.Piece name := ⟨nonempty, noSlash⟩
    rw [Option.bind_some, Option.bind_some]
    by_cases plain : PlainName name
    · exact same name plain
    · rw [recordedRun?_not_plain piece plain, recordedRun?_not_plain piece plain]

theorem recordedRuns_congr (plain : PlainName name) (fits : FileTree.Fits directory name)
    (leads : t.Leads directory way) (leads' : t'.Leads directory way)
    (node : t'.nodeAt? way = t.nodeAt? way)
    (found : t'.nodes.keys.filterMap (recordedAt? t' directory way) =
      t.nodes.keys.filterMap (recordedAt? t directory way)) :
    recordedRuns directory t' = recordedRuns directory t := by
  by_cases nonempty : directory = ""
  · subst nonempty
    have nowhere (t : FileTree) : t.list "" = .error .notFound := rfl
    rw [recordedRuns, recordedRuns, nowhere, nowhere]
  · have spelled := fits.spelled plain nonempty
    rw [recordedRuns_eq spelled leads, recordedRuns_eq spelled leads', node, found]

/-- A run that is loaded has a document. -/
theorem exists_of_loadRecord {x : RunSnapshot}
    (loaded : loadRecord directory runId t = .ok (some x)) :
    ∃ text, t.readText (recordPath directory runId) = .ok text ∧
      RunSnapshot.read? text = some x := by
  unfold loadRecord at loaded
  dsimp only at loaded
  split at loaded
  · cases loaded
  · cases loaded
  · next text read =>
    split at loaded
    · next snapshot decoded =>
      cases loaded
      exact ⟨text, read, decoded⟩
    · cases loaded

theorem loadRecord_congr (same : t'.readText (recordPath directory runId) =
    t.readText (recordPath directory runId)) :
    loadRecord directory runId t' = loadRecord directory runId t := by
  unfold loadRecord
  dsimp only
  rw [same]

/-- A document in which a snapshot was written is loaded as this snapshot. -/
theorem loadRecord_of_file {x : RunSnapshot} {executable : Bool}
    (fits : FileTree.Fits directory (recordName runId)) (leads : t.Leads directory way)
    (node : t.nodeAt? (way ++ [recordName runId]) =
      some (.file (Text.toBytes x.write) executable))
    (reads : RunSnapshot.read? x.write = some x) :
    loadRecord directory runId t = .ok (some x) := by
  have read : t.readText (recordPath directory runId) = .ok x.write := by
    rw [recordPath_eq, FileTree.readText_join (plain_recordName runId) fits leads, node]
    dsimp only
    rw [Text.ofBytes?_toBytes]
  unfold loadRecord
  dsimp only
  rw [read]
  dsimp only
  rw [reads]

def emptyRuns : FileTree := .withCurrent ["runs"]

theorem leads_emptyRuns : emptyRuns.Leads "/runs" ["runs"] := by
  obtain ⟨_, walked, rfl⟩ := exists_ok (p := fun way => way = ["runs"])
    (show ((emptyRuns.walk (emptyRuns.origin "/runs") (Path.pieces "/runs")).toOption.any
      fun way => decide (way = ["runs"])) = true by decide +kernel)
  exact walked

end Backend

end Sweep
