import Mathlib.Data.List.Induction
import Sweep.Proofs.Lists
import Sweep.Proofs.Text.Blank
import Sweep.Source.Loading

/-!
# Workflows that are defined twice

Files are loaded in groups: each directory by itself, and the files that are named one by one as the
last group. Within a group no name may be defined twice, and the first definition that repeats a
name is reported with the one before it. Two groups are never compared. So a repetition is found
exactly if there is one inside of a group; a name that is defined in two of them is loaded twice.
Nothing is assumed of the format of the sources.
-/

namespace Sweep.Workflow

def definedNames (all : Origins) : List String := all.map (·.1.name)

@[simp] theorem definedNames_append (xs ys : Origins) :
    definedNames (xs ++ ys) = definedNames xs ++ definedNames ys := List.map_append

/-- The definition in the file `second` is the first one of a name that has been defined before,
in the file `first`. -/
def FirstClash (all : Origins) (name first second : String) : Prop :=
  ∃ before w behind, all = before ++ (w, second) :: behind ∧ w.name = name ∧
    (definedNames before).Nodup ∧ ∃ v, v.name = name ∧ (v, first) ∈ before

/-! ## Collecting definitions -/

/-- Adds definitions to others one by one, unless a name is defined again. -/
def collect : Origins → Origins → Except LoadError Origins
  | done, [] => .ok done
  | done, (w, path) :: rest =>
    match done.find? fun entry => entry.1.name == w.name with
    | some (_, first) => .error (.duplicateWorkflow w.name first path)
    | none => collect (done ++ [(w, path)]) rest

variable {done all : Origins} {name first second : String}

theorem collect_append (done xs ys : Origins) :
    collect done (xs ++ ys) = (collect done xs).bind fun done => collect done ys := by
  induction xs generalizing done with
  | nil => rfl
  | cons entry rest ih =>
    rw [List.cons_append, collect, collect]
    cases done.find? fun other => other.1.name == entry.1.name with
    | none => exact ih _
    | some => rfl

theorem addFrom_eq (path : String) (done : Origins) (workflows : List Workflow) :
    addFrom path done workflows = collect done (workflows.map (·, path)) := by
  induction workflows generalizing done with
  | nil => rfl
  | cons w rest ih =>
    rw [addFrom, List.map_cons, collect]
    cases done.find? fun entry => entry.1.name == w.name with
    | none => exact ih _
    | some => rfl

theorem nodup_definedNames_concat {entry : Workflow × String} :
    (definedNames (all ++ [entry])).Nodup ↔
      entry.1.name ∉ definedNames all ∧ (definedNames all).Nodup := by
  rw [definedNames_append, ← List.nodup_concat, List.concat_eq_append]
  rfl

theorem collect_of_nodup (distinct : (definedNames (done ++ all)).Nodup) :
    collect done all = .ok (done ++ all) := by
  induction all generalizing done with
  | nil => rw [collect, List.append_nil]
  | cons entry rest ih =>
    rw [List.append_cons] at distinct ⊢
    have new : (done.find? fun other => other.1.name == entry.1.name) = none := by
      rw [definedNames_append, List.nodup_append'] at distinct
      rw [List.find?_eq_none]
      intro other mem same
      apply (nodup_definedNames_concat.1 distinct.1).1
      rw [← eq_of_beq same]
      exact List.mem_map_of_mem mem
    rw [collect, new]
    exact ih distinct

/-- Definitions of different names are all collected. -/
theorem collect_all (distinct : (definedNames all).Nodup) : collect [] all = .ok all :=
  collect_of_nodup distinct

theorem collect_of_firstClash (clash : FirstClash all name first second) :
    collect [] all = .error (.duplicateWorkflow name first second) := by
  obtain ⟨before, w, behind, rfl, rfl, distinct, v, same, mem⟩ := clash
  have found : (before.find? fun entry => entry.1.name == v.name) = some (v, first) :=
    find?_eq_some_of_nodup (f := fun entry : Workflow × String => entry.1.name) distinct mem
  rw [same] at found
  rw [collect_append, collect_all distinct, Except.bind, collect, found]

/-- If a name is defined twice, some definition is the first to repeat one. -/
theorem exists_firstClash (repeated : ¬(definedNames all).Nodup) :
    ∃ name first second, FirstClash all name first second := by
  -- From the back, as the first clash is that of the shortest part that repeats a name.
  induction all using List.reverseRecOn with
  | nil => exact absurd List.nodup_nil repeated
  | append_singleton before entry ih =>
    by_cases distinct : (definedNames before).Nodup
    · have known : entry.1.name ∈ definedNames before := by
        by_contra new
        exact repeated (nodup_definedNames_concat.2 ⟨new, distinct⟩)
      obtain ⟨⟨v, first⟩, mem, same⟩ := List.mem_map.1 known
      exact ⟨entry.1.name, first, entry.2, before, entry.1, [], rfl, rfl, distinct, v, same, mem⟩
    · obtain ⟨name, first, second, before', w, behind, rfl, clash⟩ := ih distinct
      refine ⟨name, first, second, before', w, behind ++ [entry], ?_, clash⟩
      rw [List.append_assoc, List.cons_append]

theorem FirstClash.not_nodup (clash : FirstClash all name first second) :
    ¬(definedNames all).Nodup := by
  intro distinct
  have collected := collect_of_firstClash clash
  rw [collect_all distinct] at collected
  cases collected

/-! ## The files of a group -/

def definitions (format : SourceFormat) (t : FileTree) (files : List String) : Origins :=
  files.flatMap fun path =>
    match loadFile t path format with
    | .ok workflows => workflows.map (·, path)
    | .error _ => []

/-- The workflows of all files can be read. -/
def Decodable (format : SourceFormat) (t : FileTree) (files : List String) : Prop :=
  ∀ path ∈ files, ∃ workflows, loadFile t path format = .ok workflows

variable {format : SourceFormat} {t : FileTree} {files paths : List String}

theorem loadEach_eq (decodable : Decodable format t files) (done : Origins) :
    loadEach t format files done = collect done (definitions format t files) := by
  induction files generalizing done with
  | nil => rfl
  | cons path rest ih =>
    obtain ⟨⟨workflows, read⟩, others⟩ := List.forall_mem_cons.1 decodable
    have behind := ih others
    rw [loadEach, definitions, List.flatMap_cons, read, collect_append, ← addFrom_eq]
    simp only [bind, Except.bind]
    cases addFrom path done workflows with
    | error => rfl
    | ok done => exact behind done

theorem loadFiles_eq (decodable : Decodable format t files) :
    loadFiles t files format = (collect [] (definitions format t files)).map (·.map (·.1)) := by
  rw [loadFiles, loadEach_eq decodable]
  cases collect [] (definitions format t files) <;> rfl

/-- Names are read without the white space around them. -/
theorem trim_of_mem_definitions {entry : Workflow × String}
    (mem : entry ∈ definitions format t files) : Text.trim entry.1.name = entry.1.name := by
  obtain ⟨path, -, mem⟩ := List.mem_flatMap.1 mem
  cases read : loadFile t path format with
  | error => rw [read] at mem; cases mem
  | ok workflows =>
    rw [read] at mem
    obtain ⟨w, among, rfl⟩ := List.mem_map.1 mem
    -- What is read has passed `adopt`, which trims the name.
    obtain ⟨text, -, parsed⟩ := exists_of_bind_ok read
    rw [parseFile] at parsed
    split at parsed
    · cases parsed
    · next written _ =>
      obtain ⟨w', -, adopted⟩ := exists_of_forall₂ (mapM_eq_ok parsed).flip among
      rw [adopt] at adopted
      split_ifs at adopted
      cases adopted
      exact Text.trim_trim w'.name

/-! ## Groups of files -/

def sourceFiles (t : FileTree) (directory : String) : List String :=
  match t.list directory with
  | .error _ => []
  | .ok names =>
    (names.map (Path.join directory)).filter fun path => t.isFile path && isSourceName path

/-- The files that paths lead to, as they are loaded: those of each directory, and those that are
named themselves. -/
def sourceGroups (t : FileTree) (paths : List String) : List (List String) :=
  (paths.filter t.isDirectory).map (sourceFiles t) ++ [paths.filter fun path => !t.isDirectory path]

theorem exists_list_of_isDirectory {directory : String} (isDirectory : t.isDirectory directory) :
    ∃ names, t.list directory = .ok names := by
  rw [FileTree.isDirectory] at isDirectory
  split at isDirectory
  · next found =>
    obtain ⟨place, located, -⟩ := exists_of_bind_ok found
    rw [FileTree.list, located]
    simp only [bind, Except.bind, found]
    exact ⟨_, rfl⟩
  · cases isDirectory

theorem loadDirectory_eq {directory : String} (isDirectory : t.isDirectory directory) :
    loadDirectory t directory format = loadFiles t (sourceFiles t directory) format := by
  obtain ⟨names, listed⟩ := exists_list_of_isDirectory isDirectory
  rw [loadDirectory, sourceFiles, listed]

theorem loadAll_eq (format : SourceFormat) (t : FileTree) (paths : List String) :
    loadAll t paths format =
      ((sourceGroups t paths).mapM (loadFiles t · format)).map List.flatten := by
  have directories : (paths.filter t.isDirectory).mapM (loadDirectory t · format) =
      ((paths.filter t.isDirectory).map (sourceFiles t)).mapM (loadFiles t · format) := by
    rw [List.mapM_map]
    apply mapM_congr
    intro directory mem
    exact loadDirectory_eq (List.mem_filter.1 mem).2
  rw [loadAll, sourceGroups, List.mapM_append, directories]
  rw [List.mapM_cons, List.mapM_nil]
  simp only [bind, Except.bind, pure, Except.pure]
  cases ((paths.filter t.isDirectory).map (sourceFiles t)).mapM (loadFiles t · format) with
  | error => rfl
  | ok fromDirectories =>
    cases loadFiles t (paths.filter fun path => !t.isDirectory path) format with
    | error => rfl
    | ok fromFiles =>
      show Except.ok _ = Except.ok _
      rw [List.flatten_append, List.flatten_singleton]

/-- The workflows of a group of definitions. -/
def collected (all : Origins) : Except LoadError (List Workflow) :=
  (collect [] all).map (·.map (·.1))

/-- The first group in which a name is defined twice has its first clash there. -/
def FirstClashAmong (groups : List Origins) (name first second : String) : Prop :=
  ∃ before group behind, groups = before ++ group :: behind ∧
    (∀ all ∈ before, (definedNames all).Nodup) ∧ FirstClash group name first second

variable {groups : List Origins}

theorem mapM_collected_of_nodup (distinct : ∀ all ∈ groups, (definedNames all).Nodup) :
    groups.mapM collected = .ok (groups.map (·.map (·.1))) := by
  induction groups with
  | nil => rfl
  | cons all rest ih =>
    obtain ⟨own, others⟩ := List.forall_mem_cons.1 distinct
    rw [List.mapM_cons, collected, collect_all own, ih others]
    rfl

theorem mapM_collected_of_firstClash (clash : FirstClashAmong groups name first second) :
    groups.mapM collected = .error (.duplicateWorkflow name first second) := by
  obtain ⟨before, group, behind, rfl, distinct, clash⟩ := clash
  rw [List.mapM_append, mapM_collected_of_nodup distinct, List.mapM_cons, collected,
    collect_of_firstClash clash]
  rfl

theorem exists_firstClashAmong (repeated : ¬∀ all ∈ groups, (definedNames all).Nodup) :
    ∃ name first second, FirstClashAmong groups name first second := by
  induction groups with
  | nil => exact absurd (fun _ mem => nomatch mem) repeated
  | cons all rest ih =>
    by_cases own : (definedNames all).Nodup
    · have others : ¬∀ all ∈ rest, (definedNames all).Nodup :=
        fun others => repeated (List.forall_mem_cons.2 ⟨own, others⟩)
      obtain ⟨name, first, second, before, group, behind, rfl, distinct, clash⟩ := ih others
      exact ⟨name, first, second, all :: before, group, behind, rfl,
        List.forall_mem_cons.2 ⟨own, distinct⟩, clash⟩
    · obtain ⟨name, first, second, clash⟩ := exists_firstClash own
      exact ⟨name, first, second, [], all, rest, rfl, nofun, clash⟩

theorem FirstClashAmong.not_nodup (clash : FirstClashAmong groups name first second) :
    ¬∀ all ∈ groups, (definedNames all).Nodup := by
  obtain ⟨before, group, behind, rfl, -, clash⟩ := clash
  intro distinct
  exact clash.not_nodup (distinct group (List.mem_append_right _ List.mem_cons_self))

theorem nodup_of_mem_groups (distinct : (definedNames groups.flatten).Nodup) :
    ∀ all ∈ groups, (definedNames all).Nodup := by
  intro all mem
  obtain ⟨before, behind, rfl⟩ := List.append_of_mem mem
  rw [List.flatten_append, List.flatten_cons, definedNames_append, definedNames_append] at distinct
  exact (List.nodup_append'.1 (List.nodup_append'.1 distinct).2.1).1

/-- What the paths lead to can be read, whatever workflows it defines. -/
def AllDecodable (format : SourceFormat) (t : FileTree) (paths : List String) : Prop :=
  ∀ files ∈ sourceGroups t paths, Decodable format t files

def definitionGroups (format : SourceFormat) (t : FileTree) (paths : List String) : List Origins :=
  (sourceGroups t paths).map (definitions format t)

theorem loadAll_eq_of_decodable (decodable : AllDecodable format t paths) :
    loadAll t paths format =
      ((definitionGroups format t paths).mapM collected).map List.flatten := by
  rw [loadAll_eq, definitionGroups, List.mapM_map]
  congr 1
  apply mapM_congr
  intro files mem
  exact loadFiles_eq (decodable files mem)

/-- A name that is defined twice, wherever that is, is reported, and without one all workflows are
loaded. -/
def RejectsRepeats (format : SourceFormat) (t : FileTree) (paths : List String) : Prop :=
  ((definedNames (definitionGroups format t paths).flatten).Nodup →
    loadAll t paths format = .ok ((definitionGroups format t paths).flatten.map (·.1))) ∧
  (¬(definedNames (definitionGroups format t paths).flatten).Nodup →
    ∃ name first second, loadAll t paths format = .error (.duplicateWorkflow name first second))

theorem loadAll_of_nodup (decodable : AllDecodable format t paths)
    (distinct : ∀ all ∈ definitionGroups format t paths, (definedNames all).Nodup) :
    loadAll t paths format = .ok ((definitionGroups format t paths).flatten.map (·.1)) := by
  rw [loadAll_eq_of_decodable decodable, mapM_collected_of_nodup distinct, List.map_flatten]
  rfl

theorem loadAll_of_firstClash (decodable : AllDecodable format t paths)
    (clash : FirstClashAmong (definitionGroups format t paths) name first second) :
    loadAll t paths format = .error (.duplicateWorkflow name first second) := by
  rw [loadAll_eq_of_decodable decodable, mapM_collected_of_firstClash clash]
  rfl

theorem loadAll_duplicate_iff (decodable : AllDecodable format t paths) :
    loadAll t paths format = .error (.duplicateWorkflow name first second) ↔
      FirstClashAmong (definitionGroups format t paths) name first second := by
  constructor
  · intro failed
    by_cases distinct : ∀ all ∈ definitionGroups format t paths, (definedNames all).Nodup
    · rw [loadAll_of_nodup decodable distinct] at failed
      cases failed
    · obtain ⟨name', first', second', clash⟩ := exists_firstClashAmong distinct
      rw [loadAll_of_firstClash decodable clash] at failed
      cases failed
      exact clash
  · exact loadAll_of_firstClash decodable

theorem rejectsRepeats_iff (decodable : AllDecodable format t paths) :
    RejectsRepeats format t paths ↔
      (definedNames (definitionGroups format t paths).flatten).Nodup ∨
        ∃ all ∈ definitionGroups format t paths, ¬(definedNames all).Nodup := by
  constructor
  · rintro ⟨-, reported⟩
    by_cases distinct : (definedNames (definitionGroups format t paths).flatten).Nodup
    · exact .inl distinct
    · obtain ⟨name, first, second, failed⟩ := reported distinct
      have clash := ((loadAll_duplicate_iff decodable).1 failed).not_nodup
      exact .inr (by simpa using clash)
  · intro found
    refine ⟨fun distinct => loadAll_of_nodup decodable (nodup_of_mem_groups distinct), ?_⟩
    intro repeated
    obtain ⟨all, mem, own⟩ := found.resolve_left repeated
    have some : ¬∀ all ∈ definitionGroups format t paths, (definedNames all).Nodup :=
      fun distinct => own (distinct all mem)
    obtain ⟨name, first, second, clash⟩ := exists_firstClashAmong some
    exact ⟨name, first, second, loadAll_of_firstClash decodable clash⟩

/-- All workflows are loaded if no group has two of one name; else the first clash of the first
group that has one is reported. So a name that is defined twice is sure to be reported exactly if
no name is, or if one is in a single group: between groups no repetition is found. -/
theorem loadAll_by_group (decodable : AllDecodable format t paths) :
    (∀ entry ∈ (definitionGroups format t paths).flatten, Text.trim entry.1.name = entry.1.name) ∧
    ((∀ all ∈ definitionGroups format t paths, (definedNames all).Nodup) →
      loadAll t paths format = .ok ((definitionGroups format t paths).flatten.map (·.1))) ∧
    (∀ name first second, loadAll t paths format = .error (.duplicateWorkflow name first second) ↔
      FirstClashAmong (definitionGroups format t paths) name first second) ∧
    (RejectsRepeats format t paths ↔
      (definedNames (definitionGroups format t paths).flatten).Nodup ∨
        ∃ all ∈ definitionGroups format t paths, ¬(definedNames all).Nodup) := by
  refine ⟨?_, loadAll_of_nodup decodable, fun _ _ _ => loadAll_duplicate_iff decodable,
    rejectsRepeats_iff decodable⟩
  intro entry mem
  obtain ⟨all, among, mem⟩ := List.mem_flatten.1 mem
  obtain ⟨files, -, rfl⟩ := List.mem_map.1 among
  exact trim_of_mem_definitions mem

/-! ## A name in a directory and in a file -/

/-- A directory `d` and, beside it, a file. A file in the directory and the other one define `W`. -/
def twofold : FileTree where
  nodes := .ofList [("/d", .directory), ("/d/w.yaml", .file (Text.toBytes "name: W\n") false),
    ("/w.yaml", .file (Text.toBytes "name: W\n") false)]

/-- Whether a document is what `name: W` spells. -/
def spellsNamed : Document → Bool
  | .record [(.plain "name" (.text "name"), .plain "W" (.text "W"))] => true
  | _ => false

theorem workflows?_named : SourceFormat.yaml.workflows? "name: W\n" = some [{ name := "W" }] := by
  have spelled : (Yaml.parse? "name: W\n").any spellsNamed = true := by decide +kernel
  obtain ⟨d, read, named⟩ := (Option.any_eq_true _ _).1 spelled
  unfold spellsNamed at named
  split at named
  · have resolved : Document.resolve? (.record [(.plain "name" (.text "name"),
        .plain "W" (.text "W"))]) = some (.record [(.text "name", .text "W")]) := by
      simp [Document.resolve?, Document.resolveFields?, Document.resolveName?, Document.ofJson]
    show ((Yaml.parse? "name: W\n").bind Document.resolve?).bind decodeFile? = _
    rw [read, Option.bind_some, resolved, Option.bind_some]
    rfl
  · cases named

theorem parseFile_named (path : String) :
    parseFile "name: W\n" path = .ok [{ name := "W" }] := by
  have trimmed : Text.trim "W" = "W" := by decide +kernel
  rw [parseFile, workflows?_named]
  dsimp only
  rw [List.mapM_cons, adopt, trimmed]
  rfl

theorem loadFile_twofold :
    ∀ path ∈ ["d/w.yaml", "w.yaml"], loadFile twofold path = .ok [{ name := "W" }] := by
  intro path mem
  have read : twofold.readText path = .ok "name: W\n" := by
    revert path
    decide +kernel
  rw [loadFile, FileTree.readSource, read]
  exact parseFile_named path

theorem decodable_twofold (known : files ⊆ ["d/w.yaml", "w.yaml"]) :
    Decodable .yaml twofold files :=
  fun path mem => ⟨_, loadFile_twofold path (known mem)⟩

/-- The file is given twice, and that is found. -/
theorem loadAll_file_twice :
    AllDecodable .yaml twofold ["w.yaml", "w.yaml"] ∧
      loadAll twofold ["w.yaml", "w.yaml"] = .error (.duplicateWorkflow "W" "w.yaml" "w.yaml") := by
  have groups : sourceGroups twofold ["w.yaml", "w.yaml"] = [["w.yaml", "w.yaml"]] := by
    decide +kernel
  have decodable : AllDecodable .yaml twofold ["w.yaml", "w.yaml"] := by
    rw [AllDecodable, groups]
    exact List.forall_mem_singleton.2 (decodable_twofold (by decide))
  refine ⟨decodable, ((loadAll_by_group decodable).2.2.1 _ _ _).2 ?_⟩
  have defined : definitions .yaml twofold ["w.yaml", "w.yaml"] =
      [({ name := "W" }, "w.yaml"), ({ name := "W" }, "w.yaml")] := by
    simp [definitions, loadFile_twofold]
  rw [definitionGroups, groups, List.map_singleton, defined]
  refine ⟨[], _, [], rfl, nofun, [({ name := "W" }, "w.yaml")], { name := "W" }, [], rfl, rfl, ?_⟩
  exact ⟨List.nodup_singleton _, _, rfl, List.mem_singleton_self _⟩

/-- The directory and the file are given, and `W` is loaded from both of them. -/
theorem loadAll_directory_and_file :
    AllDecodable .yaml twofold ["d", "w.yaml"] ∧
      loadAll twofold ["d", "w.yaml"] = .ok [{ name := "W" }, { name := "W" }] ∧
      ¬RejectsRepeats .yaml twofold ["d", "w.yaml"] := by
  have groups : sourceGroups twofold ["d", "w.yaml"] = [["d/w.yaml"], ["w.yaml"]] := by
    decide +kernel
  have decodable : AllDecodable .yaml twofold ["d", "w.yaml"] := by
    rw [AllDecodable, groups, List.forall_mem_cons, List.forall_mem_singleton]
    exact ⟨decodable_twofold (by decide), decodable_twofold (by decide)⟩
  have defined : definitionGroups .yaml twofold ["d", "w.yaml"] =
      [[({ name := "W" }, "d/w.yaml")], [({ name := "W" }, "w.yaml")]] := by
    rw [definitionGroups, groups]
    simp [definitions, loadFile_twofold]
  have loaded : loadAll twofold ["d", "w.yaml"] = .ok [{ name := "W" }, { name := "W" }] := by
    rw [loadAll_of_nodup decodable, defined]
    · rfl
    · rw [defined]
      decide
  refine ⟨decodable, loaded, ?_⟩
  rintro ⟨-, reported⟩
  obtain ⟨name, first, second, failed⟩ := reported (by rw [defined]; decide)
  rw [loaded] at failed
  cases failed

end Sweep.Workflow
