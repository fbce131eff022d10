import Sweep.Proofs.Repository.Documents
import Sweep.Proofs.Run.RoundTrip
import Sweep.Proofs.Run.Standing

/-!
# A repository in a directory that is broken off

A snapshot is stored by a list of steps: what is to be stored is written to the draft, and the draft
takes the place of the document. The steps may break off before any of them, after the last one, and
within one that writes: then the file holds as much of the text as has been written, which may be
nothing and may end within a character.

Wherever they break off, the run is loaded as it was before or as it was to be stored, and it is the
latter if all steps are done. No draft is taken for a document, be it left by this writing or by an
earlier one, and the files of other names are as they were.
-/

namespace Sweep

open Sweep.Path (PlainName join)
open FileTree (absolute)

namespace Backend

/-- What is left of a tree where a step breaks off midway. A file is emptied before it is written;
nothing lies between the start and the end of a move. -/
inductive Midway (t : FileTree) : FileStep → FileTree → Prop
  | writing {path : String} {content : ByteArray} {t' : FileTree} (count : Nat)
      (written : t.writeBytes path (content.extract 0 count) = .ok t') :
      Midway t (.write path content) t'

/-- What may be left of a tree where steps are broken off. -/
inductive BrokenOff : List FileStep → FileTree → FileTree → Prop
  | between (steps : List FileStep) (t : FileTree) : BrokenOff steps t t
  | midway {step : FileStep} {t t' : FileTree} (rest : List FileStep) (inside : Midway t step t') :
      BrokenOff (step :: rest) t t'
  | later {step : FileStep} {rest : List FileStep} {t t' t'' : FileTree}
      (done : step.apply t = .ok t') (broken : BrokenOff rest t' t'') :
      BrokenOff (step :: rest) t t''

/-- Steps that are taken leave what they could be broken off at, whether they succeed or fail. -/
theorem brokenOff_applyAll (steps : List FileStep) (t : FileTree) :
    BrokenOff steps t (FileStep.applyAll steps t).2 := by
  induction steps generalizing t with
  | nil => exact .between [] t
  | cons step rest ih =>
    rw [FileStep.applyAll]
    split
    · exact .between _ t
    · next t' done => exact .later done (ih t')

variable {t t' : FileTree} {way : List String} {directory runId : String} {old new x : RunSnapshot}

/-- The draft has been written, and has taken the place of the document. -/
def Replaced (directory : String) (x : RunSnapshot) (t t' : FileTree) : Prop :=
  ∃ drafted, t.writeBytes (draftPath (recordPath directory x.run.runId)) (Text.toBytes x.write) =
      .ok drafted ∧
    drafted.rename (draftPath (recordPath directory x.run.runId))
      (recordPath directory x.run.runId) = .ok t'

/-- The draft holds some of the bytes to be written, or none, or all. -/
def Drafted (directory : String) (x : RunSnapshot) (t t' : FileTree) : Prop :=
  ∃ count, t.writeBytes (draftPath (recordPath directory x.run.runId))
    ((Text.toBytes x.write).extract 0 count) = .ok t'

theorem Drafted.of_written (written : t.writeBytes (draftPath (recordPath directory x.run.runId))
    (Text.toBytes x.write) = .ok t') : Drafted directory x t t' := by
  refine ⟨(Text.toBytes x.write).size, ?_⟩
  rw [ByteArray.extract_zero_size]
  exact written

theorem BrokenOff.cases (broken : BrokenOff (storeSteps directory x) t t') :
    t' = t ∨ Drafted directory x t t' ∨ Replaced directory x t t' := by
  cases broken with
  | between => exact .inl rfl
  | midway _ inside =>
    obtain ⟨count, written⟩ := inside
    exact .inr (.inl ⟨count, written⟩)
  | later written broken =>
    cases broken with
    | between => exact .inr (.inl (.of_written written))
    | midway _ inside => cases inside
    | later moved broken =>
      cases broken
      exact .inr (.inr ⟨_, written, moved⟩)

/-- What is stored has replaced the document, and what fails to be has left a draft at most. -/
theorem applyAll_cases {result : Except RepositoryError Unit × FileTree}
    (taken : result = FileStep.applyAll (storeSteps directory x) t) :
    (result.1 = .ok () ∧ Replaced directory x t result.2) ∨
      (result.1 ≠ .ok () ∧ (result.2 = t ∨ Drafted directory x t result.2)) := by
  rw [taken, storeSteps, FileStep.applyAll]
  split
  · exact .inr ⟨nofun, .inl rfl⟩
  · next drafted written =>
    rw [FileStep.applyAll]
    split
    · exact .inr ⟨nofun, .inr (.of_written written)⟩
    · next stored moved => exact .inl ⟨rfl, drafted, written, moved⟩

/-- What holds after a writing that was broken off, or was not. -/
structure Survives (directory runId : String) (old new : RunSnapshot) (t t' : FileTree) : Prop where
  loads : loadRecord directory runId t' = .ok (some old) ∨
    loadRecord directory runId t' = .ok (some new)
  /-- The runs that are listed are those that were. -/
  listed : fileStem new.run.runId = fileStem runId → new.run.runId = old.run.runId →
    recordedRuns directory t' = recordedRuns directory t
  /-- Other files are as they were. -/
  touches : ∃ way, t.Leads directory way ∧ ∀ key, t'.nodes.get? key ≠ t.nodes.get? key →
    key = absolute (way ++ [recordName new.run.runId]) ∨
      key = absolute (way ++ [draftName new.run.runId])

/-- Where a draft is. -/
theorem exists_of_locate_draft {place : FileTree.Place} (leads : t.Leads directory way)
    (located : t.locate (draftPath (recordPath directory runId)) = .ok place) :
    place = ⟨way, some (draftName runId), false⟩ := by
  rw [draftPath_eq] at located
  obtain ⟨-, way', leads', rfl⟩ := FileTree.exists_of_locate_join (plain_draftName runId) located
  obtain rfl : way = way' := Except.ok.inj (leads.symm.trans leads')
  rfl

theorem Drafted.exists_put (drafted : Drafted directory x t t') :
    ∃ way content executable, t.Leads directory way ∧
      t.nodeAt? (way ++ [draftName x.run.runId]) ≠ some .directory ∧
      t' = t.put (way ++ [draftName x.run.runId]) (.file content executable) := by
  obtain ⟨count, written⟩ := drafted
  obtain ⟨place, content, executable, located, free, -, is⟩ := FileTree.change_eq written
  rw [draftPath_eq] at located
  obtain ⟨-, way, leads, rfl⟩ := FileTree.exists_of_locate_join (plain_draftName _) located
  exact ⟨way, _, executable, leads, free, is⟩

/-- Other files are read past a draft. -/
theorem readText_put_draft {name : String} {node : FileNode} (leads : t.Leads directory way)
    (free : t.nodeAt? (way ++ [draftName runId]) ≠ some .directory) (plain : PlainName name)
    (other : name ≠ draftName runId) :
    (t.put (way ++ [draftName runId]) node).readText (join directory name) =
      t.readText (join directory name) :=
  FileTree.readText_congr plain leads ((FileTree.keeps_put free _).leads leads)
    (FileTree.nodeAt?_put_other other _)

/-- What is loaded is not changed by a draft. -/
theorem Drafted.loads (drafted : Drafted directory x t t') (runId : String) :
    loadRecord directory runId t' = loadRecord directory runId t := by
  obtain ⟨way, content, executable, leads, free, rfl⟩ := drafted.exists_put
  exact loadRecord_congr (readText_put_draft leads free (plain_recordName runId)
    (recordName_ne_draftName _ _))

/-- Where a draft has taken the place of its document. -/
theorem Replaced.exists_putThrough (replaced : Replaced directory x t t') :
    FileTree.Fits directory (recordName x.run.runId) ∧ ∃ way executable, t.Leads directory way ∧
      t.nodeAt? (way ++ [draftName x.run.runId]) ≠ some .directory ∧
      t.nodeAt? (way ++ [recordName x.run.runId]) ≠ some .directory ∧
      t' = t.putThrough way (draftName x.run.runId) (recordName x.run.runId)
        (.file (Text.toBytes x.write) executable) := by
  obtain ⟨drafted, written, moved⟩ := replaced
  obtain ⟨place, content, executable, located, free, -, rfl⟩ := FileTree.change_eq written
  rw [draftPath_eq] at located
  obtain ⟨-, way, leads, rfl⟩ := FileTree.exists_of_locate_join (plain_draftName _) located
  have leads' := (FileTree.keeps_put free (.file (Text.toBytes x.write) executable)).leads leads
  obtain ⟨start, goal, content', executable', located', target, source, free', is⟩ :=
    FileTree.rename_eq moved
  obtain rfl := exists_of_locate_draft leads' located'
  obtain ⟨fits, way', leads'', rfl⟩ :=
    FileTree.exists_of_locate_join (plain_recordName x.run.runId) target
  obtain rfl : way = way' := Except.ok.inj (leads'.symm.trans leads'')
  -- What is moved is what was written.
  rw [FileTree.Place.way, Option.toList, FileTree.nodeAt?_put_self, Option.some.injEq,
    FileNode.file.injEq] at source
  obtain ⟨rfl, rfl⟩ := source
  have free'' : t.nodeAt? (way ++ [recordName x.run.runId]) ≠ some .directory := by
    rw [← FileTree.nodeAt?_put_other (recordName_ne_draftName _ _)]
    exact free'
  exact ⟨fits, way, executable, leads, free, free'', is⟩

theorem loadRecord_of_putThrough {executable : Bool}
    (same : recordName runId = recordName x.run.runId) (reads : RunSnapshot.read? x.write = some x)
    (leads : t.Leads directory way) (fits : FileTree.Fits directory (recordName runId))
    (free : t.nodeAt? (way ++ [draftName x.run.runId]) ≠ some .directory)
    (free' : t.nodeAt? (way ++ [recordName x.run.runId]) ≠ some .directory)
    (is : t' = t.putThrough way (draftName x.run.runId) (recordName x.run.runId)
      (.file (Text.toBytes x.write) executable)) :
    loadRecord directory runId t' = .ok (some x) := by
  have apart := recordName_ne_draftName x.run.runId x.run.runId
  have leads' : t'.Leads directory way :=
    is ▸ FileTree.leads_putThrough apart nofun free free' leads
  have written : t'.nodeAt? (way ++ [recordName runId]) =
      some (.file (Text.toBytes x.write) executable) := by
    rw [is, same]
    exact FileTree.nodeAt?_putThrough_self
  exact loadRecord_of_file fits leads' written reads

/-- What is stored is loaded. -/
theorem Replaced.loads (reads : RunSnapshot.read? x.write = some x)
    (replaced : Replaced directory x t t') :
    loadRecord directory x.run.runId t' = .ok (some x) := by
  obtain ⟨fits, way, executable, leads, free, free', is⟩ := replaced.exists_putThrough
  exact loadRecord_of_putThrough rfl reads leads fits free free' is

section Writing

variable {content : ByteArray} {executable : Bool}
  (leads : t.Leads directory way) (loaded : loadRecord directory runId t = .ok (some old))
  (fits : FileTree.Fits directory (recordName runId))

include leads loaded fits

/-- A draft that is written leaves all documents. -/
theorem survives_draft (free : t.nodeAt? (way ++ [draftName new.run.runId]) ≠ some .directory)
    (is : t' = t.put (way ++ [draftName new.run.runId]) (.file content executable)) :
    Survives directory runId old new t t' := by
  have leads' : t'.Leads directory way := is ▸ (FileTree.keeps_put free _).leads leads
  have read {name : String} (plain : PlainName name) (other : name ≠ draftName new.run.runId) :
      t'.readText (join directory name) = t.readText (join directory name) :=
    is ▸ readText_put_draft leads free plain other
  refine ⟨.inl ?_, fun _ _ => ?_, way, leads, fun key changed => .inr ?_⟩
  · have same := read (plain_recordName runId) (recordName_ne_draftName _ _)
    exact (loadRecord_congr same).trans loaded
  · have same : recordedAt? t' directory way = recordedAt? t directory way := by
      refine recordedAt?_congr fun name plain => ?_
      by_cases draft : name = draftName new.run.runId
      · rw [draft, recordedRun?_draft, recordedRun?_draft]
      · exact recordedRun?_congr (read plain draft)
    have node : t'.nodeAt? way = t.nodeAt? way :=
      is ▸ FileTree.nodeAt?_put_child (plain_draftName _).nonempty _
    refine recordedRuns_congr (plain_recordName runId) fits leads leads' node ?_
    rw [same, is]
    exact Table.filterMap_keys_insert _ _ (recordedAt?_draft ..)
  · by_contra other
    rw [is] at changed
    exact changed (Table.get?_insert_of_ne (Ne.symm other))

/-- A draft that takes the place of its document makes it the document of what was stored. -/
theorem survives_replacement (reads : RunSnapshot.read? new.write = some new)
    (free : t.nodeAt? (way ++ [draftName new.run.runId]) ≠ some .directory)
    (free' : t.nodeAt? (way ++ [recordName new.run.runId]) ≠ some .directory)
    (fits' : FileTree.Fits directory (recordName new.run.runId))
    (is : t' = t.putThrough way (draftName new.run.runId) (recordName new.run.runId)
      (.file (Text.toBytes new.write) executable)) :
    Survives directory runId old new t t' := by
  have apart := recordName_ne_draftName new.run.runId new.run.runId
  have leads' : t'.Leads directory way :=
    is ▸ FileTree.leads_putThrough apart nofun free free' leads
  have read {name : String} (plain : PlainName name) (notDraft : name ≠ draftName new.run.runId)
      (notRecord : name ≠ recordName new.run.runId) :
      t'.readText (join directory name) = t.readText (join directory name) := by
    apply FileTree.readText_congr plain leads leads'
    rw [is, FileTree.nodeAt?_putThrough_other notRecord notDraft]
  have written : t'.nodeAt? (way ++ [recordName new.run.runId]) =
      some (.file (Text.toBytes new.write) executable) := is ▸ FileTree.nodeAt?_putThrough_self
  refine ⟨?_, fun stem named => ?_, way, leads, fun key changed => ?_⟩
  · by_cases same : recordName runId = recordName new.run.runId
    · exact .inr (loadRecord_of_putThrough same reads leads fits free free' is)
    · have other := read (plain_recordName runId) (recordName_ne_draftName _ _) same
      exact .inl ((loadRecord_congr other).trans loaded)
  · obtain ⟨text, read₀, decoded⟩ := exists_of_loadRecord loaded
    have same : recordName new.run.runId = recordName runId := recordName_inj.2 stem
    have read₁ : t'.readText (recordPath directory runId) = .ok new.write := by
      rw [recordPath_eq, ← same, FileTree.readText_join (plain_recordName _) fits' leads', written]
      dsimp only
      rw [Text.ofBytes?_toBytes]
    have found : recordedAt? t' directory way = recordedAt? t directory way := by
      refine recordedAt?_congr fun name plain => ?_
      by_cases draft : name = draftName new.run.runId
      · rw [draft, recordedRun?_draft, recordedRun?_draft]
      by_cases record : name = recordName runId
      · rw [record, ← recordPath_eq, recordedRun?_of_readText read₁ reads,
          recordedRun?_of_readText read₀ decoded, named]
      · exact recordedRun?_congr (read plain draft (same ▸ record))
    -- No key is added but the draft's, which is taken away.
    have bound : (((t.put (way ++ [draftName new.run.runId])
        (.file (Text.toBytes new.write) executable)).without
          (way ++ [draftName new.run.runId])).nodes.get?
            (absolute (way ++ [recordName new.run.runId]))).isSome := by
      rw [← FileTree.nodeAt?_concat, FileTree.nodeAt?_without_other apart,
        FileTree.nodeAt?_put_other apart, same]
      by_contra none
      rw [Option.not_isSome_iff_eq_none] at none
      rw [recordPath_eq, FileTree.readText_join (plain_recordName _) fits leads, none] at read₀
      cases read₀
    have node : t'.nodeAt? way = t.nodeAt? way :=
      is ▸ FileTree.nodeAt?_putThrough_way (plain_recordName _).nonempty
        (plain_draftName _).nonempty
    refine recordedRuns_congr (plain_recordName runId) fits leads leads' node ?_
    have nothing := recordedAt?_draft t directory way new.run.runId
    rw [found, is]
    refine (congrArg _ (Table.keys_insert_of_bound _ _ bound)).trans ?_
    exact (Table.filterMap_keys_erase _ nothing).trans (Table.filterMap_keys_insert _ _ nothing)
  · by_contra other
    obtain ⟨notRecord, notDraft⟩ := not_or.1 other
    refine changed ?_
    rw [is, FileTree.get?_putThrough, if_neg (Ne.symm notRecord), if_neg (Ne.symm notDraft)]

end Writing

/-- Whatever is left of a tree in which a snapshot is being stored. -/
theorem BrokenOff.survives (loaded : loadRecord directory runId t = .ok (some old))
    (reads : RunSnapshot.read? new.write = some new)
    (broken : BrokenOff (storeSteps directory new) t t') :
    Survives directory runId old new t t' := by
  obtain ⟨text, read, -⟩ := exists_of_loadRecord loaded
  obtain ⟨content, executable, found, -⟩ := FileTree.exists_of_readText read
  obtain ⟨place, located, -, -⟩ := FileTree.exists_of_find_file found
  obtain ⟨fits, way, leads, -⟩ := FileTree.exists_of_locate_join (plain_recordName runId) located
  obtain rfl | drafted | replaced := broken.cases
  · exact ⟨.inl loaded, fun _ _ => rfl, way, leads, fun _ changed => absurd rfl changed⟩
  · obtain ⟨way', content, executable, leads', free, is⟩ := drafted.exists_put
    exact survives_draft leads' loaded fits free is
  · obtain ⟨fits', way', executable, leads', free, free', is⟩ := replaced.exists_putThrough
    exact survives_replacement leads' loaded fits reads free free' fits' is

/-- A change of a run in a directory takes the steps that store its snapshot. If they succeed, the
new snapshot is loaded, and if one fails, the old one. Wherever they are broken off, what is loaded
of the run is what it was or what it was changed to. Only two files with plain names in the
directory are touched, the document and its draft, whatever the names of runs are. No draft, be it
of this change or left by an earlier one, is taken for a document, and the runs that are listed are
those that were, as long as the change keeps the name of the run. -/
theorem brokenOff_survives {change : Timestamp → RunSnapshot → Except RecordKey RunSnapshot}
    {now : Timestamp} (loaded : loadRecord directory runId t = .ok (some old))
    (changes : change now old = .ok x)
    (reads : RunSnapshot.read? (x.touch now).write = some (x.touch now)) :
    let steps := storeSteps directory (x.touch now)
    let result := (Backend.directory directory).modify runId change now t
    (result = FileStep.applyAll steps t ∧ BrokenOff steps t result.2 ∧
      (result.1 = .ok () →
        loadRecord directory x.run.runId result.2 = .ok (some (x.touch now))) ∧
      (result.1 ≠ .ok () → loadRecord directory runId result.2 = .ok (some old))) ∧
    (∀ t', BrokenOff steps t t' →
      Survives directory runId old (x.touch now) t t' ∧
      ∀ other, recordedRun? t' (draftPath (recordPath directory other)) = none) ∧
    ∀ other, PlainName (recordName other) ∧ PlainName (draftName other) ∧
      recordPath directory other = join directory (recordName other) ∧
      draftPath (recordPath directory other) = join directory (draftName other) := by
  intro steps result
  have taken : result = FileStep.applyAll steps t := by
    show (Backend.directory directory).modify runId change now t = _
    rw [Conduct.modify_eval (load_directory directory ▸ loaded) changes, store_directory]
    rfl
  clear_value result
  refine ⟨⟨taken, ?_, ?_⟩, fun t' broken => ?_, fun other => ?_⟩
  · rw [taken]
    exact brokenOff_applyAll steps t
  · obtain ⟨done, replaced⟩ | ⟨fails, left⟩ := applyAll_cases taken
    · exact ⟨fun _ => replaced.loads reads, fun fails => absurd done fails⟩
    · refine ⟨fun done => absurd done fails, fun _ => ?_⟩
      obtain same | drafted := left
      · rw [same, loaded]
      · exact (drafted.loads runId).trans loaded
  · refine ⟨broken.survives loaded reads, fun other => ?_⟩
    rw [draftPath_eq]
    exact recordedRun?_draft t' directory other
  · exact ⟨plain_recordName other, plain_draftName other, recordPath_eq directory other,
      draftPath_eq directory other⟩

/-- The run of a name that is no name of a file fails. -/
theorem brokenOff_survives_failing :
    let old := RunSnapshot.ofRun (.new "a/b" "experiment" "1" "hash" ⟨5, 0⟩)
    let new := (old.setStatus ⟨6, 0⟩ .failed (some "boom")).touch ⟨6, 0⟩
    let change (now : Timestamp) (x : RunSnapshot) : Except RecordKey RunSnapshot :=
      .ok (x.setStatus now .failed (some "boom"))
    let t := emptyRuns.put (["runs"] ++ [recordName "a/b"]) (.file (Text.toBytes old.write) false)
    loadRecord "/runs" "a/b" t = .ok (some old) ∧ RunSnapshot.read? new.write = some new ∧
      (((Backend.directory "/runs").modify "a/b" change ⟨6, 0⟩ t).1 = .ok () →
        loadRecord "/runs" "a/b" ((Backend.directory "/runs").modify "a/b" change ⟨6, 0⟩ t).2 =
          .ok (some new)) ∧
      ∀ t', BrokenOff (storeSteps "/runs" new) t t' → Survives "/runs" "a/b" old new t t' := by
  intro old new change t
  have first : (⟨5, 0⟩ : Timestamp).Proper := by decide
  have second : (⟨6, 0⟩ : Timestamp).Proper := by decide
  have storable : old.Storable := ⟨⟨first, first, nofun, nofun⟩, nofun, nofun, nofun, nofun, nofun⟩
  have storable' : new.Storable := by
    refine ⟨⟨first, second, ?_, nofun⟩, nofun, nofun, nofun, nofun, nofun⟩
    rintro _ ⟨⟩
    exact second
  have fits : FileTree.Fits "/runs" (recordName "a/b") :=
    ⟨by decide, by decide +kernel, by decide +kernel⟩
  have free : emptyRuns.nodeAt? (["runs"] ++ [recordName "a/b"]) ≠ some .directory := by
    have absent : (emptyRuns.nodeAt? (["runs"] ++ [recordName "a/b"])).isSome = false := by
      decide +kernel
    intro there
    rw [there] at absent
    cases absent
  have loaded : loadRecord "/runs" "a/b" t = .ok (some old) :=
    loadRecord_of_file fits ((FileTree.keeps_put free _).leads leads_emptyRuns)
      (FileTree.nodeAt?_put_self _) (RunSnapshot.read?_write storable)
  have reads := RunSnapshot.read?_write storable'
  obtain ⟨⟨-, -, done, -⟩, survives, -⟩ :=
    @brokenOff_survives _ _ _ _ _ change ⟨6, 0⟩ loaded rfl reads
  exact ⟨loaded, reads, done, fun t' broken => (survives t' broken).1⟩

/-! ## Many changes, each of which may be broken off -/

abbrev Change := Timestamp × (Timestamp → RunSnapshot → Except RecordKey RunSnapshot)

def Change.carryOut (change : Change) (x : RunSnapshot) : Except RecordKey RunSnapshot :=
  (change.2 change.1 x).map fun y => y.touch change.1

/-- Changes of a run that are made one after the other, each of what is loaded of the run then and
each broken off anywhere. -/
inductive Attempts (directory runId : String) : List Change → FileTree → FileTree → Prop
  | none {t : FileTree} : Attempts directory runId [] t t
  | next {change : Change} {rest : List Change} {t t' t'' : FileTree} {old new : RunSnapshot}
      (loaded : loadRecord directory runId t = .ok (some old))
      (changes : change.carryOut old = .ok new)
      (reads : RunSnapshot.read? new.write = some new)
      (broken : BrokenOff (storeSteps directory new) t t')
      (later : Attempts directory runId rest t' t'') :
      Attempts directory runId (change :: rest) t t''

/-- After any number of changes that may have been broken off, what is loaded of the run is what
some of them make of it, in their order. -/
theorem Attempts.loads {changes : List Change} (attempts : Attempts directory runId changes t t')
    (loaded : loadRecord directory runId t = .ok (some old)) :
    ∃ done new, List.Sublist done changes ∧
      done.foldlM (fun x change => Change.carryOut change x) old = .ok new ∧
      loadRecord directory runId t' = .ok (some new) := by
  induction attempts generalizing old with
  | none => exact ⟨[], old, .slnil, rfl, loaded⟩
  | @next change rest t t' t'' old' new loaded' changes reads broken later ih =>
    obtain rfl : old = old' := Option.some.inj (Except.ok.inj (loaded.symm.trans loaded'))
    obtain kept | replaced := (broken.survives loaded reads).loads
    · obtain ⟨done, last, among, carried, loads⟩ := ih kept
      exact ⟨done, last, among.cons change, carried, loads⟩
    · obtain ⟨done, last, among, carried, loads⟩ := ih replaced
      refine ⟨change :: done, last, among.cons_cons change, ?_, loads⟩
      rw [List.foldlM_cons, changes]
      exact carried

end Backend

end Sweep
