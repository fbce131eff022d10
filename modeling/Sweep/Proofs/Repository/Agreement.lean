import Sweep.Proofs.Repository.Clock
import Sweep.Proofs.Repository.Documents
import Sweep.Proofs.Repository.Frame
import Sweep.Proofs.Run.RoundTrip

/-!
# The repository in a directory and the repository in memory

As long as different runs have documents of different names, a directory holds of every run what a
repository in memory keeps of it, and each access of one answers what the same access of the other
does. So do all operations, which are dialogues of such accesses. Where two runs share a document
they do not: to the directory the second of them is there as soon as the first one is.

What an operation is given can be stored if every record made of it can. An operation of that kind,
performed at a time that can be written, makes of a snapshot that can be stored one that can be
stored again.
-/

namespace Sweep

/-! ## Operations on what can be stored -/

theorem UnitStatus.proper_of_mem_finishAt {status : UnitStatus} {now : Timestamp}
    (proper : now.Proper) : ∀ t ∈ status.finishAt now, t.Proper := by
  intro t mem
  rw [finishAt] at mem
  split at mem
  · cases mem
  · cases mem
    exact proper

namespace Operation

/-- What can be stored of what an operation is given: its records and times can be written, its
numbers have 64 bits, and its parameters are read back as they are written. -/
def Storable : Operation → Prop
  | createRun run | updateRun run => run.Storable
  | setRunPosition _ _ index _ => ∀ n ∈ index, n ≤ Json.maxUnsigned
  | startSet _ _ index parameters => index ≤ Json.maxUnsigned ∧
    ∀ v ∈ parameters.values, v.Proper ∧ v.LegibleWithin SetRecord.maxValueDepth
  | startTask _ _ index _ => index ≤ Json.maxUnsigned
  | putMapping _ m => m.Storable
  | _ => True

variable {op : Operation} {runId : String} {now : Timestamp} {x y : RunSnapshot}
  {change : Timestamp → RunSnapshot → Except RecordKey RunSnapshot}

theorem storable_of_adds {run : RunRecord} (effect : op.effect = .adds run)
    (storable : op.Storable) : (RunSnapshot.ofRun run).Storable := by
  cases op <;> cases effect
  exact ⟨storable, nofun, nofun, nofun, nofun, nofun⟩

/-- What an operation makes of a snapshot that can be stored can be stored. -/
theorem storable_of_effect (effect : op.effect = .changes runId change) (storable : op.Storable)
    (proper : now.Proper) (before : x.Storable) (changed : change now x = .ok y) :
    (y.touch now).Storable := by
  suffices after : y.Storable by
    exact ⟨⟨after.run.startedAt, proper, after.run.finishedAt, after.run.currentSet⟩, after.spaces,
      after.sets, after.tasks, after.mappings, after.control⟩
  cases op with
  | updateRun =>
    cases effect
    cases changed
    exact { before with run := storable }
  | setRunStatus _ status =>
    cases effect
    cases changed
    refine { before with run := { before.run with finishedAt := ?_ } }
    intro t mem
    cases status <;> cases mem <;> exact proper
  | setRunPosition =>
    cases effect
    cases changed
    exact { before with run := { before.run with currentSet := storable } }
  | startSpace =>
    cases effect
    cases changed
    exact { before with spaces := forall_mem_replace before.spaces ⟨proper, nofun⟩ }
  | setSpaceStatus =>
    cases effect
    obtain ⟨spaces, updated, rfl⟩ := RunSnapshot.exists_of_setSpaceStatus changed
    refine { before with
      spaces := forall_mem_of_updateFirst? updated (fun r held => ?_) before.spaces }
    exact ⟨held.startedAt, UnitStatus.proper_of_mem_finishAt proper⟩
  | resetSpace =>
    cases effect
    cases changed
    exact { before with
      spaces := fun r mem => before.spaces r (List.mem_of_mem_filter mem)
      sets := fun r mem => before.sets r (List.mem_of_mem_filter mem)
      tasks := fun r mem => before.tasks r (List.mem_of_mem_filter mem) }
  | startSet =>
    cases effect
    cases changed
    obtain ⟨index, values⟩ := storable
    refine { before with sets := forall_mem_replace before.sets ?_ }
    exact ⟨index, fun v mem => (values v mem).1, fun v mem => (values v mem).2, proper, nofun⟩
  | setSetStatus =>
    cases effect
    obtain ⟨sets, updated, rfl⟩ := RunSnapshot.exists_of_setSetStatus changed
    refine { before with
      sets := forall_mem_of_updateFirst? updated (fun r held => ?_) before.sets }
    exact { held with finishedAt := UnitStatus.proper_of_mem_finishAt proper }
  | startTask =>
    cases effect
    cases changed
    refine { before with
      run := { before.run with currentSet := ?_ }
      tasks := forall_mem_replace before.tasks ⟨storable, proper, nofun⟩ }
    rintro n ⟨⟩
    exact storable
  | setTaskStatus =>
    cases effect
    obtain ⟨tasks, updated, rfl⟩ := RunSnapshot.exists_of_setTaskStatus changed
    refine { before with
      tasks := forall_mem_of_updateFirst? updated (fun r held => ?_) before.tasks }
    exact { held with finishedAt := UnitStatus.proper_of_mem_finishAt proper }
  | putMapping =>
    cases effect
    cases changed
    exact { before with mappings := forall_mem_replace before.mappings storable }
  | enter =>
    cases effect
    cases changed
    refine { before with control := ?_ }
    rintro c ⟨⟩
    exact proper
  | _ => cases effect

/-- An operation on what can be stored stores what can be stored. -/
theorem storable_dialogue {own : String → Prop} {lists : Prop} (storable : op.Storable)
    (proper : now.Proper) (about : ∀ runId, op.runId? = some runId → own runId)
    (listing : op.runId? = none → lists) :
    (op.dialogue now).Within own RunSnapshot.Storable lists :=
  op.within_dialogue about listing (fun _ effect => storable_of_adds effect storable)
    fun _ _ _ _ effect before changed => storable_of_effect effect storable proper before changed

end Operation

/-! ## What a directory holds -/

open Sweep.Path (PlainName join)
open FileTree (absolute childName?)

namespace Backend

variable {own : String → Prop} {directory : String} {way : List String} {t : FileTree}
  {runs : Table RunSnapshot} {runId : String} {x : RunSnapshot}

def documentOf (x : RunSnapshot) : FileNode := .file (Text.toBytes x.write) false

structure Stored (own : String → Prop) (directory : String) (way : List String) (t : FileTree)
    (runs : Table RunSnapshot) : Prop where
  spelled : FileTree.Spelled directory
  leads : t.Leads directory way
  isDirectory : t.nodeAt? way = some .directory
  kept : ∀ runId x, runs.get? runId = some x → own runId ∧ x.run.runId = runId ∧ x.Storable
  document : ∀ runId, own runId →
    t.nodeAt? (way ++ [recordName runId]) = (runs.get? runId).map documentOf
  only : ∀ key name, (t.nodes.get? key).isSome → childName? way key = some name →
    ∃ runId x, runs.get? runId = some x ∧ name = recordName runId

/-- Names of runs whose documents have different names, which fit into the directory. -/
structure Apart (own : String → Prop) (directory : String) : Prop where
  distinct : ∀ a b, own a → own b → fileStem a = fileStem b → a = b
  fits : ∀ runId, own runId → FileTree.Fits directory (draftName runId)

/-- A single name is apart if it fits. -/
theorem Apart.single (fits : FileTree.Fits directory (draftName runId)) :
    Apart (· = runId) directory :=
  ⟨fun _ _ ha hb _ => ha.trans hb.symm, fun _ same => same ▸ fits⟩

/-- Where the draft of a document fits, the document does. -/
theorem fits_recordName (fits : FileTree.Fits directory (draftName runId)) :
    FileTree.Fits directory (recordName runId) := by
  have shorter : (recordName runId).utf8ByteSize ≤ (draftName runId).utf8ByteSize := by
    simp only [recordName, draftName, String.utf8ByteSize_append]
    split
    · next empty =>
      rw [empty, String.utf8ByteSize_empty]
      omega
    · omega
  refine ⟨fits.noNul, ?_, Nat.le_trans shorter fits.name⟩
  have long := fits.path
  rw [Path.join_eq (plain_draftName runId).toPiece, String.utf8ByteSize_append] at long
  rw [Path.join_eq (plain_recordName runId).toPiece, String.utf8ByteSize_append]
  omega

namespace Stored

section Documents

variable (stored : Stored own directory way t runs)

include stored

/-- No draft is left in the directory. -/
theorem no_draft (runId : String) : t.nodeAt? (way ++ [draftName runId]) = none := by
  by_contra left
  rw [FileTree.nodeAt?_concat, ← ne_eq, ← Option.isSome_iff_ne_none] at left
  obtain ⟨other, -, -, same⟩ := stored.only _ _ left
    (FileTree.childName?_absolute (plain_draftName runId))
  exact recordName_ne_draftName other runId same.symm

/-- A document is no directory. -/
theorem document_ne_directory (named : own runId) :
    t.nodeAt? (way ++ [recordName runId]) ≠ some .directory := by
  rw [stored.document runId named]
  cases runs.get? runId with
  | none => nofun
  | some => nofun

end Documents

variable (apart : Apart own directory) (stored : Stored own directory way t runs)

include apart stored

theorem load_agrees (named : own runId) :
    loadRecord directory runId t = .ok (runs.get? runId) := by
  have fits := fits_recordName (apart.fits runId named)
  have node := stored.document runId named
  cases found : runs.get? runId with
  | none =>
    rw [found, Option.map_none] at node
    have read := FileTree.readText_join (plain_recordName runId) fits stored.leads
    rw [node] at read
    unfold loadRecord
    dsimp only
    rw [recordPath_eq, read]
  | some x =>
    rw [found, Option.map_some] at node
    obtain ⟨-, -, storable⟩ := stored.kept runId x found
    exact loadRecord_of_file fits stored.leads node (RunSnapshot.read?_write storable)

/-- What is found after a document was stored. -/
theorem insert (named : own x.run.runId) (storable : x.Storable) :
    Stored own directory way
      (t.putThrough way (draftName x.run.runId) (recordName x.run.runId) (documentOf x))
      (runs.insert x.run.runId x) := by
  have other := recordName_ne_draftName x.run.runId x.run.runId
  have free : t.nodeAt? (way ++ [draftName x.run.runId]) ≠ some .directory := by
    rw [no_draft stored]
    nofun
  constructor
  case spelled => exact stored.spelled
  case leads =>
    exact FileTree.leads_putThrough other nofun free (document_ne_directory stored named)
      stored.leads
  case isDirectory =>
    rw [FileTree.nodeAt?_putThrough_way (plain_recordName _).nonempty (plain_draftName _).nonempty]
    exact stored.isDirectory
  case kept =>
    exact Table.forall_get?_insert stored.kept ⟨named, rfl, storable⟩
  case document =>
    intro runId named'
    rw [Table.get?_insert]
    split
    · next same => rw [← same, FileTree.nodeAt?_putThrough_self, Option.map_some]
    · next differ =>
      rw [FileTree.nodeAt?_putThrough_other _ (recordName_ne_draftName _ _),
        stored.document runId named']
      exact fun same => differ (apart.distinct _ _ named' named (recordName_inj.1 same)).symm
  case only =>
    intro key name there child
    rw [FileTree.get?_putThrough] at there
    split at there
    · next same =>
      rw [← same, FileTree.childName?_absolute (plain_recordName _)] at child
      exact ⟨x.run.runId, x, Table.get?_insert_self, (Option.some.inj child).symm⟩
    · split at there
      · cases there
      · obtain ⟨runId, y, found, same⟩ := stored.only key name there child
        by_cases renewed : x.run.runId = runId
        · subst renewed
          exact ⟨x.run.runId, x, Table.get?_insert_self, same⟩
        · exact ⟨runId, y, by rw [Table.get?_insert_of_ne renewed, found], same⟩

theorem store_agrees (named : own x.run.runId) (storable : x.Storable) :
    ∃ t', storeRecord directory x t = (.ok (), t') ∧
      Stored own directory way t' (runs.insert x.run.runId x) := by
  refine ⟨_, ?_, insert apart stored named storable⟩
  have fits := apart.fits _ named
  have plain := plain_draftName x.run.runId
  have written := FileTree.writeBytes_join plain fits stored.leads (no_draft stored _)
    (Text.toBytes x.write)
  have free : t.nodeAt? (way ++ [draftName x.run.runId]) ≠ some .directory := by
    rw [no_draft stored]
    nofun
  have target : (t.put (way ++ [draftName x.run.runId]) (documentOf x)).nodeAt?
      (way ++ [recordName x.run.runId]) ≠ some .directory := by
    rw [FileTree.nodeAt?_put_other (recordName_ne_draftName _ _)]
    exact document_ne_directory stored named
  have moved := FileTree.rename_join plain fits ((FileTree.keeps_put free _).leads stored.leads)
    (plain_recordName _) (fits_recordName fits)
    (FileTree.nodeAt?_put_self (.file (Text.toBytes x.write) false)) target
  rw [storeRecord, storeSteps, FileStep.applyAll, FileStep.apply, draftPath_eq, written]
  dsimp only
  rw [FileStep.applyAll, FileStep.apply, recordPath_eq, moved]
  rfl

omit apart in
theorem erase_of_none (absent : runs.get? runId = none) :
    Stored own directory way t (runs.erase runId) := by
  have same (other : String) : (runs.erase runId).get? other = runs.get? other := by
    rw [Table.get?_erase]
    split
    · next here => rw [← here, absent]
    · rfl
  obtain ⟨spelled, leads, isDirectory, kept, document, only⟩ := stored
  simp only [← same] at kept document only
  exact ⟨spelled, leads, isDirectory, kept, document, only⟩

/-- What is found after a document was removed. -/
theorem erase (named : own runId) :
    Stored own directory way (t.without (way ++ [recordName runId])) (runs.erase runId) := by
  constructor
  case spelled => exact stored.spelled
  case leads =>
    exact (FileTree.keeps_without (document_ne_directory stored named)).leads stored.leads
  case isDirectory =>
    rw [FileTree.nodeAt?_without_child (plain_recordName _).nonempty]
    exact stored.isDirectory
  case kept =>
    exact Table.forall_get?_erase stored.kept
  case document =>
    intro other named'
    rw [Table.get?_erase]
    split
    · next same => rw [← same, FileTree.nodeAt?_without_self, Option.map_none]
    · next differ =>
      rw [FileTree.nodeAt?_without_other, stored.document other named']
      exact fun same => differ (apart.distinct _ _ named' named (recordName_inj.1 same)).symm
  case only =>
    intro key name there child
    have rest : (t.without (way ++ [recordName runId])).nodes.get? key =
        if absolute (way ++ [recordName runId]) = key then none else t.nodes.get? key :=
      Table.get?_erase ..
    rw [rest] at there
    split at there
    · cases there
    · next differ =>
      obtain ⟨other, y, found, rfl⟩ := stored.only key name there child
      refine ⟨other, y, ?_, rfl⟩
      rw [Table.get?_erase_of_ne, found]
      rintro rfl
      rw [FileTree.childName?_eq_some, ← FileTree.absolute_concat] at child
      exact differ child.1.symm

theorem remove_agrees (named : own runId) :
    ∃ t', removeRecord directory runId t = (.ok (runs.contains runId), t') ∧
      Stored own directory way t' (runs.erase runId) := by
  have removes := FileTree.removeFile_join (plain_recordName runId)
    (fits_recordName (apart.fits _ named)) stored.leads
  rw [stored.document runId named] at removes
  unfold removeRecord
  dsimp only
  rw [recordPath_eq, removes, Table.contains_eq]
  cases found : runs.get? runId with
  | none => exact ⟨t, rfl, erase_of_none stored found⟩
  | some x => exact ⟨_, rfl, erase apart stored named⟩

/-- The document of a run that is kept names it, unless it has no name but its extension. -/
theorem recordedAt?_document (found : runs.get? runId = some x) :
    recordedAt? t directory way (absolute (way ++ [recordName runId])) =
      if fileStem runId = "" then none else some runId := by
  obtain ⟨named, same, storable⟩ := stored.kept runId x found
  have node := stored.document runId named
  rw [found, Option.map_some, documentOf] at node
  have read : t.readText (join directory (recordName runId)) = .ok x.write := by
    rw [FileTree.readText_join (plain_recordName runId) (fits_recordName (apart.fits _ named))
      stored.leads, node]
    dsimp only
    rw [Text.ofBytes?_toBytes]
  rw [recordedAt?, FileTree.childName?_absolute (plain_recordName runId), Option.bind_some,
    recordedRun?_of_readText read (RunSnapshot.read?_write storable), extension?_record, same]
  split <;> rfl

/-- A run that is listed is one that is kept. -/
theorem exists_of_recordedAt? {key : String} (there : (t.nodes.get? key).isSome)
    (listed : recordedAt? t directory way key = some runId) :
    key = absolute (way ++ [recordName runId]) ∧ (runs.get? runId).isSome := by
  obtain ⟨name, child, -⟩ := Option.bind_eq_some_iff.1 listed
  obtain ⟨other, y, found, rfl⟩ := stored.only key name there child
  obtain rfl : key = absolute (way ++ [recordName other]) := by
    rw [FileTree.absolute_concat]
    exact (FileTree.childName?_eq_some.1 child).1
  rw [recordedAt?_document apart stored found] at listed
  split at listed
  · cases listed
  · cases listed
    exact ⟨rfl, by rw [found]; rfl⟩

theorem list_agrees (nonempty : ∀ runId, own runId → fileStem runId ≠ "") :
    recordedRuns directory t = .ok runs.keys := by
  rw [recordedRuns_eq stored.spelled stored.leads, stored.isDirectory]
  refine congrArg Except.ok (Table.eq_keys_of_mem_iff ?_ ?_ ?_)
  · exact List.pairwise_mergeSort' (· ≤ ·) _
  · refine (List.mergeSort_perm _ _).nodup_iff.2 (List.pairwise_filterMap.2 ?_)
    refine t.nodes.nodup_keys.imp_of_mem ?_
    rintro key key' there there' differ runId listed _ listed' rfl
    obtain ⟨same, -⟩ := exists_of_recordedAt? apart stored (Table.mem_keys_iff.1 there) listed
    obtain ⟨same', -⟩ := exists_of_recordedAt? apart stored (Table.mem_keys_iff.1 there') listed'
    exact differ (same.trans same'.symm)
  · intro runId
    rw [List.mem_mergeSort, List.mem_filterMap, Table.mem_keys_iff]
    constructor
    · rintro ⟨key, there, listed⟩
      exact (exists_of_recordedAt? apart stored (Table.mem_keys_iff.1 there) listed).2
    · intro held
      obtain ⟨x, found⟩ := Option.isSome_iff_exists.1 held
      obtain ⟨named, -, -⟩ := stored.kept runId x found
      have node := stored.document runId named
      rw [found, Option.map_some, FileTree.nodeAt?_concat] at node
      refine ⟨_, Table.mem_keys_iff.2 (by rw [node]; rfl), ?_⟩
      rw [recordedAt?_document apart stored found, if_neg (nonempty runId named)]

end Stored

/-! ## Dialogues and histories -/

/-- A dialogue about runs with documents of their own goes the same way in the directory as in
memory, and leaves the directory with the documents of what is kept in memory. -/
theorem Stored.hold_agrees (apart : Apart own directory) {lists : Prop}
    (nonempty : lists → ∀ runId, own runId → fileStem runId ≠ "") {d : Dialogue}
    (within : d.Within own RunSnapshot.Storable lists) (stored : Stored own directory way t runs) :
    (d.hold (Backend.directory directory) t).1 = (d.hold memory runs).1 ∧
      Stored own directory way (d.hold (Backend.directory directory) t).2
        (d.hold memory runs).2 := by
  induction within generalizing t runs with
  | ends result => exact ⟨rfl, stored⟩
  | @load runId goesOn named rest ih =>
    have loads : (Backend.directory directory).load runId t = .ok (runs.get? runId) := by
      rw [load_directory, load_agrees apart stored named]
    rw [Dialogue.hold_load, Dialogue.hold_load, loads]
    refine ih _ (fun x found => ?_) stored
    exact (stored.kept runId x found).2
  | @store x goesOn named storable rest ih =>
    obtain ⟨t', stores, stored'⟩ := store_agrees apart stored named storable
    rw [Dialogue.hold_store, Dialogue.hold_store, store_directory, stores]
    exact ih stored'
  | @remove runId goesOn named rest ih =>
    obtain ⟨t', removes, stored'⟩ := remove_agrees apart stored named
    rw [Dialogue.hold_remove, Dialogue.hold_remove, remove_directory, removes]
    exact ih _ stored'
  | @list goesOn may rest ih =>
    have lists : (Backend.directory directory).runIds t = .ok runs.keys := by
      rw [runIds_directory, list_agrees apart stored (nonempty may)]
    rw [Dialogue.hold_list, Dialogue.hold_list, lists]
    refine ih _ (fun runId mem => ?_) stored
    obtain ⟨x, found⟩ := Option.isSome_iff_exists.1 (Table.mem_keys_iff.1 mem)
    exact (stored.kept runId x found).1

/-- An operation about runs of certain names, on what can be stored and at a time that can be
written. -/
structure Admits (own : String → Prop) (now : Timestamp) (op : Operation) : Prop where
  proper : now.Proper
  storable : op.Storable
  about : ∀ runId, op.runId? = some runId → own runId

theorem Stored.perform_agrees (apart : Apart own directory) {op : Operation} {now : Timestamp}
    (nonempty : op.runId? = none → ∀ runId, own runId → fileStem runId ≠ "")
    (admits : Admits own now op) (stored : Stored own directory way t runs) :
    ((Backend.directory directory).perform op now t).1 = (memory.perform op now runs).1 ∧
      Stored own directory way ((Backend.directory directory).perform op now t).2
        (memory.perform op now runs).2 := by
  rw [perform_eq_hold, perform_eq_hold]
  exact stored.hold_agrees apart nonempty
    (op.storable_dialogue admits.storable admits.proper admits.about id)

/-- All operations of a history are answered alike. -/
theorem Stored.replies_agree (apart : Apart own directory)
    (nonempty : ∀ runId, own runId → fileStem runId ≠ "")
    {history : List (Timestamp × Operation)}
    (admits : ∀ entry ∈ history, Admits own entry.1 entry.2)
    (stored : Stored own directory way t runs) :
    (Backend.directory directory).replies history t = memory.replies history runs := by
  induction history generalizing t runs with
  | nil => rfl
  | cons entry rest ih =>
    rw [List.forall_mem_cons] at admits
    obtain ⟨same, stored'⟩ := stored.perform_agrees apart (fun _ => nonempty) admits.1
    rw [replies, replies, same, ih admits.2 stored']

/-- An empty directory holds what is kept of no runs. -/
theorem stored_empty (empty : t.list directory = .ok []) : ∃ way, Stored own directory way t ∅ := by
  obtain ⟨spelled, way, leads, isDirectory⟩ := FileTree.exists_of_list empty
  have childless (key : String) (there : (t.nodes.get? key).isSome) :
      childName? way key = none := by
    rw [FileTree.list_of_leads spelled leads, isDirectory] at empty
    exact List.filterMap_eq_nil_iff.1 (Except.ok.inj empty) key (Table.mem_keys_iff.2 there)
  have nothing (runId : String) : (∅ : Table RunSnapshot).get? runId = none := rfl
  refine ⟨way, spelled, leads, isDirectory, ?_, ?_, ?_⟩
  · intro runId x found
    rw [nothing] at found
    cases found
  · intro runId _
    rw [nothing, Option.map_none, FileTree.nodeAt?_concat, ← Option.not_isSome_iff_eq_none]
    intro there
    have child := childless _ there
    rw [FileTree.childName?_absolute (plain_recordName runId)] at child
    cases child
  · intro key name there child
    rw [childless key there] at child
    cases child

/-! ## Runs that share a document -/

/-- A run of a name, of which nothing else is known. -/
def bareRun (runId : String) : RunRecord := .new runId "" "" "" default

theorem proper_default : (default : Timestamp).Proper := by decide

theorem storable_bareRun (runId : String) : (bareRun runId).Storable :=
  ⟨proper_default, proper_default, nofun, nofun⟩

/-- What is found once a run was added to an empty directory. -/
theorem exists_created (empty : t.list directory = .ok [])
    (fits : FileTree.Fits directory (draftName runId)) : ∃ way,
      ((Backend.directory directory).perform (.createRun (bareRun runId)) default t).1 = .ok .done ∧
      Stored (· = runId) directory way
        ((Backend.directory directory).perform (.createRun (bareRun runId)) default t).2
        ((∅ : Table RunSnapshot).insert runId (.ofRun (bareRun runId))) := by
  obtain ⟨way, stored⟩ : ∃ way, Stored (· = runId) directory way t ∅ := stored_empty empty
  have apart : Apart (· = runId) directory := .single fits
  have admits : Admits (· = runId) default (.createRun (bareRun runId)) :=
    ⟨proper_default, storable_bareRun runId, fun other same => (Option.some.inj same).symm⟩
  have about : (Operation.createRun (bareRun runId)).runId? ≠ none := Option.some_ne_none _
  refine ⟨way, ?_⟩
  exact stored.perform_agrees apart (fun none => absurd none about) admits

/-- To the directory a run is there as soon as another one with the same document is. -/
theorem replies_of_shared (empty : t.list directory = .ok [])
    (fits : FileTree.Fits directory (draftName runId)) {other : String}
    (shared : fileStem other = fileStem runId) :
    ((Backend.directory directory).replies [(default, .createRun (bareRun runId)),
      (default, .createRun (bareRun other))] t) = [.ok .done, .error (.runExists other)] := by
  obtain ⟨way, created, stored⟩ := exists_created empty fits
  rw [replies, replies, replies, created]
  generalize ((Backend.directory directory).perform (.createRun (bareRun runId)) default t).2 = t'
    at stored
  have apart : Apart (· = runId) directory := .single fits
  have path : recordPath directory other = recordPath directory runId := by
    rw [recordPath, shared, ← recordPath]
  have loads : (Backend.directory directory).load other t' =
      .ok (some (.ofRun (bareRun runId))) := by
    have same : loadRecord directory other t' = loadRecord directory runId t' := by
      unfold loadRecord
      rw [path]
    rw [load_directory, same, stored.load_agrees apart rfl, Table.get?_insert_self]
  have denied : ((Operation.createRun (bareRun other)).dialogue default).hold
      (Backend.directory directory) t' = (.error (.runExists other), t') := by
    have named : (bareRun other).runId = other := rfl
    rw [Operation.dialogue, Operation.effect]
    dsimp only
    rw [Dialogue.create, Dialogue.hold_load, named, loads]
    rfl
  rw [perform_eq_hold, denied]

/-- The run without a name is not listed, for its document has no name but its extension. -/
theorem replies_of_nameless (empty : t.list directory = .ok [])
    (fits : FileTree.Fits directory (draftName "")) :
    ((Backend.directory directory).replies [(default, .createRun (bareRun "")),
      (default, .runNames)] t) = [.ok .done, .ok (.names [])] := by
  obtain ⟨way, created, stored⟩ := exists_created empty fits
  rw [replies, replies, replies, created]
  generalize ((Backend.directory directory).perform (.createRun (bareRun "")) default t).2 = t'
    at stored
  have apart : Apart (· = "") directory := .single fits
  have lists : (Backend.directory directory).runIds t' = .ok [] := by
    have found : t'.nodes.keys.filterMap (recordedAt? t' directory way) = [] := by
      rw [List.filterMap_eq_nil_iff]
      intro key there
      rw [Option.eq_none_iff_forall_not_mem]
      intro runId listed
      obtain ⟨rfl, held⟩ := stored.exists_of_recordedAt? apart (Table.mem_keys_iff.1 there) listed
      obtain ⟨x, found⟩ := Option.isSome_iff_exists.1 held
      obtain rfl : runId = "" := (stored.kept runId x found).1
      rw [Option.mem_def, stored.recordedAt?_document apart found] at listed
      cases listed
    rw [runIds_directory, recordedRuns_eq stored.spelled stored.leads, stored.isDirectory]
    dsimp only
    rw [found, List.mergeSort_nil]
  have listed : (Operation.runNames.dialogue default).hold (Backend.directory directory) t' =
      (.ok (.names []), t') := by
    rw [Operation.dialogue, Operation.effect]
    dsimp only
    rw [Operation.inquiry, Dialogue.hold_list, lists]
    rfl
  rw [perform_eq_hold, listed]

/-- In memory there is a run for every name. -/
theorem memory_replies_create {a b : String} (differ : a ≠ b) :
    memory.replies [(default, .createRun (bareRun a)), (default, .createRun (bareRun b))] ∅ =
      [.ok .done, .ok .done] := by
  have created : memory.perform (.createRun (bareRun a)) default ∅ =
      (.ok .done, (∅ : Table RunSnapshot).insert a (.ofRun (bareRun a))) := by
    rw [perform_eq_hold]
    exact Dialogue.hold_create_memory _
  have absent : ((∅ : Table RunSnapshot).insert a (.ofRun (bareRun a))).get? (bareRun b).runId =
      none := Table.get?_insert_of_ne differ
  have created' : (memory.perform (.createRun (bareRun b)) default
      ((∅ : Table RunSnapshot).insert a (.ofRun (bareRun a)))).1 = .ok .done := by
    rw [perform_eq_hold]
    refine congrArg Prod.fst ((Dialogue.hold_create_memory _).trans (if_neg ?_))
    rw [absent]
    nofun
  rw [replies, replies, replies, created, created']

theorem memory_replies_list (runId : String) :
    memory.replies [(default, .createRun (bareRun runId)), (default, .runNames)] ∅ =
      [.ok .done, .ok (.names [runId])] := by
  have created : memory.perform (.createRun (bareRun runId)) default ∅ =
      (.ok .done, (∅ : Table RunSnapshot).insert runId (.ofRun (bareRun runId))) := by
    rw [perform_eq_hold]
    exact Dialogue.hold_create_memory _
  rw [replies, replies, replies, created]
  rfl

/-! ## When the two repositories agree -/

/-- Whether a history is answered as it is in memory: by the same replies at the same times, and at
other times by replies that differ in noted times only. -/
structure Agrees {S : Type} (b : Backend S) (s : S) (history : List (Timestamp × Operation)) :
    Prop where
  replies : b.replies history s = memory.replies history ∅
  untimed : ∀ again : List (Timestamp × Operation), again.map Prod.snd = history.map Prod.snd →
    (b.replies history s).map (Except.map Reply.untimed) =
      (memory.replies again ∅).map (Except.map Reply.untimed)

theorem fileStem_eq_empty : fileStem runId = "" ↔ runId = "" := by
  rw [fileStem, String.ofList_eq_empty_iff, List.map_eq_nil_iff, String.toList_eq_nil_iff]

/-- A repository in an empty directory answers every history about runs of certain names as one in
memory does exactly if no two of these names have the same file name, and none is empty. What is
stored has to be such that its text is read back, and the names of files must not be too long. -/
theorem directory_agrees_iff (empty : t.list directory = .ok [])
    (fits : ∀ runId, own runId → FileTree.Fits directory (draftName runId)) :
    (∀ history : List (Timestamp × Operation), (∀ entry ∈ history, Admits own entry.1 entry.2) →
        Agrees (Backend.directory directory) t history) ↔
      (∀ a b, own a → own b → fileStem a = fileStem b → a = b) ∧ ¬own "" := by
  constructor
  · intro agrees
    have create {runId : String} (named : own runId) :
        Admits own default (.createRun (bareRun runId)) :=
      ⟨proper_default, storable_bareRun runId, fun other same => Option.some.inj same ▸ named⟩
    constructor
    · intro a b named named' shared
      by_contra differ
      have same := (agrees [(default, .createRun (bareRun a)), (default, .createRun (bareRun b))]
        (List.forall_mem_cons.2
          ⟨create named, List.forall_mem_singleton.2 (create named')⟩)).replies
      rw [replies_of_shared empty (fits a named) shared.symm, memory_replies_create differ] at same
      cases (List.cons.inj (List.cons.inj same).2).1
    · intro named
      have list : Admits own default .runNames := ⟨proper_default, trivial, nofun⟩
      have same := (agrees [(default, .createRun (bareRun "")), (default, .runNames)]
        (List.forall_mem_cons.2 ⟨create named, List.forall_mem_singleton.2 list⟩)).replies
      rw [replies_of_nameless empty (fits "" named), memory_replies_list] at same
      cases (List.cons.inj (List.cons.inj same).2).1
  · rintro ⟨distinct, nameless⟩ history admits
    obtain ⟨way, stored⟩ : ∃ way, Stored own directory way t ∅ := stored_empty empty
    have nonempty (runId : String) (named : own runId) : fileStem runId ≠ "" := by
      rw [ne_eq, fileStem_eq_empty]
      rintro rfl
      exact nameless named
    have same := stored.replies_agree ⟨distinct, fits⟩ nonempty admits
    refine ⟨same, fun again operations => ?_⟩
    rw [same]
    exact (after_untimed operations.symm rfl).1

theorem list_emptyRuns : emptyRuns.list "/runs" = .ok [] := by
  obtain ⟨names, listed, rfl⟩ := exists_ok (p := fun names => names = [])
    (show ((emptyRuns.list "/runs").toOption.any fun names => decide (names = [])) = true by
      decide +kernel)
  exact listed

/-- Two runs, one of them with a name that is no name of a file. -/
theorem directory_agrees_iff_twoRuns :
    let own (runId : String) := runId = "a" ∨ runId = "b/c"
    emptyRuns.list "/runs" = .ok [] ∧
      (∀ runId, own runId → FileTree.Fits "/runs" (draftName runId)) ∧
      ∀ history : List (Timestamp × Operation), (∀ entry ∈ history, Admits own entry.1 entry.2) →
        Agrees (Backend.directory "/runs") emptyRuns history := by
  intro own
  have fits : ∀ runId, own runId → FileTree.Fits "/runs" (draftName runId) := by
    rintro runId (rfl | rfl)
    · exact ⟨by decide, by decide +kernel, by decide +kernel⟩
    · exact ⟨by decide, by decide +kernel, by decide +kernel⟩
  refine ⟨list_emptyRuns, fits, (directory_agrees_iff list_emptyRuns fits).2 ⟨?_, ?_⟩⟩
  · rintro a b (rfl | rfl) (rfl | rfl) same
    · rfl
    · exact absurd same (by decide +kernel)
    · exact absurd same (by decide +kernel)
    · rfl
  · rintro (same | same)
    · exact absurd same (by decide)
    · exact absurd same (by decide)

/-- Two runs with the same file name cannot both be added. -/
theorem directory_disagrees_sharedName :
    let history : List (Timestamp × Operation) :=
      [(default, .createRun (bareRun "a/b")), (default, .createRun (bareRun "a_b"))]
    (Backend.directory "/runs").replies history emptyRuns ≠ memory.replies history ∅ := by
  intro history same
  have fits : FileTree.Fits "/runs" (draftName "a/b") :=
    ⟨by decide, by decide +kernel, by decide +kernel⟩
  rw [replies_of_shared list_emptyRuns fits (by decide +kernel),
    memory_replies_create (by decide)] at same
  cases (List.cons.inj (List.cons.inj same).2).1

end Backend

end Sweep
