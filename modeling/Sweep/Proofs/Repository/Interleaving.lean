import Mathlib.Logic.Function.Basic
import Sweep.Proofs.Repository.Clock
import Sweep.Proofs.Repository.Frame

/-!
# Runs that share a repository

Several clients use one repository, each for a run of its own. Each has operations to perform one
after the other, and takes them apart into turns: to begin the next operation, to make one access to
the store, to note what the operation answered. Between two turns of one client others may take any
number of turns, so operations of different runs overlap, and a snapshot that one client has loaded
may be stored by it after others have stored theirs.

As long as all that is shared is the store, this makes no difference. What a client will have been
answered, and what its run will be, when it goes on alone from some point, is the same from one turn
to the next, whoever takes it.
-/

namespace Sweep

open Backend

namespace Dialogue

variable {runId : String} {d : Dialogue} {runs runs' : Table RunSnapshot}

/-- A dialogue that accesses one run and no other, and never lists runs. -/
def StaysWith (runId : String) (d : Dialogue) : Prop :=
  d.Within (· = runId) (fun _ => True) False

theorem staysWith_dialogue {op : Operation} (about : op.runId? = some runId) (now : Timestamp) :
    (op.dialogue now).StaysWith runId := by
  apply Operation.within_dialogue
  · intro other about'
    exact Option.some.inj (about'.symm.trans about)
  · intro about'
    cases about.symm.trans about'
  · exact fun _ _ => trivial
  · exact fun _ _ _ _ _ _ _ => trivial

/-- An access of a dialogue that stays with one run touches no other. -/
theorem StaysWith.step (stays : d.StaysWith runId) (named : Named runs) :
    (d.step memory runs).1.StaysWith runId ∧ Named (d.step memory runs).2 ∧
      ∀ other, other ≠ runId → (d.step memory runs).2.get? other = runs.get? other := by
  cases stays with
  | ends result => exact ⟨.ends result, named, fun _ _ => rfl⟩
  | load own rest =>
    refine ⟨rest _ ?_, named, fun _ _ => rfl⟩
    exact fun x found => ⟨named _ x found, trivial⟩
  | @store x goesOn own _ rest =>
    refine ⟨rest, named.insert rfl, fun other apart => ?_⟩
    exact Table.get?_insert_of_ne fun same => apart (same.symm.trans own)
  | @remove gone goesOn own rest =>
    refine ⟨rest _, named.erase gone, fun other apart => ?_⟩
    exact Table.get?_erase_of_ne fun same => apart (same.symm.trans own)
  | list may => cases may

/-- What such a dialogue comes to depends on its run only. -/
theorem StaysWith.hold_congr (stays : d.StaysWith runId) (named : Named runs)
    (named' : Named runs') (same : runs.get? runId = runs'.get? runId) :
    (d.hold memory runs).1 = (d.hold memory runs').1 ∧
      (d.hold memory runs).2.get? runId = (d.hold memory runs').2.get? runId := by
  induction stays generalizing runs runs' with
  | ends => exact ⟨rfl, same⟩
  | @load own goesOn is _ ih =>
    subst is
    rw [hold_load, hold_load]
    show ((goesOn (runs.get? own)).hold memory runs).1 = _ ∧
      ((goesOn (runs.get? own)).hold memory runs).2.get? own = _
    rw [same]
    exact ih _ (fun x found => ⟨named' _ x found, trivial⟩) named named' same
  | @store x goesOn is _ _ ih =>
    subst is
    rw [hold_store, hold_store]
    refine ih (named.insert rfl) (named'.insert rfl) ?_
    rw [Table.get?_insert_self, Table.get?_insert_self]
  | @remove gone goesOn is _ ih =>
    subst is
    have there : runs.contains gone = runs'.contains gone := by
      rw [Table.contains_eq, Table.contains_eq, same]
    rw [hold_remove, hold_remove]
    show ((goesOn (runs.contains gone)).hold memory (runs.erase gone)).1 = _ ∧
      ((goesOn (runs.contains gone)).hold memory (runs.erase gone)).2.get? gone = _
    rw [there]
    refine ih _ (named.erase gone) (named'.erase gone) ?_
    rw [Table.get?_erase_self, Table.get?_erase_self]
  | list may => cases may

end Dialogue

/-- One who performs operations on a repository. -/
structure Client where
  /-- The operations that are not begun yet. -/
  agenda : List (Timestamp × Operation)
  underway : Option Dialogue := none
  replies : List (Except RepositoryError Reply) := []

namespace Client

variable {S : Type} (b : Backend S)

/-- What a client does in one turn. A client that has nothing left to do does nothing. -/
def turn (c : Client) (s : S) : Client × S :=
  match c.underway with
  | some (.ends reply) => ({ c with underway := none, replies := c.replies ++ [reply] }, s)
  | some d => ({ c with underway := some (d.step b s).1 }, (d.step b s).2)
  | none =>
    match c.agenda with
    | [] => (c, s)
    | entry :: rest =>
      ({ c with agenda := rest, underway := some (entry.2.dialogue entry.1) }, s)

/-- What a client will have been answered, and the store it will leave, if it goes on alone. -/
def goAlone (c : Client) (s : S) : List (Except RepositoryError Reply) × S :=
  match c.underway with
  | none => (c.replies ++ b.replies c.agenda s, b.after c.agenda s)
  | some d => (c.replies ++ (d.hold b s).1 :: b.replies c.agenda (d.hold b s).2,
      b.after c.agenda (d.hold b s).2)

/-- Whoever goes on alone has the same to expect after a turn as before. -/
theorem goAlone_turn (c : Client) (s : S) :
    (c.turn b s).1.goAlone b (c.turn b s).2 = c.goAlone b s := by
  obtain ⟨agenda, underway, replies⟩ := c
  have accessed (d : Dialogue) :
      goAlone b ⟨agenda, some (d.step b s).1, replies⟩ (d.step b s).2 =
        goAlone b ⟨agenda, some d, replies⟩ s := by
    simp only [goAlone, Dialogue.hold_step]
  cases underway with
  | some d =>
    cases d with
    | ends reply =>
      simp only [turn, goAlone, Dialogue.hold_ends, List.append_assoc, List.singleton_append]
    | load | store | remove | list => exact accessed _
  | none =>
    cases agenda with
    | nil => rfl
    | cons entry rest =>
      simp only [turn, goAlone, Backend.replies, Backend.after_cons, Backend.perform_eq_hold]

structure MindsOwn (runId : String) (c : Client) : Prop where
  agenda : ∀ entry ∈ c.agenda, entry.2.runId? = some runId
  underway : ∀ d, c.underway = some d → d.StaysWith runId

variable {runId : String} {c : Client} {runs runs' : Table RunSnapshot}

/-- A turn of a client touches no run but its own. -/
theorem MindsOwn.turn (minds : c.MindsOwn runId) (named : Named runs) :
    (c.turn memory runs).1.MindsOwn runId ∧ Named (c.turn memory runs).2 ∧
      ∀ other, other ≠ runId → (c.turn memory runs).2.get? other = runs.get? other := by
  obtain ⟨agenda, underway, replies⟩ := c
  obtain ⟨about, stays⟩ := minds
  have accessed (d : Dialogue) (staying : d.StaysWith runId) :
      (⟨agenda, some (d.step memory runs).1, replies⟩ : Client).MindsOwn runId ∧
        Named (d.step memory runs).2 ∧
        ∀ other, other ≠ runId → (d.step memory runs).2.get? other = runs.get? other := by
    obtain ⟨still, named', others⟩ := staying.step named
    refine ⟨⟨about, ?_⟩, named', others⟩
    rintro _ ⟨⟩
    exact still
  cases underway with
  | some d =>
    cases d with
    | ends reply => exact ⟨⟨about, nofun⟩, named, fun _ _ => rfl⟩
    | load | store | remove | list => exact accessed _ (stays _ rfl)
  | none =>
    cases agenda with
    | nil => exact ⟨⟨about, nofun⟩, named, fun _ _ => rfl⟩
    | cons entry rest =>
      refine ⟨⟨fun later mem => about later (List.mem_cons_of_mem _ mem), ?_⟩, named,
        fun _ _ => rfl⟩
      rintro _ ⟨⟩
      exact Dialogue.staysWith_dialogue (about entry List.mem_cons_self) entry.1

theorem replies_congr {history : List (Timestamp × Operation)}
    (about : ∀ entry ∈ history, entry.2.runId? = some runId) (named : Named runs)
    (named' : Named runs') (same : runs.get? runId = runs'.get? runId) :
    memory.replies history runs = memory.replies history runs' ∧
      (memory.after history runs).get? runId = (memory.after history runs').get? runId := by
  induction history generalizing runs runs' with
  | nil => exact ⟨rfl, same⟩
  | cons entry rest ih =>
    have stays := Dialogue.staysWith_dialogue (about entry List.mem_cons_self) entry.1
    obtain ⟨reply, next⟩ := stays.hold_congr named named' same
    rw [← perform_eq_hold, ← perform_eq_hold] at reply next
    obtain ⟨replies, left⟩ := ih (fun later mem => about later (List.mem_cons_of_mem _ mem))
      (named.perform entry.2 entry.1) (named'.perform entry.2 entry.1) next
    exact ⟨by rw [Backend.replies, Backend.replies, reply, replies], left⟩

/-- What a client has to expect depends on its run only. -/
theorem MindsOwn.goAlone_congr (minds : c.MindsOwn runId) (named : Named runs)
    (named' : Named runs') (same : runs.get? runId = runs'.get? runId) :
    (c.goAlone memory runs).1 = (c.goAlone memory runs').1 ∧
      (c.goAlone memory runs).2.get? runId = (c.goAlone memory runs').2.get? runId := by
  obtain ⟨agenda, underway, replies⟩ := c
  obtain ⟨about, stays⟩ := minds
  cases underway with
  | none =>
    obtain ⟨later, left⟩ := replies_congr about named named' same
    exact ⟨congrArg (replies ++ ·) later, left⟩
  | some d =>
    obtain ⟨reply, next⟩ := (stays d rfl).hold_congr named named' same
    obtain ⟨later, left⟩ := replies_congr about (named.hold d) (named'.hold d) next
    exact ⟨by simp only [goAlone, reply, later], left⟩

end Client

/-! ## Progress -/

/-- A dialogue that ends after a number of accesses at most, whatever they answer. -/
inductive Dialogue.EndsIn : Nat → Dialogue → Prop
  | ends {n : Nat} (result : Except RepositoryError Reply) : EndsIn n (.ends result)
  | load {n : Nat} {runId : String} {goesOn : Option RunSnapshot → Dialogue}
      (rest : ∀ found, EndsIn n (goesOn found)) : EndsIn (n + 1) (.load runId goesOn)
  | store {n : Nat} {x : RunSnapshot} {goesOn : Dialogue} (rest : EndsIn n goesOn) :
      EndsIn (n + 1) (.store x goesOn)
  | remove {n : Nat} {runId : String} {goesOn : Bool → Dialogue}
      (rest : ∀ wasThere, EndsIn n (goesOn wasThere)) : EndsIn (n + 1) (.remove runId goesOn)

/-- An operation that is about one run makes two accesses at most. -/
theorem Operation.endsIn_dialogue {op : Operation} {runId : String}
    (about : op.runId? = some runId) (now : Timestamp) : (op.dialogue now).EndsIn 2 := by
  have looking (runId : String) (answer : RunSnapshot → Reply) :
      (Dialogue.look runId answer).EndsIn 2 := by
    refine .load ?_
    rintro (_ | x)
    · exact .ends _
    · exact .ends _
  rw [dialogue]
  cases effect : op.effect with
  | looks =>
    cases op with
    | getRun => exact .load fun _ => .ends _
    | listRuns | runNames => cases about
    | getSnapshot | getSpace | getSet | getTask | getMapping | getMappings | latestMapping
    | getControl | taskCounts | spaceCounts | setCounts => exact looking _ _
    | _ => cases effect
  | adds run =>
    refine .load fun found => ?_
    split
    · exact .ends _
    · exact .store (.ends _)
  | removes runId => exact .remove fun _ => .ends _
  | changes runId change =>
    refine .load ?_
    rintro (_ | x)
    · exact .ends _
    · dsimp only
      split
      · exact .ends _
      · exact .store (.ends _)

namespace Client

variable {runId : String} {c : Client} {runs : Table RunSnapshot} {n : Nat}

/-- A client that will have done all it has to do after a number of turns at most. An operation
takes four: to begin it, two accesses, and to note the answer. -/
def DoneIn (n : Nat) (c : Client) : Prop :=
  match c.underway with
  | none => 4 * c.agenda.length ≤ n
  | some d => ∃ k, d.EndsIn k ∧ 4 * c.agenda.length + (k + 1) ≤ n

theorem DoneIn.turn (due : c.DoneIn (n + 1)) (minds : c.MindsOwn runId) :
    (c.turn memory runs).1.DoneIn n := by
  obtain ⟨agenda, underway, replies⟩ := c
  cases underway with
  | some d =>
    obtain ⟨k, ending, most⟩ := due
    change 4 * agenda.length + (k + 1) ≤ n + 1 at most
    cases ending with
    | ends result =>
      show 4 * agenda.length ≤ n
      omega
    | @load k _ _ rest => exact ⟨k, rest _, Nat.le_of_succ_le_succ most⟩
    | @store k _ _ rest => exact ⟨k, rest, Nat.le_of_succ_le_succ most⟩
    | @remove k _ _ rest => exact ⟨k, rest _, Nat.le_of_succ_le_succ most⟩
  | none =>
    cases agenda with
    | nil => exact Nat.zero_le n
    | cons entry rest =>
      have begun := Operation.endsIn_dialogue (minds.agenda entry List.mem_cons_self) entry.1
      have most : 4 * (rest.length + 1) ≤ n + 1 := due
      exact ⟨2, begun, Nat.le_of_succ_le_succ most⟩

theorem DoneIn.mono {m : Nat} (due : c.DoneIn m) (most : m ≤ n) : c.DoneIn n := by
  obtain ⟨agenda, underway, replies⟩ := c
  cases underway with
  | none => exact Nat.le_trans due most
  | some d =>
    obtain ⟨k, ending, most'⟩ := due
    exact ⟨k, ending, Nat.le_trans most' most⟩

theorem DoneIn.done (due : c.DoneIn 0) : c.agenda = [] ∧ c.underway = none := by
  obtain ⟨agenda, underway, replies⟩ := c
  cases underway with
  | some d =>
    obtain ⟨k, -, most⟩ := due
    omega
  | none =>
    have most : 4 * agenda.length ≤ 0 := due
    have none : agenda.length = 0 := by omega
    exact ⟨List.length_eq_zero_iff.1 none, rfl⟩

end Client

/-! ## Clients that take turns -/

/-- Clients, each of a run of its own, and the store that they share. -/
structure Shared (S : Type) where
  clients : String → Client
  store : S

namespace Shared

section Turns

variable {S : Type} (b : Backend S)

def turn (shared : Shared S) (runId : String) : Shared S where
  clients := Function.update shared.clients runId ((shared.clients runId).turn b shared.store).1
  store := ((shared.clients runId).turn b shared.store).2

/-- Clients take turns in the order of a schedule. -/
def interleave (schedule : List String) (shared : Shared S) : Shared S :=
  schedule.foldl (turn b) shared

variable {b} {shared : Shared S} {runId other : String}

theorem clients_turn_self : (shared.turn b runId).clients runId =
    ((shared.clients runId).turn b shared.store).1 :=
  Function.update_self ..

theorem clients_turn_of_ne (apart : other ≠ runId) :
    (shared.turn b runId).clients other = shared.clients other :=
  Function.update_of_ne apart ..

end Turns

variable {shared : Shared (Table RunSnapshot)} {runId : String}

/-- Clients that mind the run of their own, in a repository that keeps snapshots under the names of
their runs. -/
structure Orderly (shared : Shared (Table RunSnapshot)) : Prop where
  minds : ∀ runId, (shared.clients runId).MindsOwn runId
  named : Named shared.store

/-- What the client of a run will have been answered, and what its run will be, if the client goes
on alone. -/
def outlook (shared : Shared (Table RunSnapshot)) (runId : String) :
    List (Except RepositoryError Reply) × Option RunSnapshot :=
  (((shared.clients runId).goAlone memory shared.store).1,
    ((shared.clients runId).goAlone memory shared.store).2.get? runId)

theorem Orderly.turn (orderly : shared.Orderly) (runId : String) :
    (shared.turn memory runId).Orderly := by
  obtain ⟨minds, named, -⟩ := (orderly.minds runId).turn orderly.named
  refine ⟨fun other => ?_, named⟩
  by_cases same : other = runId
  · subst same
    rw [clients_turn_self]
    exact minds
  · rw [clients_turn_of_ne same]
    exact orderly.minds other

/-- A turn of any client changes no outlook. -/
theorem Orderly.outlook_turn (orderly : shared.Orderly) (next runId : String) :
    (shared.turn memory next).outlook runId = shared.outlook runId := by
  obtain ⟨-, named, others⟩ := (orderly.minds next).turn orderly.named
  by_cases same : runId = next
  · subst same
    have same := Client.goAlone_turn memory (shared.clients runId) shared.store
    rw [outlook, clients_turn_self]
    exact congrArg (fun left => (left.1, left.2.get? runId)) same
  · obtain ⟨replies, left⟩ := (orderly.minds runId).goAlone_congr named orderly.named
      (others runId same)
    rw [outlook, clients_turn_of_ne same]
    exact Prod.ext replies left

theorem Orderly.outlook_interleave (orderly : shared.Orderly) (schedule : List String)
    (runId : String) :
    (shared.interleave memory schedule).outlook runId = shared.outlook runId := by
  induction schedule generalizing shared with
  | nil => rfl
  | cons next rest ih => exact (ih (orderly.turn next)).trans (orderly.outlook_turn next runId)

/-- A client comes nearer to its end by each turn of its own. -/
theorem Orderly.doneIn_interleave (orderly : shared.Orderly) {schedule : List String} {n : Nat}
    (due : (shared.clients runId).DoneIn (schedule.count runId + n)) :
    ((shared.interleave memory schedule).clients runId).DoneIn n := by
  induction schedule generalizing shared with
  | nil => exact due.mono (by simp)
  | cons next rest ih =>
    apply ih (orderly.turn next)
    by_cases same : runId = next
    · subst same
      rw [List.count_cons_self] at due
      rw [clients_turn_self]
      exact (due.mono (by omega)).turn (orderly.minds runId)
    · rw [List.count_cons_of_ne (Ne.symm same)] at due
      rw [clients_turn_of_ne same]
      exact due

/-- Clients begin to share a repository, each with its operations before it. -/
def ofAgendas (agendas : String → List (Timestamp × Operation)) (runs : Table RunSnapshot) :
    Shared (Table RunSnapshot) where
  clients runId := { agenda := agendas runId }
  store := runs

/-- Runs that share a repository in memory do not interfere. Operations about different runs may
overlap in any order of their accesses to the store: a client that gets the turns for its operations
is answered, and its run becomes, what comes of the operations if they are performed one after the
other on a repository in which nothing else is done. With a clock that shows other times there, only
noted times differ. -/
theorem interleave_isolates {agendas : String → List (Timestamp × Operation)}
    {runs alone : Table RunSnapshot} {schedule : List String} {runId : String}
    {again : List (Timestamp × Operation)}
    (about : ∀ runId, ∀ entry ∈ agendas runId, entry.2.runId? = some runId)
    (named : Named runs) (named' : Named alone) (same : runs.get? runId = alone.get? runId)
    (turns : 4 * (agendas runId).length ≤ schedule.count runId)
    (operations : (agendas runId).map Prod.snd = again.map Prod.snd) :
    let left := (ofAgendas agendas runs).interleave memory schedule
    (left.clients runId).agenda = [] ∧ (left.clients runId).underway = none ∧
      (left.clients runId).replies = memory.replies (agendas runId) alone ∧
      left.store.get? runId = (memory.after (agendas runId) alone).get? runId ∧
      (left.clients runId).replies.map (Except.map Reply.untimed) =
        (memory.replies again alone).map (Except.map Reply.untimed) ∧
      (left.store.get? runId).map RunSnapshot.untimed =
        ((memory.after again alone).get? runId).map RunSnapshot.untimed := by
  intro left
  have orderly : (ofAgendas agendas runs).Orderly := ⟨fun r => ⟨about r, nofun⟩, named⟩
  have due : ((ofAgendas agendas runs).clients runId).DoneIn (schedule.count runId + 0) := turns
  obtain ⟨empty, idle⟩ := (orderly.doneIn_interleave due).done
  change (left.clients runId).agenda = [] at empty
  change (left.clients runId).underway = none at idle
  -- Of a client that is done the outlook is what it has come to.
  have reached : left.outlook runId = ((left.clients runId).replies, left.store.get? runId) := by
    rw [outlook, Client.goAlone, idle, empty]
    exact Prod.ext (List.append_nil _) rfl
  have expected := orderly.outlook_interleave schedule runId
  obtain ⟨replies, store⟩ := Client.replies_congr (about runId) named named' same
  have toLast : ((left.clients runId).replies, left.store.get? runId) =
      (memory.replies (agendas runId) alone, (memory.after (agendas runId) alone).get? runId) :=
    reached.symm.trans (expected.trans (Prod.ext replies store))
  obtain ⟨answered, becomes⟩ := Prod.mk.inj toLast
  obtain ⟨untimedReplies, untimedStore⟩ :=
    after_untimed operations (rfl : alone.map RunSnapshot.untimed = _)
  refine ⟨empty, idle, answered, becomes, ?_, ?_⟩
  · rw [answered, untimedReplies]
  · rw [becomes]
    exact untimed_get? untimedStore runId

/-- Two runs are added and go on in turns; the same operations on the first of them, alone and
later, are answered alike. -/
theorem interleave_isolates_twoRuns :
    let run (runId : String) := RunRecord.new runId "experiment" "1" "hash" ⟨5, 0⟩
    let agendas (runId : String) : List (Timestamp × Operation) :=
      if runId = "first" then
        [(⟨5, 0⟩, .createRun (run "first")), (⟨6, 0⟩, .startTask "first" "space" 0 "task"),
          (⟨7, 0⟩, .getTask "first" "space" 0 "task")]
      else if runId = "second" then
        [(⟨5, 0⟩, .createRun (run "second")), (⟨8, 0⟩, .setRunStatus "second" .failed none)]
      else []
    let again : List (Timestamp × Operation) :=
      [(⟨50, 0⟩, .createRun (run "first")), (⟨60, 0⟩, .startTask "first" "space" 0 "task"),
        (⟨70, 0⟩, .getTask "first" "space" 0 "task")]
    let left := (ofAgendas agendas ∅).interleave memory
      (List.replicate 12 ["first", "second"]).flatten
    (left.clients "first").agenda = [] ∧
      (left.clients "first").replies.map (Except.map Reply.untimed) =
        (memory.replies again ∅).map (Except.map Reply.untimed) ∧
      (left.store.get? "first").map RunSnapshot.untimed =
        ((memory.after again ∅).get? "first").map RunSnapshot.untimed := by
  intro run agendas again left
  have about : ∀ runId, ∀ entry ∈ agendas runId, entry.2.runId? = some runId := by
    intro runId entry mem
    simp only [agendas] at mem
    split at mem
    · next first =>
      subst first
      simp only [List.mem_cons, List.not_mem_nil, or_false] at mem
      obtain rfl | rfl | rfl := mem <;> rfl
    · split at mem
      · next second =>
        subst second
        simp only [List.mem_cons, List.not_mem_nil, or_false] at mem
        obtain rfl | rfl := mem <;> rfl
      · cases mem
  have turns : 4 * (agendas "first").length ≤
      (List.replicate 12 ["first", "second"]).flatten.count "first" := by
    decide
  have operations : (agendas "first").map Prod.snd = again.map Prod.snd := rfl
  obtain ⟨empty, -, -, -, replies, store⟩ :=
    interleave_isolates about named_empty named_empty rfl turns operations
  exact ⟨empty, replies, store⟩

end Shared

end Sweep
