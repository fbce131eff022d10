import Sweep.Proofs.Run.Visiting

/-!
# The way of a run through its spaces

Between its visits a run enters spaces, goes on in the one that is recorded, and leaves a space
when the next one is chosen. These are steps of their own, and together with the steps within the
visits they make up all that happens in a call. What the engine has to keep in order between calls
is kept by each of them: a space is completed only if all of its sets are, and of every space but
the one that the run is in either the space is completed or none of its sets.
-/

namespace Sweep

variable {S : Type}

/-- What is noted of a run, call after call. -/
inductive LogItem (S : Type) where
  | moment (m : Moment S)
  /-- The run was called when this was its record. -/
  | called (record : Option RunSnapshot)
  /-- The name of a space was recorded, as the run came to it; this is the store after that. -/
  | entered (space : String) (store : S)
  /-- The name of a space was recorded again, as a call went on in it. -/
  | returned (space : String) (store : S)
  /-- The next space is going to be chosen. -/
  | left (space : String)

def LogItem.moment? : LogItem S → Option (Moment S)
  | .moment m => some m
  | .entered _ store | .returned _ store => some (.wrote store)
  | _ => none

def momentsIn (log : List (LogItem S)) : List (Moment S) := log.filterMap LogItem.moment?

def Moment.mark? : Moment S → Option (TaskKey × TaskMark)
  | .marked e => some (e.key, e.mark)
  | _ => none

def marksIn (log : List (LogItem S)) : List (TaskKey × TaskMark) :=
  (momentsIn log).filterMap Moment.mark?

@[simp] theorem momentsIn_append (log log' : List (LogItem S)) :
    momentsIn (log ++ log') = momentsIn log ++ momentsIn log' := List.filterMap_append

@[simp] theorem momentsIn_map (ms : List (Moment S)) :
    momentsIn (ms.map .moment) = ms := by
  rw [momentsIn, List.filterMap_map]
  exact List.filterMap_some

@[simp] theorem marksIn_append (log log' : List (LogItem S)) :
    marksIn (log ++ log') = marksIn log ++ marksIn log' := by
  simp [marksIn]

@[simp] theorem marksIn_map (ms : List (Moment S)) :
    marksIn (ms.map .moment) = ms.filterMap Moment.mark? := by
  simp [marksIn]

/-- Where a run is in a call. -/
inductive Phase where
  /-- It has not come to a space yet. -/
  | opening
  /-- It has entered a space that is recorded as completed, from a visit before. -/
  | stale (space : String)
  | inside (space : String)
  /-- It has left a space and chooses the next one. -/
  | between (space : String)
deriving DecidableEq

/-- Where a run is, and what is seen of it. -/
structure Stage where
  phase : Phase
  sight : Sight

namespace Stage

variable (a : Stage)

abbrev ledger : Ledger := a.sight.ledger

end Stage

/-- From one stage to the next. -/
inductive Stride (u : Subject S) : Stage → LogItem S → Stage → Prop
  /-- A step within a visit, between visits or at the ends of a call. -/
  | step {p : Phase} {v w : Sight} {m : Moment S} : (∀ space, p ≠ .stale space) →
      Step u v m w → Stride u ⟨p, v⟩ (.moment m) ⟨p, w⟩
  /-- What is left of an earlier visit is forgotten. -/
  | forgot {space : String} {v : Sight} {store : S} {x : RunSnapshot} :
      u.recordIn store = some x → x.ledger = v.ledger.reset space →
      Stride u ⟨.stale space, v⟩ (.moment (.wrote store)) ⟨.inside space, v.withRecord x⟩
  /-- A space is entered at the start of a run or after another one was left. -/
  | entered {p : Phase} {space : String} {v : Sight} {store : S} {x : RunSnapshot} :
      (p = .opening ∧ v.ledger.control = none ∨ ∃ before, p = .between before ∧
        v.ledger.control = some before ∧ v.ledger.spaces before = some .completed) →
      (u.artifact.space? space).isSome → u.recordIn store = some x →
      x.ledger = v.ledger.enter space →
      Stride u ⟨p, v⟩ (.entered space store)
        ⟨if v.ledger.spaces space = some .completed then .stale space else .inside space, ⟨x, []⟩⟩
  /-- A call goes on in the space that is recorded. -/
  | returned {space : String} {v : Sight} {store : S} {x : RunSnapshot} :
      (v.ledger.control = some space ∨ v.ledger.control = none) →
      (u.artifact.space? space).isSome → u.recordIn store = some x →
      x.ledger = v.ledger.enter space →
      Stride u ⟨.opening, v⟩ (.returned space store) ⟨.inside space, ⟨x, []⟩⟩
  | left {space : String} {v : Sight} : v.ledger.spaces space = some .completed →
      Stride u ⟨.inside space, v⟩ (.left space) ⟨.between space, v⟩
  /-- The end is recorded, when a space was left for it or again. -/
  | arrived {p : Phase} {v : Sight} {store : S} {x : RunSnapshot} :
      (p = .opening ∧ (v.ledger.control = some endMark ∨ v.ledger.control = none) ∨
        ∃ before, p = .between before ∧ v.ledger.control = some before ∧
          v.ledger.spaces before = some .completed) →
      u.recordIn store = some x → x.ledger = v.ledger.enter endMark →
      Stride u ⟨p, v⟩ (.moment (.wrote store)) ⟨p, v.withRecord x⟩

/-- What is in order in the record of a run whenever a call may end. -/
structure Sound (a : Artifact) (l : Ledger) : Prop where
  own : l.hash = a.contentHash
  /-- The run is at the end or in a space that is declared. -/
  known : ∀ space, l.control = some space → space = endMark ∨ (a.space? space).isSome
  /-- A run that has not come to a space has completed none. -/
  untouched : l.control = none → ∀ space, l.spaces space ≠ some .completed
  /-- A space that the run is not in is completed, or none of its sets is. -/
  tidy : ∀ space, l.control ≠ some space → l.spaces space = some .completed ∨
    ∀ index, l.sets (space, index) ≠ some .completed
  full : ∀ id space, a.space? id = some space → l.spaces id = some .completed →
    ∀ index < space.parameters.length, l.sets (id, index) = some .completed

namespace Sound

variable {a : Artifact} {l l' : Ledger}

theorem blank : Sound a (.blank a.contentHash) where
  own := rfl
  known := nofun
  untouched := nofun
  tidy _ _ := .inr nofun
  full := nofun

/-- A move within a visit keeps the record in order. -/
theorem move {marks : List (TaskKey × TaskMark)} (sound : Sound a l) (h : Move a marks l l') :
    Sound a l' where
  own := h.hash_eq.trans sound.own
  known space inside := sound.known space (h.control_eq ▸ inside)
  untouched nowhere space completed := by
    rw [h.control_eq] at nowhere
    rcases h.of_spaces_completed completed with before | ⟨_, -, inside, -⟩
    · exact sound.untouched nowhere space before
    · simp [nowhere] at inside
  tidy space elsewhere := by
    rw [h.control_eq] at elsewhere
    obtain ⟨spaces, sets⟩ := h.apart elsewhere
    rw [spaces]
    simp only [sets]
    exact sound.tidy space elsewhere
  full id space found completed := by
    rcases h.of_spaces_completed completed with before | ⟨space', found', -, all⟩
    · intro index lt
      exact h.sets_completed (sound.full id space found before index lt)
    · rw [found] at found'
      cases found'
      exact all

/-- So does entering a space, or the end, if the space before is completed. -/
theorem enter {space : String} (sound : Sound a l)
    (known : space = endMark ∨ (a.space? space).isSome)
    (leaves : ∀ before, l.control = some before → before = space ∨
      l.spaces before = some .completed) : Sound a (l.enter space) where
  own := sound.own
  known := by
    rintro space' ⟨⟩
    exact known
  untouched := nofun
  tidy other apart := by
    by_cases inside : l.control = some other
    · rcases leaves other inside with rfl | completed
      · exact absurd rfl apart
      · exact .inl completed
    · exact sound.tidy other inside
  full := sound.full

/-- So does forgetting the space that the run is in. -/
theorem reset {space : String} (sound : Sound a l) (inside : l.control = some space) :
    Sound a (l.reset space) where
  own := sound.own
  known := sound.known
  untouched nowhere := by
    have nowhere : l.control = none := nowhere
    simp [inside] at nowhere
  tidy other apart := by
    have other_ne : other ≠ space := by
      rintro rfl
      exact apart inside
    simpa [Ledger.reset, Function.update_of_ne other_ne, other_ne] using sound.tidy other apart
  full id space' found completed index lt := by
    by_cases same : id = space
    · subst same
      simp [Ledger.reset] at completed
    · rw [Ledger.reset] at completed ⊢
      simp only [Function.update_of_ne same, same, if_false] at completed ⊢
      exact sound.full id space' found completed index lt

end Sound

/-- A run that is inside a space, also one recorded as completed, is recorded to be there. -/
def Stage.Placed (a : Stage) : Prop :=
  ∀ space, a.phase = .stale space ∨ a.phase = .inside space → a.ledger.control = some space

namespace Stride

variable {u : Subject S} {a b : Stage} {i : LogItem S}

theorem placed (h : Stride u a i b) (placed : a.Placed) : b.Placed := by
  intro space at_
  cases h with
  | step _ moves =>
    have before := placed space at_
    cases moves with
    | wrote _ move => exact move.control_eq.trans before
    | _ => exact before
  | forgot _ ledger =>
    rcases at_ with h | h <;> cases h
    have before := placed _ (.inl rfl)
    show (Sight.withRecord _ _).ledger.control = _
    rw [Sight.withRecord_ledger, ledger]
    exact before
  | entered _ _ _ ledger =>
    show Ledger.control (RunSnapshot.ledger _) = _
    rw [ledger]
    split at at_ <;> rcases at_ with h | h <;> cases h <;> rfl
  | returned _ _ _ ledger =>
    show Ledger.control (RunSnapshot.ledger _) = _
    rw [ledger]
    rcases at_ with h | h <;> cases h
    rfl
  | left => rcases at_ with h | h <;> cases h
  | arrived from_ =>
    rcases from_ with ⟨rfl, -⟩ | ⟨_, rfl, -⟩ <;> rcases at_ with h | h <;> cases h

theorem sound (h : Stride u a i b) (placed : a.Placed) (sound : Sound u.artifact a.ledger) :
    Sound u.artifact b.ledger := by
  cases h with
  | step _ moves =>
    cases moves with
    | wrote _ move => exact sound.move move
    | _ => exact sound
  | forgot _ ledger =>
    show Sound _ (Sight.withRecord _ _).ledger
    rw [Sight.withRecord_ledger, ledger]
    exact sound.reset (placed _ (.inl rfl))
  | entered from_ known _ ledger =>
    show Sound _ (RunSnapshot.ledger _)
    rw [ledger]
    refine sound.enter (.inr known) fun before at_ => ?_
    rcases from_ with ⟨-, nowhere⟩ | ⟨q, -, inside, completed⟩
    · simp [nowhere] at at_
    · cases inside.symm.trans at_
      exact .inr completed
  | returned from_ known _ ledger =>
    show Sound _ (RunSnapshot.ledger _)
    rw [ledger]
    refine sound.enter (.inr known) fun before at_ => .inl ?_
    rcases from_ with here | nowhere
    · exact Option.some.inj (at_.symm.trans here)
    · simp [nowhere] at at_
  | left => exact sound
  | arrived from_ _ ledger =>
    show Sound _ (Sight.withRecord _ _).ledger
    rw [Sight.withRecord_ledger, ledger]
    refine sound.enter (.inl rfl) fun before at_ => ?_
    rcases from_ with ⟨-, here | nowhere⟩ | ⟨q, -, inside, completed⟩
    · exact .inl (Option.some.inj (at_.symm.trans here))
    · simp [nowhere] at at_
    · cases inside.symm.trans at_
      exact .inr completed

/-- Along a trail of strides the record stays in order. -/
theorem sound_of_trail {log : List (LogItem S)} (h : Trail (Stride u) a log b) (placed : a.Placed)
    (start : Sound u.artifact a.ledger) : b.Placed ∧ Sound u.artifact b.ledger :=
  h.invariant (P := fun a => a.Placed ∧ Sound u.artifact a.ledger)
    (fun _ _ _ ⟨placed, sound⟩ stride => ⟨stride.placed placed, stride.sound placed sound⟩)
    ⟨placed, start⟩

end Stride

end Sweep
