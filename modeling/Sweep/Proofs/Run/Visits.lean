import Sweep.Proofs.Run.Journey
import Sweep.Proofs.Run.WholeCourse

/-!
# What becomes of each entry of a space

Between the entry of a space and the next choice that is made after it, any number of calls may end
and begin. The parameter sets of the space are all carried out in that time, with one exception: a
space that is completed from a visit before is forgotten only after the entry is recorded. If the
call is cut off between the two, the next one finds the space entered and completed, takes it for
visited, and chooses the next space at once, so that nothing is carried out for this entry.

The proof follows the entry that is not left yet through the strides and calls: the sets that are
recorded as completed are those that were carried out since the entry.
-/

namespace Sweep

variable {S : Type}

/-- The last part of a log that begins with the entry of a space, which has not been left since. -/
def OpenVisit (log : List (LogItem S)) (space : String) (mid : List (LogItem S)) : Prop :=
  ∃ before store, log = before ++ .entered space store :: mid ∧ .left space ∉ mid

/-- A part of a log from the entry of a space to the next choice after it. -/
def ClosedVisit (log : List (LogItem S)) (space : String) (mid : List (LogItem S)) : Prop :=
  ∃ before store after, log = before ++ .entered space store :: mid ++ .left space :: after ∧
    .left space ∉ mid

/-- The call that has entered a space was cut off before anything else was noted, and the next one
found the space completed, from a visit before. -/
def Lost (space : String) (mid : List (LogItem S)) : Prop :=
  ∃ x rest, mid = .called (some x) :: rest ∧ x.ledger.spaces space = some .completed

section Logs

variable {log mid : List (LogItem S)} {space : String} {i : LogItem S}

/-- One more item opens a visit or goes on with one. -/
theorem OpenVisit.of_concat (h : OpenVisit (log ++ [i]) space mid) :
    (mid = [] ∧ ∃ store, i = .entered space store) ∨
      ∃ mid', mid = mid' ++ [i] ∧ i ≠ .left space ∧ OpenVisit log space mid' := by
  obtain ⟨before, store, shape, open_⟩ := h
  rcases split_concat shape with ⟨rfl, rfl, -⟩ | ⟨mid', rfl, earlier⟩
  · exact .inl ⟨rfl, store, rfl⟩
  · rw [List.mem_append, not_or] at open_
    refine .inr ⟨mid', rfl, ?_, before, store, earlier, open_.1⟩
    rintro rfl
    exact open_.2 (List.mem_singleton_self _)

/-- One more item closes a visit only if the space is left by it. -/
theorem ClosedVisit.of_concat (h : ClosedVisit (log ++ [i]) space mid) :
    ClosedVisit log space mid ∨ i = .left space ∧ OpenVisit log space mid := by
  obtain ⟨before, store, after, shape, open_⟩ := h
  rcases split_concat shape with ⟨rfl, rfl, earlier⟩ | ⟨after', rfl, earlier⟩
  · exact .inr ⟨rfl, before, store, earlier, open_⟩
  · exact .inl ⟨before, store, after', earlier, open_⟩

theorem not_openVisit_nil : ¬OpenVisit ([] : List (LogItem S)) space mid := by
  rintro ⟨before, store, shape, -⟩
  simp at shape

theorem not_closedVisit_nil : ¬ClosedVisit ([] : List (LogItem S)) space mid := by
  rintro ⟨before, store, after, shape, -⟩
  simp at shape

/-- Whether a visit is lost is settled by the first item after the entry. -/
theorem Lost.of_concat (h : Lost space (mid ++ [i])) :
    Lost space mid ∨ mid = [] ∧ ∃ x, i = .called (some x) ∧
      x.ledger.spaces space = some .completed := by
  obtain ⟨x, rest, shape, completed⟩ := h
  cases mid with
  | nil => exact .inr ⟨rfl, x, (List.cons.inj shape).1, completed⟩
  | cons first mid => exact .inl ⟨x, mid, by rw [(List.cons.inj shape).1], completed⟩

theorem Lost.concat (h : Lost space mid) (i : LogItem S) : Lost space (mid ++ [i]) := by
  obtain ⟨x, rest, rfl, completed⟩ := h
  exact ⟨x, rest ++ [i], rfl, completed⟩

end Logs

/-- How an entry stands by the record, when its space has not been left since. -/
structure Waiting (a : Artifact) (l : Ledger) (space : String) (mid : List (LogItem S)) : Prop where
  inside : l.control = some space
  /-- If the entry is lost, the space is completed and nothing was carried out. -/
  lost : Lost space mid → l.spaces space = some .completed ∧ marksIn mid = []
  /-- Otherwise the completed sets were carried out, except while the space is not forgotten yet. -/
  carriedOut : ¬Lost space mid → ¬(mid = [] ∧ l.spaces space = some .completed) →
    ∀ d, a.space? space = some d → ∀ index, l.sets (space, index) = some .completed →
      marksOf (d.keys index) <:+: marksIn mid

/-- How an entry stands at a stage of a call. -/
structure Underway (a : Artifact) (b : Stage) (space : String) (mid : List (LogItem S)) : Prop where
  waiting : Waiting a b.ledger space mid
  phase : b.phase = .stale space ∧ mid = [] ∨ (b.phase = .opening ∨ b.phase = .inside space) ∧
    (mid = [] → b.ledger.spaces space ≠ some .completed)
  /-- What the call has marked was marked since the entry. -/
  marks : b.sight.marks <:+ marksIn mid

namespace Waiting

variable {a : Artifact} {l l' : Ledger} {space : String} {mid : List (LogItem S)}

/-- The next call finds an entry as it stands. If nothing was noted after the entry, it is known
then whether the entry is lost. -/
theorem called (h : Waiting a l space mid) {y : RunSnapshot} (ledger : y.ledger = l) :
    Waiting a l space (mid ++ [.called (some y)]) where
  inside := h.inside
  lost lost := by
    rw [marksIn_append]
    rcases lost.of_concat with before | ⟨rfl, x, same, completed⟩
    · exact ⟨(h.lost before).1, by rw [(h.lost before).2]; rfl⟩
    · cases same
      exact ⟨ledger ▸ completed, rfl⟩
  carriedOut found _ d known index completed := by
    rw [marksIn_append]
    refine (h.carriedOut (fun lost => found (lost.concat _)) ?_ d known index completed).trans
      (List.prefix_append _ _).isInfix
    rintro ⟨rfl, stale⟩
    exact found ⟨y, [], rfl, ledger ▸ stale⟩

/-- An entry stands as before when something is noted that is no call, if the space stays completed
and a set that becomes completed was carried out. -/
theorem concat (h : Waiting a l space mid) {i : LogItem S} (noted : ∀ x, i ≠ .called x)
    (inside : l'.control = some space)
    (kept : Lost space mid → l'.spaces space = some .completed ∧ marksIn [i] = [])
    (sets : ¬Lost space mid → ∀ d, a.space? space = some d → ∀ index,
      l'.sets (space, index) = some .completed →
        marksOf (d.keys index) <:+: marksIn mid ++ marksIn [i]) :
    Waiting a l' space (mid ++ [i]) where
  inside := inside
  lost lost := by
    rw [marksIn_append]
    rcases lost.of_concat with before | ⟨-, x, same, -⟩
    · rw [(h.lost before).2, (kept before).2]
      exact ⟨(kept before).1, rfl⟩
    · exact absurd same (noted _)
  carriedOut found _ d known index completed := by
    rw [marksIn_append]
    exact sets (fun lost => found (lost.concat i)) d known index completed

end Waiting

namespace Underway

variable {u : Subject S} {a b : Stage} {i : LogItem S} {space : String} {mid : List (LogItem S)}

/-- Once an old visit is forgotten, the completed sets were carried out since the entry. -/
theorem carriedOut (h : Underway u.artifact a space mid) (ready : a.phase ≠ .stale space)
    (found : ¬Lost space mid) {d : SpaceDefinition} (known : u.artifact.space? space = some d)
    {index : Nat} (completed : a.ledger.sets (space, index) = some .completed) :
    marksOf (d.keys index) <:+: marksIn mid := by
  have open_ := (h.phase.resolve_left fun stale => ready stale.1).2
  exact h.waiting.carriedOut found (fun stale => open_ stale.1 stale.2) d known index completed

/-- Where nothing is marked and no set becomes completed, an entry stands as before. -/
theorem silent (h : Underway u.artifact a space mid) (ready : a.phase ≠ .stale space)
    (noted : ∀ x, i ≠ .called x) (unmarked : marksIn [i] = [])
    (inside : b.ledger.control = some space)
    (spaces : a.ledger.spaces space = some .completed → b.ledger.spaces space = some .completed)
    (sets : ∀ index, b.ledger.sets (space, index) = some .completed →
      a.ledger.sets (space, index) = some .completed)
    (phase : b.phase = .opening ∨ b.phase = .inside space)
    (marks : b.sight.marks <:+ a.sight.marks) : Underway u.artifact b space (mid ++ [i]) where
  waiting := by
    refine h.waiting.concat noted inside
      (fun lost => ⟨spaces (h.waiting.lost lost).1, unmarked⟩) ?_
    intro found d known index completed
    rw [unmarked, List.append_nil]
    exact h.carriedOut ready found known (sets index completed)
  phase := .inr ⟨phase, by simp⟩
  marks := by
    rw [marksIn_append, unmarked, List.append_nil]
    exact marks.trans h.marks

/-- A step keeps to the visit: a set becomes completed only when it was carried out. -/
theorem step {p : Phase} {v w : Sight} {m : Moment S} (h : Underway u.artifact ⟨p, v⟩ space mid)
    (ready : p ≠ .stale space) (moves : Step u v m w) :
    Underway u.artifact ⟨p, w⟩ space (mid ++ [.moment m]) := by
  have phase := (h.phase.resolve_left fun stale => ready stale.1).1
  cases moves with
  | told | printed | asked | launched =>
    exact h.silent ready (fun _ h => nomatch h) rfl h.waiting.inside id (fun _ => id) phase
      (List.suffix_refl _)
  | wrote _ move =>
    refine ⟨h.waiting.concat (fun _ h => nomatch h) (move.control_eq.trans h.waiting.inside)
      (fun lost => ⟨move.spaces_completed (h.waiting.lost lost).1, rfl⟩) ?_,
      .inr ⟨phase, by simp⟩, by rw [marksIn_append]; exact (List.append_nil _).symm ▸ h.marks⟩
    intro found d known index completed
    refine List.IsInfix.trans ?_ (List.prefix_append _ _).isInfix
    rcases move.of_sets_completed completed with before | ⟨d', known', -, carried⟩
    · exact h.carriedOut ready found known before
    · cases known.symm.trans known'
      exact (carried.trans h.marks).isInfix
  | @marked e inside open_ =>
    have here : e.key.space = space := Option.some.inj (inside.symm.trans h.waiting.inside)
    refine ⟨h.waiting.concat (fun _ h => nomatch h) h.waiting.inside
      (fun lost => absurd (here ▸ (h.waiting.lost lost).1) open_) ?_, .inr ⟨phase, by simp⟩, ?_⟩
    · intro found d known index completed
      exact (h.carriedOut ready found known completed).trans (List.prefix_append _ _).isInfix
    · obtain ⟨earlier, same⟩ := h.marks
      exact ⟨earlier, by rw [marksIn_append, ← same, List.append_assoc]; rfl⟩

/-- Until its space is left, an entry is followed by every stride. -/
theorem stride (h : Underway u.artifact a space mid) (stride : Stride u a i b)
    (stays : i ≠ .left space) : Underway u.artifact b space (mid ++ [i]) := by
  cases stride with
  | step ready moves => exact h.step (ready space) moves
  | @forgot space' v _ x _ ledger =>
    obtain ⟨same, rfl⟩ : Phase.stale space' = .stale space ∧ mid = [] :=
      h.phase.resolve_right (by rintro ⟨h | h, -⟩ <;> cases h)
    cases same
    have sets (index : Nat) : (v.withRecord x).ledger.sets (space, index) = none := by
      simp [ledger, Ledger.reset]
    refine ⟨h.waiting.concat (by simp) ?_ ?_ ?_, .inr ⟨.inr rfl, by simp⟩, h.marks⟩
    · rw [show Stage.ledger ⟨_, v.withRecord x⟩ = x.ledger from rfl, ledger]
      exact h.waiting.inside
    · rintro ⟨_, _, shape, -⟩
      cases shape
    · intro _ d _ index completed
      simp [sets] at completed
  | entered from_ =>
    -- A space is entered after another one is left, or where the run is in none.
    rcases from_ with ⟨-, nowhere⟩ | ⟨before, rfl, -⟩
    · cases nowhere.symm.trans h.waiting.inside
    · rcases h.phase with ⟨stale, -⟩ | ⟨opening | inside, -⟩ <;> contradiction
  | @returned space' v _ x from_ _ _ ledger =>
    have here : space' = space := by
      rcases from_ with there | nowhere
      · exact Option.some.inj (there.symm.trans h.waiting.inside)
      · cases nowhere.symm.trans h.waiting.inside
    subst here
    refine h.silent (by simp) (by simp) rfl ?_ ?_ ?_ (.inr rfl)
      List.nil_suffix <;>
      rw [show Stage.ledger ⟨_, (⟨x, []⟩ : Sight)⟩ = x.ledger from rfl, ledger]
    · rfl
    · exact id
    · exact fun _ => id
  | left =>
    rcases h.phase with ⟨stale, -⟩ | ⟨opening | inside, -⟩
    · cases stale
    · cases opening
    · cases inside
      exact absurd rfl stays
  | @arrived p v _ x from_ _ ledger =>
    rcases from_ with ⟨rfl, atEnd⟩ | ⟨before, rfl, -⟩
    · have here : space = endMark := by
        rcases atEnd with there | nowhere
        · exact Option.some.inj (h.waiting.inside.symm.trans there)
        · cases nowhere.symm.trans h.waiting.inside
      subst here
      refine h.silent (by simp) (by simp) rfl ?_ ?_ ?_ (.inl rfl)
        (List.suffix_refl _) <;>
        rw [show Stage.ledger ⟨_, v.withRecord x⟩ = x.ledger from rfl, ledger]
      · rfl
      · exact id
      · exact fun _ => id
    · rcases h.phase with ⟨stale, -⟩ | ⟨opening | inside, -⟩ <;> contradiction

end Underway

/-- An entry that is made finds no set completed, unless it is to be forgotten first. -/
theorem underway_entered {u : Subject S} {p : Phase} {space : String} {v : Sight} {x : RunSnapshot}
    (sound : Sound u.artifact v.ledger)
    (from_ : p = .opening ∧ v.ledger.control = none ∨ ∃ before, p = .between before ∧
      v.ledger.control = some before ∧ v.ledger.spaces before = some .completed)
    (ledger : x.ledger = v.ledger.enter space) :
    Underway u.artifact ⟨if v.ledger.spaces space = some .completed then .stale space
      else .inside space, ⟨x, []⟩⟩ space ([] : List (LogItem S)) := by
  have spaces : x.ledger.spaces = v.ledger.spaces := by rw [ledger]; rfl
  have sets : x.ledger.sets = v.ledger.sets := by rw [ledger]; rfl
  refine ⟨⟨by rw [show Stage.ledger _ = x.ledger from rfl, ledger]; rfl, ?_, ?_⟩, ?_,
    List.nil_suffix⟩
  · rintro ⟨_, _, shape, -⟩
    cases shape
  · intro _ stale d _ index completed
    have open_ : v.ledger.spaces space ≠ some .completed := fun h => stale ⟨rfl, spaces ▸ h⟩
    have elsewhere : v.ledger.control ≠ some space := by
      intro inside
      rcases from_ with ⟨-, nowhere⟩ | ⟨before, -, there, done⟩
      · simp [nowhere] at inside
      · cases there.symm.trans inside
        exact open_ done
    rcases sound.tidy space elsewhere with done | none
    · exact absurd done open_
    · exact absurd (sets ▸ completed) (none index)
  · split
    · exact .inl ⟨rfl, rfl⟩
    · next open_ => exact .inr ⟨.inr rfl, fun _ => spaces ▸ open_⟩

/-! ## All entries of a log -/

/-- What was done for an entry by the time its space is left: unless it is lost, all tasks of each
set were carried out one after the other; otherwise nothing was. -/
def Fulfilled (a : Artifact) (space : String) (mid : List (LogItem S)) : Prop :=
  ∀ d, a.space? space = some d →
    (¬Lost space mid → ∀ index < d.parameters.length, marksOf (d.keys index) <:+: marksIn mid) ∧
    (Lost space mid → marksIn mid = [])

/-- Every entry of a log is followed: while its space is not left something holds of it, and after
that it is known what was done. -/
structure Followed (a : Artifact) (log : List (LogItem S))
    (Q : String → List (LogItem S) → Prop) : Prop where
  underway : ∀ {space mid}, OpenVisit log space mid → Q space mid
  fulfilled : ∀ {space mid}, ClosedVisit log space mid → Fulfilled a space mid

namespace Followed

variable {a : Artifact} {log : List (LogItem S)} {Q R : String → List (LogItem S) → Prop}

theorem nil : Followed a [] Q := ⟨fun h => absurd h not_openVisit_nil,
  fun h => absurd h not_closedVisit_nil⟩

theorem mono (h : Followed a log Q) (weaker : ∀ space mid, Q space mid → R space mid) :
    Followed a log R := ⟨fun open_ => weaker _ _ (h.underway open_), h.fulfilled⟩

theorem concat (h : Followed a log Q) {i : LogItem S}
    (enters : ∀ space store, i = .entered space store → R space [])
    (goesOn : ∀ space mid, Q space mid → i ≠ .left space → R space (mid ++ [i]))
    (leaves : ∀ space mid, i = .left space → Q space mid → Fulfilled a space mid) :
    Followed a (log ++ [i]) R where
  underway open_ := by
    rcases open_.of_concat with ⟨rfl, store, entry⟩ | ⟨mid, rfl, stays, before⟩
    · exact enters _ store entry
    · exact goesOn _ _ (h.underway before) stays
  fulfilled closed := by
    rcases closed.of_concat with before | ⟨left_, open_⟩
    · exact h.fulfilled before
    · exact leaves _ _ left_ (h.underway open_)

/-- A call begins with the entries as they stand by the record. -/
theorem called {x : Option RunSnapshot}
    (h : Followed a log fun space mid => ∃ y, x = some y ∧ Waiting a y.ledger space mid) :
    Followed a (log ++ [.called x]) fun space mid =>
      ∃ y, x = some y ∧ mid ≠ [] ∧ Waiting a y.ledger space mid := by
  refine h.concat (fun _ _ h => nomatch h) ?_ (fun _ _ h => nomatch h)
  rintro space mid ⟨y, rfl, waiting⟩ -
  exact ⟨y, rfl, by simp, waiting.called rfl⟩

/-- A stride keeps following the entries. When a space is left all of its sets are completed, so
they were carried out. -/
theorem stride {u : Subject S} {b b' : Stage} {i : LogItem S}
    (h : Followed u.artifact log (Underway u.artifact b)) (sound : Sound u.artifact b.ledger)
    (stride : Stride u b i b') : Followed u.artifact (log ++ [i]) (Underway u.artifact b') := by
  refine h.concat ?_ (fun _ _ underway => underway.stride stride) ?_
  · rintro space store rfl
    cases stride with
    | entered from_ _ _ ledger => exact underway_entered sound from_ ledger
  · rintro space mid rfl underway d known
    cases stride with
    | left completed =>
      refine ⟨fun found index lt => ?_, fun lost => (underway.waiting.lost lost).2⟩
      exact underway.carriedOut (fun h => nomatch h) found known
        (sound.full space d known completed index lt)

end Followed

/-- Between an entry of a space and the next choice after it, whatever calls end and begin in that
time, all sets of the space are carried out, unless the entry is lost; then nothing is. -/
theorem Journey.closedVisit_fulfilled {u : Subject S} {kept : S → Prop}
    (valid : u.artifact.validate = .ok ()) {log : List (LogItem S)} {x : Option RunSnapshot}
    (journey : Journey u kept log x)
    {space : SpaceDefinition} (known : u.artifact.space? space.spaceId = some space)
    {mid : List (LogItem S)} (visit : ClosedVisit log space.spaceId mid) :
    (¬Lost space.spaceId mid →
      ∀ index < space.parameters.length, marksOf (space.keys index) <:+: marksIn mid) ∧
    (Lost space.spaceId mid → marksIn mid = []) := by
  have followed : (∀ y, x = some y → Sound u.artifact y.ledger) ∧
      Followed u.artifact log fun space mid =>
        ∃ y, x = some y ∧ Waiting u.artifact y.ledger space mid := by
    refine journey.preserves valid
      (P := fun log x => (∀ y, x = some y → Sound u.artifact y.ledger) ∧
        Followed u.artifact log fun space mid =>
          ∃ y, x = some y ∧ Waiting u.artifact y.ledger space mid)
      (Q := fun log b => (b.Placed ∧ Sound u.artifact b.ledger) ∧
        Followed u.artifact log (Underway u.artifact b)) ?_ ?_ ?_ ?_ ?_
    · exact ⟨fun _ h => (nomatch h), .nil⟩
    · rintro log x ⟨sound, followed⟩
      exact ⟨sound, followed.called.mono fun _ _ ⟨y, same, _, waiting⟩ => ⟨y, same, waiting⟩⟩
    · rintro log x first y ⟨sound, followed⟩ opening
      have called := followed.called
      refine ⟨⟨placed_opening y, opening.sound sound⟩, ?_⟩
      cases opening with
      | recorded =>
        refine called.mono ?_
        rintro space mid ⟨_, ⟨⟩, begun, waiting⟩
        exact ⟨waiting, .inr ⟨.inl rfl, fun none => absurd none begun⟩, List.nil_suffix⟩
      | registered =>
        rw [List.append_cons]
        refine called.concat (fun _ _ h => nomatch h) ?_ ?_
        · rintro space mid ⟨_, ⟨⟩, -⟩
        · rintro space mid - ⟨_, ⟨⟩, -⟩
    · rintro log b i b' ⟨⟨placed, sound⟩, followed⟩ stride
      exact ⟨⟨stride.placed placed, stride.sound placed sound⟩, followed.stride sound stride⟩
    · rintro log b ⟨⟨-, sound⟩, followed⟩
      refine ⟨?_, followed.mono fun _ _ underway => ⟨_, rfl, underway.waiting⟩⟩
      rintro _ ⟨⟩
      exact sound
  exact followed.2.fulfilled visit space known

/-! ## Examples -/

def LogItem.enters (space : String) : LogItem S → Bool
  | .entered space' _ => space' == space
  | _ => false

def LogItem.leaves (space : String) : LogItem S → Bool
  | .left space' => space' == space
  | _ => false

/-- From an entry on, the visit is closed where the space is left first. -/
theorem exists_closedVisit (before : List (LogItem S)) {rest : List (LogItem S)} {space : String}
    {i : LogItem S}
    (entry : i.enters space) (leaves : rest.any (·.leaves space)) :
    ∃ mid after, rest = mid ++ .left space :: after ∧
      ClosedVisit (before ++ i :: rest) space mid := by
  obtain ⟨store, rfl⟩ : ∃ store, i = .entered space store := by
    cases i <;> simp_all [LogItem.enters]
  obtain ⟨j, mem, is⟩ := List.any_eq_true.1 leaves
  obtain rfl : j = .left space := by
    cases j <;> simp_all [LogItem.leaves]
  obtain ⟨mid, after, rfl, new⟩ := List.eq_append_cons_of_mem mem
  exact ⟨mid, after, rfl, before, store, after, by simp, new⟩

open Conduct in
/-- Both sets of a space are carried out before it is left. -/
theorem Journey.closedVisit_fulfilled_twoSets : ∃ log x mid,
    Journey twoSets.subject (fun _ => True) log x ∧ ClosedVisit log "s" mid ∧ ¬Lost "s" mid ∧
      ∀ index < 2, marksOf [⟨"s", index, "W:t"⟩] <:+: marksIn mid := by
  have finds : twoSets.Finds (fun _ => True) onEmptyTable none :=
    ⟨trivial, rfl, fun _ h => nomatch h⟩
  have journey := Journey.start.whole twoSets .run 2 onEmptyTable rfl
    (Host.inMemory_reliable _ _ _) finds
  have noted : (match (twoSets.callLog .run 2 onEmptyTable).drop 2 with
      | i :: rest => i.enters "s" && rest.any (·.leaves "s") &&
        (rest.head?.bind LogItem.moment?).isSome
      | [] => false) = true := by
    decide +kernel
  have whole := (List.take_append_drop 2 (twoSets.callLog .run 2 onEmptyTable)).symm
  cases split : (twoSets.callLog .run 2 onEmptyTable).drop 2 with
  | nil => simp [split] at noted
  | cons i rest =>
    simp only [split, Bool.and_eq_true] at noted
    obtain ⟨⟨entry, leaves⟩, begins⟩ := noted
    obtain ⟨mid, after, shape, visit⟩ := exists_closedVisit
      (.called none :: (twoSets.callLog .run 2 onEmptyTable).take 2) entry leaves
    rw [split] at whole
    rw [List.cons_append, ← whole] at visit
    have found : ¬Lost "s" mid := by
      rintro ⟨y, more, rfl, -⟩
      simp [shape, LogItem.moment?] at begins
    let space : SpaceDefinition := { spaceId := "s", tasksOrder := ["W:t"], parameters := [∅, ∅] }
    have known : twoSets.artifact.space? space.spaceId = some space := rfl
    exact ⟨_, _, mid, journey, visit, found,
      (journey.closedVisit_fulfilled rfl known visit).1 found⟩

namespace Conduct

/-- Two spaces that lead to each other. -/
def looping : Conduct (Table RunSnapshot) where
  host := .inMemory (fun _ => .ok ⟨.exited 0, .empty, .empty⟩) fun _ => false
  artifact :=
    { experiment := "e"
      version := artifactVersion
      tasks := [[{ taskId := "W:t", workflow := "W", implementation := "./t.sh" }]]
      spaces :=
        [{ spaceId := "A", tasksOrder := ["W:t"], parameters := [∅] },
         { spaceId := "B", tasksOrder := ["W:t"], parameters := [∅] }]
      control := ⟨"A", [⟨"A", "B", none⟩, ⟨"B", "A", none⟩, ⟨"B", endMark, none⟩]⟩ }
  options := {}
  runId := "r"

/-- What goes on from the entry of a space is computed on its store. -/
def lostFrom : LogItem (Table RunSnapshot) → Bool
  | .entered space store =>
    let again := looping.driveLog 1 true { store, answers := .scripted [], readings := 1 }
    space == "A" && again.any (·.leaves "A") && (marksIn again).isEmpty &&
      (store.get? "r").any fun y => y.run.runId == "r" && y.run.status != .completed
  | _ => false

/-- A run that is cut off right after it has entered a space again chooses the next space without
carrying the set of this space out. -/
theorem closedVisit_lost : ∃ log x mid space,
    looping.artifact.validate = .ok () ∧ Journey looping.subject (fun _ => True) log x ∧
      looping.artifact.space? "A" = some space ∧ ClosedVisit log "A" mid ∧
      marksIn mid = [] ∧
      ¬∀ index < space.parameters.length, marksOf (space.keys index) <:+: marksIn mid := by
  have reliable : looping.host.Reliable looping.runId fun _ => True := Host.inMemory_reliable _ _ _
  have valid : looping.artifact.validate = .ok () := by rfl
  have empty : looping.Finds (fun _ => True) onEmptyTable none :=
    ⟨trivial, rfl, fun _ h => nomatch h⟩
  have noted : ((looping.callLog .run 3 onEmptyTable).drop 40).head?.any lostFrom := by
    decide +kernel
  have cut := Journey.start.call looping .run 3 onEmptyTable 41 rfl reliable empty
  cases split : (looping.callLog .run 3 onEmptyTable).drop 40 with
  | nil => simp [split] at noted
  | cons i rest =>
    have until_ : (looping.callLog .run 3 onEmptyTable).take 41 =
        (looping.callLog .run 3 onEmptyTable).take 40 ++ [i] := by
      rw [show 41 = 40 + 1 from rfl, List.take_add, split]
      rfl
    have entry : lostFrom i := by simpa [split] using noted
    obtain ⟨store, rfl⟩ : ∃ store, i = .entered "A" store := by
      cases i <;> simp_all [lostFrom]
    simp only [lostFrom, beq_self_eq_true, Bool.true_and, Bool.and_eq_true] at entry
    obtain ⟨⟨leaves, silent⟩, known⟩ := entry
    cases got : store.get? "r" with
    | none => simp [got] at known
    | some y =>
      obtain ⟨named, open_⟩ : y.run.runId = "r" ∧ y.run.status ≠ .completed := by
        simpa [got] using known
      have recorded : looping.subject.recordAfter none
          ((looping.callLog .run 3 onEmptyTable).take 41) = some y := by
        rw [until_, Subject.recordAfter_append]
        exact got
      rw [recorded, until_] at cut
      let s : Session (Table RunSnapshot) := { store, answers := .scripted [] }
      have finds : looping.Finds (fun _ => True) s (some y) :=
        ⟨trivial, congrArg Except.ok got, fun _ h => Option.some.inj h ▸ named⟩
      have own : y.ledger.hash = looping.artifact.contentHash := (cut.sound valid y rfl).own
      have again := callLog_recorded .run 1 finds own open_
      have enters : LogItem.enters "A" (.entered "A" store : LogItem (Table RunSnapshot)) := by
        simp [LogItem.enters]
      have later : (.called (some y) :: looping.callLog .run 1 s).any (·.leaves "A") := by
        rw [again]
        simpa [LogItem.leaves] using leaves
      obtain ⟨mid, after, shape, visit⟩ := exists_closedVisit
        (.called none :: (looping.callLog .run 3 onEmptyTable).take 40) enters later
      have nothing : marksIn mid = [] := by
        have all : marksIn (.called (some y) :: looping.callLog .run 1 s) = [] := by
          rw [again]
          exact List.isEmpty_iff.1 silent
        rw [shape, marksIn_append] at all
        exact (List.append_eq_nil_iff.1 all).1
      refine ⟨_, _, mid, _, valid, cut.whole looping .run 1 s rfl reliable finds, rfl,
        by simpa using visit, nothing, fun carried => ?_⟩
      have missing := carried 0 (by decide)
      rw [nothing] at missing
      cases List.infix_nil.1 missing

end Conduct

end Sweep
