import Mathlib.Algebra.Ring.Nat
import Sweep.Proofs.Table
import Sweep.Run.Timeline

/-!
# Spans are pairs of brackets

A timeline is one list for all keys, and an end is paired by a search in it for the open span that
was started last. Read key by key it is a text of brackets: a start opens one, an end closes one,
and the two are a pair if the events of the key between them are balanced. The spans are the pairs
of each key's text, whatever happens to other keys meanwhile.
-/

namespace Sweep

namespace Span

def opened (e : TimelineEvent) : Span := { key := e.key, start := e.time }

def closedBy (s : Span) (f : TimelineEvent) : Span :=
  { s with finish := some f.time, failed := decide (f.mark = .failed) }

/-- Whether an end of a key can close a span. -/
def awaits (s : Span) (key : TaskKey) : Bool := s.key == key && s.isOpen

variable {s : Span} {key : TaskKey}

theorem awaits_iff : s.awaits key = true ↔ s.key = key ∧ s.isOpen = true := by
  simp [awaits]

@[simp] theorem closedBy_key (s : Span) (f : TimelineEvent) : (s.closedBy f).key = s.key := rfl

@[simp] theorem closedBy_isOpen (s : Span) (f : TimelineEvent) :
    (s.closedBy f).isOpen = false := rfl

@[simp] theorem closedBy_awaits (s : Span) (f : TimelineEvent) (key : TaskKey) :
    (s.closedBy f).awaits key = false := by
  simp [awaits]

theorem opened_awaits (e : TimelineEvent) (key : TaskKey) :
    (opened e).awaits key = decide (e.key = key) :=
  Bool.and_true _

end Span

namespace Timeline

variable {key : TaskKey} {e f : TimelineEvent} {s : Span} {noted newer older : List Span}
  {t before later : Timeline}

/-! ## Texts of brackets -/

def ofKey (key : TaskKey) (t : Timeline) : Timeline := t.filter fun e => e.key == key

def starts (t : Timeline) : Timeline := t.filter fun e => e.mark == .started

/-- Texts of brackets in which each start has its end and each end its start. -/
inductive Balanced : Timeline → Prop
  | nil : Balanced []
  | pair {e f : TimelineEvent} {inner rest : Timeline} : e.mark = .started → f.mark ≠ .started →
      Balanced inner → Balanced rest → Balanced (e :: (inner ++ f :: rest))

/-- An event closes the bracket of a key that was opened just before the others. -/
def ClosedBy (key : TaskKey) (later : Timeline) (f : TimelineEvent) : Prop :=
  ∃ between after, later = between ++ f :: after ∧ f.key = key ∧ f.mark ≠ .started ∧
    Balanced (ofKey key between)

/-- Every bracket of a key that was opened is closed. -/
def NothingOpen (key : TaskKey) (t : Timeline) : Prop :=
  ∀ before e later, t = before ++ e :: later → e.mark = .started → e.key = key →
    ∃ f, ClosedBy key later f

/-- The event that closes the last but `depth` of the open brackets of a key. -/
def closing? (key : TaskKey) : Nat → Timeline → Option TimelineEvent
  | _, [] => none
  | depth, e :: later =>
    if e.key ≠ key then closing? key depth later
    else if e.mark = .started then closing? key (depth + 1) later
    else if depth = 0 then some e
    else closing? key (depth - 1) later

theorem closing?_of_ne (other : e.key ≠ key) (depth : Nat) :
    closing? key depth (e :: later) = closing? key depth later := by
  rw [closing?, if_pos other]

theorem closing?_start (same : e.key = key) (started : e.mark = .started) (depth : Nat) :
    closing? key depth (e :: later) = closing? key (depth + 1) later := by
  rw [closing?, if_neg (not_not.2 same), if_pos started]

theorem closing?_end (same : e.key = key) (ends : e.mark ≠ .started) (depth : Nat) :
    closing? key depth (e :: later) =
      if depth = 0 then some e else closing? key (depth - 1) later := by
  rw [closing?, if_neg (not_not.2 same), if_neg ends]

theorem ofKey_cons (same : e.key = key) : ofKey key (e :: t) = e :: ofKey key t :=
  List.filter_cons_of_pos (beq_iff_eq.2 same)

theorem ofKey_cons_of_ne (other : e.key ≠ key) : ofKey key (e :: t) = ofKey key t :=
  List.filter_cons_of_neg (by simpa using other)

theorem starts_cons (started : e.mark = .started) : starts (e :: t) = e :: starts t :=
  List.filter_cons_of_pos (beq_iff_eq.2 started)

theorem starts_cons_of_end (ends : e.mark ≠ .started) : starts (e :: t) = starts t :=
  List.filter_cons_of_neg (by simpa using ends)

/-- Texts that close so many brackets more than they open, and never more than that. -/
inductive Closes : Nat → Timeline → Prop
  | balanced {t : Timeline} : Balanced t → Closes 0 t
  | close {n : Nat} {f : TimelineEvent} {inner rest : Timeline} : Balanced inner →
      f.mark ≠ .started → Closes n rest → Closes (n + 1) (inner ++ f :: rest)

/-- A start before a text that closes one bracket more than it opens makes up for it. -/
theorem Closes.start {n : Nat} (started : e.mark = .started) (h : Closes (n + 1) t) :
    Closes n (e :: t) := by
  cases h with
  | close inner ends rest =>
    cases rest with
    | balanced rest => exact .balanced (.pair started ends inner rest)
    | close rest ends' others =>
      rw [← List.cons_append, ← List.cons_append, ← List.append_assoc]
      exact .close (.pair started ends inner rest) ends' others

theorem closing?_ofKey (depth : Nat) (t : Timeline) :
    closing? key depth (ofKey key t) = closing? key depth t := by
  induction t generalizing depth with
  | nil => rfl
  | cons e later ih =>
    by_cases same : e.key = key
    · rw [ofKey_cons same]
      by_cases started : e.mark = .started
      · rw [closing?_start same started, closing?_start same started, ih]
      · rw [closing?_end same started, closing?_end same started, ih]
    · rw [ofKey_cons_of_ne same, closing?_of_ne same, ih]

theorem ofKey_append (t later : Timeline) :
    ofKey key (t ++ later) = ofKey key t ++ ofKey key later :=
  List.filter_append t later

/-- Whatever is opened in a balanced text is closed in it. -/
theorem closing?_balanced_append (balanced : Balanced t) (ofOne : ∀ e ∈ t, e.key = key)
    (depth : Nat) : closing? key depth (t ++ later) = closing? key depth later := by
  induction balanced generalizing depth later with
  | nil => rfl
  | @pair e f inner rest started ends _ _ ih ihRest =>
    simp only [List.forall_mem_cons, List.forall_mem_append] at ofOne
    obtain ⟨ofE, ofInner, ofF, ofRest⟩ := ofOne
    calc closing? key depth (e :: (inner ++ f :: rest) ++ later)
        = closing? key (depth + 1) (inner ++ f :: (rest ++ later)) := by
          rw [List.cons_append, closing?_start ofE started, List.append_assoc, List.cons_append]
      _ = closing? key (depth + 1) (f :: (rest ++ later)) := ih ofInner _
      _ = closing? key depth (rest ++ later) := closing?_end ofF ends _
      _ = closing? key depth later := ihRest ofRest depth

/-- An event closes a bracket of a key, and the events of the key before it close so many brackets
more than they open. -/
def ClosesAfter (key : TaskKey) (n : Nat) (t : Timeline) (f : TimelineEvent) : Prop :=
  ∃ between after, t = between ++ f :: after ∧ f.key = key ∧ f.mark ≠ .started ∧
    Closes n (ofKey key between)

theorem ClosesAfter.cons {m n : Nat} (h : ClosesAfter key m t f)
    (more : ∀ between, Closes m (ofKey key between) → Closes n (ofKey key (e :: between))) :
    ClosesAfter key n (e :: t) f := by
  obtain ⟨between, after, rfl, same, ends, closes⟩ := h
  exact ⟨e :: between, after, rfl, same, ends, more between closes⟩

theorem closesAfter_of_closing? {depth : Nat} (found : closing? key depth t = some f) :
    ClosesAfter key depth t f := by
  induction t generalizing depth with
  | nil => cases found
  | cons e rest ih =>
    by_cases same : e.key = key
    · by_cases started : e.mark = .started
      · rw [closing?_start same started] at found
        exact (ih found).cons fun between closes => (ofKey_cons same).symm ▸ closes.start started
      · rw [closing?_end same started] at found
        cases depth with
        | zero =>
          cases found
          exact ⟨[], rest, rfl, same, started, .balanced .nil⟩
        | succ depth =>
          refine (ih found).cons fun between closes => ?_
          rw [ofKey_cons same]
          exact .close .nil started closes
    · rw [closing?_of_ne same] at found
      exact (ih found).cons fun between closes => (ofKey_cons_of_ne same).symm ▸ closes

theorem closing?_eq_some_iff : closing? key 0 t = some f ↔ ClosedBy key t f := by
  constructor
  · intro found
    obtain ⟨between, after, split, same, ends, closes⟩ := closesAfter_of_closing? found
    cases closes with
    | balanced balanced => exact ⟨between, after, split, same, ends, balanced⟩
  · rintro ⟨between, after, rfl, same, ends, balanced⟩
    have ofOne : ∀ e ∈ ofKey key between, e.key = key := fun e mem => by
      simpa using (List.mem_filter.1 mem).2
    rw [← closing?_ofKey, ofKey_append, ofKey_cons same, closing?_balanced_append balanced ofOne,
      closing?_end same ends, if_pos rfl]

/-! ## One event -/

theorem addEvent_start (started : e.mark = .started) :
    addEvent noted e = .opened e :: noted := by
  rw [addEvent, started]
  rfl

theorem addEvent_end (ends : e.mark ≠ .started) : addEvent noted e =
    (updateFirst? (·.awaits e.key) (·.closedBy e) noted).getD noted := by
  rw [addEvent]
  split
  · exact absurd ‹_› ends
  · rfl

theorem addEvent_end_nil (ends : e.mark ≠ .started) : addEvent [] e = [] :=
  addEvent_end ends

theorem addEvent_end_cons (ends : e.mark ≠ .started) : addEvent (s :: noted) e =
    if s.awaits e.key then s.closedBy e :: noted else s :: addEvent noted e := by
  rw [addEvent_end ends, addEvent_end ends, updateFirst?]
  split
  · rfl
  · cases updateFirst? (·.awaits e.key) (·.closedBy e) noted <;> rfl

/-- An end leaves whose the spans are and when they start. -/
theorem map_addEvent_end (ends : e.mark ≠ .started) :
    (addEvent noted e).map (fun s => (s.key, s.start)) = noted.map fun s => (s.key, s.start) := by
  induction noted with
  | nil => rw [addEvent_end_nil ends]
  | cons s noted ih =>
    rw [addEvent_end_cons ends]
    split
    · rfl
    · rw [List.map_cons, List.map_cons, ih]

theorem length_addEvent_end (ends : e.mark ≠ .started) :
    (addEvent noted e).length = noted.length := by
  have lengths := congrArg List.length (map_addEvent_end ends : (addEvent noted e).map _ = _)
  rwa [List.length_map, List.length_map] at lengths

/-- The spans of a key see the ends of this key only. -/
theorem filter_addEvent_end (ends : e.mark ≠ .started) :
    (addEvent noted e).filter (·.key == key) =
      if e.key = key then addEvent (noted.filter (·.key == key)) e
      else noted.filter (·.key == key) := by
  induction noted with
  | nil => simp [addEvent_end_nil ends]
  | cons s noted ih =>
    rw [addEvent_end_cons ends]
    by_cases waits : s.awaits e.key = true
    · obtain ⟨same, -⟩ := Span.awaits_iff.1 waits
      rw [if_pos waits, List.filter_cons, List.filter_cons, Span.closedBy_key, same]
      by_cases ofKey : e.key = key
      · simp [ofKey, addEvent_end_cons ends, ofKey ▸ waits]
      · simp [ofKey]
    · rw [if_neg waits, List.filter_cons, List.filter_cons, ih]
      by_cases ofKey : s.key = key
      · simp only [ofKey, beq_self_eq_true, if_true, addEvent_end_cons ends, if_neg waits]
        split <;> rfl
      · simp [ofKey]

/-! ## A span among the others -/

def openCount (key : TaskKey) (noted : List Span) : Nat := noted.countP (·.awaits key)

theorem openCount_cons : openCount key (s :: noted) =
    openCount key noted + if s.awaits key then 1 else 0 :=
  List.countP_cons

theorem openCount_addEvent_end (ends : e.mark ≠ .started) : openCount key (addEvent noted e) =
    if e.key = key then openCount key noted - 1 else openCount key noted := by
  induction noted with
  | nil => simp [addEvent_end_nil ends, openCount]
  | cons s noted ih =>
    rw [addEvent_end_cons ends]
    by_cases waits : s.awaits e.key = true
    · rw [if_pos waits, openCount_cons, openCount_cons, Span.closedBy_awaits]
      by_cases ofKey : e.key = key
      · simp [ofKey, ofKey ▸ waits]
      · have other : s.awaits key = false := by
          simp [Span.awaits, (Span.awaits_iff.1 waits).1, ofKey]
        simp [ofKey, other]
    · rw [if_neg waits, openCount_cons, openCount_cons, ih]
      by_cases ofKey : e.key = key
      · simp [ofKey, show s.awaits key = false by simpa [ofKey] using waits]
      · simp [ofKey]

/-- An end is looked for among the newer spans first. -/
theorem addEvent_end_append (ends : e.mark ≠ .started) : addEvent (newer ++ older) e =
    if openCount e.key newer = 0 then newer ++ addEvent older e
    else addEvent newer e ++ older := by
  induction newer with
  | nil => rfl
  | cons s newer ih =>
    rw [List.cons_append, addEvent_end_cons ends, addEvent_end_cons ends, ih, openCount_cons]
    by_cases waits : s.awaits e.key = true
    · simp [waits]
    · simp only [waits, Bool.false_eq_true, if_false, Nat.add_zero]
      split <;> rfl

theorem addEvent_of_nothing_open (ends : e.mark ≠ .started) (none : openCount e.key noted = 0) :
    addEvent noted e = noted := by
  have only : addEvent (noted ++ []) e = _ := addEvent_end_append ends
  rwa [List.append_nil, if_pos none, addEvent_end_nil ends, List.append_nil] at only

/-- What becomes of a span, of which others are newer, in the events that are still to come. -/
def settled (s : Span) (newer : List Span) (later : Timeline) : Span :=
  if s.isOpen then (closing? s.key (openCount s.key newer) later).elim s s.closedBy else s

/-- An event leaves a span at its place, and what is to become of it. -/
theorem addEvent_settles (e : TimelineEvent) (later : Timeline) (newer older : List Span)
    (s : Span) : ∃ newer' older' s', addEvent (newer ++ s :: older) e = newer' ++ s' :: older' ∧
      older'.length = older.length ∧ settled s' newer' later = settled s newer (e :: later) := by
  by_cases started : e.mark = .started
  · refine ⟨.opened e :: newer, older, s, addEvent_start started, rfl, ?_⟩
    rw [settled, settled, openCount_cons, Span.opened_awaits]
    by_cases same : e.key = s.key
    · simp [same, closing?_start same started]
    · simp [same, closing?_of_ne same]
  · rw [addEvent_end_append started, addEvent_end_cons started]
    by_cases none : openCount e.key newer = 0
    · rw [if_pos none]
      by_cases waits : s.awaits e.key = true
      · obtain ⟨same, isOpen⟩ := Span.awaits_iff.1 waits
        refine ⟨newer, older, s.closedBy e, by rw [if_pos waits], rfl, ?_⟩
        rw [settled, settled, closing?_end same.symm started, same, none]
        simp [isOpen]
      · refine ⟨newer, addEvent older e, s, by rw [if_neg waits], length_addEvent_end started, ?_⟩
        rw [settled, settled]
        by_cases isOpen : s.isOpen = true
        · have other : e.key ≠ s.key := fun same => waits (Span.awaits_iff.2 ⟨same.symm, isOpen⟩)
          rw [closing?_of_ne other]
        · rw [if_neg isOpen, if_neg isOpen]
    · rw [if_neg none]
      refine ⟨addEvent newer e, older, s, rfl, rfl, ?_⟩
      rw [settled, settled, openCount_addEvent_end started]
      by_cases same : e.key = s.key
      · rw [if_pos same, closing?_end same started, ← same, if_neg none]
      · rw [if_neg same, closing?_of_ne same]

theorem foldl_addEvent_settled (later : Timeline) (newer older : List Span) (s : Span) :
    ∃ newer' older', later.foldl addEvent (newer ++ s :: older) =
      newer' ++ settled s newer later :: older' ∧ older'.length = older.length := by
  induction later generalizing newer older s with
  | nil =>
    refine ⟨newer, older, ?_, rfl⟩
    rw [settled, closing?, Option.elim_none, ite_self]
    rfl
  | cons e later ih =>
    obtain ⟨newer', older', s', step, length, same⟩ := addEvent_settles e later newer older s
    rw [List.foldl_cons, step, ← same, ← length]
    exact ih newer' older' s'

/-! ## All spans -/

theorem foldl_addEvent_map (t : Timeline) (noted : List Span) :
    (t.foldl addEvent noted).reverse.map (fun s => (s.key, s.start)) =
      noted.reverse.map (fun s => (s.key, s.start)) ++ (starts t).map fun e => (e.key, e.time) := by
  induction t generalizing noted with
  | nil => exact (List.append_nil _).symm
  | cons e t ih =>
    rw [List.foldl_cons, ih]
    by_cases started : e.mark = .started
    · simp [addEvent_start started, starts_cons started, Span.opened]
    · rw [starts_cons_of_end started, List.map_reverse, List.map_reverse, map_addEvent_end started]

/-- There is one span for each start, in order. -/
theorem map_spans (t : Timeline) :
    t.spans.map (fun s => (s.key, s.start)) = (starts t).map fun e => (e.key, e.time) :=
  foldl_addEvent_map t []

theorem length_spans (t : Timeline) : t.spans.length = (starts t).length := by
  simpa using congrArg List.length (map_spans t)

/-- The spans of a key are those of its own events. -/
theorem spans_ofKey (key : TaskKey) (t : Timeline) :
    spans (ofKey key t) = t.spans.filter (·.key == key) := by
  have folded (t : Timeline) (noted : List Span) :
      (t.foldl addEvent noted).filter (·.key == key) =
        (ofKey key t).foldl addEvent (noted.filter (·.key == key)) := by
    induction t generalizing noted with
    | nil => rfl
    | cons e t ih =>
      rw [List.foldl_cons, ih]
      by_cases started : e.mark = .started
      · rw [addEvent_start started]
        by_cases same : e.key = key
        · rw [ofKey_cons same, List.foldl_cons, addEvent_start started,
            List.filter_cons_of_pos (by simpa [Span.opened] using same)]
        · rw [ofKey_cons_of_ne same, List.filter_cons_of_neg (by simpa [Span.opened] using same)]
      · rw [filter_addEvent_end started]
        by_cases same : e.key = key
        · rw [if_pos same, ofKey_cons same, List.foldl_cons]
        · rw [if_neg same, ofKey_cons_of_ne same]
  rw [spans, spans, List.filter_reverse, folded]
  rfl

/-- The span of a start, before what is still to come. -/
def spanOf (e : TimelineEvent) (later : Timeline) : Span :=
  (closing? e.key 0 later).elim (.opened e) (Span.opened e).closedBy

@[simp] theorem spanOf_key (e : TimelineEvent) (later : Timeline) :
    (spanOf e later).key = e.key := by
  rw [spanOf]
  cases closing? e.key 0 later <;> rfl

@[simp] theorem spanOf_start (e : TimelineEvent) (later : Timeline) :
    (spanOf e later).start = e.time := by
  rw [spanOf]
  cases closing? e.key 0 later <;> rfl

theorem spanOf_finish {time : Timestamp} : (spanOf e later).finish = some time ↔
    ∃ f, ClosedBy e.key later f ∧ f.time = time := by
  simp only [← closing?_eq_some_iff, spanOf]
  cases closing? e.key 0 later <;> simp [Span.opened, Span.closedBy]

theorem spanOf_isOpen : (spanOf e later).isOpen = false ↔ ∃ f, ClosedBy e.key later f := by
  simp only [← closing?_eq_some_iff, spanOf]
  cases closing? e.key 0 later <;> simp [Span.opened, Span.closedBy, Span.isOpen]

theorem spanOf_failed : (spanOf e later).failed = true ↔
    ∃ f, ClosedBy e.key later f ∧ f.mark = .failed := by
  simp only [← closing?_eq_some_iff, spanOf]
  cases closing? e.key 0 later <;> simp [Span.opened, Span.closedBy]

/-- The span of a start has the place of the start among the starts. -/
theorem spans_append_start (before : Timeline) (started : e.mark = .started) (later : Timeline) :
    (before ++ e :: later : Timeline).spans[(starts before).length]? = some (spanOf e later) := by
  obtain ⟨newer, older, folded, length⟩ :=
    foldl_addEvent_settled later [] (before.foldl addEvent []) (.opened e)
  have all : (before ++ e :: later : Timeline).foldl addEvent [] =
      newer ++ settled (.opened e) [] later :: older := by
    rw [List.foldl_append, List.foldl_cons, addEvent_start started]
    exact folded
  have place : (starts before).length = older.reverse.length := by
    rw [← length_spans, spans, List.length_reverse, List.length_reverse, length]
  rw [spans, all, List.reverse_append, List.reverse_cons, List.append_assoc, place,
    List.getElem?_append_right (Nat.le_refl _), Nat.sub_self]
  rfl

theorem exists_start_at {n : Nat} (inside : n < (starts t).length) :
    ∃ before e later, t = before ++ e :: later ∧ e.mark = .started ∧
      (starts before).length = n := by
  induction t generalizing n with
  | nil => cases inside
  | cons e t ih =>
    by_cases started : e.mark = .started
    · rw [starts_cons started] at inside
      cases n with
      | zero => exact ⟨[], e, t, rfl, started, rfl⟩
      | succ n =>
        obtain ⟨before, f, later, rfl, isStart, length⟩ := ih (Nat.lt_of_succ_lt_succ inside)
        refine ⟨e :: before, f, later, rfl, isStart, ?_⟩
        rw [starts_cons started, List.length_cons, length]
    · rw [starts_cons_of_end started] at inside
      obtain ⟨before, f, later, rfl, isStart, length⟩ := ih inside
      exact ⟨e :: before, f, later, rfl, isStart, by rw [starts_cons_of_end started, length]⟩

/-- Each span is that of a start. -/
theorem exists_of_mem_spans (mem : s ∈ t.spans) : ∃ before e later, t = before ++ e :: later ∧
    e.mark = .started ∧ s = spanOf e later := by
  obtain ⟨n, here⟩ := List.mem_iff_getElem?.1 mem
  obtain ⟨before, e, later, rfl, started, rfl⟩ :=
    exists_start_at (length_spans t ▸ (List.getElem?_eq_some_iff.1 here).1)
  exact ⟨before, e, later, rfl, started,
    Option.some.inj (here.symm.trans (spans_append_start before started later))⟩

theorem nothingOpen_iff : NothingOpen key t ↔ openCount key (t.foldl addEvent []) = 0 := by
  rw [openCount, List.countP_eq_zero]
  constructor
  · intro nothing s mem waits
    obtain ⟨before, e, later, split, started, rfl⟩ := exists_of_mem_spans (List.mem_reverse.2 mem)
    obtain ⟨same, isOpen⟩ := Span.awaits_iff.1 waits
    rw [spanOf_key] at same
    have closed := spanOf_isOpen.2 (same ▸ nothing before e later split started same)
    rw [closed] at isOpen
    cases isOpen
  · rintro none before e later rfl started same
    have mem := List.mem_of_getElem? (spans_append_start before started later)
    have closed := none _ (List.mem_reverse.1 mem)
    rw [Span.awaits_iff, spanOf_key, not_and, Bool.not_eq_true] at closed
    exact same ▸ spanOf_isOpen.1 (closed same)

/-- An end with nothing open may be left out. -/
theorem spans_of_nothingOpen (ends : f.mark ≠ .started) (nothing : NothingOpen f.key before)
    (later : Timeline) : (before ++ f :: later : Timeline).spans =
      (before ++ later : Timeline).spans := by
  have unchanged := addEvent_of_nothing_open ends (nothingOpen_iff.1 nothing)
  rw [spans, spans, List.foldl_append, List.foldl_cons, unchanged, List.foldl_append]

/-! ## The time spent in spaces -/

/-- The time that a span adds to what is spent in a space. -/
def durationIn? (space : String) (s : Span) : Option Nat :=
  if s.key.space = space then s.duration? else none

/-- The time spent in spaces with that of one more span. -/
def addDuration (totals : Table Nat) (s : Span) : Table Nat :=
  match s.duration? with
  | some d => totals.insert s.key.space ((totals.get? s.key.space).getD 0 + d)
  | none => totals

theorem spaceDurations_eq (t : Timeline) : t.spaceDurations = t.spans.foldl addDuration ∅ := rfl

theorem get?_addDuration (totals : Table Nat) (s : Span) (space : String) :
    (addDuration totals s).get? space =
      match durationIn? space s with
      | some d => some ((totals.get? space).getD 0 + d)
      | none => totals.get? space := by
  rw [addDuration, durationIn?]
  cases s.duration? with
  | none => rw [ite_self]
  | some d =>
    rw [Table.get?_insert]
    split
    · next here => rw [here]
    · rfl

/-- What is spent in a space is the sum over its closed spans, if there are any. -/
theorem get?_spaceDurations (t : Timeline) (space : String) : t.spaceDurations.get? space =
    if t.spans.filterMap (durationIn? space) = [] then none
    else some (t.spans.filterMap (durationIn? space)).sum := by
  have folded (noted : List Span) (totals : Table Nat) :
      (noted.foldl addDuration totals).get? space =
        if noted.filterMap (durationIn? space) = [] then totals.get? space
        else some ((totals.get? space).getD 0 + (noted.filterMap (durationIn? space)).sum) := by
    induction noted generalizing totals with
    | nil => rfl
    | cons s noted ih =>
      rw [List.foldl_cons, ih, get?_addDuration, List.filterMap_cons]
      cases durationIn? space s with
      | none => rfl
      | some d => by_cases last : noted.filterMap (durationIn? space) = [] <;>
          simp [last, Nat.add_assoc]
  rw [spaceDurations_eq, folded]
  simp [show (∅ : Table Nat) = Table.empty from rfl]

theorem isSome_durationIn? {space : String} : (durationIn? space s).isSome = true ↔
    s.key.space = space ∧ s.isOpen = false := by
  rw [durationIn?, Span.duration?, Span.isOpen]
  split
  · next here => cases s.finish <;> simp [here]
  · next other => simp [other]

theorem mem_keys_spaceDurations {space : String} : space ∈ t.spaceDurations.keys ↔
    ∃ s ∈ t.spans, s.key.space = space ∧ s.isOpen = false := by
  simp only [← isSome_durationIn?]
  rw [Table.mem_keys_iff, get?_spaceDurations]
  split
  · next none =>
    refine iff_of_false (by simp) ?_
    rintro ⟨s, mem, known⟩
    have missing := List.filterMap_eq_nil_iff.1 none s mem
    simp [missing] at known
  · next some =>
    refine iff_of_true rfl ?_
    obtain ⟨d, mem⟩ := List.exists_mem_of_ne_nil _ some
    obtain ⟨s, among, known⟩ := List.mem_filterMap.1 mem
    exact ⟨s, among, known ▸ rfl⟩

/-! ## The brackets of all keys -/

/-- The spans of a timeline are its starts in order, each closed by the event that closes its
bracket in the text of its own key. -/
theorem spans_bracketed (t : Timeline) :
    t.spans.map (fun s => (s.key, s.start)) = (starts t).map (fun e => (e.key, e.time)) ∧
    (∀ before e later, t = before ++ e :: later → e.mark = .started →
      ∃ s, t.spans[(starts before).length]? = some s ∧ s.key = e.key ∧ s.start = e.time ∧
        (s.isOpen = false ↔ ∃ f, ClosedBy e.key later f) ∧
        (∀ time, s.finish = some time ↔ ∃ f, ClosedBy e.key later f ∧ f.time = time) ∧
        (s.failed = true ↔ ∃ f, ClosedBy e.key later f ∧ f.mark = .failed)) ∧
    (∀ before f later, t = before ++ f :: later → f.mark ≠ .started →
      NothingOpen f.key before → t.spans = (before ++ later : Timeline).spans) ∧
    (∀ key, (ofKey key t).spans = t.spans.filter (·.key == key)) ∧
    ∀ space, space ∈ t.spaceDurations.keys ↔
      ∃ s ∈ t.spans, s.key.space = space ∧ s.isOpen = false := by
  refine ⟨map_spans t, ?_, ?_, fun key => spans_ofKey key t, fun _ => mem_keys_spaceDurations⟩
  · rintro before e later rfl started
    exact ⟨spanOf e later, spans_append_start before started later, spanOf_key e later,
      spanOf_start e later, spanOf_isOpen, fun _ => spanOf_finish, spanOf_failed⟩
  · rintro before f later rfl ends nothing
    exact spans_of_nothingOpen ends nothing later

def eventOf (task : String) (mark : TaskMark) (second : Int) : TimelineEvent :=
  ⟨⟨"S", 0, task⟩, mark, .ofSeconds second⟩

/-- Two tasks overlap, one of them is started again before it ends, and the last end comes when
nothing is open. -/
def overlapping : Timeline :=
  [eventOf "t" .started 0, eventOf "u" .started 1, eventOf "t" .started 2,
    eventOf "t" .completed 3, eventOf "u" .failed 4, eventOf "t" .failed 5,
    eventOf "u" .completed 6]

theorem spans_bracketed_overlapping :
    (∃ later, overlapping = [] ++ eventOf "t" .started 0 :: later ∧
      (eventOf "t" .started 0).mark = .started ∧ ∃ s, overlapping.spans[0]? = some s ∧
        s.finish = some (.ofSeconds 5) ∧ s.failed = true) ∧
    ∃ before, overlapping = before ++ eventOf "u" .completed 6 :: [] ∧
      (eventOf "u" .completed 6).mark ≠ .started ∧
      NothingOpen (eventOf "u" .completed 6).key before ∧
      overlapping.spans = (before ++ [] : Timeline).spans := by
  obtain ⟨-, opened, unmatched, -⟩ := spans_bracketed overlapping
  refine ⟨⟨_, rfl, rfl, ?_⟩, overlapping.dropLast, rfl, by decide, ?_⟩
  · obtain ⟨s, here, -, -, -, finish, failed⟩ := opened [] _ _ rfl rfl
    -- Between the start and its end the task is started again, and that start has its end.
    have balanced : Balanced [eventOf "t" .started 2, eventOf "t" .completed 3] :=
      .pair rfl (by decide) .nil .nil
    have closed : ClosedBy (eventOf "t" .started 0).key overlapping.tail
        (eventOf "t" .failed 5) :=
      ⟨[eventOf "u" .started 1, eventOf "t" .started 2, eventOf "t" .completed 3,
        eventOf "u" .failed 4], [eventOf "u" .completed 6], rfl, rfl, by decide, balanced⟩
    exact ⟨s, here, (finish _).2 ⟨_, closed, rfl⟩, failed.2 ⟨_, closed, rfl⟩⟩
  · have nothing : NothingOpen (eventOf "u" .completed 6).key overlapping.dropLast :=
      nothingOpen_iff.2 (by decide)
    exact ⟨nothing, unmatched _ _ _ rfl (by decide) nothing⟩

end Timeline

end Sweep
