import Mathlib.Logic.Function.Iterate
import Mathlib.Logic.Relation
import Sweep.Proofs.Compile.Validity
import Sweep.Proofs.Condition.RoundTrip
import Sweep.Proofs.Table

/-!
# What can be reached in a graph

The search through a graph looks at one node after the other. A node that has not been visited
before is visited, and the nodes that its transitions lead to are to be looked at, too. Every
transition makes its target be looked at once at most, however many loops there are, so the search
ends after at most one step more than there are transitions. What it has visited then are the nodes
to which a way leads from the start.

The graph of the order of the spaces is built always, as its chain goes through all spaces to the
end. A graph of transitions is built exactly if they are well formed: they enter one declared space,
lead from declared spaces to such spaces or to the end, under conditions that can be read, and leave
nothing out of reach that has to be reached.
-/

namespace Sweep

namespace ControlGraph

/-- One of the transitions leads from a node to another. -/
def Leads (ts : List Transition) (a b : String) : Prop := ∃ t ∈ ts, t.source = a ∧ t.target = b

/-- A way of transitions, which may have none, leads from a node to another. -/
abbrev Reaches (ts : List Transition) : String → String → Prop := Relation.ReflTransGen (Leads ts)

theorem Reaches.mono {ts us : List Transition} (sub : ts ⊆ us) {a b : String}
    (h : Reaches ts a b) : Reaches us a b :=
  h.lift id fun _ _ ⟨t, mem, ends⟩ => ⟨t, sub mem, ends⟩

/-- A search under way: the nodes to look at, and those visited, the latest first. -/
structure Search where
  queue : List String
  seen : List String

namespace Search

def start (g : ControlGraph) : Search := ⟨[g.start], []⟩

def step (g : ControlGraph) : Search → Search
  | ⟨[], seen⟩ => ⟨[], seen⟩
  | ⟨node :: queue, seen⟩ =>
    if node ∈ seen then ⟨queue, seen⟩
    else ⟨queue ++ (g.outgoing node).map (·.target), node :: seen⟩

end Search

variable {g : ControlGraph}

/-! ## The search ends -/

/-- The transitions from nodes that have not been visited. -/
def unfollowed (g : ControlGraph) (seen : List String) : List Transition :=
  g.transitions.filter fun t => t.source ∉ seen

theorem leaving_unfollowed {seen : List String} {node : String} (new : node ∉ seen) :
    leaving node (g.unfollowed seen) = g.outgoing node := by
  rw [leaving, unfollowed, outgoing, List.filter_filter]
  refine List.filter_congr fun t _ => ?_
  by_cases own : t.source = node
  · simp [own, new]
  · simp [own]

theorem notLeaving_unfollowed (seen : List String) (node : String) :
    notLeaving node (g.unfollowed seen) = g.unfollowed (node :: seen) := by
  rw [notLeaving, unfollowed, unfollowed, List.filter_filter]
  refine List.filter_congr fun t _ => ?_
  by_cases own : t.source = node
  · simp [own]
  · simp [own]

/-- A search ends after a step for each node to be looked at and each transition that has not been
followed, with the nodes of a visit. -/
theorem iterate_step (queue : List String) {ts : List Transition} {seen : List String}
    (rest : ts = g.unfollowed seen) :
    (Search.step g)^[queue.length + ts.length] ⟨queue, seen⟩ = ⟨[], visit queue ts seen⟩ := by
  induction queue, ts, seen using visit.induct with
  | case1 ts seen =>
    rw [visit]
    exact Function.iterate_fixed rfl _
  | case2 ts seen node queue known ih =>
    have known' : node ∈ seen := by simpa using known
    rw [visit, if_pos known, List.length_cons, Nat.add_right_comm, Function.iterate_succ_apply,
      Search.step, if_pos known', ih rest]
  | case3 ts seen node queue new ih =>
    have new' : node ∉ seen := by simpa using new
    have followed := leaving_unfollowed (g := g) new'
    rw [← rest] at followed
    have count : (node :: queue).length + ts.length =
        (queue ++ (leaving node ts).map (·.target)).length + (notLeaving node ts).length + 1 := by
      have parts := length_leaving_add_length_notLeaving node ts
      simp only [List.length_cons, List.length_append, List.length_map]
      omega
    rw [visit, if_neg new, count, Function.iterate_succ_apply, Search.step, if_neg new',
      ← followed]
    exact ih (rest ▸ notLeaving_unfollowed seen node)

/-! ## What it has visited then -/

/-- A search has met nodes only that are reached from the start, and it will look at all that
follows from what it has visited. -/
structure Search.Explores (g : ControlGraph) (s : Search) : Prop where
  reached : ∀ node, node ∈ s.queue ∨ node ∈ s.seen → Reaches g.transitions g.start node
  started : g.start ∈ s.queue ∨ g.start ∈ s.seen
  closed : ∀ a ∈ s.seen, ∀ b, Leads g.transitions a b → b ∈ s.queue ∨ b ∈ s.seen

namespace Search.Explores

theorem start (g : ControlGraph) : Explores g (.start g) := by
  refine ⟨fun node met => ?_, .inl (List.mem_singleton_self _), nofun⟩
  rcases met with mem | mem
  · rw [List.mem_singleton.1 mem]
  · cases mem

theorem mem_targets {a b : String} :
    b ∈ (g.outgoing a).map (·.target) ↔ Leads g.transitions a b := by
  simp [outgoing, Leads, and_assoc]

/-- What has been met stays to be looked at until it is visited. -/
theorem met_step {s : Search} {b : String} (met : b ∈ s.queue ∨ b ∈ s.seen) :
    b ∈ (s.step g).queue ∨ b ∈ (s.step g).seen := by
  obtain ⟨_ | ⟨node, queue⟩, seen⟩ := s
  · exact met
  · simp only [List.mem_cons] at met
    by_cases known : node ∈ seen
    · rw [Search.step, if_pos known]
      rcases met with (rfl | mem) | mem
      · exact .inr known
      · exact .inl mem
      · exact .inr mem
    · rw [Search.step, if_neg known]
      rcases met with (rfl | mem) | mem
      · exact .inr List.mem_cons_self
      · exact .inl (List.mem_append_left _ mem)
      · exact .inr (List.mem_cons_of_mem _ mem)

theorem step {s : Search} (h : Explores g s) : Explores g (s.step g) := by
  have started := met_step (g := g) h.started
  have closed {a b : String} (mem : a ∈ s.seen) (leads : Leads g.transitions a b) :=
    met_step (g := g) (h.closed a mem b leads)
  obtain ⟨_ | ⟨node, queue⟩, seen⟩ := s
  · exact h
  · have here := h.reached node (.inl List.mem_cons_self)
    by_cases known : node ∈ seen
    · rw [Search.step, if_pos known] at started closed ⊢
      exact ⟨fun b met => h.reached b (met.imp_left (List.mem_cons_of_mem _)), started,
        fun a mem b leads => closed mem leads⟩
    · rw [Search.step, if_neg known] at started closed ⊢
      refine ⟨fun b met => ?_, started, fun a mem b leads => ?_⟩
      · rw [List.mem_append, mem_targets, List.mem_cons] at met
        rcases met with (mem | leads) | (rfl | mem)
        · exact h.reached b (.inl (List.mem_cons_of_mem _ mem))
        · exact here.tail leads
        · exact here
        · exact h.reached b (.inr mem)
      · rcases List.mem_cons.1 mem with rfl | mem
        · exact .inl (List.mem_append_right _ (mem_targets.2 leads))
        · exact closed mem leads

theorem iterate {s : Search} (h : Explores g s) (count : Nat) :
    Explores g ((Search.step g)^[count] s) :=
  Function.Iterate.rec (Explores g) h (fun _ => step) count

/-- A search that has ended has visited all that is reached. -/
theorem mem_iff {seen : List String} (h : Explores g ⟨[], seen⟩) {node : String} :
    node ∈ seen ↔ Reaches g.transitions g.start node := by
  constructor
  · intro mem
    exact h.reached node (.inr mem)
  · intro way
    induction way with
    | refl => exact h.started.resolve_left List.not_mem_nil
    | tail _ leads ih => exact (h.closed _ ih _ leads).resolve_left List.not_mem_nil

end Search.Explores

/-- The search ends after at most one step more than there are transitions, with what can be
reached. -/
theorem search_ends (g : ControlGraph) : ∃ seen,
    (Search.step g)^[g.transitions.length + 1] (.start g) = ⟨[], seen⟩ ∧
      g.reachable = sortDistinct seen ∧
      ∀ node, node ∈ seen ↔ Reaches g.transitions g.start node := by
  have all : g.transitions = g.unfollowed [] := by
    rw [unfollowed, List.filter_eq_self.2]
    simp
  have ended := iterate_step [g.start] all
  rw [List.length_singleton, Nat.add_comm] at ended
  have explores := (Search.Explores.start g).iterate (g.transitions.length + 1)
  refine ⟨_, ended, rfl, fun node => ?_⟩
  rw [Search.start, ended] at explores
  exact explores.mem_iff

theorem mem_reachable_iff {node : String} :
    node ∈ g.reachable ↔ Reaches g.transitions g.start node := by
  obtain ⟨seen, -, reachable, reaches⟩ := g.search_ends
  rw [reachable, mem_sortDistinct, reaches]

/-! ## Well-formed transitions -/

variable {spaces : List String} {control : List Transition} {start : String}

/-- Transitions that are grounded at a space, from which there are ways to the end and to every
space. -/
structure WellFormed (spaces : List String) (control : List Transition) (start : String) : Prop
    extends Grounded spaces control start where
  ends : Reaches (inner control) start endMark
  covers : ∀ space ∈ spaces, Reaches (inner control) start space

theorem reachabilityErrors_eq_nil_iff {g : ControlGraph} :
    g.reachabilityErrors spaces = [] ↔ Reaches g.transitions g.start endMark ∧
      ∀ space ∈ spaces, Reaches g.transitions g.start space := by
  simp only [← mem_reachable_iff]
  rw [reachabilityErrors, List.append_eq_nil_iff, List.map_eq_nil_iff, List.filter_eq_nil_iff]
  simp

/-- A chain leads from its first space to the end and to every space. -/
theorem reaches_chainTransitions (first : String) (rest : List String) :
    Reaches (chainTransitions (first :: rest)) first endMark ∧
      ∀ space ∈ first :: rest, Reaches (chainTransitions (first :: rest)) first space := by
  induction rest generalizing first with
  | nil =>
    refine ⟨.single ⟨_, List.mem_singleton_self _, rfl, rfl⟩, fun space mem => ?_⟩
    rw [List.mem_singleton.1 mem]
  | cons next rest ih =>
    have step : Reaches (chainTransitions (first :: next :: rest)) first next :=
      .single ⟨_, List.mem_cons_self, rfl, rfl⟩
    have later {node : String} (way : Reaches (chainTransitions (next :: rest)) next node) :
        Reaches (chainTransitions (first :: next :: rest)) first node :=
      step.trans (way.mono (List.subset_cons_self _ _))
    obtain ⟨ends, covers⟩ := ih next
    refine ⟨later ends, fun space mem => ?_⟩
    rcases List.mem_cons.1 mem with rfl | mem
    · exact .refl
    · exact later (covers space mem)

theorem reachabilityErrors_sequential (some : spaces ≠ []) :
    (sequential spaces).reachabilityErrors spaces = [] := by
  obtain ⟨first, rest, rfl⟩ := List.exists_cons_of_ne_nil some
  exact reachabilityErrors_eq_nil_iff.2 (reaches_chainTransitions first rest)

/-! ## Building -/

/-- Only the transitions themselves matter to what is reached, and not how often they are given. -/
theorem reaches_distinct_iff {a b : String} :
    Reaches (distinct (inner control)) a b ↔ Reaches (inner control) a b :=
  ⟨fun way => way.mono fun _ mem => mem_distinct.1 mem,
    fun way => way.mono fun _ mem => mem_distinct.2 mem⟩

/-- A graph is built of transitions exactly if they are well formed; it starts at the space that
they enter, and has those that do not enter it, each once, in the order in which they are first
given. -/
theorem build_explicit_eq_ok_iff {control : Option (List Transition)} {g : ControlGraph}
    (some : spaces ≠ []) (given : control.getD [] ≠ []) :
    build spaces control = .ok g ↔
      WellFormed spaces ((control.getD []).map Transition.trimmed) g.start ∧
        g.transitions = distinct (inner ((control.getD []).map Transition.trimmed)) := by
  rw [build_eq_ok_iff, reachabilityErrors_eq_nil_iff]
  constructor
  · rintro ⟨-, -, described, ends, covers⟩
    obtain ⟨grounded, transitions⟩ := explicit_eq_ok_iff.1 (described given)
    simp only [transitions, reaches_distinct_iff] at ends covers
    exact ⟨⟨grounded, ends, covers⟩, transitions⟩
  · rintro ⟨⟨grounded, ends, covers⟩, transitions⟩
    simp only [transitions, reaches_distinct_iff]
    exact ⟨some, fun none => absurd none given,
      fun _ => explicit_eq_ok_iff.2 ⟨grounded, transitions⟩, ends, covers⟩

/-- Of an experiment that has spaces, the graph is built exactly if there are no transitions or they
are well formed, once white space around names and conditions and blank conditions are taken away.
Then it starts at the space that the transitions enter and has the others, each once, in the order
in which they are first given. Its search for what can be reached ends, whatever loops there are,
after at most one step more than there are transitions, and finds exactly what ways lead to. -/
theorem build_accepts_iff {e : Experiment} (some : e.spaces ≠ []) :
    let spaces := e.spaces.map (·.name)
    let control := (e.control.getD []).map Transition.trimmed
    ((∃ g, build spaces e.control = .ok g) ↔
        control = [] ∨ ∃ start, WellFormed spaces control start) ∧
      ∀ g, build spaces e.control = .ok g →
        (control ≠ [] → WellFormed spaces control g.start ∧
          FirstOccurrences (inner control) g.transitions) ∧
        (∀ node, node ∈ g.reachable ↔ Reaches g.transitions g.start node) ∧
        ∃ seen, (Search.step g)^[g.transitions.length + 1] (.start g) = ⟨[], seen⟩ ∧
          g.reachable = sortDistinct seen := by
  intro spaces control
  have some : spaces ≠ [] := mt List.map_eq_nil_iff.1 some
  have given : control ≠ [] ↔ e.control.getD [] ≠ [] := List.map_eq_nil_iff.not
  constructor
  · by_cases none : control = []
    · refine iff_of_true ⟨sequential spaces, build_eq_ok_iff.2 ⟨some, fun _ => rfl, ?_, ?_⟩⟩
        (.inl none)
      · exact fun other => absurd none (given.2 other)
      · exact reachabilityErrors_sequential some
    · constructor
      · rintro ⟨g, built⟩
        exact .inr ⟨g.start, ((build_explicit_eq_ok_iff some (given.1 none)).1 built).1⟩
      · rintro (none' | ⟨start, wellFormed⟩)
        · exact absurd none' none
        · exact ⟨⟨start, distinct (inner control)⟩,
            (build_explicit_eq_ok_iff some (given.1 none)).2 ⟨wellFormed, rfl⟩⟩
  · intro g built
    refine ⟨fun none => ?_, fun node => mem_reachable_iff, ?_⟩
    · obtain ⟨wellFormed, transitions⟩ :=
        (build_explicit_eq_ok_iff some (given.1 none)).1 built
      rw [transitions]
      exact ⟨wellFormed, firstOccurrences_distinct _⟩
    · obtain ⟨seen, ended, reachable, -⟩ := g.search_ends
      exact ⟨seen, ended, reachable⟩

/-- Two spaces in a loop, with a transition that is given twice, white space around names and a
condition, and a blank condition. -/
def looping : Experiment :=
  { name := "E"
    spaces := [{ name := "A", workflow := "W" }, { name := "B", workflow := "W" }]
    control := Option.some
      [⟨startMark, "A", none⟩, ⟨" A", "B ", none⟩, ⟨"A", "B", none⟩,
       ⟨"B", "A", Option.some " again == 'yes' "⟩, ⟨"B", endMark, Option.some "  "⟩] }

theorem exists_parse_again : ∃ condition, Condition.parse "again == 'yes'" = .ok condition := by
  let again : Condition.Identifier := ⟨'a', ['g', 'a', 'i', 'n'], by decide,
    List.all_eq_true.1 (by decide), by decide⟩
  let yes : Condition.Quoted := ⟨'\'', "yes", .inl rfl, by decide⟩
  let w : Condition.Wording := .compare (.variable again) .eq (.text yes)
  have written : w.write = "again == 'yes'" := by decide +kernel
  have read := Condition.parse_wording w (by decide +kernel)
  rw [written] at read
  exact ⟨_, read⟩

/-- The transitions of the loop without white space. -/
def loop : List Transition :=
  [⟨startMark, "A", none⟩, ⟨"A", "B", none⟩, ⟨"A", "B", none⟩,
   ⟨"B", "A", Option.some "again == 'yes'"⟩, ⟨"B", endMark, none⟩]

theorem trimmed_looping : (looping.control.getD []).map Transition.trimmed = loop := by
  decide +kernel

theorem wellFormed_loop : WellFormed ["A", "B"] loop "A" := by
  have first : Reaches (inner loop) "A" "B" := .single ⟨⟨"A", "B", none⟩, by decide, rfl, rfl⟩
  refine ⟨⟨⟨_, List.mem_cons_self, rfl⟩, by decide, by decide, ?_⟩, ?_, ?_⟩
  · show ∀ t ∈ [⟨"A", "B", none⟩, ⟨"A", "B", none⟩, ⟨"B", "A", Option.some "again == 'yes'"⟩,
      ⟨"B", endMark, none⟩], Transition.Proper ["A", "B"] t
    simp only [List.forall_mem_cons]
    refine ⟨⟨by decide, by decide, nofun⟩, ⟨by decide, by decide, nofun⟩,
      ⟨by decide, by decide, ?_⟩, ⟨by decide, by decide, nofun⟩, nofun⟩
    rintro _ ⟨⟩
    exact exists_parse_again
  · exact first.tail ⟨⟨"B", endMark, none⟩, by decide, rfl, rfl⟩
  · simp only [List.forall_mem_cons]
    exact ⟨.refl, first, nofun⟩

/-- The loop makes a graph, in which the repeated transition is kept once and the end is found. -/
theorem build_accepts_iff_looping : looping.spaces ≠ [] ∧ ∃ g,
    build (looping.spaces.map (·.name)) looping.control = .ok g ∧ g.start = "A" ∧
      FirstOccurrences (inner loop) g.transitions ∧ endMark ∈ g.reachable := by
  have some : looping.spaces ≠ [] := List.cons_ne_nil _ _
  obtain ⟨accepts, describes⟩ := build_accepts_iff some
  rw [trimmed_looping] at accepts describes
  obtain ⟨g, built⟩ := accepts.2 (.inr ⟨"A", wellFormed_loop⟩)
  obtain ⟨described, reaches, -⟩ := describes g built
  obtain ⟨wellFormed, transitions⟩ := described (List.cons_ne_nil _ _)
  have start : "A" = g.start := wellFormed.oneEntry ⟨startMark, "A", none⟩ List.mem_cons_self rfl
  refine ⟨some, g, built, start.symm, transitions, (reaches endMark).2 ?_⟩
  exact wellFormed.ends.mono fun t mem => (transitions.mem_iff t).2 mem

end ControlGraph

end Sweep
