import Mathlib.Algebra.BigOperators.Group.List.Basic
import Mathlib.Data.Int.Order.Basic
import Mathlib.Order.Compare
import Mathlib.Tactic.Ring
import Sweep.Compile.ParameterSet
import Sweep.Proofs.Lists
import Sweep.Proofs.Table

/-!
# The parameter sets of a space

Every set that there is so far is extended by every value of the next parameter. So the sets are
counted as in a number system of mixed radix, whose digits are the places in the domains and in
which the last parameter is the lowest digit: the place of a set tells which value it takes from
each domain, and every choice of places is made by exactly one set. There are no sets if two
parameters share a name or a domain has no values; the only domains without values are empty lists
and ranges that cannot be laid out.
-/

namespace Sweep

/-! ## The order of numbers -/

namespace Binary64

variable {x y : Binary64}

theorem isNaN_of_isFinite (finite : x.isFinite = true) : x.isNaN = false := by
  simp only [isFinite, isNaN, decide_eq_true_eq, decide_eq_false_iff_not] at *
  omega

theorem isNaN_of_lt (less : x.lt y = true) : x.isNaN = false := by
  by_contra nan
  simp [lt, compare?, nan] at less

theorem lt_iff_key (hx : x.isNaN = false) (hy : y.isNaN = false) :
    x.lt y = true ↔ x.key < y.key := by
  simp [lt, compare?, hx, hy, compare_lt_iff_lt]

theorem le_iff_key (hx : x.isNaN = false) (hy : y.isNaN = false) :
    x.le y = true ↔ x.key ≤ y.key := by
  simp [le, compare?, hx, hy, compare_lt_iff_lt, le_iff_lt_or_eq]

theorem lt_eq_false_iff (hx : x.isNaN = false) (hy : y.isNaN = false) :
    x.lt y = false ↔ y.le x = true := by
  rw [← Bool.not_eq_true, lt_iff_key hx hy, le_iff_key hy hx, not_lt]

theorem le_eq_false_iff (hx : x.isNaN = false) (hy : y.isNaN = false) :
    x.le y = false ↔ y.lt x = true := by
  rw [← Bool.not_eq_true, le_iff_key hx hy, lt_iff_key hy hx, not_le]

theorem isFinite_two_pow : (ofInt (1 <<< 63 : Nat)).isFinite = true := by decide +kernel

theorem isFinite_of_abs_lt (less : x.abs.lt (ofInt (1 <<< 63 : Nat)) = true) :
    x.isFinite = true := by
  have known : x.abs.isNaN = false := isNaN_of_lt less
  have bound := isFinite_two_pow
  have positive : (ofInt (1 <<< 63 : Nat)).negative = false := rfl
  rw [lt_iff_key known (isNaN_of_isFinite bound)] at less
  simp only [key, abs, positive, isFinite, decide_eq_true_eq, Bool.false_eq_true, if_false] at *
  omega

end Binary64

/-! ## The values of domains -/

namespace RangeSpec

/-- The number of steps that stay within a range. -/
def steps (r : RangeSpec) : Binary64 := RangeArithmetic.steps r.min r.max r.step

/-- The values of a range can be laid out. -/
structure Valid (r : RangeSpec) : Prop where
  finite : r.min.isFinite ∧ r.max.isFinite ∧ r.step.isFinite
  upward : Binary64.zero.lt r.step
  ordered : r.min.le r.max
  few : r.steps.isFinite ∧ r.steps.lt (.ofInt maxRangeValues)
  /-- Rounding may carry a value out of the numbers that there are. -/
  represented : ∀ i ≤ r.steps.floorInt.toNat, (RangeArithmetic.value r.min r.step i).isFinite

variable {r : RangeSpec}

theorem points_of_valid (valid : r.Valid) :
    r.points = .ok (RangeArithmetic.values r.min r.step r.steps.floorInt.toNat) := by
  obtain ⟨⟨min, max, step⟩, upward, ordered, ⟨finite, few⟩, -⟩ := valid
  have nan {x : Binary64} (h : x.isFinite = true) := Binary64.isNaN_of_isFinite h
  rw [← Binary64.le_eq_false_iff (nan step) rfl] at upward
  rw [← Binary64.lt_eq_false_iff (nan max) (nan min)] at ordered
  rw [← Binary64.le_eq_false_iff (by decide +kernel) (nan finite)] at few
  have few : (Binary64.ofInt maxRangeValues).le
      (RangeArithmetic.steps r.min r.max r.step) = false := few
  have finite : (RangeArithmetic.steps r.min r.max r.step).isFinite = true := finite
  simp only [points, min, max, step, upward, ordered, finite, few]
  rfl

theorem finite_of_rangeValue {integral : Bool} {x : Binary64} {value : Json}
    (made : rangeValue integral x = .ok value) : x.isFinite = true := by
  unfold rangeValue at made
  split at made
  · next whole =>
    exact Binary64.isFinite_of_abs_lt (Bool.and_eq_true_iff.1 whole).2
  · split at made
    · assumption
    · cases made

theorem exists_rangeValue (integral : Bool) {x : Binary64} (finite : x.isFinite = true) :
    ∃ value, rangeValue integral x = .ok value := by
  unfold rangeValue
  split
  · exact ⟨_, rfl⟩
  · exact ⟨_, rfl⟩

/-- A range that can be laid out has a value for each of its steps and one to start from. -/
theorem values_of_valid (valid : r.Valid) :
    ∃ values, r.values = .ok values ∧ values.length = r.steps.floorInt.toNat + 1 := by
  have laid := points_of_valid valid
  have made : r.values = (RangeArithmetic.values r.min r.step r.steps.floorInt.toNat).mapM
      (rangeValue r.isIntegral) := by
    rw [values, laid]
    rfl
  cases result : r.values with
  | error fault =>
    obtain ⟨x, mem, failed⟩ := exists_of_mapM_error (made.symm.trans result)
    obtain ⟨i, among, rfl⟩ := List.mem_map.1 mem
    have finite := valid.represented i (Nat.le_of_lt_succ (List.mem_range.1 among))
    obtain ⟨value, known⟩ := exists_rangeValue r.isIntegral finite
    rw [known] at failed
    cases failed
  | ok values =>
    refine ⟨values, rfl, ?_⟩
    have lengths := (mapM_eq_ok (made.symm.trans result)).length_eq
    rw [← lengths, RangeArithmetic.values, List.length_map, List.length_range]

theorem valid_of_values {values : List Json} (made : r.values = .ok values) : r.Valid := by
  obtain ⟨points, laid, made⟩ := exists_of_bind_ok made
  unfold RangeSpec.points at laid
  split at laid
  · cases laid
  next finite =>
  split at laid
  · cases laid
  next upward =>
  split at laid
  · cases laid
  next ordered =>
  simp only at laid
  split at laid
  · cases laid
  next few =>
  cases laid
  simp only [Bool.not_eq_true', Bool.not_eq_false, Bool.and_eq_true, Bool.or_eq_true,
    not_or, Bool.not_eq_true] at finite upward ordered few
  obtain ⟨⟨min, max⟩, step⟩ := finite
  have nan {x : Binary64} (h : x.isFinite = true) := Binary64.isNaN_of_isFinite h
  refine ⟨⟨min, max, step⟩, (Binary64.le_eq_false_iff (nan step) rfl).1 upward,
    (Binary64.lt_eq_false_iff (nan max) (nan min)).1 ordered,
    ⟨few.1, (Binary64.le_eq_false_iff (by decide +kernel) (nan few.1)).1 few.2⟩, ?_⟩
  intro i within
  have among : RangeArithmetic.value r.min r.step i ∈
      RangeArithmetic.values r.min r.step r.steps.floorInt.toNat :=
    List.mem_map_of_mem (List.mem_range.2 (Nat.lt_succ_of_le within))
  obtain ⟨value, -, known⟩ := exists_of_forall₂ (mapM_eq_ok made) among
  exact finite_of_rangeValue known

end RangeSpec

namespace Domain

/-- There are values to take from a domain. -/
def Usable : Domain → Prop
  | .enumeration values => values ≠ []
  | .range spec => spec.Valid
  | .expression _ => True

variable {d : Domain} {space parameter : String} {values : List Json}

/-- A parameter takes its values from a list of some. -/
def Gives (d : Domain) (space parameter : String) (values : List Json) : Prop :=
  d.values space parameter = .ok values ∧ values ≠ []

theorem usable_of_gives (gives : d.Gives space parameter values) : d.Usable := by
  obtain ⟨known, some⟩ := gives
  cases d with
  | enumeration given =>
    cases known
    exact some
  | range spec =>
    rw [Domain.values] at known
    split at known
    · next made => exact RangeSpec.valid_of_values made
    · cases known
  | expression => trivial

theorem exists_gives (usable : d.Usable) : ∃ values, d.Gives space parameter values := by
  cases d with
  | enumeration given => exact ⟨given, rfl, usable⟩
  | range spec =>
    obtain ⟨values, made, length⟩ := RangeSpec.values_of_valid usable
    refine ⟨values, by rw [Domain.values, made], ?_⟩
    rintro rfl
    cases length
  | expression text => exact ⟨[.text text], rfl, List.cons_ne_nil _ _⟩

end Domain

/-! ## Places in domains -/

/-- In how many ways one value is chosen from each domain. -/
def combinations (domains : List (List Json)) : Nat := (domains.map List.length).prod

/-- The place in a domain at which a combination finds its value: combinations are numbered by
such places as by digits, of which the last is the lowest. -/
def placeIn (values : List Json) (after : List (List Json)) (i : Nat) : Nat :=
  i / combinations after % values.length

/-- A combination chooses these places, one in each domain. -/
def Chooses (domains : List (List Json)) (i : Nat) (places : List Nat) : Prop :=
  ∀ j values k, domains[j]? = some values → places[j]? = some k →
    placeIn values (domains.drop (j + 1)) i = k

section Places

variable {domains : List (List Json)} {values : List Json} {i j k : Nat} {places : List Nat}

@[simp] theorem combinations_nil : combinations [] = 1 := rfl

@[simp] theorem combinations_cons :
    combinations (values :: domains) = values.length * combinations domains := by
  rw [combinations, List.map_cons, List.prod_cons, combinations]

theorem combinations_pos (some : ∀ values ∈ domains, values ≠ []) : 0 < combinations domains := by
  induction domains with
  | nil => exact Nat.one_pos
  | cons values rest ih =>
    rw [combinations_cons]
    obtain ⟨first, others⟩ := List.forall_mem_cons.1 some
    exact Nat.mul_pos (List.length_pos_of_ne_nil first) (ih others)

theorem combinations_drop_dvd (domains : List (List Json)) (j : Nat) :
    combinations (domains.drop j) ∣ combinations domains := by
  rw [combinations, combinations, List.map_drop,
    ← List.prod_take_mul_prod_drop (domains.map List.length) j]
  exact Nat.dvd_mul_left _ _

theorem placeIn_lt (some : values ≠ []) (after : List (List Json)) (i : Nat) :
    placeIn values after i < values.length :=
  Nat.mod_lt _ (List.length_pos_of_ne_nil some)

/-- The place in a domain does not depend on the digits above it. -/
theorem placeIn_add (known : domains[j]? = some values) :
    placeIn values (domains.drop (j + 1)) (combinations domains * k + i) =
      placeIn values (domains.drop (j + 1)) i := by
  obtain ⟨bound, rfl⟩ := List.getElem?_eq_some_iff.1 known
  obtain ⟨more, whole⟩ := combinations_drop_dvd domains j
  rw [List.drop_eq_getElem_cons bound, combinations_cons] at whole
  rw [placeIn, placeIn]
  rcases Nat.eq_zero_or_pos (combinations (domains.drop (j + 1))) with none | some
  · rw [none, Nat.div_zero, Nat.div_zero]
  · have split : combinations domains * k + i =
        combinations (domains.drop (j + 1)) * (domains[j].length * (more * k)) + i := by
      rw [whole]
      ring
    rw [split, Nat.mul_add_div some, Nat.mul_add_mod]

/-- A combination makes a choice if its highest digit and the number below it do. -/
theorem chooses_cons_iff (within : i < combinations (values :: domains)) :
    Chooses (values :: domains) i (k :: places) ↔
      i / combinations domains = k ∧ Chooses domains (i % combinations domains) places := by
  have highest : placeIn values domains i = i / combinations domains := by
    rw [combinations_cons, Nat.mul_comm] at within
    exact Nat.mod_eq_of_lt (Nat.div_lt_of_lt_mul within)
  have lower {j : Nat} {values' : List Json} (known : domains[j]? = some values') :
      placeIn values' (domains.drop (j + 1)) i =
        placeIn values' (domains.drop (j + 1)) (i % combinations domains) := by
    conv_lhs => rw [← Nat.div_add_mod i (combinations domains)]
    exact placeIn_add known
  constructor
  · intro same
    refine ⟨highest.symm.trans (same 0 values k rfl rfl), fun j values' k' known place => ?_⟩
    rw [← lower known]
    exact same (j + 1) values' k' known place
  · rintro ⟨high, rest⟩ (_ | j) values' k' known place
    · cases known
      cases place
      exact highest.trans high
    · have known : domains[j]? = some values' := known
      exact (lower known).trans (rest j values' k' known place)

/-- Every choice of a place in each domain is made by exactly one combination. -/
theorem existsUnique_chooses
    (within : List.Forall₂ (fun k values => k < values.length) places domains) :
    ∃! i, i < combinations domains ∧ Chooses domains i places := by
  induction within with
  | nil => exact ⟨0, ⟨Nat.one_pos, nofun⟩, fun i h => Nat.lt_one_iff.1 h.1⟩
  | @cons k values places domains bound _ ih =>
    obtain ⟨low, ⟨below, chooses⟩, unique⟩ := ih
    have some : 0 < combinations domains := Nat.zero_lt_of_lt below
    have whole : combinations domains * k + low < combinations (values :: domains) :=
      calc combinations domains * k + low
        _ < combinations domains * k + combinations domains := Nat.add_lt_add_left below _
        _ = combinations domains * (k + 1) := (Nat.mul_succ _ _).symm
        _ ≤ combinations domains * values.length := Nat.mul_le_mul_left _ bound
        _ = combinations (values :: domains) := by rw [combinations_cons, Nat.mul_comm]
    refine ⟨combinations domains * k + low, ⟨whole, (chooses_cons_iff whole).2 ⟨?_, ?_⟩⟩, ?_⟩
    · rw [Nat.mul_add_div some, Nat.div_eq_of_lt below, Nat.add_zero]
    · rwa [Nat.mul_add_mod, Nat.mod_eq_of_lt below]
    · rintro i ⟨less, same⟩
      obtain ⟨high, rest⟩ := (chooses_cons_iff less).1 same
      rw [← Nat.div_add_mod i (combinations domains), high, unique _ ⟨Nat.mod_lt _ some, rest⟩]

end Places

/-! ## Sets, parameter by parameter -/

section Extension

variable {name : String} {values : List Json} {sets : List ParameterSet} {i : Nat}
  {set : ParameterSet}

theorem length_extendSets (name : String) (values : List Json) (sets : List ParameterSet) :
    (extendSets name values sets).length = sets.length * values.length := by
  rw [extendSets, List.length_flatMap]
  simp

/-- The sets that extend one set stand together, in the order of the values. -/
theorem exists_of_extendSets (found : (extendSets name values sets)[i]? = some set) :
    ∃ start value, sets[i / values.length]? = some start ∧
      values[i % values.length]? = some value ∧ set = start.insert name value := by
  induction sets generalizing i with
  | nil => cases found
  | cons first rest ih =>
    have parts : extendSets name values (first :: rest) =
        (values.map fun value => first.insert name value) ++ extendSets name values rest := rfl
    rw [parts, List.getElem?_append, List.length_map] at found
    split at found
    · next within =>
      rw [List.getElem?_map, Option.map_eq_some_iff] at found
      obtain ⟨value, known, rfl⟩ := found
      refine ⟨first, value, ?_, ?_, rfl⟩
      · rw [Nat.div_eq_of_lt within]
        rfl
      · rw [Nat.mod_eq_of_lt within, known]
    · next beyond =>
      obtain ⟨start, value, among, known, rfl⟩ := ih found
      have later : values.length ≤ i := Nat.not_lt.1 beyond
      have some : 0 < values.length := by
        refine Nat.pos_of_ne_zero fun none => ?_
        rw [List.eq_nil_of_length_eq_zero none] at known
        cases known
      refine ⟨start, value, ?_, ?_, rfl⟩
      · rw [Nat.div_eq_sub_div some later, List.getElem?_cons_succ, among]
      · rw [Nat.mod_eq_sub_mod later, known]

end Extension

/-- The sets that extend others by values of parameters are numbered by the places of the sets that
they extend and, below these, by the places of the values. -/
structure Numbered (parameters : List SpaceParameter) (domains : List (List Json))
    (sets result : List ParameterSet) : Prop where
  length : result.length = sets.length * combinations domains
  source : ∀ i set, result[i]? = some set →
    ∃ start, sets[i / combinations domains]? = some start ∧
      ∀ name, name ∉ parameters.map (·.name) → set.get? name = start.get? name
  value : ∀ i set, result[i]? = some set → ∀ j p values, parameters[j]? = some p →
    domains[j]? = some values → set.get? p.name = values[placeIn values (domains.drop (j + 1)) i]?

section Combining

variable {space : String} {parameters : List SpaceParameter} {domains : List (List Json)}
  {sets result : List ParameterSet}

/-- Sets that have been extended by the values of one parameter are extended by those of more. -/
theorem Numbered.cons {p : SpaceParameter} {values : List Json}
    (new : p.name ∉ parameters.map (·.name))
    (h : Numbered parameters domains (extendSets p.name values sets) result) :
    Numbered (p :: parameters) (values :: domains) sets result := by
  have source {i : Nat} {set : ParameterSet} (found : result[i]? = some set) :
      ∃ start value, sets[i / combinations (values :: domains)]? = some start ∧
        values[placeIn values domains i]? = some value ∧
        ∀ name, name ∉ parameters.map (·.name) →
          set.get? name = (start.insert p.name value).get? name := by
    obtain ⟨extended, among, keeps⟩ := h.source i set found
    obtain ⟨start, value, first, known, rfl⟩ := exists_of_extendSets among
    rw [Nat.div_div_eq_div_mul, Nat.mul_comm, ← combinations_cons] at first
    exact ⟨start, value, first, known, keeps⟩
  refine ⟨?_, ?_, ?_⟩
  · rw [h.length, length_extendSets, combinations_cons, Nat.mul_assoc]
  · intro i set found
    obtain ⟨start, value, first, -, keeps⟩ := source found
    refine ⟨start, first, fun name other => ?_⟩
    rw [List.map_cons, List.mem_cons, not_or] at other
    rw [keeps name other.2, Table.get?_insert_of_ne (Ne.symm other.1)]
  · rintro i set found (_ | j) q values' parameter domain
    · cases parameter
      cases domain
      obtain ⟨start, value, -, known, keeps⟩ := source found
      rw [keeps _ new, Table.get?_insert_self]
      exact known.symm
    · exact h.value i set found j q values' parameter domain

/-- Parameters of different names whose domains have values extend sets to sets that are numbered
by the places of the values. -/
theorem exists_combine (sets : List ParameterSet)
    (distinct : (parameters.map (·.name)).Nodup)
    (given : List.Forall₂ (fun p values => p.domain.Gives space p.name values) parameters domains) :
    ∃ result, combine space parameters sets = .ok result ∧
      Numbered parameters domains sets result := by
  induction given generalizing sets with
  | nil =>
    refine ⟨sets, rfl, (Nat.mul_one _).symm, fun i set found => ⟨set, ?_, fun _ _ => rfl⟩, nofun⟩
    rwa [combinations_nil, Nat.div_one]
  | @cons p values parameters domains gives _ ih =>
    obtain ⟨new, distinct⟩ := List.nodup_cons.1 distinct
    obtain ⟨result, combined, numbered⟩ := ih (extendSets p.name values sets) distinct
    refine ⟨result, ?_, numbered.cons new⟩
    obtain ⟨known, some⟩ := gives
    obtain ⟨first, rest, rfl⟩ := List.exists_cons_of_ne_nil some
    rw [combine, known]
    exact combined

theorem usable_of_combine (combined : combine space parameters sets = .ok result) :
    ∀ p ∈ parameters, p.domain.Usable := by
  induction parameters generalizing sets with
  | nil => nofun
  | cons p rest ih =>
    rw [combine] at combined
    split at combined
    · cases combined
    · cases combined
    · next values some known =>
      intro q mem
      rcases List.mem_cons.1 mem with rfl | mem
      · exact Domain.usable_of_gives ⟨known, fun none => some (none ▸ rfl)⟩
      · exact ih combined q mem

theorem exists_given (space : String) (usable : ∀ p ∈ parameters, p.domain.Usable) :
    ∃ domains, List.Forall₂ (fun p values => p.domain.Gives space p.name values) parameters
      domains := by
  induction parameters with
  | nil => exact ⟨[], .nil⟩
  | cons p rest ih =>
    obtain ⟨values, gives⟩ := Domain.exists_gives (usable p List.mem_cons_self)
    obtain ⟨domains, given⟩ := ih fun q mem => usable q (List.mem_cons_of_mem _ mem)
    exact ⟨values :: domains, .cons gives given⟩

end Combining

/-! ## The sets of a space -/

theorem firstRepeated?_eq_none_iff {seen names : List String} :
    firstRepeated? seen names = none ↔ names.Nodup ∧ ∀ name ∈ names, name ∉ seen := by
  induction names generalizing seen with
  | nil => simp [firstRepeated?]
  | cons name rest ih =>
    rw [firstRepeated?, List.nodup_cons, List.forall_mem_cons]
    split
    · next known => simp_all
    · next new =>
      rw [ih]
      simp only [List.mem_cons, not_or]
      constructor
      · rintro ⟨distinct, others⟩
        exact ⟨⟨fun mem => (others name mem).1 rfl, distinct⟩, by simpa using new,
          fun other mem => (others other mem).2⟩
      · rintro ⟨⟨once, distinct⟩, -, others⟩
        exact ⟨distinct, fun other mem => ⟨fun same => once (same ▸ mem), others other mem⟩⟩

namespace Space

variable {s : Space} {sets : List ParameterSet}

/-- A space is expanded if its parameters have different names and domains with values. -/
structure Expandable (s : Space) : Prop where
  distinct : (s.parameters.map (·.name)).Nodup
  usable : ∀ p ∈ s.parameters, p.domain.Usable

theorem expandable_of_parameterSets (expanded : s.parameterSets = .ok sets) : s.Expandable := by
  rw [parameterSets] at expanded
  split at expanded
  · cases expanded
  · next none => exact ⟨(firstRepeated?_eq_none_iff.1 none).1, usable_of_combine expanded⟩

/-- The sets of a space are numbered by the places of their values. -/
theorem Expandable.exists_numbered (h : s.Expandable) : ∃ domains sets,
    List.Forall₂ (fun p values => p.domain.Gives s.name p.name values) s.parameters domains ∧
      s.parameterSets = .ok sets ∧ Numbered s.parameters domains [∅] sets := by
  obtain ⟨domains, given⟩ := exists_given s.name h.usable
  obtain ⟨sets, combined, numbered⟩ := exists_combine [∅] h.distinct given
  refine ⟨domains, sets, given, ?_, numbered⟩
  rw [parameterSets, firstRepeated?_eq_none_iff.2 ⟨h.distinct, fun _ _ => List.not_mem_nil⟩]
  exact combined

/-- The domains of an expanded space, and how its sets are numbered. -/
theorem numbered_of_parameterSets (expanded : s.parameterSets = .ok sets) : ∃ domains,
    List.Forall₂ (fun p values => p.domain.Gives s.name p.name values) s.parameters domains ∧
      Numbered s.parameters domains [∅] sets := by
  obtain ⟨domains, sets', given, expanded', numbered⟩ :=
    (expandable_of_parameterSets expanded).exists_numbered
  rw [expanded] at expanded'
  cases expanded'
  exact ⟨domains, given, numbered⟩

/-- Every set of a space binds exactly the space's parameters. -/
theorem bound_of_parameterSets (expanded : s.parameterSets = .ok sets) {set : ParameterSet}
    (mem : set ∈ sets) {name : String} :
    (set.get? name).isSome ↔ ∃ p ∈ s.parameters, p.name = name := by
  obtain ⟨domains, given, numbered⟩ := numbered_of_parameterSets expanded
  obtain ⟨i, found⟩ := List.mem_iff_getElem?.1 mem
  rw [← List.mem_map]
  by_cases defined : name ∈ s.parameters.map (·.name)
  · obtain ⟨p, among, rfl⟩ := List.mem_map.1 defined
    obtain ⟨j, bound, rfl⟩ := List.mem_iff_getElem.1 among
    have bound' : j < domains.length := given.length_eq ▸ bound
    have some : domains[j] ≠ [] := (given.get bound bound').2
    rw [numbered.value i set found j _ domains[j] (List.getElem?_eq_getElem bound)
      (List.getElem?_eq_getElem bound')]
    refine iff_of_true ?_ defined
    rw [List.getElem?_eq_getElem (placeIn_lt some _ i)]
    rfl
  · obtain ⟨start, first, keeps⟩ := numbered.source i set found
    obtain rfl := List.mem_singleton.1 (List.mem_of_getElem? first)
    rw [keeps name defined]
    exact iff_of_false Bool.noConfusion defined

theorem get?_eq_none_iff (expanded : s.parameterSets = .ok sets) {set : ParameterSet}
    (mem : set ∈ sets) {name : String} :
    set.get? name = none ↔ ¬∃ p ∈ s.parameters, p.name = name := by
  rw [← bound_of_parameterSets expanded mem, Option.not_isSome_iff_eq_none]

/-- There are as many sets as combinations of values. -/
theorem length_of_numbered {domains : List (List Json)}
    (numbered : Numbered s.parameters domains [∅] sets) : sets.length = combinations domains := by
  rw [numbered.length, List.length_singleton, Nat.one_mul]

/-- A space has a parameter set. -/
theorem ne_nil_of_parameterSets (expanded : s.parameterSets = .ok sets) : sets ≠ [] := by
  obtain ⟨domains, given, numbered⟩ := numbered_of_parameterSets expanded
  have some : ∀ values ∈ domains, values ≠ [] := by
    intro values mem
    obtain ⟨p, -, -, some⟩ := exists_of_forall₂ given.flip mem
    exact some
  rw [← List.length_pos_iff_ne_nil, length_of_numbered numbered]
  exact combinations_pos some

/-- The expansion of a space fails exactly if two parameters share a name or a domain is an empty
list or a range that cannot be laid out. Otherwise there are as many sets as combinations of
values; each binds the space's parameters, and the set at a place has the values that the place
tells as a number of mixed radix. Every combination is the set at exactly one place. -/
theorem parameterSets_mixedRadix (s : Space) :
    ((∃ e, s.parameterSets = .error e) ↔
        ¬(s.parameters.map (·.name)).Nodup ∨ ∃ p ∈ s.parameters, ¬p.domain.Usable) ∧
      ∀ sets, s.parameterSets = .ok sets → ∃ domains,
        List.Forall₂ (fun p values => p.domain.values s.name p.name = .ok values) s.parameters
          domains ∧
        sets.length = (domains.map List.length).prod ∧
        (∀ set ∈ sets, ∀ name, name ∈ set.keys ↔ name ∈ s.parameters.map (·.name)) ∧
        (∀ i set, sets[i]? = some set →
          ∀ j p values, s.parameters[j]? = some p → domains[j]? = some values →
            set.get? p.name =
              values[i / ((domains.drop (j + 1)).map List.length).prod % values.length]?) ∧
        ∀ places, List.Forall₂ (fun k values => k < values.length) places domains →
          ∃! i, i < sets.length ∧ Chooses domains i places := by
  constructor
  · constructor
    · rintro ⟨e, failed⟩
      by_contra fine
      rw [not_or, not_not] at fine
      have h : s.Expandable := ⟨fine.1, by simpa using fine.2⟩
      obtain ⟨domains, sets, -, expanded, -⟩ := h.exists_numbered
      rw [failed] at expanded
      cases expanded
    · intro fault
      cases result : s.parameterSets with
      | error e => exact ⟨e, rfl⟩
      | ok sets =>
        obtain ⟨distinct, usable⟩ := expandable_of_parameterSets result
        rcases fault with repeated | ⟨p, mem, unusable⟩
        · exact absurd distinct repeated
        · exact absurd (usable p mem) unusable
  · intro sets expanded
    obtain ⟨domains, given, numbered⟩ := numbered_of_parameterSets expanded
    have length := length_of_numbered numbered
    refine ⟨domains, given.imp fun _ _ gives => gives.1, length, ?_, numbered.value, ?_⟩
    · intro set mem name
      rw [Table.mem_keys_iff, bound_of_parameterSets expanded mem, List.mem_map]
    · intro places within
      rw [length]
      exact existsUnique_chooses within

/-- A list that has one value twice, a range and a text. -/
def threefold : Space :=
  { name := "S", workflow := "W"
    parameters :=
      [{ name := "q", domain := .enumeration [.text "a", .text "a"] },
       { name := "p", domain := .range ⟨.ofInt 0, .ofInt 4, .ofInt 2⟩ },
       { name := "r", domain := .expression "x + 1" }] }

/-- The value that occurs twice is kept twice, so each of the two is combined with the last number
of the range by one set only. -/
theorem parameterSets_mixedRadix_threefold : ∃ sets, threefold.parameterSets = .ok sets ∧
    sets.length = 6 ∧
    sets[2]? = sets[5]? ∧
    ∃! i, i < 6 ∧
      Chooses [[.text "a", .text "a"], [.ofInt 0, .ofInt 2, .ofInt 4], [.text "x + 1"]] i
        [1, 2, 0] := by
  obtain ⟨sets, expanded, alike⟩ := exists_ok (r := threefold.parameterSets)
    (p := fun sets => sets[2]? = sets[5]?) (by decide +kernel)
  obtain ⟨domains, known, length, -, -, places⟩ :=
    (parameterSets_mixedRadix threefold).2 sets expanded
  obtain - | ⟨first, - | ⟨second, - | ⟨third, ⟨⟩⟩⟩⟩ := known
  have range : (RangeSpec.mk (.ofInt 0) (.ofInt 4) (.ofInt 2)).values =
      .ok [.ofInt 0, .ofInt 2, .ofInt 4] := by decide +kernel
  rw [Domain.values, range] at second
  cases first
  cases second
  cases third
  have six : sets.length = 6 := length
  rw [six] at places
  exact ⟨sets, expanded, six, alike, places [1, 2, 0] (by decide)⟩

end Space

end Sweep
