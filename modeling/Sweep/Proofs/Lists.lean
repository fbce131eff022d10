import Mathlib.Data.List.Basic
import Mathlib.Data.List.Forall2
import Mathlib.Data.List.Nodup

/-!
# Lists

A list of computations is carried out up to the first one that fails. The result is a list of
results, or the error of one of the computations.

The distinct members of a list stand in the order of their first occurrences if whatever is new is
added at the end, one member of the list after the other.
-/

namespace Sweep

/-- The last that is found in a longer list is the new one, if there is one. -/
theorem getLast?_filterMap_concat {α β : Type} (f : α → Option β) (xs : List α) (x : α) :
    ((xs ++ [x]).filterMap f).getLast? = (f x).or (xs.filterMap f).getLast? := by
  rw [List.filterMap_append, List.getLast?_append]
  cases found : f x <;> simp [found]

theorem flatMap_zipIdx {α β : Type} (xs : List α) (f : Nat → List β) :
    (xs.zipIdx.flatMap fun p => f p.2) = (List.range xs.length).flatMap f := by
  rw [← List.flatMap_map, List.zipIdx_map_snd, List.range_eq_range']

/-! ## Results that can fail -/

variable {α β ε : Type}

theorem mapM_eq_ok {f : α → Except ε β} {xs : List α} {ys : List β}
    (h : xs.mapM f = .ok ys) : List.Forall₂ (fun x y => f x = .ok y) xs ys := by
  induction xs generalizing ys with
  | nil =>
    cases h
    exact .nil
  | cons x rest ih =>
    rw [List.mapM_cons] at h
    cases first : f x with
    | error e =>
      rw [first] at h
      cases h
    | ok y =>
      rw [first] at h
      cases others : rest.mapM f with
      | error e =>
        rw [others] at h
        cases h
      | ok zs =>
        rw [others] at h
        cases h
        exact .cons first (ih others)

theorem exists_of_mapM_error {f : α → Except ε β} {xs : List α} {e : ε}
    (h : xs.mapM f = .error e) : ∃ x ∈ xs, f x = .error e := by
  induction xs with
  | nil => cases h
  | cons x rest ih =>
    rw [List.mapM_cons] at h
    cases first : f x with
    | error e' =>
      rw [first] at h
      cases h
      exact ⟨x, List.mem_cons_self, first⟩
    | ok y =>
      rw [first] at h
      cases others : rest.mapM f with
      | error e' =>
        have failed : (Except.error e' : Except ε (List β)) = .error e := by
          rw [others] at h
          cases h
          rfl
        obtain ⟨x', mem, found⟩ := ih (others.trans failed)
        exact ⟨x', List.mem_cons_of_mem _ mem, found⟩
      | ok ys =>
        rw [others] at h
        cases h

theorem exists_of_foldlM_error {f : β → α → Except ε β} {xs : List α} {start : β} {e : ε}
    (h : xs.foldlM f start = .error e) : ∃ x ∈ xs, ∃ y, f y x = .error e := by
  induction xs generalizing start with
  | nil => cases h
  | cons x rest ih =>
    rw [List.foldlM_cons] at h
    cases first : f start x with
    | error e' =>
      rw [first] at h
      cases h
      exact ⟨x, List.mem_cons_self, start, first⟩
    | ok y =>
      rw [first] at h
      obtain ⟨x', mem, found⟩ := ih h
      exact ⟨x', List.mem_cons_of_mem _ mem, found⟩

/-- What each member is read as, all of them are. -/
theorem mapM_map_eq_some {γ : Type} {encode : α → β} {decode? : β → Option γ} {f : α → γ}
    {xs : List α} (each : ∀ x ∈ xs, decode? (encode x) = some (f x)) :
    (xs.map encode).mapM decode? = some (xs.map f) := by
  induction xs with
  | nil => rfl
  | cons x rest ih =>
    rw [List.map_cons, List.mapM_cons, each x List.mem_cons_self,
      ih fun y mem => each y (List.mem_cons_of_mem _ mem)]
    rfl

/-- Each member of what is read is read from somewhere. -/
theorem exists_of_mapM_eq_some {γ : Type} {read? : β → Option γ} {xs : List β} {ys : List γ}
    (h : xs.mapM read? = some ys) : ∀ y ∈ ys, ∃ x ∈ xs, read? x = some y := by
  induction xs generalizing ys with
  | nil =>
    cases h
    nofun
  | cons x rest ih =>
    simp only [List.mapM_cons, Option.bind_eq_bind, Option.bind_eq_some_iff] at h
    obtain ⟨y, first, zs, others, same⟩ := h
    cases same
    intro z mem
    rcases List.mem_cons.1 mem with rfl | mem
    · exact ⟨x, List.mem_cons_self, first⟩
    · obtain ⟨x', among, read⟩ := ih others z mem
      exact ⟨x', List.mem_cons_of_mem _ among, read⟩

theorem mapM_congr {f g : α → Except ε β} {xs : List α} (same : ∀ x ∈ xs, f x = g x) :
    xs.mapM f = xs.mapM g := by
  induction xs with
  | nil => rfl
  | cons x rest ih =>
    rw [List.mapM_cons, List.mapM_cons, same x List.mem_cons_self,
      ih fun y mem => same y (List.mem_cons_of_mem _ mem)]

/-- Each member of a list has its counterpart in a list that corresponds to it. -/
theorem exists_of_forall₂ {R : α → β → Prop} {xs : List α} {ys : List β}
    (h : List.Forall₂ R xs ys) {x : α} (mem : x ∈ xs) : ∃ y ∈ ys, R x y := by
  induction h with
  | nil => cases mem
  | @cons _ y _ _ first _ ih =>
    rcases List.mem_cons.1 mem with rfl | mem
    · exact ⟨y, List.mem_cons_self, first⟩
    · obtain ⟨z, among, related⟩ := ih mem
      exact ⟨z, List.mem_cons_of_mem _ among, related⟩

/-- Where no two members have the same key, each is found by its own. -/
theorem find?_eq_some_of_nodup [BEq β] [LawfulBEq β] {f : α → β} {xs : List α}
    (distinct : (xs.map f).Nodup) {x : α} (mem : x ∈ xs) :
    (xs.find? fun y => f y == f x) = some x := by
  cases found : xs.find? fun y => f y == f x with
  | none => exact absurd BEq.rfl (List.find?_eq_none.1 found x mem)
  | some other =>
    have same : f other = f x := eq_of_beq (List.find?_some (p := fun y => f y == f x) found)
    rw [List.inj_on_of_nodup_map distinct (List.mem_of_find?_eq_some found) mem same]

/-- A list that ends in one item is split at this item or before it. -/
theorem split_concat {xs before after : List α} {x y : α}
    (shape : xs ++ [x] = before ++ y :: after) :
    after = [] ∧ x = y ∧ xs = before ∨
      ∃ after', after = after' ++ [x] ∧ xs = before ++ y :: after' := by
  rcases List.eq_nil_or_concat' after with rfl | ⟨after', z, rfl⟩
  · obtain ⟨same, last⟩ := List.append_inj' shape rfl
    exact .inl ⟨rfl, List.singleton_inj.1 last, same⟩
  · rw [← List.cons_append, ← List.append_assoc] at shape
    obtain ⟨same, last⟩ := List.append_inj' shape rfl
    obtain rfl := List.singleton_inj.1 last
    exact .inr ⟨after', rfl, same⟩

/-- A computation in two parts succeeds if both of them do. -/
theorem exists_of_bind_ok {r : Except ε α} {f : α → Except ε β} {y : β}
    (h : r >>= f = .ok y) : ∃ x, r = .ok x ∧ f x = .ok y := by
  cases r with
  | error => cases h
  | ok x => exact ⟨x, rfl, h⟩

theorem exists_of_map_ok {r : Except ε α} {f : α → β} {y : β} (h : r.map f = .ok y) :
    ∃ x, r = .ok x ∧ f x = y := by
  cases r with
  | error => cases h
  | ok x => exact ⟨x, rfl, Except.ok.inj h⟩

theorem ok_of_mapError_ok {ε' : Type} {r : Except ε α} {f : ε → ε'} {x : α}
    (h : r.mapError f = .ok x) : r = .ok x := by
  cases r with
  | error => cases h
  | ok y => exact congrArg Except.ok (Except.ok.inj h)

/-- What is true of a success, of a computation that has been seen to succeed. -/
theorem exists_ok {r : Except ε α} {p : α → Prop} [DecidablePred p]
    (seen : r.toOption.any (fun x => p x) = true) : ∃ x, r = .ok x ∧ p x := by
  cases r with
  | error => cases seen
  | ok x => exact ⟨x, rfl, of_decide_eq_true seen⟩

/-! ## First occurrences -/

/-- The second list has the members of the first, in the order in which each of them occurs first;
so it has none of them twice. -/
structure FirstOccurrences {α : Type} [DecidableEq α] (xs ys : List α) : Prop where
  mem_iff : ∀ x, x ∈ ys ↔ x ∈ xs
  inOrder : ys.Pairwise fun x y => xs.idxOf x < xs.idxOf y

namespace FirstOccurrences

variable {α : Type} [DecidableEq α] {xs ys : List α}

theorem nil : FirstOccurrences ([] : List α) [] := ⟨fun _ => Iff.rfl, .nil⟩

theorem nodup (h : FirstOccurrences xs ys) : ys.Nodup :=
  h.inOrder.imp fun before => by
    rintro rfl
    exact Nat.lt_irrefl _ before

/-- What occurs in a part of a list occurs first at the same place in the whole. -/
theorem inOrder_append (h : FirstOccurrences xs ys) (more : List α) :
    ys.Pairwise fun x y => (xs ++ more).idxOf x < (xs ++ more).idxOf y := by
  refine h.inOrder.imp_of_mem fun {x y} hx hy before => ?_
  rwa [List.idxOf_append_of_mem ((h.mem_iff x).1 hx), List.idxOf_append_of_mem ((h.mem_iff y).1 hy)]

theorem concat_known (h : FirstOccurrences xs ys) {x : α} (known : x ∈ xs) :
    FirstOccurrences (xs ++ [x]) ys := by
  refine ⟨fun y => ?_, h.inOrder_append [x]⟩
  rw [h.mem_iff, List.mem_append, List.mem_singleton]
  exact ⟨.inl, fun mem => mem.elim id fun same => same ▸ known⟩

theorem concat_new (h : FirstOccurrences xs ys) {x : α} (new : x ∉ xs) :
    FirstOccurrences (xs ++ [x]) (ys ++ [x]) := by
  refine ⟨fun y => ?_, ?_⟩
  · rw [List.mem_append, List.mem_append, h.mem_iff]
  · refine List.pairwise_append.2 ⟨h.inOrder_append [x], List.pairwise_singleton _ _, ?_⟩
    intro y hy _ last
    obtain rfl := List.mem_singleton.1 last
    have among := (h.mem_iff y).1 hy
    rw [List.idxOf_append_of_mem among, List.idxOf_append_of_notMem new]
    exact Nat.lt_add_right _ (List.idxOf_lt_length_of_mem among)

/-- A member of the list is added unless it is known. -/
theorem concat (h : FirstOccurrences xs ys) (x : α) :
    FirstOccurrences (xs ++ [x]) (if x ∈ ys then ys else ys ++ [x]) := by
  split
  · next known => exact h.concat_known ((h.mem_iff x).1 known)
  · next new => exact h.concat_new (mt (h.mem_iff x).2 new)

end FirstOccurrences

end Sweep
