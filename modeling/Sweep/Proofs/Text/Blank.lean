import Sweep.Text.Blank
import Mathlib.Data.List.TakeWhile

/-!
# Laws of trimming

What is removed at an end of a text is white space, and all of the white space there is. So trimming
stops at a visible character, whatever stands on the other side of it.
-/

namespace Sweep.Text

/-- A text of white space. -/
def AllBlank (s : List Char) : Prop := ∀ c ∈ s, isBlank c = true

instance (s : List Char) : Decidable (AllBlank s) :=
  decidable_of_iff (s.all isBlank = true) List.all_eq_true

theorem allBlank_nil : AllBlank [] := nofun

theorem trimStart_append_of_blank {b : List Char} (blank : AllBlank b) (s : List Char) :
    trimStart (b ++ s) = trimStart s :=
  List.dropWhile_append_of_pos blank

/-- What is removed at the start of a text is white space. -/
theorem exists_append_trimStart (s : List Char) : ∃ b, AllBlank b ∧ s = b ++ trimStart s :=
  ⟨s.takeWhile isBlank, fun _ mem => List.mem_takeWhile_imp mem,
    List.takeWhile_append_dropWhile.symm⟩

theorem isBlank_of_trimStart_eq {s rest : List Char} {c : Char} (h : trimStart s = c :: rest) :
    isBlank c = false := by
  have first := List.head?_dropWhile_not isBlank s
  rw [trimStart] at h
  rwa [h] at first

theorem trimStart_trimStart (s : List Char) : trimStart (trimStart s) = trimStart s := by
  obtain ⟨b, blank, split⟩ := exists_append_trimStart s
  have same := trimStart_append_of_blank blank (trimStart s)
  rw [← split] at same
  exact same.symm

/-- A text that is not all white space is trimmed at its start without regard to what follows. -/
theorem trimStart_append {s : List Char} (solid : trimStart s ≠ []) (rest : List Char) :
    trimStart (s ++ rest) = trimStart s ++ rest := by
  obtain ⟨b, blank, split⟩ := exists_append_trimStart s
  obtain ⟨c, t, first⟩ := List.exists_cons_of_ne_nil solid
  have visible := isBlank_of_trimStart_eq first
  rw [split, List.append_assoc, trimStart_append_of_blank blank, trimStart_append_of_blank blank,
    first, List.cons_append, trimStart_cons_of_not_blank visible,
    trimStart_cons_of_not_blank visible, List.cons_append]

theorem trimEnd_append_of_blank {b : List Char} (blank : AllBlank b) (s : List Char) :
    trimEnd (s ++ b) = trimEnd s := by
  have reversed : ∀ c ∈ b.reverse, isBlank c = true := fun c mem => blank c (List.mem_reverse.1 mem)
  rw [trimEnd, List.reverse_append, List.dropWhile_append_of_pos reversed, trimEnd]

theorem trimEnd_of_blank {b : List Char} (blank : AllBlank b) : trimEnd b = [] := by
  simpa using trimEnd_append_of_blank blank []

theorem trimEnd_concat_of_not_blank {c : Char} (visible : isBlank c = false) (s : List Char) :
    trimEnd (s ++ [c]) = s ++ [c] := by
  simp [trimEnd, visible]

/-- Nothing is removed at the end before the last visible character. -/
theorem trimEnd_append_cons {c : Char} (visible : isBlank c = false) (s t : List Char) :
    trimEnd (s ++ c :: t) = s ++ c :: trimEnd t := by
  by_cases blank : AllBlank t
  · rw [List.append_cons, trimEnd_append_of_blank blank, trimEnd_concat_of_not_blank visible,
      trimEnd_of_blank blank]
  · have solid : trimStart t.reverse ≠ [] := fun h => blank fun c mem =>
      List.dropWhile_eq_nil_iff.1 h c (List.mem_reverse.2 mem)
    have kept := trimStart_append solid (c :: s.reverse)
    simp only [trimStart] at kept
    simp only [trimEnd, List.reverse_append, List.reverse_cons, List.append_assoc,
      List.singleton_append, kept, List.reverse_reverse]

theorem trimEnd_trimEnd (s : List Char) : trimEnd (trimEnd s) = trimEnd s := by
  have same := trimStart_trimStart s.reverse
  simp only [trimStart] at same
  rw [trimEnd, trimEnd, List.reverse_reverse, same]

theorem trimChars_trimChars (s : List Char) : trimChars (trimChars s) = trimChars s := by
  simp only [trimChars]
  cases shape : trimStart s with
  | nil => rfl
  | cons c t =>
    have visible := isBlank_of_trimStart_eq shape
    have kept : trimEnd (c :: t) = c :: trimEnd t := trimEnd_append_cons visible [] t
    rw [kept, trimStart_cons_of_not_blank visible, ← kept, trimEnd_trimEnd]

theorem trim_trim (s : String) : trim (trim s) = trim s := by
  rw [trim, trim, String.toList_ofList, trimChars_trimChars]

theorem mem_trimStart {s : List Char} {c : Char} (mem : c ∈ s) (visible : isBlank c = false) :
    c ∈ trimStart s := by
  obtain ⟨b, blank, split⟩ := exists_append_trimStart s
  rw [split] at mem
  rcases List.mem_append.1 mem with early | late
  · exact absurd (blank c early) (by simp [visible])
  · exact late

/-- A visible character is not trimmed away. -/
theorem mem_trimChars {s : List Char} {c : Char} (mem : c ∈ s) (visible : isBlank c = false) :
    c ∈ trimChars s := by
  have reversed := mem_trimStart (List.mem_reverse.2 (mem_trimStart mem visible)) visible
  exact List.mem_reverse.2 reversed

end Sweep.Text
