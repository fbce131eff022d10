/-!
# Slots for runs

At most a given number of runs may go on at once, and at least one. A run takes a slot when it
starts and gives it back when it ends; while there is no free slot it has to wait.
-/

namespace Sweep

/-- A number of slots, some of which are taken. -/
structure Slots where
  total : Nat
  taken : Nat := 0
  taken_le_total : taken ≤ total := by omega
deriving DecidableEq, Repr

namespace Slots

/-- As many free slots as asked for, but at least one. -/
def ofLimit (limit : Nat) : Slots := { total := max limit 1 }

def available (s : Slots) : Nat := s.total - s.taken

/-- Takes a slot if one is free. -/
def acquire? (s : Slots) : Option Slots :=
  if h : s.taken < s.total then some { total := s.total, taken := s.taken + 1 } else none

/-- Gives a slot back if one is taken. -/
def release? (s : Slots) : Option Slots :=
  if 0 < s.taken then
    some { s with taken := s.taken - 1, taken_le_total := by have := s.taken_le_total; omega }
  else none

end Slots

end Sweep
