/-!
# The machine

How long a list may get and how deep data may nest is a matter of the machine that a program runs
on. The limits are bound once here, with what little is known of them.
-/
namespace NodeWorkflow

/-- The lengths from which on no list can be addressed. -/
def addressBound : Nat := Nat.pow 2 63

class Machine where
  /-- The lengths from which on no memory holds a list. -/
  memoryBound : Nat
  /-- How deep JSON text may nest to be read. -/
  textLevels : Nat
  /-- How deep data may nest to be copied. -/
  copyLevels : Nat
  sixteen_le_memoryBound : 16 ≤ memoryBound
  memoryBound_le_addressBound : memoryBound ≤ addressBound

namespace Machine

/-- A machine with memory for lists of some hundred million items and room for a thousand calls. -/
abbrev common : Machine where
  memoryBound := Nat.pow 2 36
  textLevels := 988
  copyLevels := 496
  sixteen_le_memoryBound := by decide
  memoryBound_le_addressBound := by decide

theorem memoryBound_pos [Machine] : 0 < memoryBound :=
  Nat.lt_of_lt_of_le (by decide) sixteen_le_memoryBound

end Machine
end NodeWorkflow
