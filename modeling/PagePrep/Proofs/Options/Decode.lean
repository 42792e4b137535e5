import PagePrep.Options.Decode

-- What is written for an option and what it is read from belong together.

namespace PagePrep

namespace NegateMode

theorem lookup_name (mode : NegateMode) : names.lookup mode.name = some mode := by
  cases mode <;> rfl

end NegateMode

namespace FuriganaMode

theorem lookup_name (mode : FuriganaMode) : names.lookup mode.name = some mode := by
  cases mode <;> rfl

end FuriganaMode

namespace Decode

variable {α : Type} {decode : Value → Option α} {v : Value} {a : α}

theorem natBelow?_int {n bound : Nat} (h : n < bound) : natBelow? bound (.int n) = some n := by
  have hb : (0 : Int) ≤ n ∧ (n : Int) < bound := by omega
  rw [natBelow?, if_pos hb, Int.toNat_natCast]

theorem uint32?_int (n : UInt32) : uint32? (.int n.toNat) = some n := by
  rw [uint32?, natBelow?_int n.toNat_lt, Option.map_some, UInt32.ofNat_toNat]

theorem uint64?_int (n : UInt64) : uint64? (.int n.toNat) = some n := by
  rw [uint64?, natBelow?_int n.toNat_lt, Option.map_some, UInt64.ofNat_toNat]

-- A value that says something is not null.
theorem optional?_of_some (h : decode v = some a) (hn : decode .null = none) :
    optional? decode v = some (some a) := by
  rw [optional?.eq_def]
  split
  case h_1 => cases hn.symm.trans h
  case h_2 => rw [h]; rfl

end Decode

end PagePrep
