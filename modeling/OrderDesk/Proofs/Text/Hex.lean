import OrderDesk.Text.Hex

/-!
# Hexadecimal digits in either case

Whoever writes a digit may choose its case; whoever reads it does not see the choice.
-/

namespace OrderDesk.Text.Hex

/-- **A character writes a digit**, in either case. -/
def Writes (c : Char) (d : Fin 16) : Prop :=
  c = digit d ∨ c = upperDigit d

variable {c : Char} {d : Fin 16}

theorem Writes.ascii (h : Writes c d) : c.toNat < 128 := by
  have hboth : ∀ d : Fin 16, (digit d).toNat < 128 ∧ (upperDigit d).toNat < 128 := by decide
  rcases h with rfl | rfl
  · exact (hboth d).1
  · exact (hboth d).2

/-- **Either way the digit is read.** -/
theorem value?_of_writes (h : Writes c d) : value? c = some d := by
  rcases h with rfl | rfl
  · exact value?_digit d
  · exact value?_upperDigit d

end OrderDesk.Text.Hex
