import Mathlib.Algebra.Order.Group.Nat
import ComputeKernel.Data.Word

/-!
# Words as numbers and as digits

Checked arithmetic of words is that of numbers, as long as the result is a word. Two words make up a
number `a * base + b` with `b` below the base; the number determines the two (`digits_inj`), and
every number below a product is made up so (`exists_digits`). Grids and rows of texels are counted
in this way.
-/

namespace ComputeKernel

/-! ## Checked arithmetic -/

/-- A product below `2 ^ 32` is that of the numbers. -/
theorem Word.product?_eq_ok {a b : UInt32} (h : a.toNat * b.toNat < 2 ^ 32) :
    Word.product? a b = .ok (a * b) ∧ (a * b).toNat = a.toNat * b.toNat := by
  refine ⟨if_pos h, ?_⟩
  rw [UInt32.toNat_mul, Nat.mod_eq_of_lt h]

/-- So is a sum. -/
theorem Word.sum?_eq_ok {a b : UInt32} (h : a.toNat + b.toNat < 2 ^ 32) :
    Word.sum? a b = .ok (a + b) ∧ (a + b).toNat = a.toNat + b.toNat := by
  refine ⟨if_pos h, ?_⟩
  rw [UInt32.toNat_add, Nat.mod_eq_of_lt h]

/-- A number below a word is a word. -/
theorem toNat_toUInt32_of_lt {n : Nat} {w : UInt32} (h : n < w.toNat) : n.toUInt32.toNat = n := by
  rw [UInt32.toNat_ofNat', Nat.mod_eq_of_lt (Nat.lt_trans h w.toNat_lt)]

/-- And it is known by that word. -/
theorem toUInt32_inj_of_lt {m n : Nat} {w : UInt32} (hm : m < w.toNat) (hn : n < w.toNat)
    (h : m.toUInt32 = n.toUInt32) : m = n := by
  rw [← toNat_toUInt32_of_lt hm, ← toNat_toUInt32_of_lt hn, h]

/-! ## Digits -/

/-- A two-digit number is below the product of the bases. -/
theorem digits_lt {e g l i : Nat} (hl : l < e) (hi : i < g) : l * g + i < e * g :=
  calc l * g + i < l * g + g := Nat.add_lt_add_left hi _
    _ = (l + 1) * g := by rw [Nat.succ_mul]
    _ ≤ e * g := Nat.mul_le_mul_right g hl

/-- A two-digit number determines its digits. -/
theorem digits_inj {g l m i j : Nat} (hi : i < g) (hj : j < g) (h : l * g + i = m * g + j) :
    l = m ∧ i = j := by
  have hg : 0 < g := Nat.zero_lt_of_lt hi
  have hdiv := congrArg (· / g) h
  have hmod := congrArg (· % g) h
  simp only [Nat.mul_comm _ g, Nat.mul_add_div hg, Nat.div_eq_of_lt hi, Nat.div_eq_of_lt hj,
    Nat.mul_add_mod, Nat.mod_eq_of_lt hi, Nat.mod_eq_of_lt hj, Nat.add_zero] at hdiv hmod
  exact ⟨hdiv, hmod⟩

/-- A number below a product of bases has two digits. -/
theorem exists_digits {e g w : UInt32} (h : w.toNat < e.toNat * g.toNat) :
    (w / g).toNat < e.toNat ∧ (w % g).toNat < g.toNat ∧ (w / g).toNat * g.toNat + (w % g).toNat =
      w.toNat := by
  have hg : 0 < g.toNat := Nat.pos_of_mul_pos_left (Nat.zero_lt_of_lt h)
  rw [UInt32.toNat_div, UInt32.toNat_mod]
  exact ⟨Nat.div_lt_of_lt_mul (by rwa [Nat.mul_comm]), Nat.mod_lt _ hg, Nat.div_add_mod' _ _⟩

end ComputeKernel
