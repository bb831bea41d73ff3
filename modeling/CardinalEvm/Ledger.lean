import Mathlib.Algebra.BigOperators.Ring.Finset
import Mathlib.Algebra.Order.BigOperators.Group.Finset

/-!
# Ledgers

What finitely many accounts hold. A ledger is followed by one in which
nobody is overdrawn and that holds no more in total (`Ledger.Spends`): by
lowering balances, and by moving an amount from an account that has it.
-/

namespace Ledger

variable {ι : Type*} [Fintype ι] {f g h : ι → ℤ} {P Q : Prop}

/-- **Nothing comes out of nothing** on the way from `f` to `g`: if nobody
is overdrawn in `f` then nobody is in `g`, and, if `P` holds, `g` holds
no more in total. -/
def Spends (P : Prop) (f g : ι → ℤ) : Prop :=
  (∀ a, 0 ≤ f a) → (∀ a, 0 ≤ g a) ∧ (P → ∑ a, g a ≤ ∑ a, f a)

namespace Spends

theorem of_eq (hfg : ∀ a, g a = f a) : Spends P f g := by
  obtain rfl : g = f := funext hfg
  exact fun hpos => ⟨hpos, fun _ => le_rfl⟩

theorem trans (hfg : Spends P f g) (hgh : Spends P g h) : Spends P f h := by
  intro hpos
  obtain ⟨hpos', hle⟩ := hfg hpos
  obtain ⟨hpos'', hle'⟩ := hgh hpos'
  exact ⟨hpos'', fun hP => (hle' hP).trans (hle hP)⟩

theorem mono (hfg : Spends P f g) (hQ : Q → P) : Spends Q f g :=
  fun hpos => ⟨(hfg hpos).1, fun q => (hfg hpos).2 (hQ q)⟩

/-- Accounts are emptied. -/
theorem of_emptied (hfg : ∀ a, g a = f a ∨ g a = 0) : Spends P f g := by
  intro hpos
  have hle : ∀ a, 0 ≤ g a ∧ g a ≤ f a := by
    intro a
    have := hpos a
    obtain heq | heq := hfg a <;> omega
  exact ⟨fun a => (hle a).1, fun _ => Finset.sum_le_sum fun a _ => (hle a).2⟩

variable [DecidableEq ι] {x y : ι} {v : ℤ}

/-- **An amount is moved** from an account that has it to one that gets no
more than that. -/
theorem of_moved (hx : v ≤ f x) (hlo : ∀ a, f a - (if a = x then v else 0) ≤ g a)
    (hhi : ∀ a, g a ≤ f a - (if a = x then v else 0) + if a = y then v else 0) :
    Spends P f g := by
  intro hpos
  refine ⟨fun a => ?_, fun _ => ?_⟩
  · refine le_trans ?_ (hlo a)
    have := hpos a
    split_ifs with ha
    · rw [ha]
      omega
    · omega
  · calc ∑ a, g a
        ≤ ∑ a, (f a - (if a = x then v else 0) + if a = y then v else 0) :=
          Finset.sum_le_sum fun a _ => hhi a
      _ = ∑ a, f a - v + v := by
          rw [Finset.sum_add_distrib, Finset.sum_sub_distrib, Finset.sum_ite_eq' _ x,
            Finset.sum_ite_eq' _ y]
          simp
      _ = ∑ a, f a := sub_add_cancel _ _

end Spends

/-- Two accounts hold no more than all of them, if nobody is overdrawn. -/
theorem add_le_sum [DecidableEq ι] (hpos : ∀ a, 0 ≤ f a) {x y : ι} (hxy : x ≠ y) :
    f x + f y ≤ ∑ a, f a := by
  rw [← Finset.sum_pair hxy]
  exact Finset.sum_le_sum_of_subset_of_nonneg (Finset.subset_univ _) fun a _ _ => hpos a

end Ledger
