import Mathlib.Data.Finset.Card

/-!
# Counters that back a set

A counter is raised by a fixed rate whenever something joins a set and
lowered by it when something leaves. That it never goes below zero does
not depend on how it is used otherwise, as long as it is only raised: it
is enough that the counter *backs* the set, which is to say that it
covers the rate for each member of every finite part of it. The set
itself need not be finite, nor known.
-/

variable {ι : Type*}

/-- **The counter `n` backs the set `S`** at a rate. -/
def Backs (rate n : ℕ) (S : Set ι) : Prop :=
  ∀ F : Finset ι, (F : Set ι) ⊆ S → F.card * rate ≤ n

namespace Backs

variable {rate n m : ℕ} {S T : Set ι} {i : ι}

theorem empty (rate n : ℕ) : Backs rate n (∅ : Set ι) := by
  intro F hF
  obtain rfl : F = ∅ := by simpa using hF
  simp

/-- At no rate, everything is backed. -/
theorem of_rate_zero (n : ℕ) (S : Set ι) : Backs 0 n S := by
  intro F _
  simp

/-- A higher counter backs a smaller set. -/
theorem mono (h : Backs rate n S) (hn : n ≤ m) (hT : T ⊆ S) : Backs rate m T :=
  fun F hF => (h F (hF.trans hT)).trans hn

/-- **Joining**: the counter is raised by the rate. -/
theorem insert (h : Backs rate n S) (i : ι) : Backs rate (n + rate) (insert i S) := by
  classical
  intro F hF
  have herase : ((F.erase i : Finset ι) : Set ι) ⊆ S := by
    intro j hj
    obtain ⟨hne, hj⟩ := Finset.mem_erase.mp hj
    exact (hF hj).resolve_left hne
  calc F.card * rate ≤ ((F.erase i).card + 1) * rate :=
        Nat.mul_le_mul_right _ (Nat.sub_le_iff_le_add.mp Finset.pred_card_le_card_erase)
    _ = (F.erase i).card * rate + rate := by rw [Nat.add_mul, Nat.one_mul]
    _ ≤ n + rate := Nat.add_le_add_right (h _ herase) _

/-- The counter covers the rate of a member. -/
theorem rate_le (h : Backs rate n S) (hi : i ∈ S) : rate ≤ n := by
  have := h {i} (by simpa using hi)
  simpa using this

/-- **Leaving**: the counter is lowered by the rate. -/
theorem remove (h : Backs rate n S) (hi : i ∈ S) : Backs rate (n - rate) (S \ {i}) := by
  classical
  intro F hF
  have hnot : i ∉ F := fun hmem => (hF hmem).2 rfl
  have hcons : ((F.cons i hnot : Finset ι) : Set ι) ⊆ S := by
    intro j hj
    obtain rfl | hj := Finset.mem_cons.mp hj
    · exact hi
    · exact (hF hj).1
  have hle := h _ hcons
  rw [Finset.card_cons, Nat.add_mul, Nat.one_mul] at hle
  exact Nat.le_sub_of_add_le hle

end Backs
