import Mathlib.Data.Set.Function

/-!
# Tables of results, keyed by a digest

A function that is costly to compute is remembered in a table, and the
table is keyed not by the argument but by a digest of it. Such a table
is right as long as the digest tells the arguments apart that were ever
put into it or looked up in it – a condition on these arguments, which a
digest of bounded length can meet, and not on all.

`Memo.Sound digest f C m` says that every entry of the table `m` is the
result of an argument in `C` with that digest. Entries made for
arguments in `C` keep it so, and a lookup under the digest of an
argument in `C` finds that argument's own result.
-/

variable {α κ β : Type*}

namespace Memo

/-- **Every entry is the result of an argument in `C`** with the digest
it stands under. The function may be partial. -/
def Sound (digest : α → κ) (f : α → Option β) (C : Set α) (m : κ → Option β) : Prop :=
  ∀ k v, m k = some v → ∃ a ∈ C, digest a = k ∧ f a = some v

variable {digest : α → κ} {f : α → Option β} {C : Set α} {m : κ → Option β}

theorem sound_empty (digest : α → κ) (f : α → Option β) (C : Set α) :
    Sound digest f C (fun _ => none) := by
  intro k v h
  cases h

/-- Remembering a result. -/
theorem Sound.update [DecidableEq κ] (h : Sound digest f C m) {a : α} {v : β} (ha : a ∈ C)
    (hv : f a = some v) : Sound digest f C (Function.update m (digest a) (some v)) := by
  intro k w hw
  by_cases hk : k = digest a
  · subst hk
    rw [Function.update_self] at hw
    exact ⟨a, ha, rfl, hv.trans hw⟩
  · rw [Function.update_of_ne hk] at hw
    exact h k w hw

/-- **What is found is right**, where the digest is injective. -/
theorem Sound.lookup (h : Sound digest f C m) (hinj : Set.InjOn digest C) {a : α} {v : β}
    (ha : a ∈ C) (hv : m (digest a) = some v) : f a = some v := by
  obtain ⟨b, hb, hdigest, hfb⟩ := h _ v hv
  rwa [← hinj hb ha hdigest]

end Memo
