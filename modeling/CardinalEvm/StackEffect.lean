import Mathlib.Data.Nat.Notation
import CardinalEvm.Effect

/-!
# Programs that move a stack

A program over a state with a stack in it leaves a *footprint*: how the
state after it relates to the one before, what it may stop for, and what
it may stop for if the stack was high enough. `Moves F a b m` says that
a program keeps to a footprint and takes a stack of height `a` to one of
height `b`, and any higher one accordingly. `Ends` says besides what the
program returns, and `Does` that it may refuse to run instead.

Whatever the footprint, a program inherits these from its parts, so one
walk through a program proves all of them at once.
-/

variable {ε σ τ α β ω : Type}

/-- **What a program may do** to a state that has a stack. -/
structure Footprint (ε σ : Type) where
  /-- The states it may lead to. -/
  rel : σ → σ → Prop
  /-- What it may stop for. -/
  stops : ε → Prop
  /-- What it may stop for where it finds its operands. -/
  finds : ε → Prop
  height : σ → ℕ
  refl : ∀ s, rel s s
  trans : ∀ {s t u}, rel s t → rel t u → rel s u

/-- **A footprint within another**, of a state that the first one's state
is a part of. -/
structure Footprint.Within (F : Footprint ε σ) (G : Footprint ε τ) (get : τ → σ)
    (put : σ → τ → τ) : Prop where
  height_get : ∀ t, G.height t = F.height (get t)
  height_put : ∀ s t, G.height (put s t) = F.height s
  rel : ∀ s t, F.rel (get t) s → G.rel t (put s t)
  stops : ∀ e, F.stops e → G.stops e
  finds : ∀ e, F.finds e → G.finds e

/-- **A program that takes a stack of height `a` to one of height `b`**,
and anything higher accordingly. -/
def Moves (F : Footprint ε σ) (a b : ℕ) (m : EStateM ε σ α) : Prop :=
  ∀ s, Sat m s (fun _ t => F.rel s t ∧ (a ≤ F.height s → F.height t + a = F.height s + b))
    (fun e t => F.rel s t ∧ F.stops e ∧ (a ≤ F.height s → F.finds e))

/-- **A program that moves the stack and returns** something in `Q`. -/
structure Ends (F : Footprint ε σ) (Q : ω → Prop) (a b : ℕ) (m : EStateM ε σ ω) : Prop where
  moves : Moves F a b m
  returns : Returns Q m

/-- **A program that moves the stack or refuses to run**, with what it
returns when it does. -/
structure Does (F : Footprint ε σ) (Q refuses : ω → Prop) (a b : ℕ) (m : EStateM ε σ ω) :
    Prop where
  sat : ∀ s, Sat m s (fun x t => F.rel s t ∧ (a ≤ F.height s →
      F.height t + a = F.height s + b ∨ refuses x ∧ F.height t ≤ F.height s))
    (fun e t => F.rel s t ∧ F.stops e ∧ (a ≤ F.height s → F.finds e))
  returns : Returns Q m

variable {F : Footprint ε σ} {G : Footprint ε τ} {a b c : ℕ}

namespace Moves

variable {m : EStateM ε σ α}

theorem pure (a : ℕ) (x : α) : Moves F a a (Pure.pure x : EStateM ε σ α) :=
  fun s => ⟨F.refl s, fun _ => rfl⟩

theorem throw {e : ε} (hs : F.stops e) (hf : F.finds e) (a b : ℕ) :
    Moves F a b (MonadExcept.throw e : EStateM ε σ α) :=
  fun s => ⟨F.refl s, hs, fun _ => hf⟩

theorem get (a : ℕ) : Moves F a a (MonadState.get : EStateM ε σ σ) :=
  fun s => ⟨F.refl s, fun _ => rfl⟩

theorem modifyGet (a : ℕ) {f : σ → α × σ}
    (hf : ∀ s, F.rel s (f s).2 ∧ F.height (f s).2 = F.height s) :
    Moves F a a (modifyGet f : EStateM ε σ α) :=
  fun s => ⟨(hf s).1, fun _ => congrArg (· + a) (hf s).2⟩

theorem modify (a : ℕ) {f : σ → σ} (hf : ∀ s, F.rel s (f s) ∧ F.height (f s) = F.height s) :
    Moves F a a (modify f : EStateM ε σ PUnit) := modifyGet a hf

theorem attempt (a : ℕ) {f : σ → Option (α × σ)} {e : ε} (hs : F.stops e) (hf : F.finds e)
    (h : ∀ s x t, f s = some (x, t) → F.rel s t ∧ F.height t = F.height s) :
    Moves F a a (attempt e f) :=
  fun s => sat_attempt (fun x t hx => ⟨(h s x t hx).1, fun _ => congrArg (· + a) (h s x t hx).2⟩)
    (fun _ => ⟨F.refl s, hs, fun _ => hf⟩)

theorem bind {f : α → EStateM ε σ β} (hm : Moves F a b m) (hf : ∀ x, Moves F b c (f x)) :
    Moves F a c (m >>= f) := by
  refine fun s => .bind ((hm s).mono (fun x t h => ?_))
  refine (hf x t).mono (fun _ u h' => ⟨F.trans h.1 h'.1, fun ha => ?_⟩)
    (fun _ u h' => ⟨F.trans h.1 h'.1, h'.2.1, fun ha => h'.2.2 ?_⟩)
  · have := h.2 ha
    have := h'.2 (by omega)
    omega
  · have := h.2 ha
    omega

theorem ite {p : Prop} [Decidable p] {m' : EStateM ε σ α} (hm : Moves F a b m)
    (hm' : Moves F a b m') : Moves F a b (if p then m else m') :=
  fun s => .ite (fun _ => hm s) (fun _ => hm' s)

/-- A program on a part of the state that holds the stack. -/
theorem zoom {get : τ → σ} {put : σ → τ → τ} (hm : Moves F a b m) (hw : F.Within G get put) :
    Moves G a b (zoom get put m) := by
  intro t
  have hget := hw.height_get t
  refine sat_zoom.mpr ((hm (get t)).mono (fun _ s h => ⟨hw.rel s t h.1, fun ha => ?_⟩)
    (fun e s h => ⟨hw.rel s t h.1, hw.stops e h.2.1, fun ha => hw.finds e (h.2.2 (hget ▸ ha))⟩))
  rw [hw.height_put, hget]
  exact h.2 (hget ▸ ha)

theorem tame (hm : Moves F a b m) : Tame F.rel F.stops m :=
  fun s => (hm s).mono (fun _ _ h => h.1) (fun _ _ h => ⟨h.1, h.2.1⟩)

end Moves

namespace Ends

variable {Q : ω → Prop}

theorem pure (a : ℕ) {x : ω} (h : Q x) : Ends F Q a a (Pure.pure x : EStateM ε σ ω) :=
  ⟨.pure a x, .pure h⟩

theorem throw {e : ε} (hs : F.stops e) (hf : F.finds e) (a b : ℕ) :
    Ends F Q a b (MonadExcept.throw e : EStateM ε σ ω) :=
  ⟨.throw hs hf a b, .throw e⟩

theorem bind {m : EStateM ε σ α} {f : α → EStateM ε σ ω} (hm : Moves F a b m)
    (hf : ∀ x, Ends F Q b c (f x)) : Ends F Q a c (m >>= f) :=
  ⟨hm.bind fun x => (hf x).moves, .bind fun x => (hf x).returns⟩

theorem ite {p : Prop} [Decidable p] {m m' : EStateM ε σ ω} (hm : Ends F Q a b m)
    (hm' : Ends F Q a b m') : Ends F Q a b (if p then m else m') :=
  ⟨hm.moves.ite hm'.moves, hm.returns.ite hm'.returns⟩

theorem zoom {get : τ → σ} {put : σ → τ → τ} {m : EStateM ε σ ω} (hm : Ends F Q a b m)
    (hw : F.Within G get put) : Ends G Q a b (zoom get put m) :=
  ⟨hm.moves.zoom hw, hm.returns.zoom⟩

end Ends

namespace Does

variable {Q refuses : ω → Prop} {m : EStateM ε σ ω}

theorem of_ends (hm : Ends F Q a b m) : Does F Q refuses a b m :=
  ⟨fun s => (hm.moves s).mono (fun _ _ h => ⟨h.1, fun ha => .inl (h.2 ha)⟩),
    hm.returns⟩

theorem refuse {x : ω} (a b : ℕ) (hQ : Q x) (h : refuses x) :
    Does F Q refuses a b (Pure.pure x : EStateM ε σ ω) :=
  ⟨fun s => ⟨F.refl s, fun _ => .inr ⟨h, Nat.le_refl _⟩⟩, .pure hQ⟩

/-- What comes before the refusal must not make the stack higher. -/
theorem bind {m : EStateM ε σ α} {f : α → EStateM ε σ ω} (hm : Moves F a b m)
    (hf : ∀ x, Does F Q refuses b c (f x)) (hba : b ≤ a) : Does F Q refuses a c (m >>= f) := by
  refine ⟨fun s => .bind ((hm s).mono (fun x t h => ?_)),
    .bind fun x => (hf x).returns⟩
  refine ((hf x).sat t).mono (fun _ u h' => ⟨F.trans h.1 h'.1, fun ha => ?_⟩)
    (fun _ u h' => ⟨F.trans h.1 h'.1, h'.2.1, fun ha => h'.2.2 ?_⟩)
  · have := h.2 ha
    obtain h' | ⟨hr, h'⟩ := h'.2 (by omega)
    · exact .inl (by omega)
    · exact .inr ⟨hr, by omega⟩
  · have := h.2 ha
    omega

theorem ite {p : Prop} [Decidable p] {m' : EStateM ε σ ω} (hm : Does F Q refuses a b m)
    (hm' : Does F Q refuses a b m') : Does F Q refuses a b (if p then m else m') :=
  ⟨fun s => .ite (fun _ => hm.sat s) (fun _ => hm'.sat s), hm.returns.ite hm'.returns⟩

/-- What comes afterwards leaves the stack alone. -/
theorem tail {g : ω → EStateM ε σ Unit} (hm : Does F Q refuses a b m)
    (hg : ∀ x, Moves F 0 0 (g x)) :
    Does F Q refuses a b (do
      let x ← m
      g x
      Pure.pure x) := by
  refine ⟨fun s => .bind ((hm.sat s).mono (fun x t h => ?_)),
    .bind_of hm.returns fun _ hx => .bind fun _ => .pure hx⟩
  refine .bind ((hg x t).mono (fun _ u h' => ⟨F.trans h.1 h'.1, ?_⟩)
    (fun _ _ h' => ⟨F.trans h.1 h'.1, h'.2.1, fun _ => h'.2.2 (Nat.zero_le _)⟩))
  have heq : F.height u = F.height t := h'.2 (Nat.zero_le _)
  rw [heq]
  exact h.2

theorem zoom {get : τ → σ} {put : σ → τ → τ} (hm : Does F Q refuses a b m)
    (hw : F.Within G get put) : Does G Q refuses a b (zoom get put m) := by
  refine ⟨fun t => ?_, hm.returns.zoom⟩
  have hget := hw.height_get t
  refine sat_zoom.mpr ((hm.sat (get t)).mono (fun _ s h => ⟨hw.rel s t h.1, fun ha => ?_⟩)
    (fun e s h => ⟨hw.rel s t h.1, hw.stops e h.2.1, fun ha => hw.finds e (h.2.2 (hget ▸ ha))⟩))
  rw [hw.height_put, hget]
  exact h.2 (hget ▸ ha)

/-- A larger footprint of the same state. -/
theorem mono {G : Footprint ε σ} (hm : Does F Q refuses a b m)
    (hw : F.Within G id fun s _ => s) : Does G Q refuses a b m := by
  refine ⟨fun t => ?_, hm.returns⟩
  have hget := hw.height_get t
  refine (hm.sat t).mono (fun _ s h => ⟨hw.rel s t h.1, fun ha => ?_⟩)
    (fun e s h => ⟨hw.rel s t h.1, hw.stops e h.2.1, fun ha => hw.finds e (h.2.2 (hget ▸ ha))⟩)
  rw [hw.height_put s t, hget]
  exact h.2 (hget ▸ ha)

theorem tame (hm : Does F Q refuses a b m) : Tame F.rel F.stops m :=
  fun s => (hm.sat s).mono (fun _ _ h => h.1) (fun _ _ h => ⟨h.1, h.2.1⟩)

end Does
