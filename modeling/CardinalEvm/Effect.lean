import Mathlib.Order.Defs.Unbundled

/-!
# Rules for code that writes a state and can stop

A program of `EStateM ε σ` reads and writes a state `σ`, and either
returns or stops with an `ε`. What it wrote before it stopped stays
written.

`Sat m s Q E` says what a run from `s` ends in: `Q` of the value and the
state if it returns, `E` of the reason and the state if it stops. Every
way of putting programs together has a rule that is an equation, so that
rewriting with the rules turns the statement about a program into one
about its parts, in the order they run.

`Keeps R m` is the special case of a preorder `R` that relates the state
before a program to the state after it, whichever way it ends. It is
what a program inherits from its parts with nothing to be said about the
values passed between them.
-/

variable {ε σ τ α β : Type}

/-- **How a run from `s` ends**: in `Q` if the program returns, in `E`
if it stops. -/
def Sat (m : EStateM ε σ α) (s : σ) (Q : α → σ → Prop) (E : ε → σ → Prop) : Prop :=
  match m s with
  | .ok a s' => Q a s'
  | .error e s' => E e s'

/-- Runs a program on a part of a larger state. -/
def zoom (get : σ → τ) (put : τ → σ → σ) (m : EStateM ε τ α) : EStateM ε σ α := fun s =>
  match m (get s) with
  | .ok a t => .ok a (put t s)
  | .error e t => .error e (put t s)

/-- Runs a function that gives a value and a new state, and stops where
it gives nothing. -/
def attempt (e : ε) (f : σ → Option (α × σ)) : EStateM ε σ α := fun s =>
  match f s with
  | some (a, s') => .ok a s'
  | none => .error e s

section Sat

variable {m : EStateM ε σ α} {s : σ} {Q Q' : α → σ → Prop} {E E' : ε → σ → Prop}

/-- **Weakening**, by default of what holds where the program returns. -/
theorem Sat.mono (h : Sat m s Q E) (hQ : ∀ a s', Q a s' → Q' a s')
    (k : ∀ e s', E e s' → E' e s' := by
      first | exact fun _ _ h => h | exact fun _ _ h => h.elim | exact fun _ _ _ => trivial) :
    Sat m s Q' E' := by
  unfold Sat at h ⊢
  cases hm : m s with
  | ok a s' => exact hQ a s' (by rwa [hm] at h)
  | error e s' => exact k e s' (by rwa [hm] at h)

theorem Sat.of_forall (hQ : ∀ a s', Q a s') (hE : ∀ e s', E e s') : Sat m s Q E := by
  unfold Sat
  cases m s with
  | ok a s' => exact hQ a s'
  | error e s' => exact hE e s'

theorem Sat.and (h : Sat m s Q E) (h' : Sat m s Q' E') :
    Sat m s (fun a s' => Q a s' ∧ Q' a s') (fun e s' => E e s' ∧ E' e s') := by
  unfold Sat at h h' ⊢
  cases hm : m s with
  | ok a s' | error e s' => exact ⟨by rwa [hm] at h, by rwa [hm] at h'⟩

variable {a : α} {s' : σ} {e : ε}

/-- What holds of every end holds of a run that returned. -/
theorem Sat.of_ok (h : Sat m s Q E) (hm : m s = .ok a s') : Q a s' := by
  unfold Sat at h
  rwa [hm] at h

/-- What holds of every end holds of a run that stopped. -/
theorem Sat.of_error (h : Sat m s Q E) (hm : m s = .error e s') : E e s' := by
  unfold Sat at h
  rwa [hm] at h

/-- A run that is known to return. -/
theorem Sat.returns (hm : m s = .ok a s') (hQ : Q a s') : Sat m s Q E := by
  unfold Sat
  rwa [hm]

/-- A run that is known to stop. -/
theorem Sat.stops (hm : m s = .error e s') (hE : E e s') : Sat m s Q E := by
  unfold Sat
  rwa [hm]

instance [∀ a s, Decidable (Q a s)] [∀ e s, Decidable (E e s)] : Decidable (Sat m s Q E) :=
  match h : m s with
  | .ok a s' => decidable_of_iff (Q a s') (by rw [Sat, h])
  | .error e s' => decidable_of_iff (E e s') (by rw [Sat, h])

/-- A run that does not stop returns. -/
theorem exists_of_sat (h : Sat m s Q (fun _ _ => False)) : ∃ a s', m s = .ok a s' ∧ Q a s' := by
  unfold Sat at h
  cases hm : m s with
  | ok a s' => exact ⟨a, s', rfl, by rwa [hm] at h⟩
  | error e s' => rw [hm] at h; cases h

/-- The state in which a run from `s` ends, however it ends. -/
def lastState (m : EStateM ε σ α) (s : σ) : σ :=
  match m s with
  | .ok _ s' => s'
  | .error _ s' => s'

theorem eq_lastState_of_sat (h : Sat m s Q (fun _ _ => False)) :
    ∃ a, m s = .ok a (lastState m s) ∧ Q a (lastState m s) := by
  obtain ⟨a, s', hm, hQ⟩ := exists_of_sat h
  have hlast : lastState m s = s' := by rw [lastState, hm]
  rw [hlast]
  exact ⟨a, hm, hQ⟩

/-- A run that does not return stops. -/
theorem exists_error_of_sat (h : Sat m s (fun _ _ => False) E) :
    ∃ e s', m s = .error e s' ∧ E e s' := by
  unfold Sat at h
  cases hm : m s with
  | ok a s' => rw [hm] at h; cases h
  | error e s' => exact ⟨e, s', rfl, by rwa [hm] at h⟩

/-- A computation known by what it returns. -/
theorem exists_of_run' (h : m.run' s = some a) : ∃ s', m s = .ok a s' := by
  unfold EStateM.run' EStateM.run at h
  cases hm : m s with
  | ok b s' =>
    rw [hm] at h
    exact ⟨s', by rw [Option.some.inj h]⟩
  | error e s' =>
    rw [hm] at h
    cases h

@[simp] theorem sat_pure : Sat (pure a : EStateM ε σ α) s Q E ↔ Q a s := Iff.rfl

@[simp] theorem sat_throw : Sat (throw e : EStateM ε σ α) s Q E ↔ E e s := Iff.rfl

@[simp] theorem sat_get {Q : σ → σ → Prop} :
    Sat (get : EStateM ε σ σ) s Q E ↔ Q s s := Iff.rfl

@[simp] theorem sat_modify {f : σ → σ} {Q : PUnit → σ → Prop} :
    Sat (modify f : EStateM ε σ PUnit) s Q E ↔ Q ⟨⟩ (f s) := Iff.rfl

@[simp] theorem sat_modifyGet {f : σ → α × σ} :
    Sat (modifyGet f : EStateM ε σ α) s Q E ↔ Q (f s).1 (f s).2 := Iff.rfl

/-- **Composition.** -/
@[simp] theorem sat_bind {f : α → EStateM ε σ β} {Q : β → σ → Prop} :
    Sat (m >>= f) s Q E ↔ Sat m s (fun a s' => Sat (f a) s' Q E) E := by
  show (match EStateM.bind m f s with | .ok a s' => Q a s' | .error e s' => E e s') ↔ _
  unfold Sat EStateM.bind
  cases m s with
  | ok a s' => exact Iff.rfl
  | error e s' => exact Iff.rfl

theorem Sat.bind {f : α → EStateM ε σ β} {Q : β → σ → Prop}
    (h : Sat m s (fun a s' => Sat (f a) s' Q E) E) : Sat (m >>= f) s Q E := sat_bind.mpr h

/-- **One program before another**, which starts from what the first
leaves. Where the first stops, so do both. -/
theorem Sat.next {f : α → EStateM ε σ β} {Q' : β → σ → Prop} (h : Sat m s Q E)
    (hf : ∀ a s', Q a s' → Sat (f a) s' Q' E')
    (k : ∀ e s', E e s' → E' e s' := by
      first | exact fun _ _ h => h | exact fun _ _ h => h.elim | exact fun _ _ _ => trivial) :
    Sat (m >>= f) s Q' E' :=
  .bind (h.mono hf k)

@[simp] theorem sat_map {f : α → β} {Q : β → σ → Prop} :
    Sat (f <$> m) s Q E ↔ Sat m s (fun a s' => Q (f a) s') E := by
  show (match EStateM.map f m s with | .ok a s' => Q a s' | .error e s' => E e s') ↔ _
  unfold Sat EStateM.map
  cases m s with
  | ok a s' => exact Iff.rfl
  | error e s' => exact Iff.rfl

@[simp] theorem sat_ite {c : Prop} [Decidable c] {m' : EStateM ε σ α} :
    Sat (if c then m else m') s Q E ↔ if c then Sat m s Q E else Sat m' s Q E := by
  split <;> exact Iff.rfl

theorem Sat.ite {c : Prop} [Decidable c] {m' : EStateM ε σ α} (hm : c → Sat m s Q E)
    (hm' : ¬ c → Sat m' s Q E) : Sat (if c then m else m') s Q E := by
  split
  · exact hm ‹c›
  · exact hm' ‹¬ c›

@[simp] theorem sat_zoom {get : σ → τ} {put : τ → σ → σ} {m : EStateM ε τ α} :
    Sat (zoom get put m) s Q E ↔
      Sat m (get s) (fun a t => Q a (put t s)) (fun e t => E e (put t s)) := by
  unfold Sat zoom
  cases m (get s) with
  | ok a t => exact Iff.rfl
  | error e t => exact Iff.rfl

/-- A function that can give nothing, by cases on what it gives. -/
theorem sat_attempt {f : σ → Option (α × σ)} (hQ : ∀ a s', f s = some (a, s') → Q a s')
    (hE : f s = none → E e s) :
    Sat (attempt e f) s Q E := by
  unfold Sat attempt
  cases hf : f s with
  | none => exact hE hf
  | some p => exact hQ p.1 p.2 hf

end Sat

/-- **A program related to its start**: whichever way it ends, the
state before it and the state after it are related by `R`. -/
def Keeps (R : σ → σ → Prop) (m : EStateM ε σ α) : Prop :=
  ∀ s, Sat m s (fun _ => R s) (fun _ => R s)

namespace Keeps

variable {R : σ → σ → Prop} [IsPreorder σ R] {m : EStateM ε σ α}

omit [IsPreorder σ R] in
theorem mono {R' : σ → σ → Prop} (h : Keeps R m) (hR : ∀ s t, R s t → R' s t) : Keeps R' m :=
  fun s => (h s).mono (fun _ t => hR s t) (fun _ t => hR s t)

theorem pure (a : α) : Keeps R (Pure.pure a : EStateM ε σ α) := fun s => refl_of R s

theorem throw (e : ε) : Keeps R (MonadExcept.throw e : EStateM ε σ α) := fun s => refl_of R s

theorem get : Keeps R (MonadState.get : EStateM ε σ σ) := fun s => refl_of R s

theorem bind {f : α → EStateM ε σ β} (hm : Keeps R m) (hf : ∀ a, Keeps R (f a)) :
    Keeps R (m >>= f) := by
  intro s
  rw [sat_bind]
  refine (hm s).mono (fun a s' h => ?_)
  exact (hf a s').mono (fun _ _ h' => trans_of R h h') (fun _ _ h' => trans_of R h h')

/-- A program that keeps `R`, before anything else. -/
theorem sat_bind {s₀ s : σ} {f : α → EStateM ε σ β} {Q : β → σ → Prop} {E : ε → σ → Prop}
    (hm : Keeps R m) (h : R s₀ s) (hf : ∀ a s', R s₀ s' → Sat (f a) s' Q E)
    (hE : ∀ e s', R s₀ s' → E e s') : Sat (m >>= f) s Q E := by
  refine Sat.bind ?_
  exact (hm s).mono (fun a s' h' => hf a s' (trans_of R h h'))
    (fun e s' h' => hE e s' (trans_of R h h'))

omit [IsPreorder σ R] in
theorem ite {c : Prop} [Decidable c] {m' : EStateM ε σ α} (hm : Keeps R m) (hm' : Keeps R m') :
    Keeps R (if c then m else m') := by
  split
  · exact hm
  · exact hm'

end Keeps

/-- **A program related to its start, with what it stops for**: it keeps
`R`, and the reasons for which it stops are in `P`. -/
def Tame (R : σ → σ → Prop) (P : ε → Prop) (m : EStateM ε σ α) : Prop :=
  ∀ s, Sat m s (fun _ => R s) (fun e t => R s t ∧ P e)

namespace Tame

variable {R : σ → σ → Prop} [IsPreorder σ R] {P : ε → Prop} {m : EStateM ε σ α}

theorem pure (a : α) : Tame R P (Pure.pure a : EStateM ε σ α) := fun s => refl_of R s

theorem throw {e : ε} (h : P e) : Tame R P (MonadExcept.throw e : EStateM ε σ α) :=
  fun s => ⟨refl_of R s, h⟩

theorem get : Tame R P (MonadState.get : EStateM ε σ σ) := fun s => refl_of R s

theorem attempt {e : ε} (he : P e) {f : σ → Option (α × σ)}
    (h : ∀ s a t, f s = some (a, t) → R s t) : Tame R P (attempt e f) :=
  fun s => sat_attempt (fun a t hf => h s a t hf) (fun _ => ⟨refl_of R s, he⟩)

theorem bind {f : α → EStateM ε σ β} (hm : Tame R P m) (hf : ∀ a, Tame R P (f a)) :
    Tame R P (m >>= f) := by
  refine fun s => .bind ((hm s).mono (fun a s' h => ?_))
  exact (hf a s').mono (fun _ _ h' => trans_of R h h') (fun _ _ h' => ⟨trans_of R h h'.1, h'.2⟩)

/-- A tame program, before anything else. -/
theorem sat_bind {s₀ s : σ} {f : α → EStateM ε σ β} {Q : β → σ → Prop} {E : ε → σ → Prop}
    (hm : Tame R P m) (h : R s₀ s) (hf : ∀ a s', R s₀ s' → Sat (f a) s' Q E)
    (hE : ∀ e s', R s₀ s' → P e → E e s') : Sat (m >>= f) s Q E := by
  refine Sat.bind ?_
  exact (hm s).mono (fun a s' h' => hf a s' (trans_of R h h'))
    (fun e s' h' => hE e s' (trans_of R h h'.1) h'.2)

omit [IsPreorder σ R] in
theorem ite {c : Prop} [Decidable c] {m' : EStateM ε σ α} (hm : Tame R P m)
    (hm' : Tame R P m') : Tame R P (if c then m else m') := by
  split
  · exact hm
  · exact hm'

end Tame

/-- **What a program returns**, whatever state it is run in. -/
def Returns (P : α → Prop) (m : EStateM ε σ α) : Prop :=
  ∀ s, Sat m s (fun a _ => P a) (fun _ _ => True)

namespace Returns

variable {P : α → Prop}

theorem pure {a : α} (h : P a) : Returns P (Pure.pure a : EStateM ε σ α) := fun _ => h

theorem throw (e : ε) : Returns P (MonadExcept.throw e : EStateM ε σ α) := fun _ => trivial

variable {m : EStateM ε σ α} {f : α → EStateM ε σ β}

/-- A program returns what its last part returns. -/
theorem bind {P : β → Prop} (h : ∀ a, Returns P (f a)) : Returns P (m >>= f) :=
  fun _ => .bind (.of_forall (fun a s' => h a s') (fun _ _ => trivial))

/-- What the last part returns, given what the first part returned. -/
theorem bind_of {Q : β → Prop} (hm : Returns P m) (hf : ∀ a, P a → Returns Q (f a)) :
    Returns Q (m >>= f) :=
  fun s => .bind ((hm s).mono (fun a s' ha => hf a ha s'))

/-- What holds whenever the first part returns. -/
theorem of_first {p : Prop} (h : Returns (fun _ => p) m) : Returns (fun _ => p) (m >>= f) :=
  fun s => .bind ((h s).mono (fun _ _ hp => .of_forall (fun _ _ => hp) (fun _ _ => trivial)))

theorem ite {c : Prop} [Decidable c] {m' : EStateM ε σ α} (hm : Returns P m) (hm' : Returns P m') :
    Returns P (if c then m else m') :=
  fun s => .ite (fun _ => hm s) (fun _ => hm' s)

theorem zoom {get : σ → τ} {put : τ → σ → σ} {m : EStateM ε τ α} (h : Returns P m) :
    Returns P (zoom get put m) :=
  fun s => sat_zoom.mpr (h (get s))

end Returns

/-- **Why a program stops**, whatever state it is run in. -/
def Stops (P : ε → Prop) (m : EStateM ε σ α) : Prop :=
  ∀ s, Sat m s (fun _ _ => True) (fun e _ => P e)

namespace Stops

variable {P : ε → Prop} {m : EStateM ε σ α}

theorem pure (a : α) : Stops P (Pure.pure a : EStateM ε σ α) := fun _ => trivial

theorem throw {e : ε} (h : P e) : Stops P (MonadExcept.throw e : EStateM ε σ α) := fun _ => h

theorem get : Stops P (MonadState.get : EStateM ε σ σ) := fun _ => trivial

theorem modify (f : σ → σ) : Stops P (modify f : EStateM ε σ PUnit) := fun _ => trivial

theorem modifyGet (f : σ → α × σ) : Stops P (modifyGet f : EStateM ε σ α) := fun _ => trivial

theorem bind {f : α → EStateM ε σ β} (hm : Stops P m) (hf : ∀ a, Stops P (f a)) :
    Stops P (m >>= f) :=
  fun s => .bind ((hm s).mono (fun a s' _ => hf a s'))

theorem ite {c : Prop} [Decidable c] {m' : EStateM ε σ α} (hm : Stops P m) (hm' : Stops P m') :
    Stops P (if c then m else m') :=
  fun s => .ite (fun _ => hm s) (fun _ => hm' s)

theorem attempt {e : ε} (h : P e) (f : σ → Option (α × σ)) : Stops P (attempt e f) :=
  fun _ => sat_attempt (fun _ _ _ => trivial) (fun _ => h)

theorem zoom {get : σ → τ} {put : τ → σ → σ} {m : EStateM ε τ α} (h : Stops P m) :
    Stops P (zoom get put m) :=
  fun s => sat_zoom.mpr (h (get s))

end Stops

/-! ## Results -/

section Results

variable {x : Except ε α}

theorem exceptBind_eq_ok {f : α → Except ε β} {b : β} :
    (x >>= f) = .ok b ↔ ∃ a, x = .ok a ∧ f a = .ok b := by
  cases x with
  | error e => exact ⟨nofun, nofun⟩
  | ok a =>
    refine ⟨fun h => ⟨a, rfl, h⟩, ?_⟩
    rintro ⟨_, ⟨⟩, h⟩
    exact h

theorem exceptMap_eq_ok {f : α → β} {b : β} : f <$> x = .ok b ↔ ∃ a, x = .ok a ∧ f a = b := by
  cases x with
  | error e => exact ⟨nofun, nofun⟩
  | ok a =>
    refine ⟨fun h => ⟨a, rfl, Except.ok.inj h⟩, ?_⟩
    rintro ⟨_, ⟨⟩, rfl⟩
    rfl

end Results
