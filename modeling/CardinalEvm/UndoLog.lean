import Mathlib.Data.List.Basic
import Mathlib.Order.Defs.Unbundled

/-!
# Undo logs

A store that can be rolled back keeps, beside its contents, a log of
entries: each change appends an entry that says how to take the change
back, and rolling back runs the entries of the log from the newest to
the oldest until the log is as long as it was.

What rolling back restores is rarely the very state it started from. A
store that fills caches while it is read comes back with more of them
filled, and a store that allocates on demand comes back with more
allocated. So the library is about a preorder `le`, read "`t` is `s`
with more of it worked out": undoing is monotone for it, and rolling
back restores the old state *up to* `le`.

`UndoLog.Extends s s'` is the invariant of such a store. The log of
`s'` is the log of `s` with further entries on top, and running these
entries on `s'` succeeds and gives back `s` up to `le`. It is reflexive
and transitive, so a sequence of changes each of which extends its own
start extends the start of the whole sequence, whatever else – nested
rollbacks included – happened in between.
-/

namespace Option.Rel

variable {α β γ δ : Type*} {R S : α → β → Prop} {x : Option α} {y : Option β}

theorem mono (hxy : Option.Rel R x y) (hRS : ∀ a b, R a b → S a b) : Option.Rel S x y := by
  cases hxy with
  | none => exact .none
  | some hab => exact .some (hRS _ _ hab)

theorem map {T : γ → δ → Prop} {f : α → γ} {g : β → δ} (hxy : Option.Rel R x y)
    (hRT : ∀ a b, R a b → T (f a) (g b)) : Option.Rel T (x.map f) (y.map g) := by
  cases hxy with
  | none => exact .none
  | some hab => exact .some (hRT _ _ hab)

theorem bind {T : γ → δ → Prop} {f : α → Option γ} {g : β → Option δ} (hxy : Option.Rel R x y)
    (hRT : ∀ a b, R a b → Option.Rel T (f a) (g b)) : Option.Rel T (x.bind f) (y.bind g) := by
  cases hxy with
  | none => exact .none
  | some hab => exact hRT _ _ hab

theorem of_map {T : γ → δ → Prop} {f : α → γ} {g : β → δ}
    (h : Option.Rel T (x.map f) (y.map g)) : Option.Rel (fun a b => T (f a) (g b)) x y := by
  cases x <;> cases y <;> cases h
  · exact .none
  · exact .some (by assumption)

theorem of_some {a : α} (hxy : Option.Rel R x y) (hx : x = Option.some a) :
    ∃ b, y = Option.some b ∧ R a b := by
  cases hxy with
  | none => cases hx
  | some hab =>
    cases hx
    exact ⟨_, rfl, hab⟩

theorem of_none (hxy : Option.Rel R x y) (hx : x = Option.none) : y = Option.none := by
  cases hxy with
  | none => rfl
  | some _ => cases hx

end Option.Rel

variable {σ ε τ ε' : Type*}

/-- Runs a list of entries, the head first. -/
def undoAll (undo : ε → σ → Option σ) : List ε → σ → Option σ
  | [], s => some s
  | e :: es, s => (undo e s).bind (undoAll undo es)

section UndoAll

variable (undo : ε → σ → Option σ)

@[simp] theorem undoAll_nil (s : σ) : undoAll undo [] s = some s := rfl

@[simp] theorem undoAll_cons (e : ε) (es : List ε) (s : σ) :
    undoAll undo (e :: es) s = (undo e s).bind (undoAll undo es) := rfl

/-- Running two lists one after the other is running their
concatenation. -/
theorem undoAll_append (es es' : List ε) (s : σ) :
    undoAll undo (es ++ es') s = (undoAll undo es s).bind (undoAll undo es') := by
  induction es generalizing s with
  | nil => rfl
  | cons e es ih =>
    rw [List.cons_append, undoAll_cons, undoAll_cons, Option.bind_assoc]
    exact congrArg _ (funext ih)

/-- What every entry keeps, running a list keeps. -/
theorem undoAll_induct {undo : ε → σ → Option σ} (P : σ → Prop)
    (step : ∀ e s t, P s → undo e s = some t → P t) {es : List ε} {s t : σ} (hs : P s)
    (h : undoAll undo es s = some t) : P t := by
  induction es generalizing s with
  | nil =>
    cases h
    exact hs
  | cons e es ih =>
    obtain ⟨s₁, hs₁, h⟩ := Option.bind_eq_some_iff.mp h
    exact ih (step e s s₁ hs hs₁) h

/-- **What two logs keep together**, entry by entry, running the entries
above `rest` of the one and `rest'` of the other keeps. -/
theorem undoAll_rel {undo : ε → σ → Option σ} {undo' : ε' → τ → Option τ}
    {R : List ε → List ε' → σ → τ → Prop} (rest : List ε) (rest' : List ε')
    (step : ∀ e es e' es' s t, rest <:+ es → R (e :: es) (e' :: es') s t →
      Option.Rel (R es es') (undo e s) (undo' e' t))
    {es : List ε} {es' : List ε'} {s : σ} {t : τ} (hlen : es'.length = es.length)
    (h : R (es ++ rest) (es' ++ rest') s t) :
    Option.Rel (R rest rest') (undoAll undo es s) (undoAll undo' es' t) := by
  induction es generalizing es' s t with
  | nil =>
    obtain rfl := List.length_eq_zero_iff.mp hlen
    exact .some h
  | cons e es ih =>
    obtain ⟨e', es', rfl⟩ := List.exists_cons_of_length_eq_add_one hlen
    exact (step e _ e' _ s t (List.suffix_append es rest) h).bind
      fun _ _ h => ih (Nat.succ.inj hlen) h

end UndoAll

/-- **A store with an undo log.** The log is kept newest entry first. -/
structure UndoLog (σ ε : Type*) where
  /-- The log of a state. -/
  log : σ → List ε
  /-- Takes one change back. It can fail: an entry run on a state it was
  not made for may find nothing to undo. -/
  undo : ε → σ → Option σ
  /-- `le s t`: the state `t` is `s` with more of it worked out. -/
  le : σ → σ → Prop
  le_refl : ∀ s, le s s
  le_trans : ∀ {s t u}, le s t → le t u → le s u
  /-- Undoing is monotone: where it works on a state it works on every
  state with more worked out, and the results compare. -/
  undo_mono : ∀ {e s s' t}, le s t → undo e s = some s' →
    ∃ t', undo e t = some t' ∧ le s' t'

namespace UndoLog

variable (L : UndoLog σ ε)

/-- Monotonicity of `undo`, along a whole list. -/
theorem undoAll_mono {es : List ε} {s s' t : σ} (hst : L.le s t)
    (h : undoAll L.undo es s = some s') :
    ∃ t', undoAll L.undo es t = some t' ∧ L.le s' t' := by
  induction es generalizing s t with
  | nil =>
    obtain rfl : s = s' := by simpa using h
    exact ⟨t, rfl, hst⟩
  | cons e es ih =>
    obtain ⟨s₁, hs₁, h⟩ := Option.bind_eq_some_iff.mp h
    obtain ⟨t₁, ht₁, hle⟩ := L.undo_mono hst hs₁
    obtain ⟨t', ht', hle'⟩ := ih hle h
    exact ⟨t', by rw [undoAll_cons, ht₁]; exact ht', hle'⟩

/-- **`s'` can be rolled back to `s`**: its log is that of `s` with
entries on top, and running them restores `s` up to `le`. -/
def Extends (s s' : σ) : Prop :=
  ∃ es, L.log s' = es ++ L.log s ∧ ∃ t, undoAll L.undo es s' = some t ∧ L.le s t

/-- Working more of a state out, with nothing logged, extends it. -/
theorem Extends.of_le {s s' : σ} (h : L.le s s') (hl : L.log s' = L.log s) :
    L.Extends s s' :=
  ⟨[], hl, s', rfl, h⟩

/-- One logged change extends the state it was made on, if its entry
takes it back. -/
theorem Extends.of_undo {s s' t : σ} {e : ε} (hl : L.log s' = e :: L.log s)
    (hu : L.undo e s' = some t) (h : L.le s t) : L.Extends s s' :=
  ⟨[e], hl, t, by rw [undoAll_cons, hu]; rfl, h⟩

theorem Extends.refl (s : σ) : L.Extends s s :=
  .of_le L (L.le_refl s) rfl

variable {L}

/-- **Extensions compose.** The entries of the second extension restore
the middle state up to `le`, and there the entries of the first restore
the start, since undoing is monotone. -/
theorem Extends.trans {s s' s'' : σ} (h : L.Extends s s')
    (h' : L.Extends s' s'') : L.Extends s s'' := by
  obtain ⟨es, hlog, t, hundo, hle⟩ := h
  obtain ⟨es', hlog', t', hundo', hle'⟩ := h'
  obtain ⟨u, hu, htu⟩ := L.undoAll_mono hle' hundo
  refine ⟨es' ++ es, by rw [hlog', hlog, List.append_assoc], u, ?_, L.le_trans hle htu⟩
  rw [undoAll_append, hundo']
  exact hu

/-- The log of an extension is at least as long. -/
theorem Extends.length_le {s s' : σ} (h : L.Extends s s') :
    (L.log s).length ≤ (L.log s').length := by
  obtain ⟨es, hlog, -⟩ := h
  rw [hlog, List.length_append]
  exact Nat.le_add_left _ _

/-- **Rolling back.** Running the entries by which the log is longer
restores the start up to `le`, and leaves the start's own log. -/
theorem Extends.rollback {s s' : σ} (h : L.Extends s s') :
    ∃ t, undoAll L.undo ((L.log s').take ((L.log s').length - (L.log s).length)) s' = some t
      ∧ L.le s t
      ∧ (L.log s').drop ((L.log s').length - (L.log s).length) = L.log s := by
  obtain ⟨es, hlog, t, hundo, hle⟩ := h
  have hn : (L.log s').length - (L.log s).length = es.length := by
    rw [hlog, List.length_append, Nat.add_sub_cancel]
  rw [hn]
  refine ⟨t, ?_, hle, ?_⟩
  · rw [hlog, List.take_left' rfl]
    exact hundo
  · rw [hlog, List.drop_left' rfl]

end UndoLog
