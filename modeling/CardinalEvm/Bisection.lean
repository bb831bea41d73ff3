import Mathlib.Algebra.Order.Group.Nat
import Mathlib.Data.List.Basic

/-!
# Bisection with machine numbers

A search for the bound between the values that fail and those that do not.
It keeps a lower bound that fails and an upper bound that does not, and
asks about the half of their sum until they meet. On `uint64` the sum may
overflow. The midpoint is then below the lower bound, and if it does not
fail the search ends there, with bounds that crossed (`Path.ends`).

A search that ends up to half of the range halves the distance of its
bounds with every question (`halves_of_le`). One that ends above it goes
on for ever if everything fails (`search_eq_none`).

The question is a program, and the search is run in its monad. `Path` is
the run of a search whose questions are answered by a function.
-/

namespace Bisection

/-- The bounds of a search. -/
structure Bounds where
  lo : UInt64
  hi : UInt64

namespace Bounds

variable (b : Bounds)

/-- The midpoint, by a sum that may overflow. -/
def mid : UInt64 := (b.hi + b.lo) / 2

/-- There is something between the bounds. -/
def Open : Prop := b.lo + 1 < b.hi

instance : Decidable b.Open := inferInstanceAs (Decidable (_ < _))

/-- The bounds after the midpoint failed or not. -/
def next (failed : Bool) : Bounds :=
  if failed then { b with lo := b.mid } else { b with hi := b.mid }

end Bounds

/-- **The search**, with a program that says whether a value fails and a
test for bounds that are close enough. The number bounds its steps. -/
def search {m : Type → Type} [Monad m] (fails : UInt64 → m Bool) (close : Bounds → Bool)
    (exhausted : m Bounds) : ℕ → Bounds → m Bounds
  | 0, b => if b.Open then exhausted else pure b
  | n + 1, b =>
    if b.Open then do
      let b' := b.next (← fails b.mid)
      if close b' then pure b' else search fails close exhausted n b'
    else pure b

/-- **A search from bounds to bounds** with these questions and answers,
where a question that has no answer ends the search without a result. -/
inductive Path (answer : UInt64 → Option Bool) (close : Bounds → Bool) :
    Bounds → List (UInt64 × Bool) → Bounds → Prop
  | done {b : Bounds} : ¬ b.Open → Path answer close b [] b
  | stop {b : Bounds} {x : Bool} : b.Open → answer b.mid = some x → close (b.next x) = true →
    Path answer close b [(b.mid, x)] (b.next x)
  | step {b b' : Bounds} {x : Bool} {l : List (UInt64 × Bool)} : b.Open →
    answer b.mid = some x → close (b.next x) = false → Path answer close (b.next x) l b' →
    Path answer close b ((b.mid, x) :: l) b'

/-! ## Searches with a state -/

section Runs

variable {ε σ : Type} {fails : UInt64 → EStateM ε σ Bool} {answer : UInt64 → Option Bool}
  {after : UInt64 → Bool → σ → σ} {Inv : σ → Prop} {close : Bounds → Bool}

/-- **A program that answers by a function**, in the states that satisfy
an invariant, and what it does to them. -/
structure Answers (fails : UInt64 → EStateM ε σ Bool) (answer : UInt64 → Option Bool)
    (after : UInt64 → Bool → σ → σ) (Inv : σ → Prop) : Prop where
  some : ∀ {p x s}, Inv s → answer p = some x → fails p s = .ok x (after p x s)
  none : ∀ {p s}, Inv s → answer p = none → ∃ e s', fails p s = .error e s'
  keeps : ∀ {p x s}, Inv s → Inv (after p x s)

/-- The state after these questions and answers. -/
def replay (after : UInt64 → Bool → σ → σ) (l : List (UInt64 × Bool)) (s : σ) : σ :=
  l.foldl (fun s q => after q.1 q.2 s) s

theorem Answers.keeps_replay (h : Answers fails answer after Inv) (l : List (UInt64 × Bool)) {s : σ}
    (hs : Inv s) : Inv (replay after l s) := by
  induction l generalizing s with
  | nil => exact hs
  | cons q l ih => exact ih (h.keeps hs)

/-- A search that comes to an end took a path. -/
theorem Answers.path (h : Answers fails answer after Inv) {e : ε} {n : ℕ} {b b' : Bounds} {s s' : σ}
    (hs : Inv s) (hrun : search fails close (throw e) n b s = .ok b' s') :
    ∃ l, Path answer close b l b' ∧ s' = replay after l s := by
  induction n generalizing b s with
  | zero =>
    unfold search at hrun
    split_ifs at hrun with hopen
    · cases hrun
    · cases hrun
      exact ⟨[], .done hopen, rfl⟩
  | succ n ih =>
    unfold search at hrun
    split_ifs at hrun with hopen
    · cases hx : answer b.mid with
      | none =>
        obtain ⟨e, s₁, herr⟩ := h.none hs hx
        simp only [bind, EStateM.bind, herr] at hrun
        cases hrun
      | some x =>
        simp only [bind, EStateM.bind, h.some hs hx] at hrun
        split_ifs at hrun with hclose
        · cases hrun
          exact ⟨_, .stop hopen hx hclose, rfl⟩
        · obtain ⟨l, hpath, rfl⟩ := ih (h.keeps hs) hrun
          exact ⟨_, .step hopen hx (Bool.not_eq_true _ ▸ hclose) hpath, rfl⟩
    · cases hrun
      exact ⟨[], .done hopen, rfl⟩

/-- **Every path is a search.** -/
theorem Answers.exists_search (h : Answers fails answer after Inv) {exhausted : EStateM ε σ Bounds}
    {b b' : Bounds} {l : List (UInt64 × Bool)} (hpath : Path answer close b l b') {s : σ}
    (hs : Inv s) : ∃ n, search fails close exhausted n b s = .ok b' (replay after l s) := by
  induction hpath generalizing s with
  | done hopen => exact ⟨0, by rw [search, if_neg hopen]; rfl⟩
  | stop hopen hx hclose =>
    refine ⟨1, ?_⟩
    rw [search, if_pos hopen]
    simp only [bind, EStateM.bind, h.some hs hx, hclose]
    rfl
  | step hopen hx hclose _ ih =>
    obtain ⟨n, hn⟩ := ih (h.keeps hs)
    refine ⟨n + 1, ?_⟩
    rw [search, if_pos hopen]
    simp only [bind, EStateM.bind, h.some hs hx, hclose]
    exact hn

end Runs

/-! ## The bounds of a path -/

namespace Bounds

variable {b : Bounds}

theorem toNat_mid (b : Bounds) : b.mid.toNat = (b.hi.toNat + b.lo.toNat) % 2 ^ 64 / 2 := by
  unfold mid
  rw [UInt64.toNat_div, UInt64.toNat_add]
  rfl

theorem open_iff (h : b.lo.toNat + 1 < 2 ^ 64) : b.Open ↔ b.lo.toNat + 1 < b.hi.toNat := by
  unfold Open
  rw [UInt64.lt_iff_toNat_lt, UInt64.toNat_add]
  show (b.lo.toNat + 1) % 2 ^ 64 < _ ↔ _
  rw [Nat.mod_eq_of_lt h]

/-- The midpoint is below the upper bound, also after an overflow. -/
theorem mid_lt (h : b.Open) : b.mid < b.hi := by
  have hlo := b.lo.toNat_lt
  have hhi := b.hi.toNat_lt
  have hopen := UInt64.lt_iff_toNat_lt.mp h
  rw [UInt64.toNat_add] at hopen
  change (b.lo.toNat + 1) % 2 ^ 64 < _ at hopen
  rw [UInt64.lt_iff_toNat_lt, toNat_mid]
  omega

theorem next_hi_le (h : b.Open) (x : Bool) : (b.next x).hi ≤ b.hi := by
  cases x with
  | true => exact UInt64.le_refl _
  | false => exact UInt64.le_of_lt (mid_lt h)

end Bounds

/-- No bounds are close enough before they meet. -/
def Never : Bounds → Bool := fun _ => false

namespace Path

variable {answer : UInt64 → Option Bool} {close : Bounds → Bool} {b b' : Bounds}
  {l : List (UInt64 × Bool)}

/-- The upper bound only falls. -/
theorem hi_le (h : Path answer close b l b') : b'.hi ≤ b.hi := by
  induction h with
  | done _ => exact UInt64.le_refl _
  | stop hopen _ _ => exact Bounds.next_hi_le hopen _
  | step hopen _ _ _ ih => exact UInt64.le_trans ih (Bounds.next_hi_le hopen _)

/-- Every question is below the upper bound. -/
theorem lt_hi (h : Path answer close b l b') {p : UInt64} {x : Bool} (hp : (p, x) ∈ l) :
    p < b.hi := by
  induction h with
  | done _ => cases hp
  | stop hopen _ _ =>
    obtain ⟨rfl, -⟩ := Prod.mk.inj (List.mem_singleton.mp hp)
    exact Bounds.mid_lt hopen
  | step hopen _ _ _ ih =>
    obtain hp | hp := List.mem_cons.mp hp
    · obtain ⟨rfl, -⟩ := Prod.mk.inj hp
      exact Bounds.mid_lt hopen
    · exact UInt64.lt_of_lt_of_le (ih hp) (Bounds.next_hi_le hopen _)

/-- A path is determined by its answers. -/
theorem answered (h : Path answer close b l b') {p : UInt64} {x : Bool} (hp : (p, x) ∈ l) :
    answer p = some x := by
  induction h with
  | done _ => cases hp
  | stop _ hx _ =>
    obtain ⟨rfl, rfl⟩ := Prod.mk.inj (List.mem_singleton.mp hp)
    exact hx
  | step _ hx _ _ ih =>
    obtain hp | hp := List.mem_cons.mp hp
    · cases hp
      exact hx
    · exact ih hp

/-- **Other answers** that agree on what was asked lead the same way. -/
theorem congr {answer' : UInt64 → Option Bool} (h : Path answer close b l b')
    (hanswer : ∀ p x, (p, x) ∈ l → answer' p = some x) : Path answer' close b l b' := by
  induction h with
  | done hopen => exact .done hopen
  | stop hopen _ hclose => exact .stop hopen (hanswer _ _ List.mem_cons_self) hclose
  | step hopen _ hclose _ ih =>
    exact .step hopen (hanswer _ _ List.mem_cons_self) hclose
      (ih fun p x hp => hanswer p x (List.mem_cons_of_mem _ hp))

/-- **What is kept of the last value that did not fail** belongs to the
upper bound. -/
theorem replay_kept {σ τ : Type} (after : UInt64 → Bool → σ → σ) (kept : σ → τ) (f : UInt64 → τ)
    (htrue : ∀ p s, kept (after p true s) = kept s) (hfalse : ∀ p s, kept (after p false s) = f p)
    (h : Path answer close b l b') (s : σ) :
    b'.hi = b.hi ∧ kept (replay after l s) = kept s
      ∨ b'.hi < b.hi ∧ answer b'.hi = some false ∧ kept (replay after l s) = f b'.hi := by
  induction h generalizing s with
  | done _ => exact .inl ⟨rfl, rfl⟩
  | @stop b x hopen hx _ =>
    cases x with
    | true => exact .inl ⟨rfl, htrue _ _⟩
    | false => exact .inr ⟨Bounds.mid_lt hopen, hx, hfalse _ _⟩
  | @step b b' x l hopen hx _ hpath ih =>
    obtain ⟨hhi, hkept⟩ | ⟨hlt, hans, hkept⟩ := ih (after b.mid x s)
    · cases x with
      | true => exact .inl ⟨hhi, hkept.trans (htrue _ _)⟩
      | false =>
        have hmid : b'.hi = b.mid := hhi
        exact .inr ⟨hmid ▸ Bounds.mid_lt hopen, hmid ▸ hx, hmid ▸ hkept.trans (hfalse _ _)⟩
    · exact .inr ⟨UInt64.lt_of_lt_of_le hlt (Bounds.next_hi_le hopen x), hans, hkept⟩

/-- **Below half of the range** nothing overflows and the bounds meet, at
a value that failed or the bound there was. -/
theorem meets (h : Path answer Never b l b') (hlt : b.lo.toNat < b.hi.toNat)
    (hhi : b.hi.toNat ≤ 2 ^ 63) :
    b'.hi.toNat = b'.lo.toNat + 1 ∧ (b'.lo = b.lo ∨ (b'.lo, true) ∈ l) := by
  induction h with
  | @done b hopen =>
    rw [Bounds.open_iff (by omega)] at hopen
    exact ⟨by omega, .inl rfl⟩
  | stop _ _ hclose => cases hclose
  | @step b b' x l hopen _ _ _ ih =>
    have hmid := b.toNat_mid
    have hopen' := (Bounds.open_iff (by omega)).mp hopen
    cases x with
    | true =>
      obtain ⟨hmeet, hlo⟩ := ih (show b.mid.toNat < b.hi.toNat by omega) hhi
      refine ⟨hmeet, .inr ?_⟩
      obtain hlo | hlo := hlo
      · exact hlo ▸ List.mem_cons_self
      · exact List.mem_cons_of_mem _ hlo
    | false =>
      obtain ⟨hmeet, hlo⟩ := ih (show b.lo.toNat < b.mid.toNat by omega)
        (show b.mid.toNat ≤ 2 ^ 63 by omega)
      exact ⟨hmeet, hlo.imp_right (List.mem_cons_of_mem _)⟩

end Path

/-- **The lower bounds of a search in which everything fails.** -/
def lows (start hi : UInt64) : ℕ → UInt64
  | 0 => start
  | k + 1 => Bounds.mid ⟨lows start hi k, hi⟩

variable {answer : UInt64 → Option Bool} {start hi : UInt64}

/-- All but the first are in the lower half of the range. -/
theorem toNat_lows_lt (hstart : start.toNat < 2 ^ 63) (hi : UInt64) (k : ℕ) :
    (lows start hi k).toNat < 2 ^ 63 := by
  cases k with
  | zero => exact hstart
  | succ k =>
    rw [lows, Bounds.toNat_mid]
    omega

/-- Bounds that crossed by an overflow leave nothing between them. -/
theorem closed_of_overflow (hstart : start.toNat < 2 ^ 63) {k : ℕ}
    (hover : 2 ^ 64 ≤ hi.toNat + (lows start hi k).toNat) :
    ¬ Bounds.Open ⟨lows start hi k, lows start hi (k + 1)⟩ := by
  have hlow := toNat_lows_lt hstart hi k
  have hhi := hi.toNat_lt
  have hmid : (lows start hi (k + 1)).toNat = (hi.toNat + (lows start hi k).toNat) % 2 ^ 64 / 2 :=
    Bounds.toNat_mid _
  rw [Bounds.open_iff (show (lows start hi k).toNat + 1 < 2 ^ 64 by omega)]
  show ¬ (lows start hi k).toNat + 1 < (lows start hi (k + 1)).toNat
  omega

/-- **How a search ends**: the bounds meet at a value that failed, or the
sum overflowed after everything failed and the midpoint did not. -/
theorem Path.ends (hstart : start.toNat < 2 ^ 63) {k : ℕ} {l : List (UInt64 × Bool)} {b' : Bounds}
    (h : Path answer Never ⟨lows start hi k, hi⟩ l b')
    (hlt : (lows start hi k).toNat < hi.toNat) :
    b'.hi.toNat = b'.lo.toNat + 1 ∧ (b'.lo = lows start hi k ∨ (b'.lo, true) ∈ l)
      ∨ ∃ i, k ≤ i ∧ 2 ^ 64 ≤ hi.toNat + (lows start hi i).toNat
        ∧ answer (lows start hi (i + 1)) = some false ∧ b'.hi = lows start hi (i + 1)
        ∧ ∀ j, k ≤ j → j < i → answer (lows start hi (j + 1)) = some true
          ∧ (lows start hi (j + 1), true) ∈ l := by
  generalize hb : (⟨lows start hi k, hi⟩ : Bounds) = b at h
  have hlow := toNat_lows_lt hstart hi k
  induction h generalizing k with
  | @done b hopen =>
    subst hb
    rw [Bounds.open_iff (show (lows start hi k).toNat + 1 < 2 ^ 64 by omega)] at hopen
    exact .inl ⟨show hi.toNat = (lows start hi k).toNat + 1 by
      change ¬ (lows start hi k).toNat + 1 < hi.toNat at hopen
      omega, .inl rfl⟩
  | stop _ _ hclose => cases hclose
  | @step b b' x l hopen hx hclose hpath ih =>
    subst hb
    have hmid := Bounds.toNat_mid ⟨lows start hi k, hi⟩
    have hopen' := (Bounds.open_iff (show (lows start hi k).toNat + 1 < 2 ^ 64 by omega)).mp hopen
    change (lows start hi k).toNat + 1 < hi.toNat at hopen'
    change (Bounds.mid ⟨lows start hi k, hi⟩).toNat
      = (hi.toNat + (lows start hi k).toNat) % 2 ^ 64 / 2 at hmid
    cases x with
    | true =>
      have hlow' := toNat_lows_lt hstart hi (k + 1)
      have hlt' : (lows start hi (k + 1)).toNat < hi.toNat :=
        UInt64.lt_iff_toNat_lt.mp (Bounds.mid_lt hopen)
      obtain ⟨hmeet, hlo⟩ | ⟨i, hki, hover, hans, hhi, hall⟩ := ih hlt' rfl hlow'
      · refine .inl ⟨hmeet, .inr ?_⟩
        obtain hlo | hlo := hlo
        · exact hlo ▸ List.mem_cons_self
        · exact List.mem_cons_of_mem _ hlo
      · refine .inr ⟨i, by omega, hover, hans, hhi, fun j hkj hji => ?_⟩
        obtain rfl | hkj := Nat.eq_or_lt_of_le hkj
        · exact ⟨hx, List.mem_cons_self⟩
        · obtain ⟨hfail, hmem⟩ := hall j hkj hji
          exact ⟨hfail, List.mem_cons_of_mem _ hmem⟩
    | false =>
      by_cases hover : 2 ^ 64 ≤ hi.toNat + (lows start hi k).toNat
      -- the bounds crossed, so the search is over
      · have hclosed := closed_of_overflow hstart hover
        cases hpath with
        | done _ => exact .inr ⟨k, Nat.le_refl k, hover, hx, rfl, fun j hkj hjk => by omega⟩
        | stop hopen' _ _ | step hopen' _ _ _ => exact absurd hopen' hclosed
      · obtain ⟨hmeet, hlo⟩ := meets hpath
          (show (lows start hi k).toNat < (Bounds.mid ⟨lows start hi k, hi⟩).toNat by omega)
          (show (Bounds.mid ⟨lows start hi k, hi⟩).toNat ≤ 2 ^ 63 by omega)
        exact .inl ⟨hmeet, hlo.imp_right (List.mem_cons_of_mem _)⟩

/-- **A search whose bounds cross**: the lower bounds fail until the sum
overflows, and the midpoint does not. -/
theorem Path.of_overflow (hstart : start.toNat < 2 ^ 63) {i k : ℕ}
    (hover : 2 ^ 64 ≤ hi.toNat + (lows start hi (i + k)).toNat)
    (hfail : ∀ j, i ≤ j → j < i + k → answer (lows start hi (j + 1)) = some true)
    (hans : answer (lows start hi (i + k + 1)) = some false) :
    Path answer Never ⟨lows start hi i, hi⟩
      ((List.range' i k).map (fun j => (lows start hi (j + 1), true))
        ++ [(lows start hi (i + k + 1), false)])
      ⟨lows start hi (i + k), lows start hi (i + k + 1)⟩ := by
  have hopen : ∀ j, Bounds.Open ⟨lows start hi j, hi⟩ := by
    intro j
    have hlow := toNat_lows_lt hstart hi j
    have hlow' := toNat_lows_lt hstart hi (i + k)
    rw [Bounds.open_iff (show (lows start hi j).toNat + 1 < 2 ^ 64 by omega)]
    show (lows start hi j).toNat + 1 < hi.toNat
    omega
  induction k generalizing i with
  | zero => exact .step (hopen i) hans rfl (.done (closed_of_overflow hstart hover))
  | succ k ih =>
    have hshift : i + (k + 1) = i + 1 + k := by omega
    rw [hshift] at hover hfail hans ⊢
    have hrest := ih hover (fun j hij hjk => hfail j (by omega) hjk) hans
    exact .step (hopen i) (hfail i (Nat.le_refl i) (by omega)) rfl hrest

/-! ## The iterations of a search -/

/-- **The bounds an iteration begins with**, after this many iterations. -/
inductive Reaches (fails : UInt64 → Bool) (close : Bounds → Bool) : Bounds → ℕ → Bounds → Prop
  | start (b : Bounds) : Reaches fails close b 0 b
  | step {b b' : Bounds} {n : ℕ} : b.Open → close (b.next (fails b.mid)) = false →
    Reaches fails close (b.next (fails b.mid)) n b' → Reaches fails close b (n + 1) b'

/-- **A search that halves**: every midpoint is between the bounds, and the
search ends within 64 iterations. -/
structure Halves (fails : UInt64 → Bool) (close : Bounds → Bool) (b : Bounds) : Prop where
  between : ∀ n b', Reaches fails close b n b' → b'.Open → b'.lo < b'.mid ∧ b'.mid < b'.hi
  ends : (search (fun p => some (fails p)) close none 64 b).isSome

section Halving

variable {fails : UInt64 → Bool} {close : Bounds → Bool} {b : Bounds}

/-- **A step below half of the range** leaves at most half of what was
between the bounds, rounded up. -/
theorem Bounds.next_of_le (hlt : b.lo.toNat < b.hi.toNat) (hhi : b.hi.toNat ≤ 2 ^ 63)
    (hopen : b.Open) {m : ℕ} (hsize : b.hi.toNat ≤ b.lo.toNat + 2 ^ (m + 1)) (x : Bool) :
    (b.next x).lo.toNat < (b.next x).hi.toNat ∧ (b.next x).hi.toNat ≤ 2 ^ 63
      ∧ (b.next x).hi.toNat ≤ (b.next x).lo.toNat + 2 ^ m := by
  have hmid := b.toNat_mid
  have hopen := (open_iff (by omega)).mp hopen
  rw [Nat.pow_succ] at hsize
  cases x with
  | true =>
    show b.mid.toNat < b.hi.toNat ∧ b.hi.toNat ≤ 2 ^ 63 ∧ b.hi.toNat ≤ b.mid.toNat + 2 ^ m
    omega
  | false =>
    show b.lo.toNat < b.mid.toNat ∧ b.mid.toNat ≤ 2 ^ 63 ∧ b.mid.toNat ≤ b.lo.toNat + 2 ^ m
    omega

theorem Reaches.between {n : ℕ} {b' : Bounds} (h : Reaches fails close b n b')
    (hlt : b.lo.toNat < b.hi.toNat) (hhi : b.hi.toNat ≤ 2 ^ 63) (hopen : b'.Open) :
    b'.lo < b'.mid ∧ b'.mid < b'.hi := by
  induction h with
  | start b =>
    have hmid := b.toNat_mid
    have hopen' := (Bounds.open_iff (by omega)).mp hopen
    rw [UInt64.lt_iff_toNat_lt]
    exact ⟨by omega, Bounds.mid_lt hopen⟩
  | step hopen' _ _ ih =>
    obtain ⟨hlt', hhi', -⟩ := Bounds.next_of_le hlt hhi hopen' (m := 63) (by omega) (fails _)
    exact ih hlt' hhi' hopen

/-- As many steps are enough as the distance of the bounds has bits. -/
theorem isSome_search {m : ℕ} (hlt : b.lo.toNat < b.hi.toNat) (hhi : b.hi.toNat ≤ 2 ^ 63)
    (hsize : b.hi.toNat ≤ b.lo.toNat + 2 ^ m) :
    (search (fun p => some (fails p)) close none m b).isSome := by
  induction m generalizing b with
  | zero =>
    have hopen : ¬ b.Open := by
      rw [Bounds.open_iff (by omega)]
      omega
    rw [search, if_neg hopen]
    rfl
  | succ m ih =>
    rw [search]
    split_ifs with hopen
    · obtain ⟨hlt', hhi', hsize'⟩ := Bounds.next_of_le hlt hhi hopen hsize (fails b.mid)
      show (if close (b.next (fails b.mid)) then some (b.next (fails b.mid)) else
        search (fun p => some (fails p)) close none m (b.next (fails b.mid))).isSome
      split_ifs
      · rfl
      · exact ih hlt' hhi' hsize'
    · rfl

/-- **Below half of the range** a search halves. -/
theorem halves_of_le (hlo : b.lo.toNat < 2 ^ 63) (hhi : b.hi.toNat ≤ 2 ^ 63) :
    Halves fails close b := by
  by_cases hlt : b.lo.toNat < b.hi.toNat
  · exact ⟨fun n b' h hopen => h.between hlt hhi hopen,
      isSome_search hlt hhi (show _ ≤ b.lo.toNat + 2 ^ 64 by omega)⟩
  · have hopen : ¬ b.Open := by
      rw [Bounds.open_iff (by omega)]
      omega
    refine ⟨fun n b' h hopen' => ?_, ?_⟩
    · cases h with
      | start _ | step hopen' _ _ => exact absurd hopen' hopen
    · rw [search, if_neg hopen]
      rfl

/-- **Above half of the range** a search in which everything fails does not
end: the midpoints stay in the lower half, and never meet the bound. -/
theorem search_eq_none (hlo : b.lo.toNat < 2 ^ 63) (hhi : 2 ^ 63 < b.hi.toNat) (n : ℕ) :
    search (fun _ => some true) Never none n b = none := by
  have hopen : b.Open := by
    rw [Bounds.open_iff (by omega)]
    omega
  induction n generalizing b with
  | zero => rw [search, if_pos hopen]
  | succ n ih =>
    have hmid := b.toNat_mid
    have hlo' : (b.next true).lo.toNat < 2 ^ 63 := by
      show b.mid.toNat < 2 ^ 63
      omega
    rw [search, if_pos hopen]
    refine ih hlo' hhi ?_
    rw [Bounds.open_iff (by omega)]
    show b.mid.toNat + 1 < b.hi.toNat
    omega

end Halving

end Bisection
