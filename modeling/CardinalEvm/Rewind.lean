import CardinalEvm.Compatibility

/-!
# How far to rewind

The error of `CheckCompatible` says how far the chain has to be taken
back. The loop that finds it lowers two things, the head and its time,
and keeps only the last conflict it came upon: conflicts of block numbers
come first, and each lowers the head until none is left; then those of
times lower the time.

So the last error is one of times if there was any, and says nothing of
the blocks that were gone back for the conflicts before it: taking back
the time alone is not enough then. Everything else is as it should be –
the loop ends, and a rewind that is asked for removes all conflicts of its
kind (`ChainConfig.checkCompatible_rewind_iff`).
-/

/-- What is rewound to: the head and its time, if the error asks for
one. -/
def ConfigCompatError.rewind (err : ConfigCompatError) (height : UInt64) (time : Option UInt64) :
    Option (UInt64 × Option UInt64) :=
  if 0 < err.rewindToTime then some (height, some err.rewindToTime)
  else if 0 < err.rewindToBlock then some (err.rewindToBlock, time)
  else none

variable {err : ConfigCompatError} {n m : ℤ} {a b : Option ℤ}

/-- An error without a place to rewind to asks for nothing. -/
theorem ConfigCompatError.rewind_eq_none (htime : err.rewindToTime = 0)
    (hblock : err.rewindToBlock = 0) (height : UInt64) (time : Option UInt64) :
    err.rewind height time = none := by
  rw [rewind, htime, hblock, if_neg (UInt64.lt_irrefl 0),
    if_neg (UInt64.lt_irrefl 0)]

/-! ## Comparisons -/

/-- A comparison, as a function of the head. -/
abbrev HeadCheck := ℤ → Option ConfigCompatError

/-- **A comparison that fails from some head on**, and asks for a head
below the one it failed at. -/
structure HeadCheck.Lowers (check : HeadCheck) (rewind other : ConfigCompatError → UInt64) :
    Prop where
  mono : ∀ {n m : ℤ}, n ≤ m → (check n).isSome → (check m).isSome
  other : ∀ {n : ℤ} {err : ConfigCompatError}, check n = some err → other err = 0
  below : ∀ {n : ℤ} {err : ConfigCompatError}, check n = some err →
    ∃ m ≤ n, rewind err = rewindBefore (some m)

theorem isForked_mono {s : Option ℤ} (hnm : n ≤ m) (h : isForked s n = true) :
    isForked s m = true := by
  by_contra hm
  rw [isForked_of_le hnm (Bool.eq_false_iff.mpr hm)] at h
  cases h

theorem isForkIncompatible_iff {head : ℤ} :
    isForkIncompatible a b (some head) = true
      ↔ (isForked a head = true ∨ isForked b head = true) ∧ a ≠ b := by
  simp [isForkIncompatible, isForkedHead]

theorem isForkIncompatible_mono (hnm : n ≤ m) (h : isForkIncompatible a b (some n) = true) :
    isForkIncompatible a b (some m) = true := by
  rw [isForkIncompatible_iff] at h ⊢
  exact ⟨h.1.imp (isForked_mono hnm) (isForked_mono hnm), h.2⟩

/-- The lower of two forks is not past a head that one of them is not
past. -/
theorem exists_rewindTarget (h : isForked a n = true ∨ isForked b n = true) :
    ∃ m ≤ n, rewindTarget a b = some m := by
  have hle : ∀ {s : Option ℤ}, isForked s n = true → ∃ x ≤ n, s = some x := by
    intro s hs
    cases s with
    | none => cases hs
    | some x => exact ⟨x, of_decide_eq_true hs, rfl⟩
  cases a with
  | none =>
    obtain ⟨x, hx, rfl⟩ := hle (h.resolve_left Bool.false_ne_true)
    exact ⟨x, hx, rfl⟩
  | some a =>
    cases b with
    | none =>
      obtain ⟨x, hx, heq⟩ := hle (h.resolve_right Bool.false_ne_true)
      exact ⟨x, hx, heq⟩
    | some b =>
      show ∃ m ≤ n, (if a < b then some a else some b) = some m
      split_ifs with hab
      · refine ⟨a, ?_, rfl⟩
        obtain h | h := h
        · exact of_decide_eq_true h
        · exact hab.le.trans (of_decide_eq_true h)
      · refine ⟨b, ?_, rfl⟩
        obtain h | h := h
        · exact (not_lt.mp hab).trans (of_decide_eq_true h)
        · exact of_decide_eq_true h

/-- The conditions of the comparisons: each is one of the heads, and holds
only past one of two forks. -/
theorem HeadCheck.Lowers.of_cond {cond : ℤ → Prop} [DecidablePred cond]
    {rewind other : ConfigCompatError → UInt64} (hmono : ∀ {n m : ℤ}, n ≤ m → cond n → cond m)
    (hforked : ∀ {n : ℤ}, cond n → isForked a n = true ∨ isForked b n = true)
    (hrewind : rewind err = rewindBefore (rewindTarget a b)) (hother : other err = 0) :
    HeadCheck.Lowers (fun n => if cond n then some err else none) rewind other where
  mono {n m} hnm h := by
    have hn : cond n := by
      by_contra hn
      rw [if_neg hn] at h
      cases h
    rw [if_pos (hmono hnm hn)]
    rfl
  other {n e} h := by
    split_ifs at h
    cases h
    exact hother
  below {n e} h := by
    split_ifs at h with hn
    cases h
    obtain ⟨m, hm, htarget⟩ := exists_rewindTarget (hforked hn)
    exact ⟨m, hm, by rw [hrewind, htarget]⟩

theorem toNat_rewindBefore {head : UInt64} (h : m ≤ head.toNat) :
    (rewindBefore (some m)).toNat = m.toNat - 1 := by
  have hlt := head.toNat_lt
  show (if 0 < m then UInt64.ofNat m.toNat - 1 else 0).toNat = _
  split_ifs with hm
  · have hnat : (UInt64.ofNat m.toNat).toNat = m.toNat :=
      UInt64.toNat_ofNat_of_lt' (show _ < 18446744073709551616 by omega)
    have hone : (1 : UInt64) ≤ UInt64.ofNat m.toNat := by
      rw [UInt64.le_iff_toNat_le, hnat]
      show 1 ≤ m.toNat
      omega
    rw [UInt64.toNat_sub_of_le _ _ hone, hnat]
    rfl
  · show 0 = _
    omega

/-- What is rewound to is below the head, or the head is zero. -/
theorem HeadCheck.Lowers.toNat_le {check : HeadCheck} {rewind other : ConfigCompatError → UInt64}
    (h : check.Lowers rewind other) {head : UInt64} (herr : check head.toNat = some err) :
    (rewind err).toNat ≤ head.toNat - 1 := by
  obtain ⟨m, hm, hrewind⟩ := h.below herr
  rw [hrewind, toNat_rewindBefore hm]
  omega

namespace ChainConfig

variable (c newcfg : ChainConfig)

/-- The comparisons of block numbers, in their order. -/
def numberChecks : List HeadCheck :=
  [fun n => c.checkBlock newcfg (some n) "Homestead fork block" homesteadBlock,
    fun n => c.checkBlock newcfg (some n) "DAO fork block" daoForkBlock,
    fun n => c.checkDAOForkSupport newcfg (some n),
    fun n => c.checkBlock newcfg (some n) "EIP150 fork block" eip150Block,
    fun n => c.checkBlock newcfg (some n) "EIP155 fork block" eip155Block,
    fun n => c.checkBlock newcfg (some n) "EIP158 fork block" eip158Block,
    fun n => c.checkChainID newcfg (some n),
    fun n => c.checkBlock newcfg (some n) "Byzantium fork block" byzantiumBlock,
    fun n => c.checkBlock newcfg (some n) "Constantinople fork block" constantinopleBlock,
    fun n => c.checkPetersburg newcfg (some n),
    fun n => c.checkBlock newcfg (some n) "Istanbul fork block" istanbulBlock,
    fun n => c.checkBlock newcfg (some n) "Muir Glacier fork block" muirGlacierBlock,
    fun n => c.checkBlock newcfg (some n) "Berlin fork block" berlinBlock,
    fun n => c.checkBlock newcfg (some n) "London fork block" londonBlock]

/-- Those of times. -/
def timeChecks : List HeadCheck :=
  [fun t => c.checkTime newcfg (some t) "Shanghai fork timestamp" shanghaiTime,
    fun t => c.checkTime newcfg (some t) "Cancun fork timestamp" cancunTime,
    fun t => c.checkTime newcfg (some t) "Prague fork timestamp" pragueTime,
    fun t => c.checkTime newcfg (some t) "Osaka fork timestamp" osakaTime]

variable {c newcfg}

theorem lowers_checkBlock (what : String) (block : ChainConfig → Option ℤ) :
    HeadCheck.Lowers (fun n => c.checkBlock newcfg (some n) what block) (·.rewindToBlock)
      (·.rewindToTime) :=
  .of_cond isForkIncompatible_mono (fun h => (isForkIncompatible_iff.mp h).1) rfl rfl

theorem lowers_checkTime (what : String) (time : ChainConfig → Option ℤ) :
    HeadCheck.Lowers (fun n => c.checkTime newcfg (some n) what time) (·.rewindToTime)
      (·.rewindToBlock) :=
  .of_cond isForkIncompatible_mono (fun h => (isForkIncompatible_iff.mp h).1) rfl rfl

theorem lowers_checkDAOForkSupport :
    HeadCheck.Lowers (fun n => c.checkDAOForkSupport newcfg (some n)) (·.rewindToBlock)
      (·.rewindToTime) :=
  .of_cond (fun hnm h => ⟨isForked_mono hnm h.1, h.2⟩) (fun h => .inl h.1) rfl rfl

theorem lowers_checkChainID :
    HeadCheck.Lowers (fun n => c.checkChainID newcfg (some n)) (·.rewindToBlock)
      (·.rewindToTime) :=
  .of_cond (fun hnm h => ⟨isForked_mono hnm h.1, h.2⟩) (fun h => .inl h.1) rfl rfl

theorem lowers_checkPetersburg :
    HeadCheck.Lowers (fun n => c.checkPetersburg newcfg (some n)) (·.rewindToBlock)
      (·.rewindToTime) :=
  .of_cond
    (fun hnm h => ⟨isForkIncompatible_mono hnm h.1, isForkIncompatible_mono hnm h.2⟩)
    (fun h => (isForkIncompatible_iff.mp h.1).1) rfl rfl

/-- The first comparison that fails. -/
def firstError : List HeadCheck → ℤ → Option ConfigCompatError
  | [], _ => none
  | check :: checks, head => (check head).or (firstError checks head)

/-- **`checkCompatible` compares block numbers first, then times.** -/
theorem checkOnce_eq (head : ℤ) (time : Option ℤ) :
    c.checkOnce newcfg (some head) time
      = (firstError (c.numberChecks newcfg) head).or
          (time.bind (firstError (c.timeChecks newcfg))) := by
  have hnone : ∀ what block, c.checkTime newcfg none what block = none := fun _ _ => rfl
  cases time with
  | none => simp [checkOnce, hnone, firstError, numberChecks]
  | some time => simp [checkOnce, firstError, numberChecks, timeChecks, Option.or_assoc]

section FirstError

variable {checks : List HeadCheck} {rewind other : ConfigCompatError → UInt64}

theorem exists_of_firstError {head : ℤ} {err : ConfigCompatError}
    (h : firstError checks head = some err) : ∃ check ∈ checks, check head = some err := by
  induction checks with
  | nil => cases h
  | cons check checks ih =>
    obtain h | ⟨-, h⟩ := Option.or_eq_some_iff.mp h
    · exact ⟨check, List.mem_cons_self, h⟩
    · obtain ⟨check', hmem, h⟩ := ih h
      exact ⟨check', List.mem_cons_of_mem _ hmem, h⟩

theorem isSome_firstError {head : ℤ} :
    (firstError checks head).isSome ↔ ∃ check ∈ checks, (check head).isSome := by
  induction checks with
  | nil => simp [firstError]
  | cons check checks ih => simp [firstError, Option.isSome_or, ih]

/-- A list of comparisons is like one. -/
theorem lowers_firstError (h : ∀ check ∈ checks, HeadCheck.Lowers check rewind other) :
    HeadCheck.Lowers (firstError checks) rewind other where
  mono {n m} hnm hn := by
    obtain ⟨check, hmem, hn⟩ := isSome_firstError.mp hn
    exact isSome_firstError.mpr ⟨check, hmem, (h check hmem).mono hnm hn⟩
  other {n err} herr := by
    obtain ⟨check, hmem, herr⟩ := exists_of_firstError herr
    exact (h check hmem).other herr
  below {n err} herr := by
    obtain ⟨check, hmem, herr⟩ := exists_of_firstError herr
    exact (h check hmem).below herr

end FirstError

theorem lowers_numberChecks :
    HeadCheck.Lowers (firstError (c.numberChecks newcfg)) (·.rewindToBlock) (·.rewindToTime) := by
  refine lowers_firstError fun check h => ?_
  simp only [numberChecks, List.mem_cons, List.not_mem_nil, or_false] at h
  rcases h with
    rfl | rfl | rfl | rfl | rfl | rfl | rfl | rfl | rfl | rfl | rfl | rfl | rfl | rfl <;>
    first
      | exact lowers_checkBlock _ _
      | exact lowers_checkDAOForkSupport
      | exact lowers_checkChainID
      | exact lowers_checkPetersburg

theorem lowers_timeChecks :
    HeadCheck.Lowers (firstError (c.timeChecks newcfg)) (·.rewindToTime) (·.rewindToBlock) := by
  refine lowers_firstError fun check h => ?_
  simp only [timeChecks, List.mem_cons, List.not_mem_nil, or_false] at h
  rcases h with rfl | rfl | rfl | rfl <;> exact lowers_checkTime _ _

/-! ## Conflicts -/

variable (c newcfg)

/-- Some comparison of block numbers fails at a head. -/
def NumberConflict (head : UInt64) : Prop := (firstError (c.numberChecks newcfg) head.toNat).isSome

/-- Some comparison of times fails at a time, if there is one. -/
def TimeConflict (time : Option UInt64) : Prop :=
  (time.bind fun t => firstError (c.timeChecks newcfg) t.toNat).isSome

instance (head : UInt64) : Decidable (c.NumberConflict newcfg head) :=
  inferInstanceAs (Decidable (_ = true))

instance (time : Option UInt64) : Decidable (c.TimeConflict newcfg time) :=
  inferInstanceAs (Decidable (_ = true))

variable {c newcfg}

theorem NumberConflict.mono {n m : UInt64} (hnm : n ≤ m) (h : c.NumberConflict newcfg n) :
    c.NumberConflict newcfg m :=
  lowers_numberChecks.mono (Int.ofNat_le.mpr (UInt64.le_iff_toNat_le.mp hnm)) h

theorem TimeConflict.mono {s t : UInt64} (hst : s ≤ t) (h : c.TimeConflict newcfg (some s)) :
    c.TimeConflict newcfg (some t) :=
  lowers_timeChecks.mono (Int.ofNat_le.mpr (UInt64.le_iff_toNat_le.mp hst)) h

/-- The lower of two forks is not past itself. -/
theorem isForked_rewindTarget {a b : Option ℤ} {m : ℤ} (h : rewindTarget a b = some m) :
    isForked a m = true ∨ isForked b m = true := by
  have hself : ∀ x : ℤ, isForked (some x) x = true := fun x => decide_eq_true le_rfl
  cases a with
  | none =>
    obtain rfl : b = some m := h
    exact .inr (hself m)
  | some a =>
    cases b with
    | none =>
      obtain rfl := Option.some.inj h
      exact .inl (hself a)
    | some b =>
      replace h : (if a < b then some a else some b) = some m := h
      split_ifs at h <;> obtain rfl := Option.some.inj h
      · exact .inl (hself a)
      · exact .inr (hself b)

/-- A conflict of times that asks for no time is there at time one. -/
theorem timeConflict_one {t : UInt64} {err : ConfigCompatError}
    (h : firstError (c.timeChecks newcfg) t.toNat = some err) (hzero : err.rewindToTime = 0) :
    c.TimeConflict newcfg (some 1) := by
  obtain ⟨check, hmem, herr⟩ := exists_of_firstError h
  refine isSome_firstError.mpr ⟨check, hmem, ?_⟩
  obtain ⟨what, time, rfl⟩ :
      ∃ what time, check = fun t => c.checkTime newcfg (some t) what time := by
    simp only [timeChecks, List.mem_cons, List.not_mem_nil, or_false] at hmem
    rcases hmem with rfl | rfl | rfl | rfl <;> exact ⟨_, _, rfl⟩
  replace herr : c.checkTime newcfg (some (t.toNat : ℤ)) what time = some err := herr
  unfold checkTime at herr
  split_ifs at herr with hconflict
  obtain ⟨hforked, hne⟩ := isForkIncompatible_iff.mp hconflict
  obtain ⟨m, hm, htarget⟩ := exists_rewindTarget hforked
  -- the lower of the two times is at most one
  have hrewind : rewindBefore (some m) = 0 := by
    rw [← htarget, ← hzero, ← Option.some.inj herr]
    rfl
  have hnat := toNat_rewindBefore hm
  rw [hrewind] at hnat
  have hone : m ≤ 1 := by
    replace hnat : 0 = m.toNat - 1 := hnat
    omega
  have hincompatible : isForkIncompatible (time c) (time newcfg) (some 1) = true :=
    isForkIncompatible_iff.mpr ⟨(isForked_rewindTarget htarget).imp (isForked_mono hone)
      (isForked_mono hone), hne⟩
  show (if isForkIncompatible (time c) (time newcfg) (some 1) then some _ else none).isSome = true
  rw [if_pos hincompatible]
  rfl

/-! ## The loop -/

section Loop

variable {rounds : ℕ} {bhead : UInt64} {btime : Option UInt64}
  {lasterr r : Option ConfigCompatError}

/-- The same place came up again. -/
def SamePlace (lasterr : Option ConfigCompatError) (err : ConfigCompatError) : Prop :=
  ∃ last, lasterr = some last ∧ err.rewindToBlock = last.rewindToBlock ∧
    err.rewindToTime = last.rewindToTime

variable {err : ConfigCompatError}

theorem any_iff_samePlace :
    (lasterr.any fun last => decide (err.rewindToBlock = last.rewindToBlock ∧
      err.rewindToTime = last.rewindToTime)) = true ↔ SamePlace lasterr err := by
  cases lasterr with
  | none => simp [SamePlace]
  | some last => simp [SamePlace]

/-- A round that finds a conflict of block numbers. -/
theorem checkFrom_of_number (herr : firstError (c.numberChecks newcfg) bhead.toNat = some err) :
    (SamePlace lasterr err → c.checkFrom newcfg (rounds + 1) bhead btime lasterr = some lasterr) ∧
    (¬ SamePlace lasterr err → c.checkFrom newcfg (rounds + 1) bhead btime lasterr
      = c.checkFrom newcfg rounds err.rewindToBlock btime (some err)) := by
  have htime : err.rewindToTime = 0 := lowers_numberChecks.other herr
  rw [checkFrom, checkOnce_eq, herr, Option.some_or]
  refine ⟨fun h => if_pos (any_iff_samePlace.mpr h), fun h => ?_⟩
  dsimp only
  rw [if_neg (any_iff_samePlace.not.mpr h), htime, if_neg (UInt64.lt_irrefl 0)]

/-- A round that finds one of times only. -/
theorem checkFrom_of_time {t : UInt64} (hnumber : ¬ c.NumberConflict newcfg bhead)
    (herr : firstError (c.timeChecks newcfg) t.toNat = some err) :
    (SamePlace lasterr err →
      c.checkFrom newcfg (rounds + 1) bhead (some t) lasterr = some lasterr) ∧
    (¬ SamePlace lasterr err → c.checkFrom newcfg (rounds + 1) bhead (some t) lasterr
      = if 0 < err.rewindToTime then
          c.checkFrom newcfg rounds bhead (some err.rewindToTime) (some err)
        else c.checkFrom newcfg rounds 0 (some t) (some err)) := by
  have hblock : err.rewindToBlock = 0 := lowers_timeChecks.other herr
  rw [checkFrom, checkOnce_eq, Option.not_isSome_iff_eq_none.mp hnumber, Option.none_or,
    Option.map_some, Option.bind_some, herr]
  refine ⟨fun h => if_pos (any_iff_samePlace.mpr h), fun h => ?_⟩
  dsimp only
  rw [if_neg (any_iff_samePlace.not.mpr h), hblock]

/-- A round that finds nothing. -/
theorem checkFrom_of_none (hnumber : ¬ c.NumberConflict newcfg bhead)
    (htime : ¬ c.TimeConflict newcfg btime) :
    c.checkFrom newcfg (rounds + 1) bhead btime lasterr = some lasterr := by
  have hnone :
      (btime.map fun t => (t.toNat : ℤ)).bind (firstError (c.timeChecks newcfg)) = none := by
    rw [Option.bind_map]
    exact Option.not_isSome_iff_eq_none.mp htime
  rw [checkFrom, checkOnce_eq, Option.not_isSome_iff_eq_none.mp hnumber, Option.none_or, hnone]

/-- More rounds do not change what is returned. -/
theorem checkFrom_succ (h : c.checkFrom newcfg rounds bhead btime lasterr = some r) :
    c.checkFrom newcfg (rounds + 1) bhead btime lasterr = some r := by
  induction rounds generalizing bhead btime lasterr with
  | zero => cases h
  | succ rounds ih =>
    rw [checkFrom] at h ⊢
    cases hcheck : c.checkOnce newcfg (some bhead.toNat) (btime.map fun t => (t.toNat : ℤ)) with
    | none =>
      rw [hcheck] at h
      exact h
    | some err =>
      rw [hcheck] at h
      dsimp only at h ⊢
      split_ifs at h ⊢
      · exact h
      · exact ih h
      · exact ih h

theorem checkFrom_unique {rounds' : ℕ} {r' : Option ConfigCompatError}
    (h : c.checkFrom newcfg rounds bhead btime lasterr = some r)
    (h' : c.checkFrom newcfg rounds' bhead btime lasterr = some r') : r = r' := by
  have hmono : ∀ {k l : ℕ} {x}, k ≤ l → c.checkFrom newcfg k bhead btime lasterr = some x →
      c.checkFrom newcfg l bhead btime lasterr = some x := fun hkl hk => by
    induction hkl with
    | refl => exact hk
    | step _ ih => exact checkFrom_succ ih
  have hl := hmono (le_max_left rounds rounds') h
  rw [hmono (le_max_right rounds rounds') h'] at hl
  exact (Option.some.inj hl).symm

/-- **How the loop ends once no block number is in conflict.** -/
inductive TimeEnds (c newcfg : ChainConfig) (btime : Option UInt64)
    (lasterr : Option ConfigCompatError) : Option ConfigCompatError → Prop
  | none (h : ¬ c.TimeConflict newcfg btime) : TimeEnds c newcfg btime lasterr lasterr
  | rewound {err : ConfigCompatError} (h : c.TimeConflict newcfg btime)
    (hone : ¬ c.TimeConflict newcfg (some 1)) (hpos : 0 < err.rewindToTime)
    (hgone : ¬ c.TimeConflict newcfg (some err.rewindToTime)) :
    TimeEnds c newcfg btime lasterr (some err)
  | stuck {err : ConfigCompatError} (h : c.TimeConflict newcfg btime)
    (hone : c.TimeConflict newcfg (some 1)) (htime : err.rewindToTime = 0)
    (hblock : err.rewindToBlock = 0) : TimeEnds c newcfg btime lasterr (some err)

/-- **The time is lowered until there is no conflict**, or to zero. -/
theorem exists_checkFrom_time (n : ℕ) {t : UInt64} (hn : t.toNat = n)
    (hnumber : ¬ c.NumberConflict newcfg bhead)
    (hlast : ∀ e, lasterr = some e → e.rewindToTime = 0 ∨ t ≤ e.rewindToTime) :
    ∃ rounds r, c.checkFrom newcfg rounds bhead (some t) lasterr = some r ∧
      TimeEnds c newcfg (some t) lasterr r := by
  induction n using Nat.strong_induction_on generalizing t lasterr with
  | h n ih =>
    by_cases htime : c.TimeConflict newcfg (some t)
    · obtain ⟨err, herr⟩ := Option.isSome_iff_exists.mp htime
      replace herr : firstError (c.timeChecks newcfg) t.toNat = some err := herr
      have hle := lowers_timeChecks.toNat_le herr
      by_cases hpos : 0 < err.rewindToTime
      · -- the time goes down, and what was asked for before is not asked for again
        have hpos' : 0 < err.rewindToTime.toNat := UInt64.lt_iff_toNat_lt.mp hpos
        have hnew : ¬ SamePlace lasterr err := by
          rintro ⟨last, hlasterr, -, hsame⟩
          obtain hzero | hge := hlast last hlasterr
          · rw [hsame, hzero] at hpos
            exact UInt64.lt_irrefl _ hpos
          · have := UInt64.le_iff_toNat_le.mp hge
            rw [hsame] at hle hpos'
            omega
        have hnext :
          ∀ e, some err = some e → e.rewindToTime = 0 ∨ err.rewindToTime ≤ e.rewindToTime :=
          fun e he => .inr (Option.some.inj he ▸ UInt64.le_refl _)
        obtain ⟨rounds, r, hr, hends⟩ := ih err.rewindToTime.toNat (by omega) rfl hnext
        refine ⟨rounds + 1, r, ?_, ?_⟩
        · rw [(checkFrom_of_time hnumber herr).2 hnew, if_pos hpos, hr]
        · have hone : 1 ≤ err.rewindToTime := UInt64.le_iff_toNat_le.mpr hpos'
          cases hends with
          | none h => exact .rewound htime (fun h1 => h (h1.mono hone)) hpos h
          | rewound _ h1 hpos h => exact .rewound htime h1 hpos h
          | stuck _ h1 h0 h0' => exact .stuck htime h1 h0 h0'
      · have hzero : err.rewindToTime = 0 :=
          UInt64.le_antisymm (UInt64.not_lt.mp hpos) UInt64.zero_le
        have hblock : err.rewindToBlock = 0 := lowers_timeChecks.other herr
        have hone := timeConflict_one herr hzero
        by_cases hsame : SamePlace lasterr err
        · obtain ⟨last, rfl, hb, ht⟩ := id hsame
          exact ⟨1, _, (checkFrom_of_time hnumber herr).1 hsame,
            .stuck htime hone (ht.symm.trans hzero) (hb.symm.trans hblock)⟩
        · -- the same conflict is found again at block zero
          have hnumber' : ¬ c.NumberConflict newcfg 0 := fun h => hnumber (h.mono UInt64.zero_le)
          refine ⟨2, some err, ?_, .stuck htime hone hzero hblock⟩
          rw [(checkFrom_of_time hnumber herr).2 hsame, if_neg hpos]
          exact (checkFrom_of_time hnumber' herr).1 ⟨err, rfl, rfl, rfl⟩
    · exact ⟨1, lasterr, checkFrom_of_none hnumber htime, .none htime⟩

/-- The same for a time that may be nil. -/
theorem exists_checkFrom_timeEnds (hnumber : ¬ c.NumberConflict newcfg bhead)
    (hlast : ∀ e, lasterr = some e → e.rewindToTime = 0) :
    ∃ rounds r, c.checkFrom newcfg rounds bhead btime lasterr = some r ∧
      TimeEnds c newcfg btime lasterr r := by
  cases btime with
  | none =>
    have hnone : ¬ c.TimeConflict newcfg none := Bool.false_ne_true
    exact ⟨1, lasterr, checkFrom_of_none hnumber hnone, .none hnone⟩
  | some t => exact exists_checkFrom_time _ rfl hnumber fun e he => .inl (hlast e he)

/-- **How `CheckCompatible` ends.** -/
inductive Ends (c newcfg : ChainConfig) (bhead : UInt64) (btime : Option UInt64)
    (lasterr : Option ConfigCompatError) : Option ConfigCompatError → Prop
  | unchanged {r : Option ConfigCompatError} (h : ¬ c.NumberConflict newcfg bhead)
    (hends : TimeEnds c newcfg btime lasterr r) : Ends c newcfg bhead btime lasterr r
  | stuck {err : ConfigCompatError} (h : c.NumberConflict newcfg bhead)
    (hzero : c.NumberConflict newcfg 0) (htime : err.rewindToTime = 0)
    (hblock : err.rewindToBlock = 0) : Ends c newcfg bhead btime lasterr (some err)
  | rewound {r : Option ConfigCompatError} {err : ConfigCompatError}
    (h : c.NumberConflict newcfg bhead) (hzero : ¬ c.NumberConflict newcfg 0)
    (htime : err.rewindToTime = 0) (hgone : ¬ c.NumberConflict newcfg err.rewindToBlock)
    (hends : TimeEnds c newcfg btime (some err) r) : Ends c newcfg bhead btime lasterr r

/-- **The head is lowered until there is no conflict**, or to zero. -/
theorem exists_checkFrom (n : ℕ) (hn : bhead.toNat = n)
    (hlast : ∀ e, lasterr = some e → e.rewindToTime = 0 ∧ e.rewindToBlock = bhead) :
    ∃ rounds r, c.checkFrom newcfg rounds bhead btime lasterr = some r ∧
      Ends c newcfg bhead btime lasterr r := by
  induction n using Nat.strong_induction_on generalizing bhead lasterr with
  | h n ih =>
    by_cases hnumber : c.NumberConflict newcfg bhead
    · obtain ⟨err, herr⟩ := Option.isSome_iff_exists.mp hnumber
      have hle := lowers_numberChecks.toNat_le herr
      have htime := lowers_numberChecks.other herr
      have hnext :
          ∀ e, some err = some e → e.rewindToTime = 0 ∧ e.rewindToBlock = err.rewindToBlock := by
        rintro _ ⟨⟩
        exact ⟨htime, rfl⟩
      by_cases hzero : bhead = 0
      · -- at block zero the conflict comes up again
        subst hzero
        have hblock : err.rewindToBlock = 0 := UInt64.toNat_inj.mp (Nat.le_zero.mp hle)
        by_cases hsame : SamePlace lasterr err
        · obtain ⟨last, rfl, hb, ht⟩ := id hsame
          exact ⟨1, _, (checkFrom_of_number herr).1 hsame,
            .stuck hnumber hnumber (ht.symm.trans htime) (hb.symm.trans hblock)⟩
        · refine ⟨2, some err, ?_, .stuck hnumber hnumber htime hblock⟩
          rw [(checkFrom_of_number herr).2 hsame, hblock]
          exact (checkFrom_of_number herr).1 ⟨err, rfl, rfl, rfl⟩
      · have hpos : 0 < bhead.toNat := Nat.pos_of_ne_zero fun h => hzero (UInt64.toNat_inj.mp h)
        have hnew : ¬ SamePlace lasterr err := by
          rintro ⟨last, hlasterr, hb, -⟩
          rw [hb, (hlast last hlasterr).2] at hle
          omega
        obtain ⟨rounds, r, hr, hends⟩ := ih err.rewindToBlock.toNat (by omega) rfl hnext
        refine ⟨rounds + 1, r, by rw [(checkFrom_of_number herr).2 hnew, hr], ?_⟩
        cases hends with
        | unchanged h hends =>
          exact .rewound hnumber (fun h0 => h (h0.mono UInt64.zero_le)) htime h hends
        | stuck _ h0 ht hb => exact .stuck hnumber h0 ht hb
        | rewound _ h0 ht hgone hends => exact .rewound hnumber h0 ht hgone hends
    · obtain ⟨rounds, r, hr, hends⟩ := exists_checkFrom_timeEnds hnumber fun e he => (hlast e he).1
      exact ⟨rounds, r, hr, .unchanged hnumber hends⟩

end Loop

/-! ## Rewinding -/

/-- `CheckCompatible` returns nil where nothing is in conflict. -/
theorem exists_checkCompatible_nil {height : UInt64} {time : Option UInt64} :
    (∃ rounds, c.checkCompatible newcfg height time rounds = some none) ↔
      ¬ c.NumberConflict newcfg height ∧ ¬ c.TimeConflict newcfg time := by
  constructor
  · rintro ⟨rounds, h⟩
    have hnil := checkCompatible_eq_nil h
    rw [checkOnce_eq, Option.or_eq_none_iff, Option.bind_map] at hnil
    exact ⟨Option.not_isSome_iff_eq_none.mpr hnil.1, Option.not_isSome_iff_eq_none.mpr hnil.2⟩
  · rintro ⟨hnumber, htime⟩
    exact ⟨1, checkFrom_of_none hnumber htime⟩

/-- **Conflicts of both kinds that can be rewound**: the head is past one
of block numbers, but block zero is not, and the time is past one of
times, but time one is not. -/
def ConflictsOfBothKinds (c newcfg : ChainConfig) (height : UInt64) (time : Option UInt64) : Prop :=
  (c.NumberConflict newcfg height ∧ ¬ c.NumberConflict newcfg 0) ∧
    c.TimeConflict newcfg time ∧ ¬ c.TimeConflict newcfg (some 1)

/-- **`CheckCompatible` returns.** -/
theorem exists_checkCompatible (c newcfg : ChainConfig) (height : UInt64) (time : Option UInt64) :
    ∃ rounds r, c.checkCompatible newcfg height time rounds = some r ∧
      Ends c newcfg height time none r :=
  exists_checkFrom _ rfl nofun

/-- **`CheckCompatible` returns, and the rewind of its error is enough**
exactly if there are not conflicts of both kinds. -/
theorem checkCompatible_rewind_iff (c newcfg : ChainConfig) (height : UInt64)
    (time : Option UInt64) :
    (∃ rounds r, c.checkCompatible newcfg height time rounds = some r) ∧
    ((∀ rounds err, c.checkCompatible newcfg height time rounds = some (some err) →
      ∀ height' time', err.rewind height time = some (height', time') →
        ∃ rounds', c.checkCompatible newcfg height' time' rounds' = some none) ↔
      ¬ ConflictsOfBothKinds c newcfg height time) := by
  obtain ⟨rounds, r, hr, hends⟩ := exists_checkCompatible c newcfg height time
  refine ⟨⟨rounds, r, hr⟩, ?_, ?_⟩
  · rintro h ⟨⟨hnumber, hzero⟩, htime, hone⟩
    cases hends with
    | unchanged hnone => exact hnone hnumber
    | stuck _ hzero' => exact hzero hzero'
    | rewound _ _ _ _ hends =>
      cases hends with
      | none hnone => exact hnone htime
      | stuck _ hone' => exact hone hone'
      | rewound _ _ hpos _ =>
        -- only the time is rewound
        have hnil := h rounds _ hr height _ (if_pos hpos)
        exact (exists_checkCompatible_nil.mp hnil).1 hnumber
  · intro hnot rounds' err herr height' time' hrewind
    obtain rfl := checkFrom_unique hr herr
    rw [exists_checkCompatible_nil]
    cases hends with
    | stuck _ _ htime hblock => rw [err.rewind_eq_none htime hblock] at hrewind; cases hrewind
    | unchanged hnumber hends =>
      cases hends with
      | stuck _ _ htime hblock => rw [err.rewind_eq_none htime hblock] at hrewind; cases hrewind
      | rewound _ _ hpos hgone =>
        rw [ConfigCompatError.rewind, if_pos hpos] at hrewind
        cases hrewind
        exact ⟨hnumber, hgone⟩
    | rewound hnumber hzero htime hgone hends =>
      cases hends with
      | none hnone =>
        rw [ConfigCompatError.rewind, htime, if_neg (UInt64.lt_irrefl 0)] at hrewind
        split_ifs at hrewind
        cases hrewind
        exact ⟨hgone, hnone⟩
      | rewound htime' hone _ _ => exact absurd ⟨⟨hnumber, hzero⟩, htime', hone⟩ hnot
      | stuck _ _ htime hblock => rw [err.rewind_eq_none htime hblock] at hrewind; cases hrewind

/-- **Homestead and Shanghai that are put off**, at block 30 and time 300:
the error asks for time 99, but block 30 is still past Homestead. -/
theorem checkCompatible_rewind_insufficient :
    let c : ChainConfig := { homesteadBlock := some 10, shanghaiTime := some 100 }
    let newcfg : ChainConfig := { homesteadBlock := some 20, shanghaiTime := some 200 }
    ∃ err, c.checkCompatible newcfg 30 (some 300) 3 = some (some err) ∧
      err.rewind 30 (some 300) = some (30, some 99) ∧
      ¬ ∃ rounds, c.checkCompatible newcfg 30 (some 99) rounds = some none := by
  refine ⟨newTimestampCompatError "Shanghai fork timestamp" (some 100) (some 200), by decide,
    by decide, ?_⟩
  rw [exists_checkCompatible_nil]
  decide

end ChainConfig
