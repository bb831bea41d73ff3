import CardinalEvm.SearchSoundness

/-!
# Estimating lists of transactions

`EstimateGasList` estimates one transaction after the other, each in the
state the one before left, and takes every estimate off the cap of the
next. But a cap of zero is no cap. If the estimates use up the budget
before the end of the list, the next transaction may take what it likes,
and the cap after it has wrapped around (`Listing.within_iff`).
-/

/-- **The variables of the loop of `EstimateGasList`.** -/
structure Listing where
  /-- The variables of the view. -/
  captured : Captured := {}
  stateData : Option StateDB
  gasCap : UInt64
  /-- The caps that were used so far and the estimates, the newest first.
  The program has no such record. -/
  calls : List (UInt64 × UInt64) := []

namespace Listing

variable [Keccak] (v : View) (host : Host) (fuel : ℕ) (fast : Bool) (steps : ℕ)

/-- One round of the loop. -/
def estimateNext (args : TransactionArgs) : EStateM ApiStop Listing UInt64 := fun s =>
  match s.stateData with
  | none => .error (.err .unset) s
  | some d =>
    match Estimation.doEstimateGas v args s.gasCap host fuel fast steps
        { captured := s.captured, prior := d } with
    | .error stop est => .error stop { s with captured := est.captured }
    | .ok gas est =>
      .ok gas
        { captured := est.captured
          stateData := est.stateData
          gasCap := s.gasCap - gas
          calls := (s.gasCap, gas) :: s.calls }

/-- The rounds of the loop. -/
def estimateAll : List TransactionArgs → EStateM ApiStop Listing (List UInt64)
  | [] => pure []
  | args :: argsList => do
    let gas ← estimateNext v host fuel fast steps args
    return gas :: (← estimateAll argsList)

/-- **`EstimateGasList`** in a view, where `gasLimit` is the cap for the
header. It is fast unless it is asked to be precise. -/
def estimateGasList (gasLimit : Header → UInt64) (argsList : List TransactionArgs)
    (precise : Option Bool) (d : StateDB) (c : Captured) :
    EStateM.Result ApiStop Listing (List UInt64) :=
  estimateAll v host fuel (!precise.getD false) steps argsList
    { captured := c, stateData := some d, gasCap := gasLimit v.header }

/-- What was estimated so far. -/
def spent (calls : List (UInt64 × UInt64)) : ℕ := (calls.map fun call => call.2.toNat).sum

/-- **Within a budget**: the estimates add up to no more than it. Every
call was made with what was left of it, which was not nothing, and the
estimate could be taken off. -/
structure Within (budget : UInt64) (calls : List (UInt64 × UInt64)) : Prop where
  sum : spent calls ≤ budget.toNat
  each : ∀ cap gas later earlier, calls = later ++ (cap, gas) :: earlier →
    cap ≠ 0 ∧ cap.toNat + spent earlier = budget.toNat ∧ gas ≤ cap

variable {v host fuel fast steps} {budget : UInt64} {s s' : Listing}

/-! ## Rounds -/

variable {gas : UInt64} {args : TransactionArgs} {argsList : List TransactionArgs}
  {gases : List UInt64}

omit [Keccak] in
theorem within_cons {cap : UInt64} {calls : List (UInt64 × UInt64)} :
    Within budget ((cap, gas) :: calls) ↔ Within budget calls ∧ cap ≠ 0
      ∧ cap.toNat + spent calls = budget.toNat ∧ gas ≤ cap := by
  constructor
  · intro h
    have hfirst := h.each cap gas [] calls rfl
    refine ⟨⟨by omega, fun cap' gas' later earlier heq => ?_⟩, hfirst⟩
    exact h.each cap' gas' ((cap, gas) :: later) earlier (by rw [heq]; rfl)
  · rintro ⟨hcalls, hne, hleft, hle⟩
    refine ⟨?_, fun cap' gas' later earlier heq => ?_⟩
    · show gas.toNat + spent calls ≤ budget.toNat
      have := UInt64.le_iff_toNat_le.mp hle
      omega
    · cases later with
      | nil =>
        cases heq
        exact ⟨hne, hleft, hle⟩
      | cons call later => exact hcalls.each cap' gas' later earlier (List.cons.inj heq).2

/-- **What a round does**: the estimate is at most the cap, if there is
one. -/
theorem estimateNext_ok (h : estimateNext v host fuel fast steps args s = .ok gas s') :
    s'.calls = (s.gasCap, gas) :: s.calls ∧ s'.gasCap = s.gasCap - gas
      ∧ (s.gasCap ≠ 0 → gas ≤ s.gasCap) := by
  unfold estimateNext at h
  cases hd : s.stateData with
  | none =>
    rw [hd] at h
    cases h
  | some d =>
    rw [hd] at h
    dsimp only at h
    split at h
    next => cases h
    next gas' est hrun =>
      cases h
      obtain ⟨cap, l, b, hcap, hpath, rfl, -⟩ := Estimation.path_of_doEstimateGas hrun
      exact ⟨rfl, rfl, fun hne =>
        UInt64.le_trans hpath.hi_le ((TransactionArgs.ceiling_ok hcap).2.1 hne)⟩

/-- **A budget in which the loop still is**: what is left of it is the
cap. -/
structure InBudget (budget : UInt64) (s : Listing) : Prop where
  within : Within budget s.calls
  left : s.gasCap.toNat + spent s.calls = budget.toNat

/-- **A round keeps the budget** if there is something left of it. -/
theorem InBudget.estimateNext (h : InBudget budget s) (hne : s.gasCap ≠ 0)
    (hrun : Listing.estimateNext v host fuel fast steps args s = .ok gas s') :
    InBudget budget s' := by
  obtain ⟨hcalls, hcap, hle⟩ := estimateNext_ok hrun
  have hleft := h.left
  have hgas := UInt64.le_iff_toNat_le.mp (hle hne)
  refine ⟨hcalls ▸ within_cons.mpr ⟨h.within, hne, h.left, hle hne⟩, ?_⟩
  rw [hcalls, hcap, UInt64.toNat_sub_of_le _ _ (hle hne)]
  show s.gasCap.toNat - gas.toNat + (gas.toNat + spent s.calls) = budget.toNat
  omega

/-! ## The loop -/

theorem estimateAll_cons :
    estimateAll v host fuel fast steps (args :: argsList) s = .ok gases s'
      ↔ ∃ gas s₁ rest, estimateNext v host fuel fast steps args s = .ok gas s₁
        ∧ estimateAll v host fuel fast steps argsList s₁ = .ok rest s' ∧ gases = gas :: rest := by
  rw [estimateAll, bind_eq_ok]
  refine exists_congr fun gas => exists_congr fun s₁ => ?_
  constructor
  · rintro ⟨hnext, h⟩
    obtain ⟨rest, s₂, hrest, h⟩ := bind_eq_ok.mp h
    cases h
    exact ⟨rest, hnext, hrest, rfl⟩
  · rintro ⟨rest, hnext, hrest, rfl⟩
    exact ⟨hnext, bind_eq_ok.mpr ⟨rest, s', hrest, rfl⟩⟩

theorem estimateAll_append {pre suf : List TransactionArgs}
    (h : estimateAll v host fuel fast steps (pre ++ suf) s = .ok gases s') :
    ∃ first s₁ rest, estimateAll v host fuel fast steps pre s = .ok first s₁
      ∧ estimateAll v host fuel fast steps suf s₁ = .ok rest s' := by
  induction pre generalizing s gases with
  | nil => exact ⟨[], s, gases, rfl, h⟩
  | cons args pre ih =>
    obtain ⟨gas, s₁, rest, hnext, hrest, -⟩ := estimateAll_cons.mp h
    obtain ⟨first, s₂, rest', hfirst, hrest'⟩ := ih hrest
    exact ⟨gas :: first, s₂, rest', estimateAll_cons.mpr ⟨gas, s₁, first, hnext, hfirst, rfl⟩,
      hrest'⟩

/-- **The record of the loop** grows by what is returned. -/
theorem calls_estimateAll (h : estimateAll v host fuel fast steps argsList s = .ok gases s') :
    (∃ later, s'.calls = later ++ s.calls)
      ∧ spent s'.calls = (gases.map UInt64.toNat).sum + spent s.calls := by
  induction argsList generalizing s gases with
  | nil =>
    cases h
    exact ⟨⟨[], rfl⟩, (Nat.zero_add _).symm⟩
  | cons args argsList ih =>
    obtain ⟨gas, s₁, rest, hnext, hrest, rfl⟩ := estimateAll_cons.mp h
    obtain ⟨⟨later, hlater⟩, hsum⟩ := ih hrest
    have hcalls := (estimateNext_ok hnext).1
    rw [hcalls] at hlater hsum
    refine ⟨⟨later ++ [(s.gasCap, gas)], by rw [hlater, List.append_assoc]; rfl⟩, hsum.trans ?_⟩
    show _ + (gas.toNat + spent s.calls) = gas.toNat + (rest.map UInt64.toNat).sum + spent s.calls
    omega

/-- **The loop keeps the budget** if no part of the list before its end
uses it up. -/
theorem InBudget.estimateAll
    (h : InBudget budget s)
    (hrun : Listing.estimateAll v host fuel fast steps argsList s = .ok gases s')
    (hleft : ∀ pre suf, argsList = pre ++ suf → suf ≠ [] → ∀ first s₁,
      Listing.estimateAll v host fuel fast steps pre s = .ok first s₁ →
      (first.map UInt64.toNat).sum + spent s.calls ≠ budget.toNat) : InBudget budget s' := by
  induction argsList generalizing s gases with
  | nil =>
    cases hrun
    exact h
  | cons args argsList ih =>
    obtain ⟨gas, s₁, rest, hnext, hrest, -⟩ := estimateAll_cons.mp hrun
    have hne : s.gasCap ≠ 0 := by
      intro hzero
      have hsum := h.left
      have hnot := hleft [] (args :: argsList) rfl (List.cons_ne_nil _ _) [] s rfl
      rw [hzero] at hsum
      exact hnot hsum
    refine ih (h.estimateNext hne hnext) hrest fun pre suf heq hsuf first s₂ hfirst => ?_
    have hnot := hleft (args :: pre) suf (by rw [heq]; rfl) hsuf (gas :: first) s₂
      (estimateAll_cons.mpr ⟨gas, s₁, first, hnext, hfirst, rfl⟩)
    rw [(estimateNext_ok hnext).1]
    show (first.map UInt64.toNat).sum + (gas.toNat + spent s.calls) ≠ _
    have hsum : (((gas :: first).map UInt64.toNat).sum : ℕ)
      = gas.toNat + (first.map UInt64.toNat).sum := rfl
    omega

/-- **When a list of estimates is within its budget**: no part of the list
before its end uses it up. -/
theorem within_iff (v : View) (host : Host) (fuel steps : ℕ) (gasLimit : Header → UInt64)
    (argsList : List TransactionArgs) (precise : Option Bool) (d : StateDB) (c : Captured)
    {gases : List UInt64}
    (h : estimateGasList v host fuel steps gasLimit argsList precise d c = .ok gases s') :
    Within (gasLimit v.header) s'.calls
      ↔ ∀ pre suf, argsList = pre ++ suf → suf ≠ [] → ∀ first s₁,
        estimateGasList v host fuel steps gasLimit pre precise d c = .ok first s₁ →
        (first.map UInt64.toNat).sum ≠ (gasLimit v.header).toNat := by
  constructor
  · rintro hwithin pre suf rfl hsuf first s₁ hfirst hsum
    obtain ⟨first', s₁', rest, hfirst', hrest⟩ := estimateAll_append h
    obtain ⟨rfl, rfl⟩ := EStateM.Result.ok.inj (hfirst.symm.trans hfirst')
    obtain ⟨args, suf, rfl⟩ := List.exists_cons_of_ne_nil hsuf
    obtain ⟨gas, s₂, rest', hnext, hrest', -⟩ := estimateAll_cons.mp hrest
    obtain ⟨⟨later, hlater⟩, -⟩ := calls_estimateAll hrest'
    rw [(estimateNext_ok hnext).1] at hlater
    obtain ⟨hne, hcap, -⟩ := hwithin.each _ _ _ _ hlater
    have hspent : spent s₁.calls = (first.map UInt64.toNat).sum + 0 := (calls_estimateAll hfirst).2
    exact hne (UInt64.toNat_inj.mp (show s₁.gasCap.toNat = 0 by omega))
  · intro hleft
    have hstart : InBudget (gasLimit v.header)
        { captured := c, stateData := some d, gasCap := gasLimit v.header } := by
      refine ⟨⟨Nat.zero_le _, fun _ _ later _ heq => ?_⟩, rfl⟩
      exact absurd heq.symm (by simp)
    exact (hstart.estimateAll h hleft).within

/-! ## Transfers -/

omit [Keccak]

/-- **Three transfers with a budget for two.** The third is estimated
without a cap, and the cap wraps around. -/
theorem not_within :
    letI := Keccak.digests
    let args := TransactionArgs.withData [] (by decide) 21000
    ∃ gases s', estimateGasList View.calls {} 10 20 (fun _ => 42000) [args, args, args] none
        (StateDB.newStateDB (.sender 0)) {} = .ok gases s'
      ∧ gases = [21000, 21000, 21000]
      ∧ s'.calls.map Prod.fst = [0, 21000, 42000] ∧ s'.gasCap = 0xffffffffffffadf8 :=
  letI := Keccak.digests
  exists_of_sat (by decide +kernel)

/-- Two of them are within the budget. -/
theorem within_iff_transfers :
    letI := Keccak.digests
    let args := TransactionArgs.withData [] (by decide) 21000
    ∃ gases s', estimateGasList View.calls {} 10 20 (fun _ => 42000) [args, args] none
        (StateDB.newStateDB (.sender 0)) {} = .ok gases s' ∧ Within 42000 s'.calls := by
  let _ := Keccak.digests
  intro args
  obtain ⟨gases, s', hrun, -⟩ : ∃ gases s', estimateGasList View.calls {} 10 20 (fun _ => 42000)
      [args, args] none (StateDB.newStateDB (.sender 0)) {} = .ok gases s' ∧ True :=
    exists_of_sat (by decide +kernel)
  refine ⟨gases, s', hrun, (within_iff View.calls {} 10 20 (fun _ => 42000) [args, args] none
    (StateDB.newStateDB (.sender 0)) {} hrun).mpr ?_⟩
  intro pre suf heq hsuf first s₁ hfirst
  match pre with
  | [] =>
    cases hfirst
    decide
  | [_] =>
    obtain ⟨rfl, -⟩ := List.cons.inj heq
    obtain ⟨gases', s₁', hrun', hsum⟩ : ∃ gases s', estimateGasList View.calls {} 10 20
        (fun _ => 42000) [args] none (StateDB.newStateDB (.sender 0)) {} = .ok gases s'
        ∧ (gases.map UInt64.toNat).sum ≠ 42000 := exists_of_sat (by decide +kernel)
    obtain ⟨rfl, -⟩ := EStateM.Result.ok.inj (hrun'.symm.trans hfirst)
    exact hsum
  | _ :: _ :: rest =>
    obtain ⟨-, -, -, hnil⟩ : _ ∧ _ ∧ rest = [] ∧ suf = [] := by simpa using heq
    exact absurd hnil hsuf

end Listing
