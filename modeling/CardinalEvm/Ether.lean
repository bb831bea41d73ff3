import CardinalEvm.Ledger
import CardinalEvm.SelfDestruct
import Mathlib.Data.FinEnum

/-!
# Ether

What all accounts hold together does not grow in a message. Value is
moved from an account that has it, `CreateAccount` carries the balance
over or drops it, and a revert puts the balances back. A balance that is
added to an account without a record is not shown, and so lost.

The exception is the old `SELFDESTRUCT`: it pays the balance of the
account to the beneficiary and leaves it where it was, to be paid out
again. The sum grows by it, so `Evm.sum_getBalance_le` needs that the
instruction is the one of EIP-6780, or that the accounts it is executed
in have no balance (`PaysOnce`).
-/

variable [Keccak]

open Ledger

namespace StateDB

/-- The balances a state shows. -/
def ledger (s : StateDB) (a : Address) : ℤ := (s.getBalance a).1

/-- An account whose balance is shown. -/
def Shows (s : StateDB) (a : Address) : Prop :=
  (s.getAccount a).deleted = false ∧ s.HasRecord a

variable {s t : StateDB} {a b : Address}

/-! ## What changes balances -/

theorem ledger_of_view (h : t.view a = s.view a) (htx : t.tx = s.tx) : t.ledger a = s.ledger a := by
  unfold ledger
  rw [getBalance_fst, getBalance_fst]
  unfold view at h
  rw [htx] at h ⊢
  exact StateObject.balance_congr h

theorem ledger_of_le (h : Le s t) (a : Address) : t.ledger a = s.ledger a :=
  h.sameReads.getBalance a

/-- Calls that leave all balances alone. -/
def Op.keepsBalance : Op → Bool
  | .subBalance _ _ | .addBalance _ _ | .setBalance _ _ | .createAccount _ => false
  | _ => true

theorem Op.ledger_eq {o : Op} (ho : o.keepsBalance) (h : o.apply s = some t) (a : Address) :
    t.ledger a = s.ledger a := by
  have htx : t.tx = s.tx := (Op.step h).tx_eq
  obtain hview | ⟨c, r, hc, hr, ht⟩ | ⟨rfl, -⟩ := (Op.step h).account a
  · exact ledger_of_view hview htx
  · unfold ledger
    rw [getBalance_fst, getBalance_fst, ht, htx]
    cases c with
    | subBalance | addBalance | setBalance =>
      cases o <;> cases hc
      cases ho
    | suicide =>
      simp only [ObjectOp.run, StateObject.suicide] at hr
      split_ifs at hr
      cases hr
      rfl
    | setState k v =>
      obtain ⟨m, -, rfl⟩ := Option.map_eq_some_iff.mp hr
      rfl
    | setNonce | setCode | setStorage =>
      cases hr
      rfl
  · cases ho

theorem Calls.ledger_eq (h : Calls (fun o => o.keepsBalance) s t) (a : Address) :
    t.ledger a = s.ledger a :=
  h.induct (I := fun u => u.ledger a = s.ledger a)
    (fun _ _ _ ho hu hI => (Op.ledger_eq ho hu a).trans hI) rfl

omit [Keccak] in
theorem Op.keepsBalance_of_refunding {o : Op} (h : o.isWarm ∨ o.isRefund) : o.keepsBalance := by
  cases o <;> first | rfl | (rcases h with h | h <;> cases h)

section Moves

omit [Keccak]

instance (s : StateDB) (a : Address) : Decidable (s.Shows a) :=
  inferInstanceAs (Decidable (_ ∧ _))

/-- A balance that is not shown is zero. -/
theorem ledger_of_not_shows (h : ¬ s.Shows a) : s.ledger a = 0 :=
  (getBalance_fst s a).trans (if_neg h)

/-- A delta does not change whose balance is shown. -/
theorem shows_change_delta {r : StateObject × ObjectUndo} {delta : Option ℤ}
    (hr : r.1 = { s.getAccount a with balanceDelta := delta }) (b : Address) :
    (s.change a r).Shows b ↔ s.Shows b := by
  unfold Shows HasRecord
  show ((s.setAccount a r.1).getAccount b).deleted = false
    ∧ (((s.setAccount a r.1).getAccount b).record s.tx b).isSome ↔ _
  by_cases hb : b = a
  · rw [hb, getAccount_setAccount, hr]
    rfl
  · rw [getAccount_setAccount_of_ne hb]

theorem shows_addBalance (s : StateDB) (a : Address) (x : ℤ) (b : Address) :
    (s.addBalance a x).Shows b ↔ s.Shows b := by
  unfold addBalance
  split_ifs
  · rfl
  · exact shows_change_delta (StateObject.addBalance_fst x _) b

theorem shows_subBalance (s : StateDB) (a : Address) (x : ℤ) (b : Address) :
    (s.subBalance a x).Shows b ↔ s.Shows b := by
  unfold subBalance
  split_ifs
  · rfl
  · exact shows_change_delta (StateObject.subBalance_fst x _) b

theorem ledger_addBalance (s : StateDB) (a : Address) (x : ℤ) (b : Address) :
    (s.addBalance a x).ledger b = s.ledger b + if b = a ∧ s.Shows a then x else 0 := by
  by_cases hb : b = a
  · subst hb
    by_cases hs : s.Shows b
    · rw [if_pos ⟨rfl, hs⟩]
      exact getBalance_addBalance x hs.1 hs.2
    · rw [if_neg fun h => hs h.2, ledger_of_not_shows hs,
        ledger_of_not_shows (mt (shows_addBalance s b x b).mp hs), add_zero]
  · rw [if_neg fun h => hb h.1, add_zero]
    exact (getBalance_others x hb).1

theorem ledger_subBalance (s : StateDB) (a : Address) (x : ℤ) (b : Address) :
    (s.subBalance a x).ledger b = s.ledger b - if b = a ∧ s.Shows a then x else 0 := by
  by_cases hb : b = a
  · subst hb
    by_cases hs : s.Shows b
    · rw [if_pos ⟨rfl, hs⟩]
      exact getBalance_subBalance x hs.1 hs.2
    · rw [if_neg fun h => hs h.2, ledger_of_not_shows hs,
        ledger_of_not_shows (mt (shows_subBalance s b x b).mp hs), sub_zero]
  · rw [if_neg fun h => hb h.1, sub_zero]
    exact (getBalance_others x hb).2.1

/-- **A transfer**, as it is shown. -/
theorem ledger_transfer (s : StateDB) (x y : Address) (v : ℤ) (b : Address) :
    ((s.subBalance x v).addBalance y v).ledger b
      = s.ledger b - (if b = x ∧ s.Shows x then v else 0) + if b = y ∧ s.Shows y then v else 0 := by
  rw [ledger_addBalance, ledger_subBalance]
  simp only [shows_subBalance]

/-- **A transfer makes no ether**, from an account that has the value or
to itself. -/
theorem spends_transfer {P : Prop} {x y : Address} {v : ℤ} (hv : 0 ≤ v)
    (hx : x = y ∨ (v ≠ 0 → v ≤ s.ledger x)) :
    Spends P s.ledger ((s.subBalance x v).addBalance y v).ledger := by
  obtain rfl | hx := hx
  · exact .of_eq fun b => (ledger_transfer s x x v b).trans (sub_add_cancel _ _)
  by_cases hzero : v = 0
  · exact .of_eq fun b => by rw [ledger_transfer, hzero]; simp
  replace hx := hx hzero
  -- an account that is not shown has nothing to transfer
  have hs : s.Shows x := by
    by_contra hs
    rw [ledger_of_not_shows hs] at hx
    exact hzero (le_antisymm hx hv)
  -- what the recipient gets is the value, or nothing that is shown
  have hget : ∀ b, 0 ≤ (if b = y ∧ s.Shows y then v else 0)
      ∧ (if b = y ∧ s.Shows y then v else 0) ≤ if b = y then v else 0 := by
    intro b
    by_cases hb : b = y <;> by_cases hy : s.Shows y <;> simp [hb, hy, hv]
  refine .of_moved (y := y) hx (fun b => ?_) (fun b => ?_) <;>
    rw [ledger_transfer] <;> simp only [hs, and_true]
  · exact le_add_of_nonneg_right (hget b).1
  · exact add_le_add_right (hget b).2 _

/-- `CreateAccount` carries the balance over, or drops it. -/
theorem ledger_createAccount (s : StateDB) (a : Address) :
    ((s.createAccount a).ledger a = s.ledger a ∨ (s.createAccount a).ledger a = 0)
      ∧ ∀ b, b ≠ a → (s.createAccount a).ledger b = s.ledger b := by
  unfold ledger
  simp only [getBalance_fst]
  rw [createAccount_replaced]
  refine ⟨?_, fun b hb => ?_⟩
  · show ((s.setAccount a _).getAccount a).balance s.tx a = _
      ∨ ((s.setAccount a _).getAccount a).balance s.tx a = 0
    rw [getAccount_setAccount, StateObject.balance_of_record rfl rfl]
    show (((s.getAccount a).replaced s.tx a).2.getD 0 + 0 = _) ∨ _ + 0 = 0
    unfold StateObject.replaced
    split_ifs with hlive
    · rw [StateObject.loadAccount_eq, StateObject.balance]
      cases (s.getAccount a).deleted <;> cases (s.getAccount a).record s.tx a <;> simp
    · exact .inr rfl
  · show ((s.setAccount a _).getAccount b).balance s.tx b = _
    rw [getAccount_setAccount_of_ne hb]

theorem spends_createAccount {P : Prop} (s : StateDB) (a : Address) :
    Spends P s.ledger (s.createAccount a).ledger := by
  obtain ⟨hself, hothers⟩ := ledger_createAccount s a
  refine .of_emptied fun b => ?_
  by_cases hb : b = a
  · exact hb ▸ hself
  · exact .inl (hothers b hb)

/-- Making the account of the recipient, and paying it. -/
theorem spends_createAccount_transfer {P : Prop} {caller addr : Address} {value : ℤ}
    (hv : 0 ≤ value) (ht : ∀ b, t.ledger b = (s.createAccount addr).ledger b)
    (hfunds : value ≠ 0 → value ≤ s.ledger caller) :
    Spends P s.ledger ((t.subBalance caller value).addBalance addr value).ledger := by
  refine (spends_createAccount s addr).trans (.trans (.of_eq ht) (spends_transfer hv ?_))
  -- the account that is made may be the caller's own
  by_cases hb : caller = addr
  · exact .inl hb
  · rw [ht, (ledger_createAccount s addr).2 caller hb]
    exact .inr hfunds

end Moves

end StateDB

open StateDB

/-! ## Frames -/

/-- **Every `SELFDESTRUCT` pays a balance once**: no instruction of the
table is the old one, or those that were executed found no balance. -/
def PaysOnce (env : Env) (trace : List Event) : Prop :=
  (∀ op, (env.jumpTable op).execute ≠ .write .opSelfdestruct)
    ∨ ∀ a balance marked, .selfdestruct a balance marked ∈ trace → balance = 0

omit [Keccak] in
theorem PaysOnce.of_grows {env : Env} {P : Event → Prop} {es es' : List Event}
    (h : PaysOnce env es') (hg : Grows P es es') : PaysOnce env es := by
  obtain ⟨new, rfl, -⟩ := hg
  exact h.imp_right fun h a balance marked hmem =>
    h a balance marked (List.mem_append_right _ hmem)

section Frames

variable {env : Env} {caller : Address} {o : Opening} {d d' : StateDB}

/-- **Opening a frame makes no ether.** -/
theorem Opening.spends_prepare {P : Prop} (hc : o.Checked env caller d) (hv : 0 ≤ o.value) :
    Spends P d.ledger (o.prepare env caller d).ledger := by
  cases o with
  | code | static addr => exact .of_eq fun _ => rfl
  | call addr value =>
    have hexist : ∀ b, (d.exist addr).2.ledger b = d.ledger b :=
      ledger_of_le (loads_exist d addr).le
    have hfunds : value ≠ 0 → value ≤ (d.exist addr).2.ledger caller := by
      rw [hexist]
      exact hc.1
    refine .trans (.of_eq hexist) ?_
    unfold prepare
    dsimp only
    split_ifs
    · exact spends_transfer hv (.inr hfunds)
    · exact spends_createAccount_transfer hv (fun _ => rfl) hfunds
  | create addr value =>
    refine spends_createAccount_transfer hv (fun b => ?_) (fun _ => hc)
    split_ifs
    · exact getBalance_setNonce _ addr 1 b
    · rfl

theorem Opening.Finishes.ledger_eq (h : o.Finishes d d') (a : Address) :
    d'.ledger a = d.ledger a := by
  cases o with
  | create addr value =>
    obtain rfl | ⟨code, rfl⟩ := h
    · rfl
    · exact Op.ledger_eq (o := .setCode addr code) rfl rfl a
  | call | code | static =>
    obtain rfl := h
    rfl

variable {e e' : Evm} {base : StateDB} {child f : Frame} {b : Status} {kept : Bool}

/-- The balances at the start of a frame. -/
theorem Opens.spends {P : Prop} (ho : Opens env caller o e base child) (hv : 0 ≤ o.value) :
    Spends P e.statedb.ledger child.evm.statedb.ledger :=
  .trans (.of_eq (ledger_of_le ho.reads.le)) (.trans (Opening.spends_prepare ho.checked hv)
    (.of_eq (ledger_of_le ho.statedb.le)))

/-- **A frame makes no ether**, if the code it runs makes none. -/
theorem Opens.spends_closes (ho : Opens env caller o e base child) (hr : Runs env b child f)
    (hc : Closes o base kept e f.evm e') (hwf : e.statedb.accessList.WF) (hv : 0 ≤ o.value)
    (hf : Spends (PaysOnce env f.evm.trace) child.evm.statedb.ledger f.evm.statedb.ledger) :
    Spends (PaysOnce env e'.trace) e.statedb.ledger e'.statedb.ledger := by
  cases kept with
  | false =>
    exact .of_eq (ledger_of_le (hc.le_caller ho hr hwf))
  | true =>
    refine ((ho.spends hv).trans (hf.mono fun hp => hp.of_grows hc.grows)).trans (.of_eq ?_)
    exact Opening.Finishes.ledger_eq hc.statedb

end Frames

/-! ## Runs -/

section Writes

variable {self : Address} {x y : Word} {d d' : StateDB} {f : WriteFn}

/-- Looking at a balance changes none. -/
theorem StateDB.ledger_getBalance (d : StateDB) (a b : Address) :
    (d.getBalance a).2.ledger b = d.ledger b :=
  ledger_of_le (loads_getBalance d a).le b

theorem WriteFn.apply_opSelfdestruct (h : opSelfdestruct.apply self x y d = some d') :
    d' = (((d.getBalance self).2.addBalance (Word.bytes20 x) (d.ledger self)).suicide self).2 :=
  (Option.some.inj h).symm

theorem WriteFn.apply_opSelfdestruct6780 (h : opSelfdestruct6780.apply self x y d = some d') :
    d' = (((d.getBalance self).2.subBalance self (d.ledger self)).addBalance (Word.bytes20 x)
      (d.ledger self)).selfDestruct6780 self :=
  (Option.some.inj h).symm

/-- **A write makes no ether**, apart from the old `SELFDESTRUCT` in an
account with a balance. -/
theorem WriteFn.spends_apply {P : Prop} (hf : f ≠ .opSstore)
    (h : f.apply self x y d = some d')
    (hpay : f = .opSelfdestruct → P → d.ledger self = 0) :
    Spends P d.ledger d'.ledger := by
  have hread := d.ledger_getBalance self
  cases f with
  | opSstore => exact absurd rfl hf
  | opTstore => exact .of_eq (Op.ledger_eq (o := .setTransientState self x y) rfl h)
  | opSelfdestruct =>
    obtain rfl := apply_opSelfdestruct h
    refine .trans (.of_eq hread) (.trans (fun hpos => ⟨fun a => ?_, fun hP => ?_⟩)
      (.of_eq (Op.ledger_eq (o := .suicide self) rfl rfl)))
    · have hbalance : 0 ≤ d.ledger self := hread self ▸ hpos self
      rw [ledger_addBalance]
      exact add_nonneg (hpos a) (by split_ifs <;> first | exact hbalance | exact le_rfl)
    · rw [hpay rfl hP]
      exact le_rfl
  | opSelfdestruct6780 =>
    obtain rfl := apply_opSelfdestruct6780 h
    refine .trans (.of_eq hread) (.trans (fun hpos => ?_)
      (.of_eq (Op.ledger_eq (o := .selfDestruct6780 self) rfl rfl)))
    exact spends_transfer (hread self ▸ hpos self) (.inr fun _ => (hread self).ge) hpos

/-- **What `SELFDESTRUCT` leaves to the account** if it pays another: the
instruction of EIP-6780 nothing, the old one what it had. -/
theorem WriteFn.ledger_self_apply (hx : Word.bytes20 x ≠ self) (h : f.apply self x y d = some d') :
    (f = .opSelfdestruct → d'.ledger self = d.ledger self)
      ∧ (f = .opSelfdestruct6780 → d'.ledger self = 0) := by
  have hread := d.ledger_getBalance self
  have hother : ∀ P : Prop, ¬ (self = Word.bytes20 x ∧ P) := fun _ h => hx h.1.symm
  constructor
  · rintro rfl
    obtain rfl := apply_opSelfdestruct h
    rw [Op.ledger_eq (o := .suicide self) rfl rfl, ledger_addBalance, hread, if_neg (hother _),
      add_zero]
  · rintro rfl
    obtain rfl := apply_opSelfdestruct6780 h
    rw [Op.ledger_eq (o := .selfDestruct6780 self) rfl rfl, ledger_transfer, if_neg (hother _),
      add_zero]
    by_cases hs : (d.getBalance self).2.Shows self
    · rw [if_pos ⟨rfl, hs⟩, hread]
      exact sub_self _
    · rw [if_neg fun h => hs h.2, ledger_of_not_shows hs, sub_zero]

/-- `SELFDESTRUCT` runs if it may write and there is a beneficiary. -/
theorem WriteFn.exec_selfdestruct {sc : Scope} {r : RegsDb} {ws : List Word}
    (hf : f = .opSelfdestruct ∨ f = .opSelfdestruct6780) (hro : sc.readOnly = false)
    (hst : r.regs.stack = x :: ws) :
    ∃ out r', f.exec sc r = .ok out r'
      ∧ f.apply sc.contract.self x 0 r.statedb = some r'.statedb := by
  obtain ⟨⟨_, _, _⟩, d⟩ := r
  obtain rfl : _ = x :: ws := hst
  unfold WriteFn.exec
  rw [hro]
  obtain rfl | rfl := hf <;> exact ⟨_, _, rfl, rfl⟩

end Writes

section Runs

variable {env : Env} {b : Status} {s t : Frame}

omit [Keccak] in
/-- A further step, with what it records. -/
theorem Ledger.Spends.step {P : Event → Prop} {es es' : List Event} {f g h : Address → ℤ}
    (hfg : Spends (PaysOnce env es) f g) (hg : Grows P es es')
    (hgh : Spends (PaysOnce env es') g h) : Spends (PaysOnce env es') f h :=
  (hfg.mono fun hp => hp.of_grows hg).trans hgh

/-- **Code makes no ether**, if every `SELFDESTRUCT` pays a balance
once. Nobody is ever overdrawn. -/
theorem Runs.spends (h : Runs env b s t) (hdepth : s.evm.depth ≠ 0)
    (hwf : s.evm.statedb.accessList.WF) :
    Spends (PaysOnce env t.evm.trace) s.evm.statedb.ledger t.evm.statedb.ledger := by
  have hwarm : ∀ {d d' : StateDB}, Calls (fun o => o.isWarm) d d' → ∀ a, d'.ledger a = d.ledger a :=
    fun h => (h.mono fun _ ho => Op.keepsBalance_of_refunding (.inl ho)).ledger_eq
  -- an opening in code moves no negative value
  have hvalue : ∀ {o : Opening} {t : Frame}, o.Allowed t.evm.readOnly t.evm.depth →
      t.evm.depth ≠ 0 → 0 ≤ o.value := by
    intro o t ha ht
    cases o with
    | call | create => exact ha.2 ht
    | code | static => exact le_rfl
  induction h with
  | refl s => exact .of_eq fun _ => rfl
  | quiet _ hq ih => exact .step (ih hdepth hwf) hq.evm.trace (.of_eq (hwarm hq.evm.warm))
  | stop _ _ ih => exact ih hdepth hwf
  | @write _ t d _ f x y _ hop hf _ hd ih =>
    refine .step (ih hdepth hwf) (t.wrote_grows f d) (WriteFn.spends_apply hf hd fun heq hp => ?_)
    obtain hnone | hzero := hp
    · exact absurd (heq ▸ hop) (hnone _)
    · subst heq
      exact hzero t.contract.self _ _ List.mem_cons_self
  | sstore _ _ _ hgas _ hd ih =>
    have hgas := (Frame.GasEnds.of_ok hgas).refunding
    refine .step (ih hdepth hwf) hgas.trace (.of_eq (Calls.ledger_eq ?_))
    exact (hgas.calls.mono fun _ => Op.keepsBalance_of_refunding).op (.setState _ _ _) rfl hd
  | selfdestruct _ _ hgas _ ih =>
    have hgas := (Frame.GasEnds.of_ok hgas).refunding
    refine .step (ih hdepth hwf) hgas.trace (.of_eq (Calls.ledger_eq ?_))
    exact hgas.calls.mono fun _ => Op.keepsBalance_of_refunding
  | gasFailed _ _ _ hgas hq ih =>
    have hgas := hgas.refunding
    refine .step (.step (ih hdepth hwf) hgas.trace (.of_eq (Calls.ledger_eq ?_))) hq.evm.trace
      (.of_eq (hwarm hq.evm.warm))
    exact hgas.calls.mono fun _ => Op.keepsBalance_of_refunding
  | jump dest _ _ ih =>
    exact .step (ih hdepth hwf) (Grows.cons (P := fun _ => True) trivial _) (.of_eq fun _ => rfl)
  | claim _ _ ih => exact (ih hdepth hwf).trans (.of_eq (Op.ledger_eq (o := .setNonce _ _) rfl rfl))
  | frame h ha ho hr _ _ hc ih ihc =>
    have hwf' := h.wf hwf
    have ht : _ ≠ 0 := (h.flags (by decide)).1.trans_ne hdepth
    refine .step (ih hdepth hwf) ((ho.grows.mono fun _ _ => trivial).trans
      (hr.trace.trans (hc.grows.mono fun _ _ => trivial)))
      (ho.spends_closes hr hc hwf' (hvalue ha ht) (ihc ?_ ?_))
    · rw [ho.depth]
      exact Nat.succ_ne_zero _
    · exact ho.wf hwf'
  | crash h ha ho hr hag ih ihc =>
    have hwf' := h.wf hwf
    have ht : _ ≠ 0 := (h.flags (by decide)).1.trans_ne hdepth
    rw [hag.statedb, hag.trace]
    refine .step (ih hdepth hwf) ((ho.grows.mono fun _ _ => trivial).trans hr.trace)
      ((ho.spends (hvalue ha ht)).trans (ihc ?_ ?_))
    · rw [ho.depth]
      exact Nat.succ_ne_zero _
    · exact ho.wf hwf'

end Runs

/-! ## Messages -/

section Messages

variable {env : Env} {caller addr : Address} {o : Opening} {value : ℤ} {gasLeft : UInt64}
  {err : Option VmErr} {e e₀ e₁ e' : Evm}

/-- The frame a call or creation opens is not the outermost one. -/
theorem Opens.spends_runs {base : StateDB} {child f : Frame} {b : Status}
    (ho : Opens env caller o e base child) (hr : Runs env b child f)
    (hwf : e.statedb.accessList.WF) :
    Spends (PaysOnce env f.evm.trace) child.evm.statedb.ledger f.evm.statedb.ledger := by
  refine hr.spends ?_ (ho.wf hwf)
  rw [ho.depth]
  exact Nat.succ_ne_zero _

theorem Called.spends (h : Called env caller o gasLeft err e e') (hv : 0 ≤ o.value)
    (hwf : e.statedb.accessList.WF) :
    Spends (PaysOnce env e'.trace) e.statedb.ledger e'.statedb.ledger := by
  cases h with
  | refused hq _ => exact .of_eq (ledger_of_le hq.reads.le)
  | frame ho hr _ _ hc _ _ => exact ho.spends_closes hr hc hwf hv (ho.spends_runs hr hwf)

theorem CallCrashed.spends (h : CallCrashed env caller o e e') (hv : 0 ≤ o.value)
    (hwf : e.statedb.accessList.WF) :
    Spends (PaysOnce env e'.trace) e.statedb.ledger e'.statedb.ledger := by
  obtain ⟨base, child, ho, b, f, hr, hag⟩ := h
  rw [hag.statedb, hag.trace]
  exact (ho.spends hv).trans (ho.spends_runs hr hwf)

/-- What a creation does before it opens a frame. -/
theorem ledger_claimed (h₀ : e.Reads e₀)
    (h₁ : Evm.Reads { e₀ with statedb := claimed env caller addr e₀.statedb } e₁) (a : Address) :
    e₁.statedb.ledger a = e.statedb.ledger a :=
  (ledger_of_le h₁.reads.le a).trans ((getBalance_claimed env caller addr a e₀.statedb).trans
    (ledger_of_le h₀.reads.le a))

theorem wf_claimed (h₀ : e.Reads e₀)
    (h₁ : Evm.Reads { e₀ with statedb := claimed env caller addr e₀.statedb } e₁)
    (hwf : e.statedb.accessList.WF) : e₁.statedb.accessList.WF :=
  (((h₀.reads.run.trans (run_claimed env caller addr _)).trans h₁.reads.run).extends hwf).2

theorem Created.spends (h : Created env caller addr value gasLeft err e e') (hv : 0 ≤ value)
    (hwf : e.statedb.accessList.WF) :
    Spends (PaysOnce env e'.trace) e.statedb.ledger e'.statedb.ledger := by
  cases h with
  | refused hq _ => exact .of_eq (ledger_of_le hq.reads.le)
  | collision h₀ h₁ _ _ => exact .of_eq (ledger_claimed h₀ h₁)
  | ran h₀ h₁ hcalled _ =>
    exact .trans (.of_eq (ledger_claimed h₀ h₁)) (hcalled.spends hv (wf_claimed h₀ h₁ hwf))

theorem CreateCrashed.spends (h : CreateCrashed env caller addr value e e') (hv : 0 ≤ value)
    (hwf : e.statedb.accessList.WF) :
    Spends (PaysOnce env e'.trace) e.statedb.ledger e'.statedb.ledger := by
  obtain ⟨e₀, e₁, h₀, h₁, hcrash⟩ := h
  exact .trans (.of_eq (ledger_claimed h₀ h₁)) (hcrash.spends hv (wf_claimed h₀ h₁ hwf))

end Messages

namespace Evm

/-- **A message makes no ether**, if every `SELFDESTRUCT` pays a balance
once. -/
theorem Method.exec_spends (env : Env) (fuel : Nat) (caller : Address) (m : Method) {e : Evm}
    (hv : 0 ≤ m.value) (hwf : e.statedb.accessList.WF) :
    Sat (m.exec env fuel caller) e
      (fun _ e' => Spends (PaysOnce env e'.trace) e.statedb.ledger e'.statedb.ledger)
      (fun _ e' => Spends (PaysOnce env e'.trace) e.statedb.ledger e'.statedb.ledger) := by
  exact m.sat_exec env fuel caller (fun ho h => h.spends (ho ▸ hv) hwf)
    (fun ho h => h.spends (ho ▸ hv) hwf) (fun h => h.spends hv hwf) fun h => h.spends hv hwf

/-- **No ether out of nothing.** In a message with a value that is not
negative, from any state in which nobody is overdrawn, the sum of all
balances does not grow, if every `SELFDESTRUCT` it executes is that of
EIP-6780 or finds no balance. A `SELFDESTRUCT` that pays another account
leaves none to its own in exactly these cases. -/
theorem sum_getBalance_le (env : Env) (fuel : Nat) (caller : Address) (m : Method) {d : StateDB}
    (hd : Reachable d) (hpos : ∀ a, 0 ≤ (d.getBalance a).1) (hv : 0 ≤ m.value) :
    Sat (m.exec env fuel caller) { statedb := d }
      (fun _ e => PaysOnce env e.trace →
        ∑ a : Address, (e.statedb.getBalance a).1 ≤ ∑ a : Address, (d.getBalance a).1)
      (fun _ e => PaysOnce env e.trace →
        ∑ a : Address, (e.statedb.getBalance a).1 ≤ ∑ a : Address, (d.getBalance a).1)
    ∧ ∀ (f : WriteFn) (sc : Scope) (r : RegsDb) (x : Word) (ws : List Word),
      f = .opSelfdestruct ∨ f = .opSelfdestruct6780 → sc.readOnly = false →
      r.regs.stack = x :: ws → Word.bytes20 x ≠ sc.contract.self →
      ∃ out r', f.exec sc r = .ok out r'
        ∧ ((r'.statedb.getBalance sc.contract.self).1 = 0
          ↔ f = .opSelfdestruct6780 ∨ (r.statedb.getBalance sc.contract.self).1 = 0) := by
  refine ⟨(m.exec_spends env fuel caller hv hd.wf).mono (fun _ _ h => (h hpos).2)
    (fun _ _ h => (h hpos).2), fun f sc r x ws hf hro hst hx => ?_⟩
  obtain ⟨out, r', hr, happly⟩ := WriteFn.exec_selfdestruct hf hro hst
  obtain ⟨hold, h6780⟩ := WriteFn.ledger_self_apply hx happly
  refine ⟨out, r', hr, ?_⟩
  obtain rfl | rfl := hf
  · rw [show (r'.statedb.getBalance _).1 = (r.statedb.getBalance _).1 from hold rfl]
    exact (or_iff_right nofun).symm
  · exact iff_of_true (h6780 rfl) (.inl rfl)

end Evm

section Heir

omit [Keccak]

/-- Keccak-256 on the inputs of the table, and on the code of a contract
that destructs itself in favour of `0x2000`. -/
@[reducible] def Keccak.heir : Keccak where
  keccak256Hash b := if b = [0x61, 0x20, 0x00, 0xff]
    then 0x2930ea31567b50559efd1911769dfbbe67ab2d32febfeaa0ce1d12e5b3b5cd03
    else Keccak.digests.keccak256Hash b

/-- The contract at `0x1000`, with a balance of 7, and its heir. -/
def StorageTx.heir : StorageTx :=
  let hash := (Keccak.heir.keccak256Hash [0x61, 0x20, 0x00, 0xff]).bytes
  let empty := (Keccak.heir.keccak256Hash []).bytes
  { accountData := fun a =>
      if a = 0x1000 then some { balance := some 7, codeHash := hash }
      else if a = 0x2000 then some { balance := some 0, codeHash := empty } else none
    accountCode := fun h => if h = hash then some [0x61, 0x20, 0x00, 0xff] else none
    accountStorage := fun _ _ => none }

/-- Nobody else has anything. -/
theorem getBalance_heir (a : Address) :
    ((newStateDB .heir).getBalance a).1 = if a = 0x1000 then 7 else 0 := by
  by_cases h : a = 0x1000
  · rw [if_pos h, h]
    rfl
  rw [if_neg h]
  by_cases h' : a = 0x2000
  · rw [h']
    rfl
  · have hnone : ¬ (newStateDB .heir).HasRecord a := by
      have hdata : StorageTx.heir.accountData a = none := (if_neg h).trans (if_neg h')
      show ¬ (StorageTx.heir.accountData a).isSome
      simp [hdata]
    exact (getBalance_of_no_record 0 hnone).1

theorem getBalance_heir_nonneg (a : Address) : 0 ≤ ((newStateDB .heir).getBalance a).1 := by
  rw [getBalance_heir]
  split_ifs <;> decide

/-- Under the rules of Cancun the contract pays its heir. -/
theorem Evm.sum_getBalance_le_cancun :
    letI := Keccak.heir
    let d := newStateDB .heir
    ∃ e, (Method.call 0x1000 [] 100000 0).exec { rules := .cancun } 10 0x3000 { statedb := d }
        = .ok () e
      ∧ (e.statedb.getBalance 0x2000).1 = 7
      ∧ ∑ a : Address, (e.statedb.getBalance a).1 ≤ ∑ a : Address, (d.getBalance a).1 := by
  let _ := Keccak.heir
  intro d
  have hrun : ∃ r e, (Method.call 0x1000 [] 100000 0).exec { rules := .cancun } 10 0x3000
      { statedb := d } = .ok r e ∧ (e.statedb.getBalance 0x2000).1 = 7 :=
    exists_of_sat (by decide +kernel)
  obtain ⟨r, e, hok, hpaid⟩ := hrun
  refine ⟨e, hok, hpaid, ?_⟩
  have hsum := (sum_getBalance_le { rules := .cancun } 10 0x3000 (.call 0x1000 [] 100000 0)
    (.new .heir) getBalance_heir_nonneg le_rfl).1
  exact hsum.of_ok hok (.inl (Env.execute_ne_opSelfdestruct rfl))

/-- **The old instruction pays the heir and keeps the balance.** -/
theorem Evm.sum_getBalance_grows :
    letI := Keccak.heir
    let rules : Rules := { isHomestead := true, isEIP150 := true, isEIP158 := true }
    let d := newStateDB .heir
    Reachable d ∧ (∀ a, 0 ≤ (d.getBalance a).1)
      ∧ ∃ e, (Method.call 0x1000 [] 100000 0).exec { rules := rules } 10 0x3000 { statedb := d }
          = .ok () e
        ∧ (e.statedb.getBalance 0x1000).1 = 7 ∧ (e.statedb.getBalance 0x2000).1 = 7
        ∧ ∑ a : Address, (d.getBalance a).1 < ∑ a : Address, (e.statedb.getBalance a).1 := by
  let _ := Keccak.heir
  intro rules d
  have hrun : ∃ r e, (Method.call 0x1000 [] 100000 0).exec { rules := rules } 10 0x3000
      { statedb := d } = .ok r e
      ∧ (e.statedb.getBalance 0x1000).1 = 7 ∧ (e.statedb.getBalance 0x2000).1 = 7 :=
    exists_of_sat (by decide +kernel)
  obtain ⟨r, e, hok, hself, hheir⟩ := hrun
  refine ⟨.new .heir, getBalance_heir_nonneg, e, hok, hself, hheir, ?_⟩
  have hbefore : ∑ a : Address, (d.getBalance a).1 = 7 := by
    rw [Finset.sum_congr rfl fun a _ => getBalance_heir a, Finset.sum_ite_eq' _ (0x1000 : Address)]
    simp
  -- nobody is overdrawn, so the two accounts hold no more than all of them
  have hpos := (((Method.call 0x1000 [] 100000 0).exec_spends { rules := rules } 10 0x3000
    le_rfl AccessList.wf_newAccessList).of_ok hok getBalance_heir_nonneg).1
  have hafter := add_le_sum hpos (show (0x1000 : Address) ≠ 0x2000 by decide)
  rw [hbefore]
  unfold ledger at hafter
  rw [hself, hheir] at hafter
  omega

end Heir
