import CardinalEvm.EstimateGas
import CardinalEvm.Purity
import CardinalEvm.Solvency

/-!
# The search for an estimate

What `DoEstimateGas` returns. A call on a copy of the given state is
determined by its gas limit: the search reads nothing but a balance of the
state, and the variables of the view are the same from the first call on
(`Like`). So the search is a bisection with a function that says whether a
limit fails, and an estimate is the end of one of its paths
(`path_of_doEstimateGas`, `exists_doEstimateGas`).
-/

open StateDB

/-! ## Calls on copies -/

namespace StateObject

theorem loadAccount_copy (tx : StorageTx) (a : Address) (o : StateObject) :
    o.copy.loadAccount tx a = ((o.loadAccount tx a).1, (o.loadAccount tx a).2.copy) := by
  rw [loadAccount_eq, loadAccount_eq]
  rfl

theorem loadAccount_loadAccount (tx : StorageTx) (a : Address) (o : StateObject) :
    (o.loadAccount tx a).2.loadAccount tx a = o.loadAccount tx a := by
  have hrecord : record tx a { o with account := o.record tx a } = o.record tx a := by
    unfold record
    by_cases hdeleted : o.deleted = true
    · simp only [if_pos hdeleted]
    · simp only [if_neg hdeleted]
      cases o.account <;> cases tx.accountData a <;> rfl
  rw [loadAccount_eq, loadAccount_eq, hrecord]

end StateObject

namespace StateDB

theorem getBalance_eq (d : StateDB) (a : Address) :
    d.getBalance a = (if ((d.getAccount a).loadAccount d.tx a).1 then
        ((d.getAccount a).loadAccount d.tx a).2.getBalance else 0,
      d.setAccount a ((d.getAccount a).loadAccount d.tx a).2) := by
  unfold getBalance StateDB.read
  dsimp only
  generalize (d.getAccount a).loadAccount d.tx a = r
  obtain ⟨_ | _, o⟩ := r <;> rfl

theorem setAccount_copy_setAccount (d : StateDB) (a : Address) (o o' : StateObject) :
    (d.setAccount a o).copy.setAccount a o' = d.copy.setAccount a o' := by
  have hstate : Function.update (fun b => ((d.setAccount a o).state b).map StateObject.copy) a
      (some o') = Function.update (fun b => (d.state b).map StateObject.copy) a (some o') := by
    funext b
    by_cases hb : b = a
    · rw [hb, Function.update_self, Function.update_self]
    · rw [Function.update_of_ne hb, Function.update_of_ne hb]
      show (Function.update d.state a (some o) b).map _ = _
      rw [Function.update_of_ne hb]
  exact congrArg (fun state => { d with state, alcalc := false }) hstate

/-- **A balance that was read before the copy was made** is read from the
copy as if it had not been. -/
theorem getBalance_copy_getBalance (d : StateDB) (a : Address) :
    (d.getBalance a).2.copy.getBalance a = d.copy.getBalance a := by
  have hobject : ((d.getBalance a).2.copy.getAccount a).loadAccount d.tx a
      = (d.copy.getAccount a).loadAccount d.tx a := by
    rw [getBalance_eq, Sim.getAccount_copy, Sim.getAccount_copy, getAccount_setAccount,
      StateObject.loadAccount_copy, StateObject.loadAccount_copy,
      StateObject.loadAccount_loadAccount]
  rw [getBalance_eq (d.getBalance a).2.copy, getBalance_eq d.copy]
  show (if (((d.getBalance a).2.copy.getAccount a).loadAccount d.tx a).1 then
      (((d.getBalance a).2.copy.getAccount a).loadAccount d.tx a).2.getBalance else 0,
    (d.getBalance a).2.copy.setAccount a
      (((d.getBalance a).2.copy.getAccount a).loadAccount d.tx a).2) = _
  rw [hobject, getBalance_eq d]
  rw [setAccount_copy_setAccount]
  rfl

end StateDB

/-- A program that does not look at its state. -/
def Steady {ε σ α : Type} (m : EStateM ε σ α) : Prop :=
  ∃ r : Except ε α, ∀ s, m s = match r with
    | .ok a => .ok a s
    | .error e => .error e s

namespace Steady

variable {ε σ α β : Type}

theorem pure (a : α) : Steady (Pure.pure a : EStateM ε σ α) := ⟨.ok a, fun _ => rfl⟩

theorem throw (e : ε) : Steady (MonadExcept.throw e : EStateM ε σ α) := ⟨.error e, fun _ => rfl⟩

theorem bind {m : EStateM ε σ α} {f : α → EStateM ε σ β} (hm : Steady m)
    (hf : ∀ a, Steady (f a)) : Steady (m >>= f) := by
  obtain ⟨r | a, hr⟩ := hm
  · exact ⟨.error r, fun s => by simp only [Bind.bind, EStateM.bind, hr]⟩
  · obtain ⟨r', hr'⟩ := hf a
    exact ⟨r', fun s => by simp only [Bind.bind, EStateM.bind, hr, hr']⟩

theorem ite {c : Prop} [Decidable c] {m m' : EStateM ε σ α} (hm : Steady m) (hm' : Steady m') :
    Steady (if c then m else m') := by
  split_ifs
  · exact hm
  · exact hm'

end Steady

/-- A program in two parts that returned. -/
theorem bind_eq_ok {ε σ α β : Type} {m : EStateM ε σ α} {f : α → EStateM ε σ β} {s s' : σ} {b : β} :
    (m >>= f) s = .ok b s' ↔ ∃ a s₁, m s = .ok a s₁ ∧ f a s₁ = .ok b s' := by
  simp only [Bind.bind, EStateM.bind]
  cases hm : m s with
  | ok a s₁ =>
    refine ⟨fun h => ⟨a, s₁, rfl, h⟩, ?_⟩
    rintro ⟨_, _, ⟨⟩, h⟩
    exact h
  | error e s₁ => exact ⟨nofun, nofun⟩

namespace Transition

theorem steady_checkFees (env : Env) (noBaseFee : Bool) (msg : Message) :
    Steady (checkFees env noBaseFee msg) := by
  have hderef : ∀ x, Steady (deref x) := by
    intro x
    cases x with
    | none => exact .throw _
    | some x => exact .pure x
  have hfail : ∀ (p : Prop) [Decidable p] (e : TxErr), Steady (failIf p e) := fun p _ e =>
    .ite (.throw _) (.pure ())
  unfold checkFees
  split
  · refine .bind ?_ fun checked => .ite ?_ (.pure ())
    · exact .ite (.pure _) (.bind (hderef _) fun _ => .ite (.pure _)
        (.bind (hderef _) fun _ => .pure _))
    · refine .bind (hderef _) fun _ => .bind (hfail _ _) fun _ => .bind (hderef _) fun _ => ?_
      exact .bind (hfail _ _) fun _ => .bind (hfail _ _) fun _ => hfail _ _
  · exact .pure ()

theorem onDb_bind {α β : Type} (f : StateDB → α × StateDB) (k : α → TransitionM β)
    (t : Transition) (d : StateDB) :
    (onDb f >>= k) (t.putDb d) = k (f d).1 (t.putDb (f d).2) := rfl

/-- What a transition returned, without the state it stopped in. -/
def outcome {α : Type} : EStateM.Result Stop Transition α → Except Stop (α × Transition)
  | .ok a t => .ok (a, t)
  | .error stop _ => .error stop

theorem outcome_bind {α β : Type} {m : TransitionM α} {k : α → TransitionM β} {t t' : Transition}
    (h : outcome (m t) = outcome (m t')) : outcome ((m >>= k) t) = outcome ((m >>= k) t') := by
  simp only [bind, EStateM.bind]
  cases hm : m t with
  | ok a u =>
    cases hm' : m t' with
    | ok a' u' =>
      rw [hm, hm'] at h
      cases h
      rfl
    | error stop u' =>
      rw [hm, hm'] at h
      cases h
  | error stop u =>
    cases hm' : m t' with
    | ok a' u' =>
      rw [hm, hm'] at h
      cases h
    | error stop' u' =>
      rw [hm, hm'] at h
      obtain rfl := Except.error.inj h
      rfl

theorem checkNonce_eq {msg : Message} (hnonce : msg.checkNonce = false) :
    checkNonce msg = pure () := by
  unfold checkNonce
  rw [if_neg (by simp [hnonce])]

/-- **The first thing the checks do to the state** is to read the balance
of the sender. -/
theorem outcome_preCheck (env : Env) (noBaseFee : Bool) {msg : Message}
    (hnonce : msg.checkNonce = false) (t : Transition) {d d' : StateDB}
    (h : d.getBalance msg.sender = d'.getBalance msg.sender) :
    outcome (preCheck env noBaseFee msg (t.putDb d))
      = outcome (preCheck env noBaseFee msg (t.putDb d')) := by
  obtain ⟨r, hr⟩ := steady_checkFees env noBaseFee msg
  have hbuy : buyGas msg (t.putDb d) = buyGas msg (t.putDb d') := by
    unfold buyGas
    rw [onDb_bind, onDb_bind, h]
  unfold preCheck
  rw [checkNonce_eq hnonce, pure_bind]
  simp only [bind, EStateM.bind, hr]
  cases r with
  | error stop => rfl
  | ok _ => exact congrArg outcome hbuy

variable [Keccak]

theorem outcome_transitionDb (env : Env) (noBaseFee : Bool) (fuel : ℕ) {msg : Message}
    (hnonce : msg.checkNonce = false) (t : Transition) {d d' : StateDB}
    (h : d.getBalance msg.sender = d'.getBalance msg.sender) :
    outcome (transitionDb env noBaseFee fuel msg (t.putDb d))
      = outcome (transitionDb env noBaseFee fuel msg (t.putDb d')) :=
  outcome_bind (outcome_preCheck env noBaseFee hnonce t h)

end Transition

/-! ## Calls -/

/-- What `DoCall` makes of a transition. -/
def finished (host : Host) (c : Captured) :
    Except Stop (ExecutionResult × Transition) →
      EStateM.Result ApiStop Captured (ExecutionResult × StateDB)
  | .error (.err e) => .error (.err (.tx e)) c
  | .error (.fault f) => .error (.fault f) c
  | .error .gasPool => .error .gasPool c
  | .ok (result, t) =>
    if host.abort t.evm.polls then .error (.err .aborted) c
    else .ok (result, t.evm.statedb.finalise) c

section Calls

variable [Keccak] (v : View) (host : Host) (fuel : ℕ) (args : TransactionArgs) (gasCap : UInt64)

theorem doCall_error {e : ApiErr} (h : args.toMessage gasCap v.header.baseFee = .error e)
    (d : StateDB) (c : Captured) : doCall v host fuel args d none gasCap c = .error (.err e) c := by
  simp only [doCall, StateOverride.apply, h]
  rfl

theorem doCall_ok {msg : Message} (h : args.toMessage gasCap v.header.baseFee = .ok msg)
    (d : StateDB) (c : Captured) :
    doCall v host fuel args d none gasCap c
      = finished host (v.evmFn ⟨d, none, args.sentFrom, some msg.gasPrice⟩ c).2
          (Transition.outcome
            ((v.evmFn ⟨d, none, args.sentFrom, some msg.gasPrice⟩ c).1.applyMessage
              host fuel msg 0xffffffffffffffff)) := by
  have hevm : v.getEVM ⟨d, none, args.sentFrom, some msg.gasPrice⟩ c
      = .ok (v.evmFn ⟨d, none, args.sentFrom, some msg.gasPrice⟩ c).1
          (v.evmFn ⟨d, none, args.sentFrom, some msg.gasPrice⟩ c).2 := rfl
  simp only [doCall, StateOverride.apply, h, bind, EStateM.bind, pure, EStateM.pure, hevm]
  generalize (v.evmFn ⟨d, none, args.sentFrom, some msg.gasPrice⟩ c).1.applyMessage
    host fuel msg 0xffffffffffffffff = r
  cases r with
  | ok result t =>
    by_cases habort : host.abort t.evm.polls = true
    · simp only [Transition.outcome, finished, if_pos habort]
      rfl
    · simp only [Transition.outcome, finished, if_neg habort]
      rfl
  | error stop t => cases stop <;> rfl

/-- The variables of a view after an EVM was made for a price. -/
def View.settled (v : View) (price : ℤ) (c : Captured) : Captured where
  gasPrice := c.gasPrice <|> some price
  vmcfg := c.vmcfg <|> some v.defaultCfg

omit [Keccak] in
theorem View.evmFn_settled (v : View) (d : StateDB) (sender : Address) (price : ℤ) (c : Captured) :
    v.evmFn ⟨d, none, sender, some price⟩ (v.settled price c)
      = ((v.evmFn ⟨d, none, sender, some price⟩ c).1, v.settled price c) := by
  obtain ⟨_ | _, _ | _⟩ := c <;> rfl

omit [Keccak] in
theorem View.evmFn_snd (v : View) (d : StateDB) (sender : Address) (price : ℤ) (c : Captured) :
    (v.evmFn ⟨d, none, sender, some price⟩ c).2 = v.settled price c := by
  obtain ⟨_ | _, _ | _⟩ := c <;> rfl

/-- **A call is the same in the variables an earlier call at the same
price left.** -/
theorem doCall_settled {msg : Message} (h : args.toMessage gasCap v.header.baseFee = .ok msg)
    (d : StateDB) (c : Captured) :
    doCall v host fuel args d none gasCap (v.settled msg.gasPrice c)
      = doCall v host fuel args d none gasCap c := by
  rw [doCall_ok v host fuel args gasCap h, doCall_ok v host fuel args gasCap h,
    View.evmFn_settled, View.evmFn_snd]

/-- **A call on a copy** does not depend on whether the balance of the
sender was read before the copy was made. -/
theorem doCall_copy (d : StateDB) (c : Captured) :
    doCall v host fuel args (d.getBalance args.sentFrom).2.copy none gasCap c
      = doCall v host fuel args d.copy none gasCap c := by
  cases h : args.toMessage gasCap v.header.baseFee with
  | error e => rw [doCall_error _ _ _ _ _ h, doCall_error _ _ _ _ _ h]
  | ok msg =>
    have hmsg : msg.sender = args.sentFrom ∧ msg.checkNonce = false := by
      unfold TransactionArgs.toMessage at h
      split_ifs at h
      cases h
      exact ⟨rfl, rfl⟩
    have hbalance : (d.getBalance args.sentFrom).2.copy.getBalance msg.sender
        = d.copy.getBalance msg.sender := by
      rw [hmsg.1]
      exact d.getBalance_copy_getBalance args.sentFrom
    rw [doCall_ok _ _ _ _ _ h, doCall_ok _ _ _ _ _ h, View.evmFn_snd, View.evmFn_snd]
    exact congrArg (finished host _) (Transition.outcome_transitionDb _ _ fuel hmsg.2
      { evm := { statedb := d }, gp := 0xffffffffffffffff } hbalance)

end Calls

/-! ## The search -/

/-- **The cap of an estimation** for a sender with this balance. -/
def TransactionArgs.ceiling (args : TransactionArgs) (header : Header) (gasCap : UInt64)
    (balance : ℤ) : Except ApiErr UInt64 :=
  if args.bothFeeStyles then .error .bothFeeStyles
  else do
    let hi ← if args.offeredFee ≠ 0 then args.funded balance (args.requestedGas header)
      else .ok (args.requestedGas header)
    .ok (if gasCap ≠ 0 ∧ gasCap < hi then gasCap else hi)

/-- The state after the cap was calculated. -/
def TransactionArgs.priorAfter (args : TransactionArgs) (d : StateDB) : StateDB :=
  if args.offeredFee ≠ 0 then (d.getBalance args.sentFrom).2 else d

namespace Estimation

variable [Keccak] (v : View) (args : TransactionArgs) (gasCap : UInt64) (host : Host) (fuel : ℕ)
  (d : StateDB) (c : Captured)

/-- **A gas limit on trial**: the call with it on a copy of the given
state. -/
def trial (gas : UInt64) : EStateM.Result ApiStop Captured (ExecutionResult × StateDB) :=
  doCall v host fuel (args.withGas gas) d.copy none gasCap c

/-- A gas limit with which the call does not fail. -/
def Succeeds (gas : UInt64) : Prop :=
  ∃ result d' c', trial v args gasCap host fuel d c gas = .ok (result, d') c'
    ∧ result.failed = false

/-- A gas limit with which the call fails, or that is below the intrinsic
gas. -/
def Fails (gas : UInt64) : Prop :=
  (∃ result d' c', trial v args gasCap host fuel d c gas = .ok (result, d') c'
    ∧ result.failed = true)
  ∨ ∃ have_ want c', trial v args gasCap host fuel d c gas
    = .error (.err (.tx (.intrinsicGas have_ want))) c'

/-- What the search learns from a call. -/
def verdict : EStateM.Result ApiStop Captured (ExecutionResult × StateDB) → Option Bool
  | .ok (result, _) _ => some result.failed
  | .error (.err (.tx (.intrinsicGas _ _))) _ => some true
  | .error _ _ => none

/-- The state a call left, if it returned. -/
def postState : EStateM.Result ApiStop Captured (ExecutionResult × StateDB) → Option StateDB
  | .ok (_, d') _ => some d'
  | .error _ _ => none

/-- The variables of the view after a call. -/
def capturedAfter : EStateM.Result ApiStop Captured (ExecutionResult × StateDB) → Captured
  | .ok _ c' => c'
  | .error _ c' => c'

theorem verdict_eq_false {gas : UInt64} :
    verdict (trial v args gasCap host fuel d c gas) = some false
      ↔ Succeeds v args gasCap host fuel d c gas := by
  unfold Succeeds
  generalize trial v args gasCap host fuel d c gas = r
  constructor
  · intro h
    unfold verdict at h
    split at h
    · exact ⟨_, _, _, rfl, Option.some.inj h⟩
    · cases h
    · cases h
  · rintro ⟨result, d', c', rfl, hok⟩
    exact congrArg some hok

theorem verdict_eq_true {gas : UInt64} :
    verdict (trial v args gasCap host fuel d c gas) = some true
      ↔ Fails v args gasCap host fuel d c gas := by
  unfold Fails
  generalize trial v args gasCap host fuel d c gas = r
  constructor
  · intro h
    unfold verdict at h
    split at h
    · exact .inl ⟨_, _, _, rfl, Option.some.inj h⟩
    · exact .inr ⟨_, _, _, rfl⟩
    · cases h
  · rintro (⟨result, d', c', rfl, hfailed⟩ | ⟨have_, want, c', rfl⟩)
    · exact congrArg some hfailed
    · rfl

/-- **The variables of an estimation in which calls are as they were at
its beginning.** -/
def Like (est : Estimation) : Prop :=
  ∀ gas, doCall v host fuel (args.withGas gas) est.prior.copy none gasCap est.captured
    = trial v args gasCap host fuel d c gas

/-- The variables after a trial. -/
def after (gas : UInt64) (failed : Bool) (est : Estimation) : Estimation :=
  { est with
    captured := capturedAfter (trial v args gasCap host fuel d c gas)
    stateData := if failed then est.stateData
      else postState (trial v args gasCap host fuel d c gas)
    tried := (gas, failed) :: est.tried }

variable {v args gasCap host fuel d c}

/-- **`executable` says what the call says**, in variables that are as they
were. -/
theorem executable_eq {est : Estimation} (h : Like v args gasCap host fuel d c est)
    (gas : UInt64) :
    (∀ failed, verdict (trial v args gasCap host fuel d c gas) = some failed →
      ∃ result, executable v args gasCap host fuel gas est
        = .ok (failed, result) (after v args gasCap host fuel d c gas failed est))
    ∧ (verdict (trial v args gasCap host fuel d c gas) = none →
      ∃ stop est', executable v args gasCap host fuel gas est = .error stop est') := by
  have hcall := h gas
  unfold executable after
  rw [hcall]
  generalize trial v args gasCap host fuel d c gas = r
  rcases r with ⟨⟨result, d'⟩, c'⟩ | ⟨stop, c'⟩
  · refine ⟨?_, nofun⟩
    rintro _ ⟨⟩
    exact ⟨_, rfl⟩
  · by_cases hstop : ∃ have_ want, stop = .err (.tx (.intrinsicGas have_ want))
    · obtain ⟨have_, want, rfl⟩ := hstop
      refine ⟨?_, nofun⟩
      rintro _ ⟨⟩
      exact ⟨none, rfl⟩
    · have hnone : verdict (.error stop c') = none := by
        unfold verdict
        split
        next heq => cases heq
        next heq =>
          obtain ⟨rfl, -⟩ := EStateM.Result.error.inj heq
          exact absurd ⟨_, _, rfl⟩ hstop
        next => rfl
      refine ⟨fun failed hfailed => ?_, fun _ => ?_⟩
      · rw [hnone] at hfailed
        cases hfailed
      · split
        next heq => cases heq
        next heq =>
          obtain ⟨rfl, -⟩ := EStateM.Result.error.inj heq
          exact absurd ⟨_, _, rfl⟩ hstop
        next => exact ⟨_, _, rfl⟩

omit [Keccak] in
/-- The fees of the calls of an estimation do not depend on the gas. -/
theorem toMessage_withGas (args : TransactionArgs) (gas gas' gasCap : UInt64)
    (baseFee : Option ℕ) {msg : Message}
    (h : (args.withGas gas).toMessage gasCap baseFee = .ok msg) :
    ∃ msg', (args.withGas gas').toMessage gasCap baseFee = .ok msg'
      ∧ msg'.gasPrice = msg.gasPrice := by
  unfold TransactionArgs.toMessage at h ⊢
  have hboth : (args.withGas gas').bothFeeStyles = (args.withGas gas).bothFeeStyles := rfl
  rw [hboth]
  split_ifs at h ⊢
  cases h
  exact ⟨_, rfl, rfl⟩

omit [Keccak] in
theorem capturedAfter_finished (host : Host) (c : Captured)
    (r : Except Stop (ExecutionResult × Transition)) : capturedAfter (finished host c r) = c := by
  unfold finished
  split
  · rfl
  · rfl
  · rfl
  · split_ifs <;> rfl

/-- The variables of an estimation stay as they were. -/
theorem Like.after {est : Estimation} (h : Like v args gasCap host fuel d c est) (gas : UInt64)
    (failed : Bool) :
    Like v args gasCap host fuel d c (after v args gasCap host fuel d c gas failed est) := by
  intro gas'
  show doCall v host fuel (args.withGas gas') est.prior.copy none gasCap
    (capturedAfter (trial v args gasCap host fuel d c gas)) = _
  rw [← h gas, ← h gas']
  cases hmsg : (args.withGas gas).toMessage gasCap v.header.baseFee with
  | error e => rw [doCall_error _ _ _ _ _ hmsg]; rfl
  | ok msg =>
    obtain ⟨msg', hmsg', hprice⟩ := toMessage_withGas args gas gas' gasCap v.header.baseFee hmsg
    rw [doCall_ok _ _ _ _ _ hmsg, capturedAfter_finished, View.evmFn_snd, ← hprice,
      doCall_settled _ _ _ _ _ hmsg']

/-- **The search is a bisection** with the verdicts of the calls. -/
theorem answers_executable :
    Bisection.Answers (fun gas => Prod.fst <$> executable v args gasCap host fuel gas)
      (fun gas => verdict (trial v args gasCap host fuel d c gas))
      (Estimation.after v args gasCap host fuel d c) (Like v args gasCap host fuel d c) where
  some {gas failed est} hlike hverdict := by
    obtain ⟨result, hrun⟩ := (executable_eq hlike gas).1 failed hverdict
    simp only [Functor.map, EStateM.map, hrun]
  none {gas est} hlike hverdict := by
    obtain ⟨stop, est', hrun⟩ := (executable_eq hlike gas).2 hverdict
    exact ⟨stop, est', by simp only [Functor.map, EStateM.map, hrun]⟩
  keeps hlike := hlike.after _ _

/-! ## The cap -/

omit [Keccak] in
/-- **The cap depends on the state by one balance**, that of the sender. -/
theorem capOf_eq_ok {est est' : Estimation} {cap : UInt64} :
    capOf v args gasCap est = .ok cap est'
      ↔ args.ceiling v.header gasCap (est.prior.getBalance args.sentFrom).1 = .ok cap
        ∧ est' = { est with prior := args.priorAfter est.prior } := by
  unfold TransactionArgs.ceiling capOf TransactionArgs.priorAfter
  by_cases hboth : args.bothFeeStyles = true
  · rw [if_pos hboth, if_pos hboth]
    exact ⟨nofun, fun h => nomatch h.1⟩
  rw [if_neg hboth, if_neg hboth]
  by_cases hfee : args.offeredFee ≠ 0
  · rw [if_pos hfee, if_pos hfee, if_pos hfee, pure_bind]
    show (EstimateM.ofExcept (args.funded (est.prior.getBalance args.sentFrom).1
        (args.requestedGas v.header)) >>= fun hi =>
          pure (if gasCap ≠ 0 ∧ gasCap < hi then gasCap else hi))
        { est with prior := (est.prior.getBalance args.sentFrom).2 } = _ ↔ _
    cases args.funded (est.prior.getBalance args.sentFrom).1 (args.requestedGas v.header) with
    | ok hi =>
      constructor
      · rintro ⟨⟩
        exact ⟨rfl, rfl⟩
      · rintro ⟨⟨⟩, rfl⟩
        rfl
    | error e => exact ⟨nofun, fun h => nomatch h.1⟩
  · rw [if_neg hfee, if_neg hfee, if_neg hfee]
    constructor
    · rintro ⟨⟩
      exact ⟨rfl, rfl⟩
    · rintro ⟨⟨⟩, rfl⟩
      rfl

/-- The calls at the beginning of the search. -/
theorem like_priorAfter :
    Like v args gasCap host fuel d c { captured := c, prior := args.priorAfter d } := by
  intro gas
  unfold TransactionArgs.priorAfter trial
  dsimp only
  split_ifs
  · exact doCall_copy v host fuel (args.withGas gas) gasCap d c
  · rfl

theorem replay_after (l : List (UInt64 × Bool)) (est : Estimation) :
    (Bisection.replay (Estimation.after v args gasCap host fuel d c) l est).prior = est.prior
      ∧ (Bisection.replay (Estimation.after v args gasCap host fuel d c) l est).tried
        = l.reverse ++ est.tried := by
  induction l generalizing est with
  | nil => exact ⟨rfl, rfl⟩
  | cons q l ih =>
    obtain ⟨hprior, htried⟩ := ih (Estimation.after v args gasCap host fuel d c q.1 q.2 est)
    refine ⟨hprior, htried.trans ?_⟩
    rw [List.reverse_cons, List.append_assoc]
    rfl

/-- **The last test**: the cap must not fail, anything else was tried. -/
theorem conclude_eq_ok {est est' : Estimation} (hlike : Like v args gasCap host fuel d c est)
    {cap hi g : UInt64} :
    conclude v args gasCap host fuel cap hi est = .ok g est'
      ↔ g = hi ∧ (hi = cap ∧ Succeeds v args gasCap host fuel d c cap
          ∧ est' = Estimation.after v args gasCap host fuel d c cap false est
        ∨ hi ≠ cap ∧ est' = est) := by
  unfold conclude
  by_cases heq : hi = cap
  · subst heq
    rw [if_pos rfl]
    cases hverdict : verdict (trial v args gasCap host fuel d c hi) with
    | none =>
      obtain ⟨stop, est₁, hrun⟩ := (executable_eq hlike hi).2 hverdict
      simp only [bind, EStateM.bind, hrun]
      refine ⟨nofun, ?_⟩
      rintro ⟨-, ⟨-, hsucc, -⟩ | ⟨hne, -⟩⟩
      · rw [← verdict_eq_false, hverdict] at hsucc
        cases hsucc
      · exact absurd rfl hne
    | some failed =>
      obtain ⟨result, hrun⟩ := (executable_eq hlike hi).1 failed hverdict
      simp only [bind, EStateM.bind, hrun]
      cases failed with
      | true =>
        refine ⟨nofun, ?_⟩
        rintro ⟨-, ⟨-, hsucc, -⟩ | ⟨hne, -⟩⟩
        · rw [← verdict_eq_false, hverdict] at hsucc
          cases hsucc
        · exact absurd rfl hne
      | false =>
        have hsucc := (verdict_eq_false v args gasCap host fuel d c).mp hverdict
        constructor
        · rintro ⟨⟩
          exact ⟨rfl, .inl ⟨trivial, hsucc, rfl⟩⟩
        · rintro ⟨rfl, ⟨-, -, rfl⟩ | ⟨hne, -⟩⟩
          · rfl
          · exact absurd rfl hne
  · rw [if_neg heq, pure_bind]
    constructor
    · rintro ⟨⟩
      exact ⟨rfl, .inr ⟨heq, rfl⟩⟩
    · rintro ⟨rfl, ⟨hcap, -⟩ | ⟨-, rfl⟩⟩
      · exact absurd hcap heq
      · rfl

/-- **An estimate is the end of a path** of the bisection, and the state
that is returned is the one the call with it left. -/
theorem path_of_doEstimateGas {approx : Bool} {steps : ℕ} {g : UInt64} {est' : Estimation}
    (h : doEstimateGas v args gasCap host fuel approx steps { captured := c, prior := d }
      = .ok g est') :
    ∃ cap l b, args.ceiling v.header gasCap (d.getBalance args.sentFrom).1 = .ok cap
      ∧ Bisection.Path (fun gas => verdict (trial v args gasCap host fuel d c gas)) (close approx)
        ⟨Params.txGas - 1, cap⟩ l b
      ∧ g = b.hi ∧ Succeeds v args gasCap host fuel d c g
      ∧ est'.prior = args.priorAfter d
      ∧ est'.stateData = postState (trial v args gasCap host fuel d c g)
      ∧ ∀ q, q ∈ est'.tried ↔ q ∈ l ∨ b.hi = cap ∧ q = (cap, false) := by
  obtain ⟨cap, est₁, hcap, h⟩ := bind_eq_ok.mp h
  obtain ⟨b, est₂, hsearch, h⟩ := bind_eq_ok.mp h
  obtain ⟨hceiling, rfl⟩ := capOf_eq_ok.mp hcap
  obtain ⟨l, hpath, rfl⟩ := answers_executable.path like_priorAfter hsearch
  have hlike : Like v args gasCap host fuel d c
      (Bisection.replay (Estimation.after v args gasCap host fuel d c) l
        { captured := c, prior := args.priorAfter d }) :=
    answers_executable.keeps_replay l like_priorAfter
  obtain ⟨hprior, htried⟩ := replay_after l { captured := c, prior := args.priorAfter d }
  obtain ⟨rfl, ⟨hhi, hsucc, rfl⟩ | ⟨hhi, rfl⟩⟩ := (conclude_eq_ok hlike).mp h
  · refine ⟨cap, l, b, hceiling, hpath, rfl, hhi ▸ hsucc, hprior, by rw [hhi]; rfl, fun q => ?_⟩
    show q ∈ (cap, false) :: Estimation.tried (Bisection.replay _ l _) ↔ _
    rw [htried]
    simp [hhi, or_comm]
  · obtain ⟨heq, -⟩ | ⟨-, hverdict, hkept⟩ := hpath.replay_kept
      (Estimation.after v args gasCap host fuel d c) Estimation.stateData
      (fun gas => postState (trial v args gasCap host fuel d c gas)) (fun _ _ => rfl)
      (fun _ _ => rfl) { captured := c, prior := args.priorAfter d }
    · exact absurd heq hhi
    · refine ⟨cap, l, b, hceiling, hpath, rfl, (verdict_eq_false ..).mp hverdict, hprior, hkept,
        fun q => ?_⟩
      rw [htried]
      simp [hhi]

/-- **The end of a path is an estimate**, if the cap does not fail. -/
theorem exists_doEstimateGas {approx : Bool} {cap : UInt64} {l : List (UInt64 × Bool)}
    {b : Bisection.Bounds}
    (hcap : args.ceiling v.header gasCap (d.getBalance args.sentFrom).1 = .ok cap)
    (hpath : Bisection.Path (fun gas => verdict (trial v args gasCap host fuel d c gas))
      (close approx) ⟨Params.txGas - 1, cap⟩ l b)
    (hlast : b.hi = cap → Succeeds v args gasCap host fuel d c cap) :
    ∃ steps est', doEstimateGas v args gasCap host fuel approx steps { captured := c, prior := d }
        = .ok b.hi est'
      ∧ ∀ q, q ∈ est'.tried ↔ q ∈ l ∨ b.hi = cap ∧ q = (cap, false) := by
  have hstart : Like v args gasCap host fuel d c { captured := c, prior := args.priorAfter d } :=
    like_priorAfter
  obtain ⟨steps, hsearch⟩ := answers_executable.exists_search hpath hstart
  have hlike := answers_executable.keeps_replay l hstart
  obtain ⟨-, htried⟩ := replay_after l { captured := c, prior := args.priorAfter d }
  by_cases hhi : b.hi = cap
  · refine ⟨steps, _, bind_eq_ok.mpr ⟨cap, _, capOf_eq_ok.mpr ⟨hcap, rfl⟩, bind_eq_ok.mpr
      ⟨b, _, hsearch, (conclude_eq_ok hlike).mpr ⟨rfl, .inl ⟨hhi, hlast hhi, rfl⟩⟩⟩⟩, fun q => ?_⟩
    show q ∈ (cap, false) :: Estimation.tried (Bisection.replay _ l _) ↔ _
    rw [htried]
    simp [hhi, or_comm]
  · refine ⟨steps, _, bind_eq_ok.mpr ⟨cap, _, capOf_eq_ok.mpr ⟨hcap, rfl⟩, bind_eq_ok.mpr
      ⟨b, _, hsearch, (conclude_eq_ok hlike).mpr ⟨rfl, .inr ⟨hhi, rfl⟩⟩⟩⟩, fun q => ?_⟩
    rw [htried]
    simp [hhi]

end Estimation
