import CardinalEvm.Admission
import CardinalEvm.GasSearch

/-!
# What an estimate is worth

The call with the estimate as gas limit does not fail, and the state that
is returned is the state it left. Whether the next lower limit was tried
depends on the sums of the search: it was, unless a sum overflowed after
everything failed and the midpoint then did not
(`Estimation.sound_iff`). A cap of at most `2 ^ 63` keeps the sums in
range, and the search then ends within 64 steps (`Estimation.halves_iff`).

The search takes an error for the end of it unless it is that for too
little intrinsic gas. A limit below the floor for the data is such an
error, so a search that comes upon one returns no estimate
(`Estimation.exists_estimate_iff`).
-/

open StateDB Bisection Params

namespace Transition

variable [Keccak] {env : Env} {noBaseFee : Bool} {msg : Message} {t : Transition}

/-- **What an error for too little gas says.** -/
def TooLittle (rules : Rules) (msg : Message) (stop : Stop) : Prop :=
  (∀ have_ want, stop = .err (.intrinsicGas have_ want) →
    msg.gas.toNat < msg.intrinsicCost rules)
  ∧ ∀ have_ want, stop = .err (.floorDataGas have_ want) →
    msg.intrinsicCost rules ≤ msg.gas.toNat ∧ rules.isPrague = true
      ∧ msg.gas.toNat < floorSum msg.data

omit [Keccak] in
theorem tooLittle_checkMessage (hdata : msg.data.length < 2 ^ 48) (hgas : t.gas = msg.gas) :
    Sat (checkMessage env msg) t
      (fun _ _ => msg.intrinsicCost env.rules ≤ msg.gas.toNat
        ∧ (env.rules.isPrague → floorSum msg.data ≤ msg.gas.toNat))
      (fun stop _ => TooLittle env.rules msg stop) := by
  rw [sat_checkMessage hdata hgas]
  split_ifs with hintrinsic hfloor
  · exact ⟨fun _ _ _ => hintrinsic, nofun⟩
  · exact ⟨nofun, fun _ _ _ => ⟨not_lt.mp hintrinsic, hfloor⟩⟩
  · exact ⟨nofun, nofun⟩
  · exact ⟨nofun, nofun⟩
  · exact ⟨not_lt.mp hintrinsic, fun hprague => not_lt.mp fun hlt => hfloor ⟨hprague, hlt⟩⟩

/-- **What the gas of a message was checked against**, whether its
transition returned or stopped with one of the two errors for it. -/
theorem tooLittle_transitionDb (env : Env) (noBaseFee : Bool) (fuel : ℕ) {feeCap tip : ℤ}
    (hcap : msg.gasFeeCap = some feeCap) (htip : msg.gasTipCap = some tip)
    (hdata : msg.data.length < 2 ^ 48) (hnonce : msg.checkNonce = false) (hgas : t.gas = 0) :
    Sat (transitionDb env noBaseFee fuel msg) t
      (fun _ _ => msg.funds ≤ (t.evm.statedb.getBalance msg.sender).1
        ∧ msg.intrinsicCost env.rules ≤ msg.gas.toNat
        ∧ (env.rules.isPrague → floorSum msg.data ≤ msg.gas.toNat))
      (fun stop _ => TooLittle env.rules msg stop) := by
  have hfees : Sat (checkFees env noBaseFee msg) t (fun _ t' => t = t')
      (fun stop _ => stop.Allowed) :=
    (sat_checkFees_iff hcap htip fun _ _ h => h).mpr fun _ => rfl
  have hpanics : ∀ {stop : Stop}, stop.Panics → TooLittle env.rules msg stop := fun h =>
    ⟨fun _ _ heq => absurd heq (h _), fun _ _ heq => absurd heq (h _)⟩
  obtain ⟨rest, heq, hrest⟩ := exists_rest env noBaseFee fuel msg
  rw [heq, preCheck, checkNonce_eq hnonce, pure_bind]
  refine .bind (.bind (hfees.mono ?_ fun stop _ hallowed => ⟨?_, ?_⟩))
  · rintro _ _ rfl
    refine sat_buyGas.mpr ⟨fun _ => ?_, fun hfunds => ⟨fun _ => ?_, fun _ => ?_⟩⟩
    iterate 2 exact ⟨fun _ _ heq => (by cases heq), fun _ _ heq => (by cases heq)⟩
    have hbought : (t.bought msg).gas = msg.gas := by
      show t.gas + msg.gas = msg.gas
      rw [hgas, UInt64.zero_add]
    refine (tooLittle_checkMessage hdata hbought).next fun floor t₁ hchecked => ?_
    exact (hrest floor t₁).mono (fun _ _ _ => ⟨not_lt.mp hfunds, hchecked⟩) fun _ _ h => hpanics h
  all_goals
    rintro have_ want rfl
    cases hallowed _ rfl

/-! ### Messages without fees -/

/-- The errors for too little gas. -/
def Low (stop : Stop) : Prop :=
  ∃ have_ want, stop = .err (.intrinsicGas have_ want) ∨ stop = .err (.floorDataGas have_ want)

/-- **A message without fees or a value** whose gas is not enough is
rejected for that. -/
theorem low_transitionDb (env : Env) (hbase : noBaseFee = true) (fuel : ℕ)
    (hcap : msg.gasFeeCap = some 0) (htip : msg.gasTipCap = some 0) (hvalue : msg.value = 0)
    (hcall : msg.recipient.isSome) (hdata : msg.data.length < 2 ^ 48)
    (hnonce : msg.checkNonce = false) (hgas : t.gas = 0) (hgp : msg.gas ≤ t.gp)
    (hbalance : 0 ≤ (t.evm.statedb.getBalance msg.sender).1)
    (hlow : ¬ (msg.intrinsicCost env.rules ≤ msg.gas.toNat
      ∧ (env.rules.isPrague → floorSum msg.data ≤ msg.gas.toNat))) :
    Sat (transitionDb env noBaseFee fuel msg) t (fun _ _ => False) (fun stop _ => Low stop) := by
  subst hbase
  have hfees : Sat (checkFees env true msg) t (fun _ t' => t = t') (fun _ _ => False) := by
    unfold checkFees
    split
    · refine .bind ((sat_feesChecked hcap htip).mpr ?_)
      rw [decide_eq_false (by simp)]
      exact rfl
    · exact rfl
  have hfunds : msg.funds ≤ (t.evm.statedb.getBalance msg.sender).1 := by
    unfold Message.funds
    rw [hcap]
    show msg.gas.toNat * (0 : ℤ) ≤ _
    rwa [mul_zero]
  have hbought : (t.bought msg).gas = msg.gas := by
    show t.gas + msg.gas = msg.gas
    rw [hgas, UInt64.zero_add]
  unfold transitionDb preCheck
  rw [checkNonce_eq hnonce, pure_bind]
  refine .bind (hfees.next ?_)
  rintro _ _ rfl
  refine (sat_buyGas_of_le hfunds hgp).mpr (.bind ?_)
  refine Sat.mono (Q := fun _ _ => False) ?_ (fun _ _ h => h.elim) fun _ _ h => h
  rw [sat_checkMessage hdata hbought]
  split_ifs with hintrinsic hfloor hpay hsize
  · exact ⟨_, _, .inl rfl⟩
  · exact ⟨_, _, .inr rfl⟩
  · exact absurd hvalue hpay.1.ne'
  · rw [hsize.2.1] at hcall
    cases hcall
  · exact hlow ⟨not_lt.mp hintrinsic, fun hprague => not_lt.mp fun hlt => hfloor ⟨hprague, hlt⟩⟩

end Transition

/-- The rules at the block of a view. -/
def View.rules (v : View) : Rules :=
  v.chaincfg.rules v.header.number v.headerCtx.random.isSome v.header.time.toNat

/-- The intrinsic gas of a call with these arguments. -/
def TransactionArgs.intrinsicCost (args : TransactionArgs) (rules : Rules) : ℕ :=
  intrinsicSum args.callData (args.accessList.getD default) args.authList args.recipient.isNone
    rules.isHomestead rules.isIstanbul rules.isShanghai

namespace Estimation

section Trials

variable [Keccak] {v : View} {args : TransactionArgs} {gasCap : UInt64} {host : Host} {fuel : ℕ}
  {d : StateDB} {c : Captured}

/-- **What a gas limit on trial was checked against.** -/
structure Checked (v : View) (args : TransactionArgs) (gasCap : UInt64) (d : StateDB)
    (gas : UInt64) (r : EStateM.Result ApiStop Captured (ExecutionResult × StateDB)) : Prop where
  ok : ∀ {result c'}, r = .ok result c' → 0 ≤ (d.copy.getBalance args.sentFrom).1
    ∧ args.intrinsicCost v.rules ≤ ((args.withGas gas).cappedGas gasCap).toNat
    ∧ (v.rules.isPrague →
      floorSum args.callData ≤ ((args.withGas gas).cappedGas gasCap).toNat)
  intrinsic : ∀ {have_ want c'}, r = .error (.err (.tx (.intrinsicGas have_ want))) c' →
    ((args.withGas gas).cappedGas gasCap).toNat < args.intrinsicCost v.rules
  floor : ∀ {have_ want c'}, r = .error (.err (.tx (.floorDataGas have_ want))) c' →
    args.intrinsicCost v.rules ≤ ((args.withGas gas).cappedGas gasCap).toNat
      ∧ v.rules.isPrague = true
      ∧ ((args.withGas gas).cappedGas gasCap).toNat < floorSum args.callData

omit [Keccak] in
/-- Nothing is known of another end. -/
theorem Checked.of_ne {gas : UInt64}
    {r : EStateM.Result ApiStop Captured (ExecutionResult × StateDB)}
    (hok : ∀ result c', r ≠ .ok result c') (herror : ∀ e c', r ≠ .error (.err (.tx e)) c') :
    Checked v args gasCap d gas r :=
  ⟨fun h => absurd h (hok _ _), fun h => absurd h (herror _ _), fun h => absurd h (herror _ _)⟩

omit [Keccak] in
/-- The messages of calls. -/
theorem message_withGas {gas : UInt64} {msg : Message}
    (h : (args.withGas gas).toMessage gasCap v.header.baseFee = .ok msg) :
    msg.sender = args.sentFrom ∧ msg.checkNonce = false
      ∧ msg.gas = (args.withGas gas).cappedGas gasCap ∧ msg.data = args.callData
      ∧ (∀ rules, msg.intrinsicCost rules = args.intrinsicCost rules)
      ∧ ∃ feeCap tip, msg.gasFeeCap = some feeCap ∧ msg.gasTipCap = some tip ∧ 0 ≤ feeCap := by
  obtain ⟨hprice, hle, -⟩ := (args.withGas gas).fees_le v.header.baseFee
  unfold TransactionArgs.toMessage at h
  split_ifs at h
  cases h
  exact ⟨rfl, rfl, rfl, rfl, fun _ => rfl, _, _, rfl, rfl, hprice.trans hle⟩

/-- Every trial ends with what its gas limit was checked against. -/
theorem checked_trial (gas : UInt64) :
    Checked v args gasCap d gas (trial v args gasCap host fuel d c gas) := by
  unfold trial
  cases hmsg : (args.withGas gas).toMessage gasCap v.header.baseFee with
  | error e =>
    rw [doCall_error _ _ _ _ _ hmsg]
    unfold TransactionArgs.toMessage at hmsg
    split_ifs at hmsg
    obtain rfl := Except.error.inj hmsg
    exact .of_ne (by rintro _ _ ⟨⟩) (by rintro _ _ ⟨⟩)
  | ok msg =>
    rw [doCall_ok _ _ _ _ _ hmsg]
    obtain ⟨hsender, hnonce, hgas, hdata, hcost, feeCap, tip, hcap, htip, hpos⟩ :=
      message_withGas hmsg
    rw [View.evmFn_snd]
    generalize ha : (⟨d.copy, none, (args.withGas gas).sentFrom, some msg.gasPrice⟩ : BuildArgs) = a
    have hsdb : (v.evmFn a c).1.statedb = d.copy := by rw [← ha]; rfl
    have hsat := Transition.tooLittle_transitionDb ((v.evmFn a c).1.env host)
      (v.evmFn a c).1.config.noBaseFee fuel hcap htip (hdata ▸ args.length_callData) hnonce
      (t := { evm := { statedb := (v.evmFn a c).1.statedb }, gp := 0xffffffffffffffff }) rfl
    have hrules : ((v.evmFn a c).1.env host).rules = v.rules := v.evmFn_chainRules a c
    rw [hrules] at hsat
    unfold Transition.TooLittle Message.funds at hsat
    rw [hcap, hcost, hgas, hdata] at hsat
    cases hrun : (v.evmFn a c).1.applyMessage host fuel msg 0xffffffffffffffff with
    | ok result t =>
      obtain ⟨hfunds, hchecked⟩ := hsat.of_ok hrun
      rw [hsdb, hsender] at hfunds
      have hbalance : 0 ≤ (d.copy.getBalance args.sentFrom).1 :=
        (Int.mul_nonneg (Int.natCast_nonneg _) hpos).trans hfunds
      unfold Transition.outcome finished
      dsimp only
      split_ifs
      · exact .of_ne (by rintro _ _ ⟨⟩) (by rintro _ _ ⟨⟩)
      · exact ⟨fun _ => ⟨hbalance, hchecked⟩, by rintro _ _ _ ⟨⟩, by rintro _ _ _ ⟨⟩⟩
    | error stop t =>
      obtain ⟨hintrinsic, hfloor⟩ := hsat.of_error hrun
      cases stop with
      | err e =>
        refine ⟨by rintro _ _ ⟨⟩, ?_, ?_⟩
        · rintro have_ want _ ⟨⟩
          exact hintrinsic have_ want rfl
        · rintro have_ want _ ⟨⟩
          exact hfloor have_ want rfl
      | fault f | gasPool => exact .of_ne (by rintro _ _ ⟨⟩) (by rintro _ _ ⟨⟩)

end Trials

end Estimation

/-! ## The cap -/

namespace TransactionArgs

variable {args : TransactionArgs} {header : Header} {gasCap cap : UInt64} {balance : ℤ}

theorem available_ok {available : ℤ} (h : args.available balance = .ok available) :
    available = balance - args.value.getD 0
      ∧ (args.value.isSome → args.value.getD 0 < balance) := by
  unfold TransactionArgs.available at h
  cases hvalue : args.value with
  | none =>
    rw [hvalue] at h
    cases h
    exact ⟨(sub_zero balance).symm, nofun⟩
  | some value =>
    rw [hvalue] at h
    dsimp only at h
    split_ifs at h with hle
    exact ⟨(Except.ok.inj h).symm, fun _ => not_le.mp hle⟩

/-- **What a cap by the funds of the sender is capped by.** -/
theorem funded_ok {hi : UInt64} (h : args.funded balance hi = .ok cap) :
    cap ≤ hi ∧ (args.value.isSome → args.value.getD 0 < balance)
      ∧ (0 ≤ (balance - args.value.getD 0) / args.offeredFee →
        (cap.toNat : ℤ) ≤ (balance - args.value.getD 0) / args.offeredFee) := by
  unfold funded at h
  cases havailable : args.available balance with
  | error e =>
    rw [havailable] at h
    cases h
  | ok available =>
    rw [havailable] at h
    obtain ⟨rfl, hvalue⟩ := available_ok havailable
    cases h
    generalize (balance - args.value.getD 0) / (args.offeredFee : ℤ) = allowance
    have hhi := hi.toNat_lt
    split_ifs with hcap
    · have hallowance : (UInt64.ofNat allowance.toNat).toNat = allowance.toNat :=
        UInt64.toNat_ofNat_of_lt' (show _ < 2 ^ 64 by omega)
      rw [UInt64.le_iff_toNat_le, hallowance]
      exact ⟨by omega, hvalue, fun _ => by omega⟩
    · exact ⟨UInt64.le_refl _, hvalue, fun hpos => by omega⟩

/-- **What the cap is capped by.** -/
theorem ceiling_ok (h : args.ceiling header gasCap balance = .ok cap) :
    cap ≤ args.requestedGas header ∧ (gasCap ≠ 0 → cap ≤ gasCap)
      ∧ (args.offeredFee ≠ 0 → (args.value.isSome → args.value.getD 0 < balance)
        ∧ (0 ≤ (balance - args.value.getD 0) / args.offeredFee →
          (cap.toNat : ℤ) ≤ (balance - args.value.getD 0) / args.offeredFee)) := by
  -- the gas cap of the node only lowers what the rest gave
  have hlow : ∀ hi : UInt64, (if gasCap ≠ 0 ∧ gasCap < hi then gasCap else hi) ≤ hi
      ∧ (gasCap ≠ 0 → (if gasCap ≠ 0 ∧ gasCap < hi then gasCap else hi) ≤ gasCap) := by
    intro hi
    split_ifs with hcap
    · exact ⟨UInt64.le_of_lt hcap.2, fun _ => UInt64.le_refl _⟩
    · exact ⟨UInt64.le_refl _, fun hne => UInt64.not_lt.mp fun hlt => hcap ⟨hne, hlt⟩⟩
  unfold ceiling at h
  split_ifs at h with hboth hfee
  · cases hfunded : args.funded balance (args.requestedGas header) with
    | error e =>
      rw [hfunded] at h
      cases h
    | ok hi =>
      rw [hfunded] at h
      cases h
      obtain ⟨hle, hvalue, hallowance⟩ := funded_ok hfunded
      refine ⟨UInt64.le_trans (hlow hi).1 hle, (hlow hi).2, fun _ => ⟨hvalue, fun hpos => ?_⟩⟩
      exact le_trans (Int.ofNat_le.mpr (UInt64.le_iff_toNat_le.mp (hlow hi).1)) (hallowance hpos)
  · cases h
    exact ⟨(hlow _).1, (hlow _).2, fun hne => absurd hne hfee⟩

end TransactionArgs

/-- Arguments with a gas limit ask for no more than it. -/
theorem TransactionArgs.cappedGas_withGas_le (args : TransactionArgs) (gas gasCap : UInt64) :
    (args.withGas gas).cappedGas gasCap ≤ gas := by
  show (if gasCap ≠ 0 ∧ gasCap < gas then gasCap else gas) ≤ gas
  split_ifs with hcap
  · exact UInt64.le_of_lt hcap.2
  · exact UInt64.le_refl _

/-- **Without an override of the balance** a copy shows the balance. -/
theorem StateDB.getBalance_copy {d : StateDB} {a : Address}
    (h : ∀ o, d.state a = some o → o.fakeBalance = none) :
    (d.copy.getBalance a).1 = (d.getBalance a).1 := by
  have hfake : (d.getAccount a).fakeBalance = none := by
    unfold getAccount
    cases ho : d.state a with
    | none => rfl
    | some o => exact h o ho
  have hobject : ((d.getAccount a).loadAccount d.tx a).2.copy.getBalance
      = ((d.getAccount a).loadAccount d.tx a).2.getBalance := by
    rw [StateObject.loadAccount_eq]
    simp only [StateObject.getBalance, StateObject.copy, hfake]
  rw [getBalance_eq d, ← hobject, getBalance_eq, Sim.getAccount_copy]
  exact congrArg (fun r : Bool × StateObject => if r.1 then r.2.getBalance else 0)
    ((d.getAccount a).loadAccount_copy d.tx a)

/-- The creation of a contract whose code ends in an invalid instruction if
it has more than three quarters of `2 ^ 63` gas. -/
def TransactionArgs.thrifty (gas : UInt64) : TransactionArgs where
  sender := some 0x3000
  gas := some gas
  data := some [0x67, 0x60, 0, 0, 0, 0, 0, 0, 0, 0x5a, 0x11, 0x60, 0x0f, 0x57, 0x00, 0x5b, 0xfe]
  authList := default
  data_fits := by
    rintro _ ⟨⟩
    decide

/-! ## Soundness -/

namespace Estimation

variable [Keccak] {v : View} {args : TransactionArgs} {gasCap : UInt64} {host : Host} {fuel : ℕ}
  {d : StateDB} {c : Captured} {approx : Bool} {g : UInt64} {est' : Estimation}

/-- No call gets by with less than 21000. -/
theorem Succeeds.le (h : Succeeds v args gasCap host fuel d c g) : txGas ≤ g := by
  obtain ⟨result, d', c', hrun, -⟩ := h
  obtain ⟨-, hcost, -⟩ := (checked_trial g).ok hrun
  have hle := UInt64.le_iff_toNat_le.mp (args.cappedGas_withGas_le g gasCap)
  rw [UInt64.le_iff_toNat_le]
  exact (le_intrinsicSum ..).trans (hcost.trans hle)

variable (v args gasCap host fuel d c approx g est') in
/-- **A sound estimate.** -/
structure Sound : Prop where
  /-- The call with the estimate on a copy of the given state does not
  fail, and the state it left is returned. -/
  runs : ∃ result d' c', doCall v host fuel (args.withGas g) d.copy none gasCap c
    = .ok (result, d') c' ∧ result.failed = false ∧ est'.stateData = some d'
  requested : g ≤ args.requestedGas v.header
  capped : gasCap ≠ 0 → g ≤ gasCap
  funded : args.offeredFee ≠ 0 → (g.toNat : ℤ)
    ≤ ((d.getBalance args.sentFrom).1 - args.value.getD 0) / args.offeredFee
  unchanged : SameReads d est'.prior
  /-- The next lower limit was tried and failed. -/
  least : approx = false → g = txGas ∨ (g - 1, true) ∈ est'.tried

variable (v args gasCap host fuel d c) in
/-- **The bounds of a search do not pass each other**: if everything fails
until a sum overflows and the midpoint then does not, the limit before it
is one of those that failed. -/
def Uncrossed (cap : UInt64) : Prop :=
  ∀ k, 2 ^ 64 ≤ cap.toNat + (lows (txGas - 1) cap k).toNat →
    (∀ j < k, Fails v args gasCap host fuel d c (lows (txGas - 1) cap (j + 1))) →
    Succeeds v args gasCap host fuel d c (lows (txGas - 1) cap (k + 1)) →
    lows (txGas - 1) cap (k + 1) = txGas
      ∨ ∃ j < k, lows (txGas - 1) cap (j + 1) + 1
        = lows (txGas - 1) cap (k + 1)

theorem sameReads_priorAfter : SameReads d (args.priorAfter d) := by
  unfold TransactionArgs.priorAfter
  split_ifs
  · have hread : Reads d (d.getBalance args.sentFrom).2 :=
      Calls.of_op (.getBalance args.sentFrom) rfl rfl
    exact hread.le.sameReads
  · exact (Le.refl d).sameReads

variable {cap gas : UInt64}

/-- **What the bounds of a search for the least limit end with.** -/
theorem least_of_path {l : List (UInt64 × Bool)} {b : Bounds}
    (hpath : Path (fun gas => verdict (trial v args gasCap host fuel d c gas))
      (close false) ⟨txGas - 1, cap⟩ l b)
    (hsucc : Succeeds v args gasCap host fuel d c b.hi)
    (hcross : Uncrossed v args gasCap host fuel d c cap) :
    b.hi = txGas ∨ (b.hi - 1, true) ∈ l := by
  have hle : txGas ≤ cap := UInt64.le_trans hsucc.le hpath.hi_le
  have hstart : (txGas - 1).toNat = 20999 := rfl
  have hlt : (txGas - 1).toNat < cap.toNat :=
    UInt64.lt_iff_toNat_lt.mp (UInt64.lt_of_lt_of_le (by decide) hle)
  have hpred : ∀ {p q : UInt64}, p.toNat = q.toNat + 1 → p - 1 = q := by
    intro p q h
    have hone : 1 ≤ p := UInt64.le_iff_toNat_le.mpr (show 1 ≤ p.toNat by omega)
    rw [← UInt64.toNat_inj, UInt64.toNat_sub_of_le _ _ hone, h]
    rfl
  obtain ⟨hmeet, hlo | hlo⟩ | ⟨i, -, hover, hans, hhi, hall⟩ :=
    Path.ends (show (txGas - 1).toNat < 2 ^ 63 by decide) (k := 0) hpath hlt
  · refine .inl (UInt64.toNat_inj.mp ?_)
    rw [hmeet, hlo]
    rfl
  · exact .inr (hpred hmeet ▸ hlo)
  · obtain heq | ⟨j, hji, heq⟩ := hcross i hover
      (fun j hji => (verdict_eq_true ..).mp (hall j (Nat.zero_le j) hji).1)
      ((verdict_eq_false ..).mp hans)
    · exact .inl (hhi.trans heq)
    · refine .inr ?_
      rw [hhi, ← heq, UInt64.add_sub_cancel]
      exact (hall j (Nat.zero_le j) hji).2

variable (v args gasCap host fuel d c approx) in
/-- **When every estimate is sound**: the search is approximate or the
bounds do not pass each other. -/
theorem sound_iff (hd : ∀ a o, d.state a = some o → o.fakeBalance = none) :
    (∀ steps g est', doEstimateGas v args gasCap host fuel approx steps
        { captured := c, prior := d } = .ok g est' →
      Sound v args gasCap host fuel d c approx g est')
      ↔ (approx = false → ∀ cap,
        args.ceiling v.header gasCap (d.getBalance args.sentFrom).1 = .ok cap →
        Uncrossed v args gasCap host fuel d c cap) := by
  constructor
  · rintro hall rfl cap hcap k hover hfail hsucc
    have hpath : Path (fun gas => verdict (trial v args gasCap host fuel d c gas))
        (close false) ⟨txGas - 1, cap⟩ _ _ :=
      Path.of_overflow (i := 0) (k := k)
        (show (txGas - 1).toNat < 2 ^ 63 by decide) (by rwa [Nat.zero_add])
        (fun j _ hj => (verdict_eq_true ..).mpr (hfail j (by omega)))
        (by rw [Nat.zero_add]; exact (verdict_eq_false ..).mpr hsucc)
    rw [Nat.zero_add] at hpath
    have hlast : lows (txGas - 1) cap (k + 1) = cap →
        Succeeds v args gasCap host fuel d c cap := fun heq => by rwa [heq] at hsucc
    obtain ⟨steps, est', hrun, htried⟩ := exists_doEstimateGas hcap hpath hlast
    obtain heq | hmem := (hall steps _ est' hrun).least rfl
    · exact .inl heq
    · right
      obtain hmem | ⟨-, heq⟩ := (htried _).mp hmem
      · obtain hmem | hmem := List.mem_append.mp hmem
        · obtain ⟨j, hj, heq⟩ := List.mem_map.mp hmem
          refine ⟨j, by simpa using hj, ?_⟩
          rw [(Prod.mk.inj heq).1, UInt64.sub_add_cancel]
        · cases (Prod.mk.inj (List.mem_singleton.mp hmem)).2
      · cases (Prod.mk.inj heq).2
  · intro hcross steps g est' hrun
    obtain ⟨cap, l, b, hcap, hpath, rfl, hsucc, hprior, hdata, htried⟩ := path_of_doEstimateGas hrun
    obtain ⟨hrequested, hcapped, hfunded⟩ := TransactionArgs.ceiling_ok hcap
    have hle : b.hi ≤ cap := hpath.hi_le
    obtain ⟨result, d', c', htrial, hok⟩ := hsucc
    refine ⟨⟨result, d', c', htrial, hok, by rw [hdata, htrial]; rfl⟩,
      UInt64.le_trans hle hrequested, fun hne => UInt64.le_trans hle (hcapped hne), ?_,
      hprior ▸ sameReads_priorAfter, ?_⟩
    · intro hfee
      obtain ⟨hvalue, hallowance⟩ := hfunded hfee
      have hbalance := ((checked_trial b.hi).ok htrial).1
      rw [StateDB.getBalance_copy (hd args.sentFrom)] at hbalance
      refine le_trans (Int.ofNat_le.mpr (UInt64.le_iff_toNat_le.mp hle)) (hallowance ?_)
      refine Int.ediv_nonneg ?_ (Int.natCast_nonneg _)
      cases hv : args.value with
      | none => simpa [hv] using hbalance
      | some value =>
        have := hvalue (by rw [hv]; rfl)
        rw [hv] at this
        exact Int.sub_nonneg_of_le (le_of_lt this)
    · rintro rfl
      exact (least_of_path hpath ⟨result, d', c', htrial, hok⟩ (hcross rfl cap hcap)).imp_right
        fun hmem => (htried _).mpr (.inl hmem)

/-- Under a cap of half of the range no sum overflows. -/
theorem uncrossed_of_le (h : cap.toNat ≤ 2 ^ 63) :
    Uncrossed v args gasCap host fuel d c cap := by
  intro k hover
  have hlow := toNat_lows_lt (show (txGas - 1).toNat < 2 ^ 63 by decide) cap k
  omega

omit [Keccak] in
/-- **Without a cap** the sums overflow from the first one on, down to a
limit of 0. Half of the range then fails, and the sum overflows once more:
a quarter of the range is returned, with nothing tried between it and a
limit of 10499. -/
theorem not_sound :
    letI := Keccak.digests
    let args := TransactionArgs.thrifty 0xffffffffffffffff
    ∃ g est', doEstimateGas (View.london true) args 0 {} 20 false 20
        { prior := newStateDB (.sender 0) } = .ok g est'
      ∧ g = 0x3fffffffffffffff ∧ (g - 1, true) ∉ est'.tried :=
  letI := Keccak.digests
  exists_of_sat (by decide +kernel)

omit [Keccak] in
/-- A creation under a cap of 60000. -/
theorem sound_iff_creation :
    letI := Keccak.digests
    let args := TransactionArgs.thrifty 60000
    let d := newStateDB (.sender 0)
    ∃ g est', doEstimateGas (View.london true) args 0 {} 20 false 20 { prior := d } = .ok g est'
      ∧ Sound (View.london true) args 0 {} 20 d {} false g est' := by
  let _ := Keccak.digests
  intro args d
  obtain ⟨g, est', hrun, -⟩ : ∃ g est', doEstimateGas (View.london true) args 0 {} 20 false 20
      { prior := d } = .ok g est' ∧ True := exists_of_sat (by decide +kernel)
  have hplain : ∀ a o, d.state a = some o → o.fakeBalance = none :=
    fun _ _ h => nomatch (show none = some _ from h)
  refine ⟨g, est', hrun, (sound_iff (View.london true) args 0 {} 20 d {} false hplain).mpr ?_
    20 g est' hrun⟩
  rintro - cap hcap
  have hle : cap ≤ 60000 := (TransactionArgs.ceiling_ok hcap).1
  exact uncrossed_of_le ((UInt64.le_iff_toNat_le.mp hle).trans (by decide))

/-! ## Termination -/

omit [Keccak] in
/-- **When the search halves whatever the calls say**: the cap is at most
half of the range. -/
theorem halves_iff (header : Header) (args : TransactionArgs) (gasCap : UInt64) (balance : ℤ) :
    (∀ cap, args.ceiling header gasCap balance = .ok cap →
      ∀ (approx : Bool) (fails : UInt64 → Bool),
        Halves fails (close approx) ⟨txGas - 1, cap⟩)
      ↔ ∀ cap, args.ceiling header gasCap balance = .ok cap → cap ≤ 0x8000000000000000 := by
  have hlo : (txGas - 1).toNat < 2 ^ 63 := by decide
  refine forall₂_congr fun cap _ => ?_
  rw [UInt64.le_iff_toNat_le]
  constructor
  · intro h
    by_contra hgt
    have hends := (h false fun _ => true).ends
    have hnone := search_eq_none (b := ⟨txGas - 1, cap⟩) hlo
      (show 2 ^ 63 < cap.toNat from not_le.mp hgt) 64
    rw [show close false = Never from rfl, hnone] at hends
    cases hends
  · exact fun hle _ _ => halves_of_le hlo hle

omit [Keccak] in
/-- **A call that always fails**, without a cap: the first midpoint is
below both bounds, and the call is made with it and then with half of it.
No number of steps is enough for a search like this. -/
theorem not_halves :
    letI := Keccak.digests
    let args : TransactionArgs :=
      { sender := some 0x3000
        gas := some 0xffffffffffffffff
        data := some [0xfe]
        data_fits := by
          rintro _ ⟨⟩
          decide }
    let b : Bounds := ⟨txGas - 1, 0xffffffffffffffff⟩
    args.ceiling (View.london true).header 0 0 = .ok b.hi ∧ b.Open ∧ b.mid < b.lo
      ∧ (∀ n, search (fun _ => some true) (close false) none n b = none)
      ∧ ∃ stop est', doEstimateGas (View.london true) args 0 {} 20 false 2
          { prior := newStateDB (.sender 0) } = .error stop est'
        ∧ stop = .outOfFuel ∧ est'.tried = [(5249, true), (10499, true)] := by
  let _ := Keccak.digests
  intro args b
  have hcap : args.ceiling (View.london true).header 0 0 = .ok b.hi := by decide +kernel
  have hopen : b.Open := by decide
  have hmid : b.mid < b.lo := by decide
  refine ⟨hcap, hopen, hmid, ?_, ?_⟩
  · exact search_eq_none (b := b) (by decide) (by decide)
  · exact exists_error_of_sat (by decide +kernel)

/-! ## Completeness -/

variable (v args gasCap host fuel d c) in
/-- A gas limit below the floor for the data. -/
def BelowFloor (gas : UInt64) : Prop :=
  ∃ have_ want c', trial v args gasCap host fuel d c gas
    = .error (.err (.tx (.floorDataGas have_ want))) c'

omit [Keccak] in
/-- A gas limit up to the cap is what the call is made with. -/
theorem cappedGas_withGas_of_le {balance : ℤ}
    (hcap : args.ceiling v.header gasCap balance = .ok cap) (hle : gas ≤ cap) :
    (args.withGas gas).cappedGas gasCap = gas := by
  show (if gasCap ≠ 0 ∧ gasCap < gas then gasCap else gas) = gas
  rw [if_neg]
  rintro ⟨hne, hlt⟩
  have hcapped := UInt64.le_trans hle ((TransactionArgs.ceiling_ok hcap).2.1 hne)
  exact UInt64.not_lt.mpr hcapped hlt

/-- **The limits the search stops at with an error**, if every low limit
fails or is rejected for want of gas: those that cover the intrinsic gas
but not the floor. -/
def Between (v : View) (args : TransactionArgs) (gas : UInt64) : Prop :=
  v.rules.isPrague ∧ args.intrinsicCost v.rules ≤ gas.toNat
    ∧ gas.toNat < floorSum args.callData

/-- **What the search learns from a limit that is too low.** -/
theorem verdict_low {balance : ℤ} (hcap : args.ceiling v.header gasCap balance = .ok cap)
    (hle : gas ≤ cap)
    (hlow : Fails v args gasCap host fuel d c gas ∨ BelowFloor v args gasCap host fuel d c gas) :
    Between v args gas ∧ verdict (trial v args gasCap host fuel d c gas) = none
      ∨ ¬ Between v args gas ∧ verdict (trial v args gasCap host fuel d c gas) = some true := by
  have hgas := cappedGas_withGas_of_le hcap hle
  have hchecked : Checked v args gasCap d gas (trial v args gasCap host fuel d c gas) :=
    checked_trial gas
  obtain hfails | ⟨have_, want, c', hrun⟩ := hlow
  · refine .inr ⟨?_, (verdict_eq_true ..).mpr hfails⟩
    rintro ⟨hprague, hcost, hfloor⟩
    obtain ⟨result, d', c', hrun, -⟩ | ⟨have_, want, c', hrun⟩ := hfails
    · obtain ⟨-, -, hle⟩ := hchecked.ok hrun
      rw [hgas] at hle
      exact absurd hfloor (not_lt.mpr (hle hprague))
    · have hlt := hchecked.intrinsic hrun
      rw [hgas] at hlt
      exact absurd hlt (not_lt.mpr hcost)
  · obtain ⟨hcost, hprague, hfloor⟩ := hchecked.floor hrun
    rw [hgas] at hcost hfloor
    exact .inl ⟨⟨hprague, hcost, hfloor⟩, by rw [hrun]; rfl⟩

variable (v args gasCap host fuel d c) in
/-- **A threshold**: from it up to the cap no limit fails, and below it
every limit fails or is rejected for want of gas. -/
structure Threshold (cap g₀ : UInt64) : Prop where
  le : g₀ ≤ cap
  high : ∀ gas, g₀ ≤ gas → gas ≤ cap → Succeeds v args gasCap host fuel d c gas
  low : ∀ gas, gas < g₀ →
    Fails v args gasCap host fuel d c gas ∨ BelowFloor v args gasCap host fuel d c gas

variable (v args gasCap host fuel d c approx) in
/-- **When there is an estimate**, given a threshold: the bisection towards
it ends, and tries no limit between the intrinsic gas and the floor. -/
theorem exists_estimate_iff {cap g₀ : UInt64}
    (hcap : args.ceiling v.header gasCap (d.getBalance args.sentFrom).1 = .ok cap)
    (h : Threshold v args gasCap host fuel d c cap g₀) :
    (∃ steps g est', doEstimateGas v args gasCap host fuel approx steps
        { captured := c, prior := d } = .ok g est')
      ↔ ∃ l b, Path (fun gas => some (decide (gas < g₀))) (close approx)
          ⟨txGas - 1, cap⟩ l b
        ∧ ∀ gas, (gas, true) ∈ l → ¬ Between v args gas := by
  have hhigh : ∀ gas, g₀ ≤ gas → gas ≤ cap →
      verdict (trial v args gasCap host fuel d c gas) = some false :=
    fun gas hge hle => (verdict_eq_false ..).mpr (h.high gas hge hle)
  have hlow : ∀ gas, gas < g₀ → gas ≤ cap → _ :=
    fun gas hlt hle => verdict_low hcap hle (h.low gas hlt)
  constructor
  · rintro ⟨steps, g, est', hrun⟩
    obtain ⟨cap', l, b, hcap', hpath, -⟩ := path_of_doEstimateGas hrun
    obtain rfl := Except.ok.inj (hcap'.symm.trans hcap)
    have hquestion : ∀ p x, (p, x) ∈ l → x = decide (p < g₀) ∧ (x = true → ¬ Between v args p) := by
      intro p x hp
      have hx := hpath.answered hp
      have hle := UInt64.le_of_lt (hpath.lt_hi hp)
      by_cases hlt : p < g₀
      · obtain ⟨-, hnone⟩ | ⟨hbetween, htrue⟩ := hlow p hlt hle
        · rw [hnone] at hx
          cases hx
        · rw [htrue] at hx
          cases hx
          exact ⟨(decide_eq_true hlt).symm, fun _ => hbetween⟩
      · rw [hhigh p (UInt64.not_lt.mp hlt) hle] at hx
        cases hx
        exact ⟨(decide_eq_false hlt).symm, nofun⟩
    exact ⟨l, b, hpath.congr fun p x hp => congrArg some (hquestion p x hp).1.symm,
      fun p hp => (hquestion p true hp).2 rfl⟩
  · rintro ⟨l, b, hpath, hbetween⟩
    have hpath' : Path (fun gas => verdict (trial v args gasCap host fuel d c gas))
        (close approx) ⟨txGas - 1, cap⟩ l b := by
      refine hpath.congr fun p x hp => ?_
      have hle := UInt64.le_of_lt (hpath.lt_hi hp)
      have hx := Option.some.inj (hpath.answered hp)
      by_cases hlt : p < g₀
      · rw [decide_eq_true hlt] at hx
        subst hx
        obtain ⟨hmem, -⟩ | ⟨-, htrue⟩ := hlow p hlt hle
        · exact absurd hmem (hbetween p hp)
        · exact htrue
      · rw [← hx, decide_eq_false hlt]
        exact hhigh p (UInt64.not_lt.mp hlt) hle
    obtain ⟨steps, est', hrun, -⟩ := exists_doEstimateGas hcap hpath'
      fun _ => h.high cap h.le (UInt64.le_refl _)
    exact ⟨steps, b.hi, est', hrun⟩

/-- Arguments of a call without fees or a value. -/
structure Free (args : TransactionArgs) : Prop where
  gasPrice : args.gasPrice = none
  maxFeePerGas : args.maxFeePerGas = none
  maxPriorityFeePerGas : args.maxPriorityFeePerGas = none
  value : args.value = none
  recipient : args.recipient.isSome

omit [Keccak] in
/-- Its message offers no fee and sends nothing. -/
theorem Free.toMessage (h : Free args) (gas gasCap : UInt64) (baseFee : Option ℕ) :
    ∃ msg, (args.withGas gas).toMessage gasCap baseFee = .ok msg ∧ msg.gasFeeCap = some 0
      ∧ msg.gasTipCap = some 0 ∧ msg.value = 0 ∧ msg.recipient.isSome := by
  obtain ⟨hprice, hcap, htip, hvalue, hcall⟩ := h
  have hstyles : (args.withGas gas).bothFeeStyles = false := by
    show (args.gasPrice.isSome && _) = false
    rw [hprice]
    rfl
  have hfees : ((args.withGas gas).fees baseFee).2 = (0, 0) := by
    cases baseFee with
    | none =>
      show ((args.gasPrice.getD 0 : ℤ), (args.gasPrice.getD 0 : ℤ)) = _
      rw [hprice]
      rfl
    | some baseFee =>
      unfold TransactionArgs.fees TransactionArgs.withGas
      simp only [hprice, hcap, htip]
      rfl
  unfold TransactionArgs.toMessage
  rw [hstyles]
  refine ⟨_, rfl, ?_, ?_, ?_, hcall⟩
  · exact congrArg (fun fees : ℤ × ℤ => some fees.1) hfees
  · exact congrArg (fun fees : ℤ × ℤ => some fees.2) hfees
  · show ((args.value.getD 0 : ℕ) : ℤ) = 0
    rw [hvalue]
    rfl

/-- **A call without fees or a value** that gets too little gas fails or is
rejected for that. -/
theorem low_trial (hbase : v.defaultCfg.noBaseFee = true) (hfree : Free args)
    (hbalance : 0 ≤ (d.copy.getBalance args.sentFrom).1)
    (hgas : ¬ (args.intrinsicCost v.rules ≤ ((args.withGas gas).cappedGas gasCap).toNat
      ∧ (v.rules.isPrague →
        floorSum args.callData ≤ ((args.withGas gas).cappedGas gasCap).toNat))) :
    Fails v args gasCap host fuel d {} gas ∨ BelowFloor v args gasCap host fuel d {} gas := by
  obtain ⟨msg, hmsg, hcap, htip, hvalue, hcall⟩ :=
    hfree.toMessage gas gasCap v.header.baseFee
  obtain ⟨hsender, hnonce, hgas', hdata, hcost, -⟩ := message_withGas hmsg
  unfold Fails BelowFloor trial
  rw [doCall_ok _ _ _ _ _ hmsg, View.evmFn_snd]
  generalize ha : (⟨d.copy, none, (args.withGas gas).sentFrom, some msg.gasPrice⟩ : BuildArgs) = a
  have hsdb : (v.evmFn a {}).1.statedb = d.copy := by rw [← ha]; rfl
  have hconfig : (v.evmFn a {}).1.config.noBaseFee = true := by rw [← ha]; exact hbase
  have hrules : ((v.evmFn a {}).1.env host).rules = v.rules := v.evmFn_chainRules a {}
  rw [← hgas', ← hcost, ← hdata, ← hrules] at hgas
  have hpool : msg.gas ≤ 0xffffffffffffffff := by
    have hlt := msg.gas.toNat_lt
    rw [UInt64.le_iff_toNat_le]
    show msg.gas.toNat ≤ 18446744073709551615
    omega
  have hlow := Transition.low_transitionDb ((v.evmFn a {}).1.env host) hconfig fuel hcap htip hvalue
    hcall (hdata ▸ args.length_callData) hnonce
    (t := { evm := { statedb := (v.evmFn a {}).1.statedb }, gp := 0xffffffffffffffff }) rfl
    hpool (by rwa [hsdb, hsender]) hgas
  cases hrun : (v.evmFn a {}).1.applyMessage host fuel msg 0xffffffffffffffff with
  | ok result t => exact (hlow.of_ok hrun).elim
  | error stop t =>
    obtain ⟨have_, want, rfl | rfl⟩ := hlow.of_error hrun
    · exact .inl (.inr ⟨have_, want, _, rfl⟩)
    · exact .inr ⟨have_, want, _, rfl⟩

/-- **A threshold of a call without fees or a value**: the limits below it
do not pay for the data, or fail. -/
theorem threshold_of_free {g₀ : UInt64} (hbase : v.defaultCfg.noBaseFee = true)
    (hfree : Free args) (hbalance : 0 ≤ (d.copy.getBalance args.sentFrom).1) (hle : g₀ ≤ cap)
    (hhigh : ∀ gas, g₀ ≤ gas → gas ≤ cap → Succeeds v args gasCap host fuel d {} gas)
    (hlow : ∀ gas, gas < g₀ → gas.toNat < args.intrinsicCost v.rules
      ∨ v.rules.isPrague ∧ gas.toNat < floorSum args.callData
      ∨ Fails v args gasCap host fuel d {} gas) :
    Threshold v args gasCap host fuel d {} cap g₀ := by
  refine ⟨hle, hhigh, fun gas hlt => ?_⟩
  have hcapped := UInt64.le_iff_toNat_le.mp (args.cappedGas_withGas_le gas gasCap)
  obtain hcost | ⟨hprague, hfloor⟩ | hfails := hlow gas hlt
  · exact low_trial hbase hfree hbalance fun hgas => absurd hgas.1 (by omega)
  · exact low_trial hbase hfree hbalance fun hgas => absurd (hgas.2 hprague) (by omega)
  · exact .inl hfails

end Estimation

/-! ### A call with data -/

section Data

/-- A call with data, from an account that may be empty. -/
def TransactionArgs.withData (data : Bytes) (hdata : data.length < 2 ^ 48) (gas : UInt64) :
    TransactionArgs where
  sender := some 0x3000
  recipient := some 0x1000
  gas := some gas
  data := some data
  authList := default
  data_fits := by
    rintro _ ⟨⟩
    exact hdata

/-- The view of a Prague block for calls. -/
def View.calls : View := { View.prague with defaultCfg := { noBaseFee := true } }

namespace Estimation

/-- **A search that comes upon the floor**: 25000 gas are enough for a
hundred bytes and less is not. But the first midpoint is 22999, which
covers the intrinsic gas and not the floor, and this error is returned. -/
theorem not_exists_estimate :
    letI := Keccak.digests
    let args := TransactionArgs.withData (List.replicate 100 1) (by decide) 25000
    let d := newStateDB (.sender 0)
    args.ceiling View.calls.header 0 (d.getBalance args.sentFrom).1 = .ok 25000
      ∧ Threshold View.calls args 0 {} 10 d {} 25000 25000
      ∧ ∃ stop est', doEstimateGas View.calls args 0 {} 10 false 20 { prior := d }
          = .error stop est'
        ∧ stop = .err (.tx (.floorDataGas 22999 25000)) := by
  let _ := Keccak.digests
  intro args d
  refine ⟨by decide +kernel, ?_, exists_error_of_sat (by decide +kernel)⟩
  refine threshold_of_free rfl ⟨rfl, rfl, rfl, rfl, rfl⟩ (by decide +kernel) (UInt64.le_refl _)
    (fun gas hge hle => ?_) fun gas hlt => .inr (.inl ⟨rfl, ?_⟩)
  · obtain rfl := UInt64.le_antisymm hge hle
    exact (verdict_eq_false ..).mp (by decide +kernel)
  · exact (UInt64.lt_iff_toNat_lt.mp hlt).trans_eq (by decide +kernel)

/-- **A search that finds the gas of a contract** whose code costs 1: of
the limits up to 21007 it tries 21003, 21001 and 21000, and the last one
fails. -/
theorem exists_estimate_iff_jumpdest :
    letI := Keccak.digests
    let args := TransactionArgs.withData [] (by decide) 21007
    let d := newStateDB
      (.single 0x1000 { balance := some 0, codeHash := Hash.bytes (keccak256Hash [0x5b]) } [0x5b])
    ∃ steps g est', doEstimateGas View.calls args 0 {} 10 false steps { prior := d }
      = .ok g est' := by
  let _ := Keccak.digests
  intro args d
  have hcap : args.ceiling View.calls.header 0 (d.getBalance args.sentFrom).1 = .ok 21007 := by
    decide +kernel
  have htrials : ∀ n : Fin 7, verdict (trial View.calls args 0 {} 10 d {} (.ofNat (21001 + n)))
      = some false := by decide +kernel
  have hthreshold : Threshold View.calls args 0 {} 10 d {} 21007 21001 := by
    refine threshold_of_free rfl ⟨rfl, rfl, rfl, rfl, rfl⟩ (by decide +kernel) (by decide)
      (fun gas hge hle => (verdict_eq_false ..).mp ?_) fun gas hlt => ?_
    · have hge : 21001 ≤ gas.toNat := UInt64.le_iff_toNat_le.mp hge
      have hle : gas.toNat ≤ 21007 := UInt64.le_iff_toNat_le.mp hle
      have htrial := htrials ⟨gas.toNat - 21001, by omega⟩
      dsimp only at htrial
      rwa [Nat.add_sub_cancel' hge, UInt64.ofNat_toNat] at htrial
    · obtain hlt | heq := Nat.lt_succ_iff_lt_or_eq.mp (UInt64.lt_iff_toNat_lt.mp hlt)
      · exact .inl (hlt.trans_eq (by decide +kernel))
      · obtain rfl : gas = 21000 := UInt64.toNat_inj.mp heq
        exact .inr (.inr ((verdict_eq_true ..).mp (by decide +kernel)))
  refine (exists_estimate_iff View.calls args 0 {} 10 d {} false hcap hthreshold).mpr
    ⟨[(21003, false), (21001, false), (21000, true)], _, .step (by decide) rfl rfl <|
      .step (by decide) rfl rfl <| .step (by decide) rfl rfl <| .done (by decide),
      fun gas _ h => ?_⟩
  -- without data the floor is the intrinsic gas
  exact absurd (h.2.1.trans_lt h.2.2) (by decide +kernel)

end Estimation

end Data
