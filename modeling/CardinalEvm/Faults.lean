import CardinalEvm.Interpreter

/-!
# Laws of calls and creations

`Call`, `Create` and the rest of `vm/evm.go` run a frame between parts
that run none. What holds of every frame, and is not disturbed by the
other parts, therefore holds of calls and creations (`CallLaw`): that they
leave no more gas than they got, for one, or that they panic only for
certain reasons. Two panics are their own: where a state cannot be
reverted to a snapshot, and where a delegate call does not come from a
contract.
-/

variable [Keccak]

/-- An event that a call leaves beside those of the frame it runs. -/
def Event.Routine : Event → Prop
  | .created _ _ _ | .reverted _ => True
  | .useGas gas amount => amount ≤ gas
  | _ => False

/-- **A law of calls.** -/
structure CallLaw where
  /-- What the parts that run no frame do to the trace. -/
  idle : List Event → List Event → Prop
  /-- What a part that got gas leaves of it. -/
  spends : UInt64 → Evm → UInt64 → Evm → Prop
  /-- What a part that got gas stops for. -/
  stops : UInt64 → Fault → Prop
  refl : ∀ t, idle t t
  trans : ∀ {t t' t''}, idle t t' → idle t' t'' → idle t t''
  routine : ∀ {v : Event}, v.Routine → ∀ t, idle t (v :: t)
  of_idle : ∀ {e e' : Evm} {g g' : UInt64}, idle e.trace e'.trace → g' ≤ g → spends g e g' e'
  first : ∀ {e e' e'' : Evm} {g g' : UInt64}, idle e.trace e'.trace → spends g e' g' e'' →
    spends g e g' e''
  last : ∀ {e e' e'' : Evm} {g g' left : UInt64}, spends g e g' e' → spends g' e' left e'' →
    spends g e left e''
  snapshot : ∀ g, stops g .snapshot
  assertion : ∀ g, stops g .assertion

namespace CallLaw

variable (L : CallLaw)

/-- The trace of a part that runs no frame. -/
def Idles (e e' : Evm) : Prop := L.idle e.trace e'.trace

instance : IsPreorder Evm L.Idles where
  refl _ := L.refl _
  trans _ _ _ := L.trans

/-- A panic that the law allows whatever the gas. -/
def Panics (f : Fault) : Prop := ∀ g, L.stops g f

variable {α : Type}

/-- A part that runs no frame. -/
abbrev Idle (m : EStateM Fault Evm α) : Prop := Tame L.Idles L.Panics m

/-- **A program that obeys the law**, with the gas it got and leaves. -/
def Budget (g : UInt64) (left : α → UInt64) (m : EStateM Fault Evm α) : Prop :=
  ∀ e, Sat m e (fun a e' => L.spends g e (left a) e')
    (fun f e' => L.spends g e 0 e' ∧ L.stops g f)

/-- The law of panics for reasons in `P`. -/
def ofFaults {P : Fault → Prop} (h : P .snapshot) (h' : P .assertion) : CallLaw where
  idle _ _ := True
  spends _ _ _ _ := True
  stops _ := P
  refl _ := trivial
  trans _ _ := trivial
  routine _ _ := trivial
  of_idle _ _ := trivial
  first _ _ := trivial
  last _ _ := trivial
  snapshot _ := h
  assertion _ := h'

end CallLaw

/-- **Frames that obey the law.** -/
def Runner.Within (L : CallLaw) (run : Runner) : Prop :=
  ∀ c input readOnly, L.Budget c.gas (fun r => r.2.gas) (run c input readOnly)

/-- **Frames stop only for reasons in `P`.** -/
def Runner.Safe (P : Fault → Prop) (run : Runner) : Prop :=
  ∀ c input readOnly, Stops P (run c input readOnly)

section Faults

omit [Keccak]

variable {P : Fault → Prop} {h : P .snapshot} {h' : P .assertion}

theorem Runner.Safe.within {run : Runner} (hrun : run.Safe P) :
    run.Within (.ofFaults h h') :=
  fun c input readOnly e => (hrun c input readOnly e).mono (fun _ _ _ => trivial)
    (fun _ _ hf => ⟨trivial, hf⟩)

theorem CallLaw.Budget.stops {α : Type} {g : UInt64} {left : α → UInt64} {m : EStateM Fault Evm α}
    (hm : (CallLaw.ofFaults h h').Budget g left m) : Stops P m :=
  fun e => (hm e).mono (fun _ _ _ => trivial) (fun _ _ hf => hf.2)

end Faults

section Budgets

omit [Keccak]

variable {L : CallLaw} {α β : Type} {g : UInt64} {left : α → UInt64} {left' : β → UInt64}
  {m : EStateM Fault Evm α} {f : α → EStateM Fault Evm β}

namespace CallLaw.Budget

theorem pure {a : α} (h : left a ≤ g) : L.Budget g left (Pure.pure a : EStateM Fault Evm α) :=
  fun e => L.of_idle (L.refl e.trace) h

theorem ite {c : Prop} [Decidable c] {m' : EStateM Fault Evm α} (h : L.Budget g left m)
    (h' : L.Budget g left m') : L.Budget g left (if c then m else m') :=
  fun e => .ite (fun _ => h e) (fun _ => h' e)

/-- Something that runs no frame, before, with what it returns. -/
theorem first_of {P : α → Prop} (hm : L.Idle m) (hr : Returns P m)
    (hf : ∀ a, P a → L.Budget g left' (f a)) : L.Budget g left' (m >>= f) := by
  refine fun e => .bind (((hm e).and (hr e)).mono (fun a e' h => ?_) (fun x e' h => ?_))
  · exact (hf a h.2 e').mono (fun _ _ h' => L.first h.1 h') (fun _ _ h' => ⟨L.first h.1 h'.1, h'.2⟩)
  · exact ⟨L.of_idle h.1.1 (UInt64.le_iff_toNat_le.mpr (Nat.zero_le _)), h.1.2 g⟩

/-- Something that runs no frame, before. -/
theorem first (hm : L.Idle m) (hf : ∀ a, L.Budget g left' (f a)) : L.Budget g left' (m >>= f) :=
  first_of (P := fun _ => True) hm (fun _ => .of_forall (fun _ _ => trivial) (fun _ _ => trivial))
    fun a _ => hf a

/-- Something that runs no frame, after. -/
theorem last (hm : L.Budget g left m) (hf : ∀ a, L.Idle (f a))
    (hleft : ∀ a, Returns (fun r => left' r ≤ left a) (f a)) : L.Budget g left' (m >>= f) := by
  refine fun e => (hm e).next fun a e' h => ?_
  refine ((hf a e').and (hleft a e')).mono (fun r e'' h' => ?_) (fun x e'' h' => ?_)
  · exact L.last h (L.of_idle h'.1 h'.2)
  · exact ⟨L.last h (L.of_idle h'.1.1 (UInt64.le_iff_toNat_le.mpr (Nat.zero_le _))), h'.1.2 g⟩

end CallLaw.Budget

namespace Evm

/-! ### Parts of calls -/

theorem idles_onDb (f : StateDB → α × StateDB) : L.Idle (onDb f) :=
  fun e => L.refl e.trace

theorem idles_setDb (f : StateDB → StateDB) : L.Idle (setDb f) :=
  fun e => L.refl e.trace

theorem idles_createAccount (addr : Address) (byCreation : Bool) :
    L.Idle (createAccount addr byCreation) :=
  fun e => L.routine (v := .created _ _ _) trivial e.trace

theorem idles_revertToSnapshot (snapshot : ℕ) :
    L.Idle (revertToSnapshot snapshot) := by
  refine .attempt L.snapshot fun e _ e' h => ?_
  obtain ⟨_, -, h⟩ := Option.map_eq_some_iff.mp h
  cases h
  exact L.routine (v := .reverted _) trivial e.trace

theorem idles_useGas (c : Contract) (amount : UInt64) :
    L.Idle (useGas c amount) := by
  intro e
  refine .ite (fun _ => L.refl e.trace) fun hlt => .bind (sat_modify.mpr ?_)
  exact L.routine (v := .useGas _ _) (UInt64.not_lt.mp hlt) e.trace

theorem returns_useGas (c : Contract) (amount : UInt64) :
    Returns (fun r => r.2.gas ≤ c.gas) (useGas c amount) := by
  intro e
  refine .ite (fun _ => UInt64.le_refl _) fun hlt => .bind (sat_modify.mpr ?_)
  exact UInt64.sub_le (UInt64.not_lt.mp hlt)

theorem idles_canTransfer (addr : Address) (amount : Int) :
    L.Idle (canTransfer addr amount) :=
  .bind (idles_onDb _) fun _ => .pure _

theorem idles_transfer (sender recipient : Address) (amount : Int) :
    L.Idle (transfer sender recipient amount) :=
  .bind (idles_setDb _) fun _ => idles_setDb _

theorem idles_newContract (caller : ContractRef) (object : Address) (value : Int) (gas : UInt64) :
    L.Idle (newContract caller object value gas) := by
  refine .bind ?_ fun _ => .pure _
  cases caller with
  | contract => exact .pure _
  | accountRef => exact fun e => L.refl e.trace

theorem idles_conclude (snapshot : ℕ) (r : CallResult) :
    L.Idle (conclude snapshot r) := by
  obtain ⟨ret, gas, _ | err⟩ := r
  · exact .pure _
  · exact .bind (idles_revertToSnapshot _) fun _ => .pure _

theorem returns_conclude (snapshot : ℕ) (r : CallResult) :
    Returns (fun r' => r'.2.1 ≤ r.2.1) (conclude snapshot r) := by
  obtain ⟨ret, gas, _ | err⟩ := r
  · exact .pure (UInt64.le_refl _)
  · refine .bind fun _ => .pure ?_
    split_ifs
    · exact UInt64.le_iff_toNat_le.mpr (Nat.zero_le _)
    · exact UInt64.le_refl _

theorem returns_newContract (caller : ContractRef) (object : Address) (value : Int)
    (gas : UInt64) : Returns (fun c => c.gas = gas) (newContract caller object value gas) :=
  .bind fun _ => .pure rfl

theorem budget_runPrecompiledContract (p : Precompiled) (input : Bytes) (gas : UInt64) :
    L.Budget gas (fun r : CallResult => r.2.1)
      (Pure.pure (runPrecompiledContract p input gas)) := by
  refine .pure ?_
  unfold runPrecompiledContract
  split_ifs with hlt
  · exact UInt64.le_iff_toNat_le.mpr (Nat.zero_le _)
  · exact UInt64.sub_le (UInt64.not_lt.mp hlt)

theorem budget_execute {run : Runner} (hrun : run.Within L) {c : Contract} {gas : UInt64}
    (hc : c.gas = gas) (hash : Hash) (code input : Bytes) (readOnly : Bool) :
    L.Budget gas (fun r : CallResult => r.2.1)
      (execute run (c.setCallCode hash code) input readOnly) :=
  hc ▸ (hrun (c.setCallCode hash code) input readOnly).last (fun _ => .pure _)
    fun _ => .pure (UInt64.le_refl _)

end Evm

end Budgets

/-! ### Calls and creations -/

namespace Evm

variable {env : Env} {L : CallLaw}

theorem idles_resolveCode (addr : Address) : L.Idle (resolveCode env addr) := by
  refine .bind (idles_onDb _) fun code => .ite ?_ (.pure _)
  cases parseDelegation code with
  | some target => exact idles_onDb _
  | none => exact .pure _

theorem idles_resolveCodeHash (addr : Address) :
    L.Idle (resolveCodeHash env addr) := by
  refine .ite (.bind (idles_onDb _) fun code => ?_) (idles_onDb _)
  cases parseDelegation code with
  | some target => exact idles_onDb _
  | none => exact idles_onDb _

section Frames

variable {run : Runner} (hrun : run.Within L)
include hrun

variable (caller : ContractRef) (addr : Address) (code input : Bytes) (gas : UInt64) (value : Int)

theorem budget_callCodeAt :
    L.Budget gas (fun r => r.2.1) (callCodeAt env run caller addr input gas value) := by
  unfold callCodeAt
  cases env.precompile addr with
  | some p => exact budget_runPrecompiledContract p input gas
  | none =>
    exact .first (idles_resolveCode addr) fun _ => .ite (.pure (UInt64.le_refl _))
      (.first_of (idles_newContract _ _ _ _) (returns_newContract _ _ _ _) fun c hc =>
        .first (idles_resolveCodeHash addr) fun _ => budget_execute hrun hc _ _ _ _)

theorem budget_call : L.Budget gas (fun r => r.2.1) (call env run caller addr input gas value) := by
  refine .first .get fun _ => .ite (.pure (UInt64.le_refl _))
    (.first (.ite (.pure _) (idles_canTransfer _ _)) fun _ => .ite (.pure (UInt64.le_refl _))
      (.first .get fun _ => .first (idles_onDb _) fun _ => .ite (.pure (UInt64.le_refl _))
        (.last ?_ (fun _ => idles_conclude _ _) fun _ => returns_conclude _ _)))
  exact .first (.ite (.pure _) (idles_createAccount _ _)) fun _ =>
    .first (idles_transfer _ _ _) fun _ => budget_callCodeAt hrun _ _ _ _ _

theorem budget_codeBody {contract : EStateM Fault Evm Contract}
    (hc : L.Idle contract) (hgas : Returns (fun c => c.gas = gas) contract) :
    L.Budget gas (fun r => r.2.1) (codeBody env run addr input gas contract) := by
  unfold codeBody
  cases env.precompile addr with
  | some p => exact budget_runPrecompiledContract p input gas
  | none =>
    exact .first_of hc hgas fun c hc => .first (idles_resolveCodeHash addr) fun _ =>
      .first (idles_resolveCode addr) fun _ => budget_execute hrun hc _ _ _ _

theorem budget_callCode :
    L.Budget gas (fun r => r.2.1) (callCode env run caller addr input gas value) :=
  .first .get fun _ => .ite (.pure (UInt64.le_refl _))
    (.first (idles_canTransfer _ _) fun _ => .ite (.pure (UInt64.le_refl _))
      (.first .get fun _ => .last
        (budget_codeBody hrun _ _ _ (idles_newContract _ _ _ _) (returns_newContract _ _ _ _))
        (fun _ => idles_conclude _ _) fun _ => returns_conclude _ _))

theorem budget_delegateCall :
    L.Budget gas (fun r => r.2.1) (delegateCall env run caller addr input gas) := by
  have hnew : L.Idle (newDelegate caller gas)
      ∧ Returns (fun c => c.gas = gas) (newDelegate caller gas) := by
    cases caller with
    | accountRef => exact ⟨.throw L.assertion, .throw _⟩
    | contract =>
      exact ⟨.bind (idles_newContract _ _ _ _) fun _ => .pure _,
        .bind_of (returns_newContract _ _ _ _) fun _ hc => .pure hc⟩
  exact .first .get fun _ => .ite (.pure (UInt64.le_refl _)) (.first .get fun _ => .last
    (budget_codeBody hrun _ _ _ hnew.1 hnew.2) (fun _ => idles_conclude _ _)
    fun _ => returns_conclude _ _)

theorem budget_staticCall :
    L.Budget gas (fun r => r.2.1) (staticCall env run caller addr input gas) := by
  refine .first .get fun _ => .ite (.pure (UInt64.le_refl _)) (.first .get fun _ => .last ?_
    (fun _ => idles_conclude _ _) fun _ => returns_conclude _ _)
  refine .first (idles_setDb _) fun _ => ?_
  cases env.precompile addr with
  | some p => exact budget_runPrecompiledContract p input gas
  | none =>
    exact .first_of (idles_newContract _ _ _ _) (returns_newContract _ _ _ _) fun c hc =>
      .first (idles_onDb _) fun _ => .first (idles_onDb _) fun _ => budget_execute hrun hc _ _ _ _

omit hrun in
theorem idles_finishCreate (address : Address) (snapshot : ℕ) (ret : Bytes) (err : Option VmErr)
    (c : Contract) : L.Idle (finishCreate env address snapshot ret err c) := by
  refine .bind (.ite ?_ (.pure _)) fun r => .bind ?_ fun _ => .pure _
  · exact .bind (idles_useGas _ _) fun _ => .ite (.bind (idles_setDb _) fun _ => .pure _) (.pure _)
  · cases r.1 with
    | none => exact .pure _
    | some err =>
      refine .ite (.bind (idles_revertToSnapshot _) fun _ => .ite ?_ (.pure _)) (.pure _)
      exact .bind (idles_useGas _ _) fun _ => .pure _

omit hrun in
theorem returns_finishCreate (address : Address) (snapshot : ℕ) (ret : Bytes)
    (err : Option VmErr) (c : Contract) :
    Returns (fun r => r.2.2.1 ≤ c.gas) (finishCreate env address snapshot ret err c) := by
  have hstore : Returns (fun r => r.2.gas ≤ c.gas) (storeCode address ret c) :=
    .bind_of (returns_useGas _ _) fun _ h => .ite (.bind fun _ => .pure h) (.pure h)
  refine .bind_of (P := fun r => r.2.gas ≤ c.gas) (.ite hstore (.pure (UInt64.le_refl _)))
    fun r hr => .bind_of (P := fun c' => c'.gas ≤ c.gas) ?_ fun _ h => .pure h
  cases r.1 with
  | none => exact .pure hr
  | some err =>
    refine .ite (.bind fun _ => .ite ?_ (.pure hr)) (.pure hr)
    exact .bind_of (returns_useGas _ _) fun _ h => .pure (UInt64.le_trans h hr)

theorem budget_createAt (codeHash : Hash) (gas : UInt64) (value : Int) (address : Address) :
    L.Budget gas (fun r => r.2.2.1) (createAt env run caller code codeHash gas value address) := by
  refine .first .get fun _ => .ite (.pure (UInt64.le_refl _))
    (.first (idles_canTransfer _ _) fun _ => .ite (.pure (UInt64.le_refl _))
      (.first ?_ fun _ => .first ?_ fun _ => .ite (.pure ?_) (.first .get fun _ => ?_)))
  · exact .bind (idles_onDb _) fun _ => .bind (idles_setDb _) fun _ =>
      .ite (idles_setDb _) (.pure _)
  · exact .bind (idles_onDb _) fun _ => .bind (idles_onDb _) fun _ => .pure _
  · exact UInt64.le_iff_toNat_le.mpr (Nat.zero_le _)
  · refine .first (idles_createAccount _ _) fun _ => .first (.ite (idles_setDb _) (.pure _))
      fun _ => .first (idles_transfer _ _ _) fun _ =>
        .first_of (idles_newContract _ _ _ _) (returns_newContract _ _ _ _) fun c hc => ?_
    exact hc ▸ (hrun (c.setCallCode codeHash code) [] false).last
      (fun _ => idles_finishCreate _ _ _ _ _) fun _ => returns_finishCreate _ _ _ _ _

theorem budget_create :
    L.Budget gas (fun r => r.2.2.1) (create env run caller code gas value) :=
  .first (idles_onDb _) fun _ => budget_createAt hrun _ _ _ _ _ _

theorem budget_create2 (endowment : Int) (salt : Word) :
    L.Budget gas (fun r => r.2.2.1) (create2 env run caller code gas endowment salt) :=
  budget_createAt hrun _ _ _ _ _ _

end Frames

end Evm

/-! ## Runs -/

variable {P : Fault → Prop}

omit [Keccak] in
theorem Evm.stops_inFrame {α : Type} {m : EStateM Fault Frame α} (h : Stops P m) (c : Contract) :
    Stops P (inFrame c m) := by
  intro s
  have hs := h { evm := s, contract := c }
  unfold Sat at hs ⊢
  unfold inFrame
  cases hm : m { evm := s, contract := c } with
  | ok a f => trivial
  | error e f =>
    rw [hm] at hs
    exact hs

omit [Keccak] in
/-- A frame stops only where its loop does. -/
theorem Evm.safe_runWith {loop : EStateM Fault Frame Outcome} (h : Stops P loop) :
    (runWith loop).Safe P :=
  fun _ _ _ => .bind .get fun _ => .bind (.modify _) fun _ =>
    .bind (.ite (.pure _) (stops_inFrame h _)) fun _ => .bind (.modify _) fun _ => .pure _

/-- **Where one turn of the loop stops only for reasons in `P`**, so does
every run. -/
theorem Frame.stops_loop {env : Env} (hP : P .outOfFuel)
    (hstep : ∀ run : Runner, run.Safe P → Stops P (step env run)) (fuel : ℕ) :
    Stops P (loop env fuel) := by
  induction fuel with
  | zero => exact .throw hP
  | succ fuel ih =>
    refine .bind (hstep _ (Evm.safe_runWith ih)) fun out => ?_
    obtain ⟨res, _ | err⟩ := out
    · exact .bind (.zoom (.modify _)) fun _ => ih
    · cases err <;> exact .pure _
