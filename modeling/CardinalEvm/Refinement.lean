import CardinalEvm.CallRefinement

/-!
# The interpreter runs call trees

Every run of the interpreter, on any bytecode, is a run in the sense of
`Runs` (`Evm.run_refines`). The proof is by induction on the number of
steps a run may take: what runs the frames further down `Refines` call
trees by induction, the calls and creations then open and close frames,
and every other instruction does one of the things a frame can do.
-/

variable [Keccak]

open StateDB

/-! ## Instructions -/

section Frames

variable {env : Env} {run : Runner} {s t : Frame}

theorem Keeps.runs {α : Type} {m : EStateM Fault Frame α} (hm : Keeps Frame.Quiet m)
    (h : Runs env .running s t) :
    Sat m t (fun _ t' => Runs env .running s t') (fun _ t' => Runs env .crashed s t') :=
  (hm t).mono (fun _ _ hq => h.quiet hq) (fun _ _ hq => .stop _ (h.quiet hq))

namespace Frame

omit [Keccak] in
theorem sat_onEvm {α : Type} {m : EStateM Fault Evm α} {Q : α → Frame → Prop}
    {E : Fault → Frame → Prop} :
    Sat (onEvm m) s Q E ↔ Sat m s.evm (fun a e => Q a { s with evm := e })
      (fun x e => E x { s with evm := e }) := sat_zoom

theorem keeps_callOperands (withValue : Bool) : Keeps Quiet (callOperands withValue) :=
  keeps_onRegs _

theorem keeps_createOperands (withSalt : Bool) : Keeps Quiet (createOperands withSalt) :=
  keeps_onRegs _

theorem keeps_concludeCall (retOffset retSize : Word) (r : CallResult) :
    Keeps Quiet (concludeCall retOffset retSize r) :=
  .bind (keeps_onRegs _) fun _ => .bind (.ite (keeps_onRegs _) (.pure _)) fun _ =>
    .bind (keeps_returnGas _) fun _ => .bind (keeps_setReturnData _) fun _ => .pure _

theorem keeps_concludeCreate (w : Word) (r : Evm.CreateResult) :
    Keeps Quiet (concludeCreate w r) :=
  .bind (keeps_onRegs _) fun _ => .bind (keeps_returnGas _) fun _ => .ite
    (.bind (keeps_setReturnData _) fun _ => .pure _)
    (.bind (keeps_setReturnData _) fun _ => .pure _)

/-- A call in a frame, with what the instruction does afterwards. -/
theorem call_runs (o : Opening) {m : EStateM Fault Evm CallResult} (h : Runs env .running s t)
    (ha : o.Allowed t.evm.readOnly t.evm.depth)
    (hm : Sat m t.evm
      (fun r e' => Called env t.contract.self o r.2.1 r.2.2 t.evm e')
      (fun _ e' => CallCrashed env t.contract.self o t.evm e'))
    (retOffset retSize : Word) :
    Sat (onEvm m >>= concludeCall retOffset retSize) t (fun _ s' => Runs env .running s s')
      (fun _ s' => Runs env .crashed s s') := by
  refine .bind (sat_onEvm.mpr (hm.mono (fun r e' hr => ?_) (fun _ e' hr => h.trans (hr.runs ha))))
  exact (keeps_concludeCall _ _ r).runs (h.trans (hr.runs ha))

/-- A creation in a frame. -/
theorem create_runs {value : Nat} {m : EStateM Fault Evm Evm.CreateResult}
    (h : Runs env .running s t) (hro : t.evm.readOnly = false)
    (hm : Sat m t.evm
      (fun r e' => ∃ addr, Created env t.contract.self addr value r.2.2.1 r.2.2.2 t.evm e')
      (fun _ e' => ∃ addr, CreateCrashed env t.contract.self addr value t.evm e'))
    (w : Evm.CreateResult → Word) :
    Sat (onEvm m >>= fun r => concludeCreate (w r) r) t (fun _ s' => Runs env .running s s')
      (fun _ s' => Runs env .crashed s s') := by
  have ha : ∀ addr, (Opening.create addr value).Allowed t.evm.readOnly t.evm.depth :=
    fun _ => ⟨hro, fun _ => Int.natCast_nonneg value⟩
  refine .bind (sat_onEvm.mpr (hm.mono (fun r e' hr => ?_) (fun _ e' hr => ?_)))
  · obtain ⟨addr, hr⟩ := hr
    exact (keeps_concludeCreate _ r).runs (h.trans (hr.runs (ha addr)))
  · obtain ⟨addr, hr⟩ := hr
    exact h.trans (hr.runs (ha addr))

end Frame

open Frame

/-- **The instructions that run other frames.** -/
theorem CallFn.exec_runs (hrun : Refines env run) (f : CallFn) (s : Frame) :
    Sat (f.exec env run) s (fun _ s' => Runs env .running s s')
      (fun _ s' => Runs env .crashed s s') := by
  have hstop : ∀ (_ : Fault) (s₁ : Frame), s.Quiet s₁ → Runs env .crashed s s₁ :=
    fun _ _ hq => .stop _ (.of_quiet hq)
  -- the creations agree in all but how the address and the gas are computed
  have hcreate : ∀ (withSalt : Bool) (gas : Frame → UInt64)
      (m : Frame → UInt64 → Word × Bytes × Word → EStateM Fault Evm Evm.CreateResult)
      (w : Evm.CreateResult → Word),
      (∀ s₁ g p, Sat (m s₁ g p) s₁.evm
        (fun r e' => ∃ addr, Created env s₁.contract.self addr p.1.toNat r.2.2.1 r.2.2.2 s₁.evm e')
        (fun _ e' => ∃ addr, CreateCrashed env s₁.contract.self addr p.1.toNat s₁.evm e')) →
      Sat (do
        if (← get).evm.readOnly then pure ([], some .writeProtection)
        else do
          let p ← createOperands withSalt
          let s ← get
          let g := gas s
          let _ ← useGas g
          let s ← get
          let r ← onEvm (m s g p)
          concludeCreate (w r) r) s
        (fun _ s' => Runs env .running s s') (fun _ s' => Runs env .crashed s s') := by
    intro withSalt gas m w hm
    refine .bind (sat_get.mpr (.ite (fun _ => .refl s) (fun hro => ?_)))
    refine (keeps_createOperands withSalt).sat_bind (refl_of _ s) (fun p s₁ h₁ => ?_) hstop
    refine .bind (sat_get.mpr ((keeps_useGas (gas s₁)).sat_bind h₁ (fun _ s₂ h₂ => ?_) hstop))
    refine .bind (sat_get.mpr ?_)
    exact create_runs (.of_quiet h₂) (h₂.evm.readOnly.trans (by simpa using hro)) (hm s₂ _ p) w
  cases f with
  | opCreate =>
    exact hcreate false _ (fun s g p => Evm.create env run (.contract s.contract) p.2.1 g p.1.toNat)
      (fun r => _) (fun s₁ g p => (Evm.create_created hrun (.contract s₁.contract) p.2.1 g _).mono
        (fun _ _ h => ⟨_, h⟩) (fun _ _ h => ⟨_, h⟩))
  | opCreate2 =>
    exact hcreate true _
      (fun s g p => Evm.create2 env run (.contract s.contract) p.2.1 g p.1.toNat p.2.2)
      (fun r => _)
      (fun s₁ g p => (Evm.create2_created hrun (.contract s₁.contract) p.2.1 g _ _).mono
        (fun _ _ h => ⟨_, h⟩) (fun _ _ h => ⟨_, h⟩))
  | opCall =>
    refine (keeps_callOperands true).sat_bind (refl_of _ s) (fun p s₁ h₁ => ?_) hstop
    obtain ⟨addr, value, args, retOffset, retSize⟩ := p
    refine .bind (sat_get.mpr (.ite (fun _ => .of_quiet h₁) (fun hro => ?_)))
    have ha : (Opening.call addr value.toNat).Allowed s₁.evm.readOnly s₁.evm.depth := by
      refine ⟨fun h => ?_, fun _ => Int.natCast_nonneg _⟩
      simp only [h, Bool.true_and, decide_eq_true_eq, not_not] at hro
      rw [hro]
      rfl
    exact call_runs (.call addr value.toNat) (.of_quiet h₁) ha
      (Evm.call_called hrun (.contract s₁.contract) addr args _ _) _ _
  | opCallCode =>
    refine (keeps_callOperands true).sat_bind (refl_of _ s) (fun p s₁ h₁ => .bind ?_) hstop
    exact call_runs .code (.of_quiet h₁) trivial
      (Evm.callCode_called hrun (.contract s₁.contract) _ _ _ _) _ _
  | opDelegateCall =>
    refine (keeps_callOperands false).sat_bind (refl_of _ s) (fun p s₁ h₁ => .bind ?_) hstop
    exact call_runs .code (.of_quiet h₁) trivial
      (Evm.delegateCall_called hrun (.contract s₁.contract) _ _ _) _ _
  | opStaticCall =>
    refine (keeps_callOperands false).sat_bind (refl_of _ s) (fun p s₁ h₁ => .bind ?_) hstop
    exact call_runs (.static p.1) (.of_quiet h₁) trivial
      (Evm.staticCall_called hrun (.contract s₁.contract) _ _ _) _ _

/-! ### Jumps -/

theorem Frame.jumpTo_runs (h : Runs env .running s t) (hd : ¬ t.contract.Designator)
    (pos : Word) :
    Sat (jumpTo pos) t (fun _ t' => Runs env .running s t')
      (fun _ t' => Runs env .crashed s t') := by
  have hj : Runs env .running s (t.jumped pos) := .jump pos h hd
  refine .bind (sat_validJumpdest (fun b _ => ?_) (.stop _ hj))
  exact .ite (fun _ => Keeps.runs (.bind (keeps_onRegs _) fun _ => .pure _) hj) (fun _ => hj)

/-- Jumps are runs of the frame. -/
theorem JumpFn.exec_runs (f : JumpFn) (hd : ¬ s.contract.Designator) :
    Sat (f.exec env) s (fun _ s' => Runs env .running s s')
      (fun _ s' => Runs env .crashed s s') := by
  have hstop : ∀ (_ : Fault) (s₁ : Frame), s.Quiet s₁ → Runs env .crashed s s₁ :=
    fun _ _ hq => .stop _ (.of_quiet hq)
  have habort : Keeps Frame.Quiet (aborted env) :=
    fun _ => .of_evm ⟨.refl _, rfl, rfl, rfl, .refl _⟩
  have hd' : ∀ {s₁ : Frame}, s.Quiet s₁ → ¬ s₁.contract.Designator := fun hq h =>
    hd ((congrArg List.head? hq.code).symm.trans h)
  cases f with
  | opJump =>
    refine habort.sat_bind (refl_of _ s) (fun _ s₁ h₁ => ?_) hstop
    refine .ite (fun _ => .of_quiet h₁) (fun _ => ?_)
    refine (keeps_onRegs _).sat_bind h₁ (fun pos s₂ h₂ => ?_) hstop
    exact jumpTo_runs (.of_quiet h₂) (hd' h₂) pos
  | opJumpi =>
    refine habort.sat_bind (refl_of _ s) (fun _ s₁ h₁ => ?_) hstop
    refine .ite (fun _ => .of_quiet h₁) (fun _ => ?_)
    refine (keeps_onRegs _).sat_bind h₁ (fun pos s₂ h₂ => ?_) hstop
    refine (keeps_onRegs _).sat_bind h₂ (fun cond s₃ h₃ => ?_) hstop
    exact .ite (fun _ => jumpTo_runs (.of_quiet h₃) (hd' h₃) pos) (fun _ => .of_quiet h₃)

/-! ### Paying for an instruction -/

/-- A quiet change that leaves the stack and the state alone. -/
structure Frame.Idle (s t : Frame) : Prop where
  quiet : s.Quiet t
  stack : t.regs.stack = s.regs.stack
  statedb : t.evm.statedb = s.evm.statedb

instance : IsPreorder Frame Frame.Idle where
  refl s := ⟨refl_of Frame.Quiet s, rfl, rfl⟩
  trans _ _ _ h h' := ⟨trans_of Frame.Quiet h.quiet h'.quiet, h'.stack.trans h.stack,
    h'.statedb.trans h.statedb⟩

theorem Frame.keeps_idle_useGas (amount : UInt64) : Keeps Idle (useGas amount) := by
  intro s
  have hq := keeps_useGas amount s
  revert hq
  unfold useGas
  rw [sat_modifyGet, sat_modifyGet]
  split_ifs <;> exact fun hq => ⟨hq, rfl, rfl⟩

theorem Frame.keeps_idle_resize (n : UInt64) :
    Keeps Idle (onRegs (modify (fun r => { r with memory := r.memory.resize n }))) :=
  fun _ => ⟨.of_evm (refl_of _ _), rfl, rfl⟩

/-- **An instruction has been paid for**, and is about to be executed. -/
inductive Primed (env : Env) (o : Operation) (s s' : Frame) : Prop
  | constant : o.dynamicGas = none → s.Quiet s' → Primed env o s s'
  | dynamic {g : GasFn} {t : Frame} {n cost : UInt64} {st : GasSt} : o.dynamicGas = some g →
    s.Quiet t → g.gas (t.gasScope env) n t.gasSt = .ok cost st →
    Frame.Idle (t.putGasSt st) s' → Primed env o s s'

/-- Where the gas function of `SSTORE` can stand. -/
def StoresHere (env : Env) (o : Operation) : Prop :=
  ∀ g, o.dynamicGas = some g → g.kind = .sstore →
    (env.jumpTable OpCode.SSTORE).dynamicGas = some g

variable {o : Operation} {r : RegsDb} {E : Fault → RegsDb → Prop} {s' : Frame}

/-- **What comes before an instruction** pays for it, or ends the frame. -/
theorem Frame.prepare_primed (ho : StoresHere env o) (s : Frame) :
    Sat (prepare env o) s
      (fun r s' => (r = none → Primed env o s s')
        ∧ ∀ x, r = some x → Runs env .failed s s' ∧ x.ofCode ∧ x ≠ .stopToken)
      (fun _ s' => Runs env .crashed s s') := by
  have hfail : ∀ {s' : Frame} {x : VmErr}, Runs env .failed s s' →
      x.ofCode ∧ x ≠ .stopToken →
      (some x = none → Primed env o s s')
        ∧ ∀ y, some x = some y → Runs env .failed s s' ∧ y.ofCode ∧ y ≠ .stopToken :=
    fun h hx => ⟨by simp, fun y hy => ⟨h, Option.some.inj hy ▸ hx⟩⟩
  refine .bind
    (sat_get.mpr (.ite (fun _ => hfail (.stop _ (.refl s)) ⟨rfl, by simp⟩) (fun _ => ?_)))
  refine .ite (fun _ => hfail (.stop _ (.refl s)) ⟨rfl, by simp⟩) (fun _ => ?_)
  refine (keeps_useGas o.constantGas).sat_bind (refl_of _ s) (fun paid s₁ h₁ => ?_)
    (fun _ s₁ h₁ => .stop _ (.of_quiet h₁))
  refine .ite (fun _ => hfail (.stop _ (.of_quiet h₁)) ⟨rfl, by simp⟩) (fun _ => ?_)
  cases hg : o.dynamicGas with
  | none => exact ⟨fun _ => .constant hg h₁, by simp⟩
  | some g =>
    refine .bind (sat_get.mpr ?_)
    -- whatever the gas function did, a frame that does not go on has failed or crashed
    have hend : ∀ {n : UInt64} {st : GasSt} {u : Frame} {b : Status}, b ≠ .running →
        s₁.GasEnds env g n st → (s₁.putGasSt st).Quiet u → Runs env b s u :=
      fun hb hst hq => .gasFailed (.of_quiet h₁) hb (ho g hg) hst hq
    cases o.memoryNeeded s₁.regs.stack with
    | error x => exact .stop _ (.of_quiet h₁)
    | ok need =>
      cases need with
      | none => exact hfail (.stop _ (.of_quiet h₁)) ⟨rfl, by simp⟩
      | some n =>
        refine .bind (sat_dynamicCost (fun cost st hst => ?_)
          (fun _ st hst => hfail (hend (by decide) (.inr ⟨_, hst⟩) (refl_of _ _)) ⟨rfl, by simp⟩)
          (fun _ st hst => hend (by decide) (.inr ⟨_, hst⟩) (refl_of _ _)))
        refine (keeps_idle_useGas cost).sat_bind (refl_of Idle (s₁.putGasSt st))
          (fun paid s₂ h₂ => ?_)
          (fun _ s₂ h₂ => hend (by decide) (.of_ok hst) h₂.quiet)
        refine .ite (fun _ => hfail (hend (by decide) (.of_ok hst) h₂.quiet) ⟨rfl, by simp⟩)
          (fun _ => ?_)
        refine (keeps_idle_resize n).sat_bind h₂ (fun _ s₃ h₃ => ?_)
          (fun _ s₃ h₃ => hend (by decide) (.of_ok hst) h₃.quiet)
        exact ⟨fun _ => .dynamic hg h₁ hst h₃, by simp⟩

namespace Primed

variable {o : Operation} {s' u : Frame}

/-- Paying is quiet, but for stores and self-destructions. -/
theorem quiet (h : Primed env o s s') (hs : o.gasKind ≠ .sstore) (hd : o.gasKind ≠ .selfdestruct) :
    s.Quiet s' := by
  cases h with
  | constant _ hq => exact hq
  | @dynamic g _ _ _ _ hg hq hst hi =>
    have hk : o.gasKind = g.kind := by
      unfold Operation.gasKind
      rw [hg]
      rfl
    rw [hk] at hs hd
    have hgas := ((GasFn.keeps_quiet hs hd _ _) _).of_ok hst
    exact trans_of Frame.Quiet hq (trans_of Frame.Quiet (.putGasSt hgas) hi.quiet)

/-- An operation of a kind of its own has a gas function. -/
theorem exists_gas (h : Primed env o s s') (hk : o.gasKind ≠ .quiet) :
    ∃ g t n cost st, o.dynamicGas = some g ∧ g.kind = o.gasKind ∧ s.Quiet t
      ∧ g.gas (t.gasScope env) n t.gasSt = .ok cost st ∧ Frame.Idle (t.putGasSt st) s' := by
  unfold Operation.gasKind at hk ⊢
  cases h with
  | constant hg _ =>
    rw [hg] at hk
    exact absurd rfl hk
  | dynamic hg hq hst hi => exact ⟨_, _, _, _, _, hg, by rw [hg]; rfl, hq, hst, hi⟩

/-- A frame that does not go on after paying. -/
theorem fails (h : Primed env o s s') (ho : StoresHere env o) (hq : s'.Quiet u) {b : Status}
    (hb : b ≠ .running) : Runs env b s u := by
  cases h with
  | constant _ hq' => exact .stop _ (.of_quiet (trans_of Frame.Quiet hq' hq))
  | dynamic hg hq' hst hi =>
    exact .gasFailed (.of_quiet hq') hb (ho _ hg) (.of_ok hst) (trans_of Frame.Quiet hi.quiet hq)

end Primed

/-! ### Writes -/

omit [Keccak] in
theorem RegsDb.sat_pop {Q : Word → RegsDb → Prop}
    (hQ : ∀ w ws, r.regs.stack = w :: ws → Q w { r with regs := { r.regs with stack := ws } })
    (hE : E .stack r) : Sat (onRegs Regs.pop) r Q E :=
  sat_zoom.mpr (Regs.sat_pop hQ fun _ => hE)

omit [Keccak] in
theorem RegsDb.sat_setDb {f : StateDB → Option StateDB} {Q : Unit → RegsDb → Prop}
    (hQ : ∀ d, f r.statedb = some d → Q () { r with statedb := d })
    (hE : E .nil r) : Sat (setDb f) r Q E := by
  refine sat_attempt (fun _ r' h => ?_) (fun _ => hE)
  obtain ⟨d, hd, h⟩ := Option.map_eq_some_iff.mp h
  obtain rfl : { r with statedb := d } = r' := congrArg Prod.snd h
  exact hQ d hd

omit [Keccak] in
@[simp] theorem RegsDb.sat_onDb {α : Type} {f : StateDB → α × StateDB} {Q : α → RegsDb → Prop} :
    Sat (onDb f) r Q E ↔ Q (f r.statedb).1 { r with statedb := (f r.statedb).2 } := Iff.rfl

open RegsDb in
/-- **The execution functions that write.** -/
theorem WriteFn.exec_applies (f : WriteFn) {sc : Scope} (hro : sc.readOnly = false) (r : RegsDb) :
    Sat (f.exec sc) r
      (fun out r' => ∃ x y, (f = .opSstore → ∃ ws, r.regs.stack = x :: y :: ws)
        ∧ out.2 ≠ some .writeProtection
        ∧ f.apply sc.contract.self x y r.statedb = some r'.statedb)
      (fun _ r' => r'.statedb = r.statedb) := by
  unfold WriteFn.exec
  rw [if_neg (by simp [hro])]
  cases f with
  | opSstore =>
    refine .bind (sat_pop (fun x ws hx => .bind (sat_pop (fun y ws' hy => ?_) rfl)) rfl)
    refine .bind (sat_setDb (fun d hd => ?_) rfl)
    exact ⟨x, y, fun _ => ⟨ws', by rw [hx]; exact congrArg _ hy⟩, by simp, hd⟩
  | opTstore =>
    refine .bind (sat_pop (fun x ws hx => .bind (sat_pop (fun y ws' hy => ?_) rfl)) rfl)
    refine .bind (sat_setDb (fun d hd => ?_) rfl)
    exact ⟨x, y, by simp, by simp, hd⟩
  | opSelfdestruct | opSelfdestruct6780 =>
    refine .bind (sat_pop (fun x ws hx => .bind (sat_onDb.mpr ?_)) rfl)
    exact ⟨x, 0, by simp, by simp, rfl⟩

/-! ## One turn of the loop -/

/-- **How a turn of the loop ended.** -/
structure StepEnds (env : Env) (s : Frame) (out : Outcome) (s' : Frame) : Prop where
  runs : ∃ b, Runs env b s s' ∧ b ≠ .crashed
    ∧ (out.2 = none ∨ out.2 = some .stopToken → b = .running)
  ofCode : out.OfCode

theorem StepEnds.of_running {out : Outcome} (h : Runs env .running s s') (ho : out.OfCode) :
    StepEnds env s out s' :=
  ⟨⟨.running, h, by decide, fun _ => rfl⟩, ho⟩

/-- A program that only goes on, with what it returns. -/
theorem Sat.stepEnds {m : EStateM Fault Frame Outcome}
    (h : Sat m t (fun _ s' => Runs env .running s s') (fun _ s' => Runs env .crashed s s'))
    (hm : Returns Outcome.OfCode m) :
    Sat m t (fun out s' => StepEnds env s out s') (fun _ s' => Runs env .crashed s s') :=
  (h.and (hm t)).mono (fun _ _ h => .of_running h.1 h.2) (fun _ _ h => h.1)

/-- **A write**, after it has been paid for. -/
theorem WriteFn.exec_ends {op : UInt8} {f : WriteFn} (hop : env.jumpTable op = o)
    (hfits : o.Fits op) (ho : StoresHere env o) (hp : Primed env o s s') (hx : o.execute = .write f)
    :
    Sat (ExecFn.exec env run (.write f)) s' (fun out t => StepEnds env s out t)
      (fun _ t => Runs env .crashed s t) := by
  have hentry : (env.jumpTable op).execute = .write f := by rw [hop, hx]
  have hkind : o.gasKind = (ExecFn.write f).kind := by
    rw [← hx]
    exact hfits.gasKind_eq (by rw [hx]; exact fun h => nomatch h)
  refine .bind (sat_get.mpr (.bind (sat_zoom.mpr ?_)))
  by_cases hro : s'.evm.readOnly = true
  · unfold WriteFn.exec
    rw [if_pos (by exact hro)]
    exact ⟨⟨.failed, hp.fails ho (refl_of _ s') (by decide), by decide, by simp⟩,
      Outcome.ofCode_some _ rfl⟩
  · have hro' : s'.evm.readOnly = false := by simpa using hro
    refine ((f.exec_applies hro' _).and ((f.does_exec _).returns _)).mono (fun out r h => ?_)
      (fun _ r h => ?_)
    · obtain ⟨⟨x, y, hst, hne, hd⟩, hof⟩ := h
      refine .bind (.ite (fun hprot => ?_) fun _ => sat_modify.mpr (.of_running ?_ hof))
      · exact absurd hprot hne
      -- the registers change as well, quietly
      suffices hrun : Runs env .running s (s'.wrote f r.statedb) from
        hrun.quiet (.of_evm (refl_of _ _))
      cases f with
      | opTstore =>
        have hq := hp.quiet (by rw [hkind]; decide) (by rw [hkind]; decide)
        exact .write .opTstore x y (.of_quiet hq) hentry (by decide) hro' hd
      | opSelfdestruct | opSelfdestruct6780 =>
        obtain ⟨g, t, n, cost, st, -, hk, hq, hgas, hi⟩ := hp.exists_gas (by rw [hkind]; decide)
        have hro₁ : t.evm.readOnly = false := hi.quiet.evm.readOnly.symm.trans hro'
        have hpaid : Runs env .running s s' :=
          (Runs.selfdestruct (.of_quiet hq) (hk.trans hkind) hgas hro₁).quiet hi.quiet
        exact .write _ x y hpaid hentry (by decide) hro' hd
      | opSstore =>
        obtain ⟨g, t, n, cost, st, hg, hk, hq, hgas, hi⟩ := hp.exists_gas (by rw [hkind]; decide)
        have hro₁ : t.evm.readOnly = false := hi.quiet.evm.readOnly.symm.trans hro'
        obtain ⟨ws, hstack⟩ := hst rfl
        have hstored : Runs env .running s ((t.putGasSt st).withDb r.statedb) := by
          refine .sstore (.of_quiet hq) (ho g hg (hk.trans hkind)) (hi.stack.symm.trans hstack)
            hgas hro₁ ?_
          rw [← hd]
          show st.statedb.setState t.contract.self x y
            = s'.evm.statedb.setState s'.contract.self x y
          rw [show s'.evm.statedb = st.statedb from hi.statedb,
            show s'.contract.self = t.contract.self from hi.quiet.self]
        exact hstored.quiet ⟨⟨.refl _, hi.quiet.evm.depth, hi.quiet.evm.readOnly,
          hi.quiet.evm.jumpdests, hi.quiet.evm.trace⟩, hi.quiet.self, hi.quiet.code,
          hi.quiet.codeHash, hi.quiet.analysis⟩
    · refine hp.fails ho (.of_evm ?_) (by decide)
      rw [h.1]
      exact refl_of _ _

/-- **An instruction**, after it has been paid for. -/
theorem ExecFn.exec_ends (hrun : Refines env run) {op : UInt8} (hop : env.jumpTable op = o)
    (hfits : o.Fits op) (ho : StoresHere env o) (hp : Primed env o s s')
    (hu : o.execute ≠ .scope .opUndefined) (hd : ¬ s.contract.Designator) :
    Sat (o.execute.exec env run) s' (fun out t => StepEnds env s out t)
      (fun _ t => Runs env .crashed s t) := by
  have hkind : o.gasKind = o.execute.kind := hfits.gasKind_eq hu
  have hquiet : (o.execute.kind ≠ .sstore) → (o.execute.kind ≠ .selfdestruct) → s.Quiet s' :=
    fun h h' => hp.quiet (by rwa [hkind]) (by rwa [hkind])
  have hof : Returns Outcome.OfCode (o.execute.exec env run) := o.execute.does_exec.returns
  cases hx : o.execute with
  | write f => exact WriteFn.exec_ends hop hfits ho hp hx
  | scope f =>
    rw [hx] at hquiet hof
    have hq : s.Quiet s' := hquiet (fun h => nomatch h) (fun h => nomatch h)
    exact Sat.stepEnds (Keeps.runs (.bind .get fun _ => keeps_onRegs _) (.of_quiet hq)) hof
  | opRevert =>
    rw [hx] at hquiet hof
    have hq : s.Quiet s' := hquiet (fun h => nomatch h) (fun h => nomatch h)
    exact Sat.stepEnds (Keeps.runs (.bind (keeps_onRegs _) fun _ =>
      .bind (keeps_setReturnData _) fun _ => .pure _) (.of_quiet hq)) hof
  | read f =>
    rw [hx] at hquiet hof
    have hq : s.Quiet s' := hquiet (fun h => nomatch h) (fun h => nomatch h)
    exact Sat.stepEnds (Keeps.runs (.bind .get fun _ => keeps_onRegsDb (f.keeps_warm _))
      (.of_quiet hq)) hof
  | jump f =>
    rw [hx] at hquiet hof
    have hq : s.Quiet s' := hquiet (fun h => nomatch h) (fun h => nomatch h)
    have hd' : ¬ s'.contract.Designator := fun h =>
      hd ((congrArg List.head? hq.code).symm.trans h)
    exact Sat.stepEnds ((f.exec_runs hd').mono (fun _ _ h => (Runs.of_quiet hq).trans h)
      (fun _ _ h => (Runs.of_quiet hq).trans h)) hof
  | call f =>
    rw [hx] at hquiet hof
    have hq : s.Quiet s' :=
      hquiet (by cases f <;> exact fun h => nomatch h) (by cases f <;> exact fun h => nomatch h)
    exact Sat.stepEnds ((f.exec_runs hrun s').mono (fun _ _ h => (Runs.of_quiet hq).trans h)
      (fun _ _ h => (Runs.of_quiet hq).trans h)) hof

omit [Keccak] in
theorem ScopeFn.opUndefined_fails [Keccak] (sc : Scope) :
    Returns (fun out => out.2 ≠ none ∧ out.2 ≠ some .stopToken ∧ out.OfCode)
      (ScopeFn.opUndefined.exec sc) :=
  .bind fun _ => .bind fun _ => .pure ⟨by simp, by simp, Outcome.ofCode_some _ rfl⟩

omit [Keccak] in
/-- The gas function of `SSTORE` stands nowhere else. -/
theorem Env.storesHere (env : Env) (op : UInt8) : StoresHere env (env.jumpTable op) := by
  intro g hg hk
  have hfits := env.fits_jumpTable op
  have hgk : (env.jumpTable op).gasKind = .sstore := by
    unfold Operation.gasKind
    rw [hg]
    exact hk
  have hop : op = OpCode.SSTORE := by
    obtain h | ⟨-, h⟩ := hfits.gas
    · rw [hgk] at h
      unfold opKind at h
      split_ifs at h with h₁
      exact h₁
    · rw [hgk] at h
      cases h
  rwa [← hop]

/-- **One turn of the loop** is a run. A frame whose code begins with the
byte of a delegation designator does not get past its first turn. -/
theorem Frame.step_ends (hrun : Refines env run) (s : Frame)
    (hd : s.contract.Designator → s.regs.pc = 0) :
    Sat (step env run) s
      (fun out t => StepEnds env s out t ∧ (out.2 = none → ¬ s.contract.Designator))
      (fun _ t => Runs env .crashed s t) := by
  have hfits := env.fits_jumpTable (s.contract.getOp s.regs.pc)
  have ho := env.storesHere (s.contract.getOp s.regs.pc)
  refine .bind (sat_get.mpr (.bind ?_))
  refine (prepare_primed ho s).mono (fun r s' h => ?_)
  cases r with
  | some x =>
    obtain ⟨hfail, hx, hstop⟩ := h.2 x rfl
    exact ⟨⟨⟨.failed, hfail, by decide, by simp [hstop]⟩, Outcome.ofCode_some _ hx⟩, by simp⟩
  | none =>
    have hp := h.1 rfl
    refine .bind ?_
    by_cases hu : (env.jumpTable (s.contract.getOp s.regs.pc)).execute = .scope .opUndefined
    · rw [hu]
      have hkeeps : Keeps Frame.Quiet (ExecFn.exec env run (.scope .opUndefined)) :=
        .bind .get fun _ => keeps_onRegs _
      have hreturns : Returns (fun out => out.2 ≠ none ∧ out.2 ≠ some .stopToken ∧ out.OfCode)
          (ExecFn.exec env run (.scope .opUndefined)) :=
        .bind fun _ => .zoom (ScopeFn.opUndefined_fails _)
      refine ((hkeeps s').and (hreturns s')).mono (fun out t h => ?_)
        (fun _ t h => hp.fails ho h.1 (by decide))
      obtain ⟨hq, hnone, hstop, hof⟩ := h
      obtain ⟨x, hx⟩ := Option.ne_none_iff_exists'.mp hnone
      rw [hx]
      exact ⟨⟨⟨.failed, hp.fails ho hq (by decide), by decide, by simp [hnone, hstop]⟩, hof⟩,
        fun h => absurd h hnone⟩
    · have hd' : ¬ s.contract.Designator := by
        intro hdes
        refine hu (hfits.designator ?_)
        rw [hd hdes]
        show s.contract.code.getD 0 0x00 = 0xef
        rw [List.getD_eq_getElem?_getD, ← List.head?_eq_getElem?,
          show s.contract.code.head? = _ from hdes]
        rfl
      refine (ExecFn.exec_ends hrun rfl hfits ho hp hu hd').mono (fun out t h => ?_)
      obtain ⟨⟨b, hruns, hb, hrunning⟩, hof⟩ := h
      refine (sat_recordCall _ _ t).next fun _ t' hq => ?_
      refine (sat_recordExecuted _ t').next fun _ t'' hq' => ?_
      replace hq := trans_of Frame.Quiet hq hq'
      exact ⟨⟨⟨b, hruns.then_quiet hb hq, hb, hrunning⟩, hof⟩, fun _ => hd'⟩

/-! ## The loop -/

/-- **How the loop of a frame ended.** -/
structure LoopEnds (env : Env) (s : Frame) (out : Outcome) (s' : Frame) : Prop where
  runs : ∃ b, Runs env b s s' ∧ b ≠ .crashed ∧ (out.2 = none → b = .running)
  ofCode : out.OfCode

/-- **The loop is a run of the frame**, if the frames it opens are. -/
theorem Frame.loop_ends (env : Env) (fuel : Nat) (s : Frame)
    (hd : s.contract.Designator → s.regs.pc = 0)
    (hrun : ∀ n < fuel, Refines env (Evm.runWith (loop env n))) :
    Sat (loop env fuel) s (fun out t => LoopEnds env s out t)
      (fun _ t => Runs env .crashed s t) := by
  induction fuel generalizing s with
  | zero => exact .stop _ (.refl s)
  | succ fuel ih =>
    refine (step_ends (hrun fuel (Nat.lt_succ_self fuel)) s hd).next fun out t h => ?_
    obtain ⟨⟨⟨b, hruns, hb, hrunning⟩, hof⟩, hdes⟩ := h
    obtain ⟨res, err⟩ := out
    cases err with
    | none =>
      obtain rfl := hrunning (.inl rfl)
      refine (keeps_onRegs _).sat_bind (refl_of _ t) (fun _ u hq => ?_)
        (fun _ u hq => .stop _ (hruns.quiet hq))
      have hcode : u.contract.code = s.contract.code := hq.code.trans hruns.contract_eq.2.1
      refine (ih u (fun h => absurd ((congrArg List.head? hcode).symm.trans h) (hdes rfl))
        (fun n hn => hrun n (Nat.lt_succ_of_lt hn))).mono (fun out' v h => ?_) (fun _ v h => ?_)
      · obtain ⟨⟨b', hruns', hb', hnone⟩, hof'⟩ := h
        exact ⟨⟨b', (hruns.quiet hq).trans hruns', hb', hnone⟩, hof'⟩
      · exact (hruns.quiet hq).trans h
    | some x =>
      by_cases hx : x = .stopToken
      · subst hx
        exact ⟨⟨b, hruns, hb, fun _ => hrunning (.inr rfl)⟩, Outcome.ofCode_none res⟩
      · have hpure : Sat (pure (res, some x) : EStateM Fault Frame Outcome) t
            (fun out t => LoopEnds env s out t) (fun _ t => Runs env .crashed s t) :=
          ⟨⟨b, hruns, hb, by simp⟩, hof⟩
        cases x with
        | stopToken => exact absurd rfl hx
        | _ => exact hpure

/-- **Running a contract** is running the loop one level further down. -/
theorem Evm.runWith_refines {loop : EStateM Fault Frame Outcome}
    (hloop : ∀ s, (s.contract.Designator → s.regs.pc = 0) →
      Sat loop s (fun out t => LoopEnds env s out t) (fun _ t => Runs env .crashed s t)) :
    Refines env (runWith loop) := by
  intro c input readOnly e
  have hset : ((readOnly && !e.readOnly) || e.readOnly) = (readOnly || e.readOnly) := by
    cases readOnly <;> cases e.readOnly <;> rfl
  have hreset : (if readOnly && !e.readOnly then false else readOnly || e.readOnly)
      = e.readOnly := by
    cases readOnly <;> cases e.readOnly <;> rfl
  refine .bind (sat_get.mpr (.bind (sat_modify.mpr ?_)))
  rw [hset]
  refine .bind (.ite (fun _ => ?_) (fun _ => sat_inFrame.mpr ?_))
  · refine ⟨⟨.running, e.start c input readOnly, .refl _, by decide, fun _ => rfl,
      ⟨rfl, rfl, rfl⟩⟩, Nat.add_sub_cancel _ 1, hreset, by simp⟩
  · refine (hloop (e.start c input readOnly) (fun _ => rfl)).mono (fun out t h => ?_)
      (fun _ t h => ⟨.crashed, t, h, .refl t.evm⟩)
    obtain ⟨⟨b, hruns, hb, hnone⟩, hof⟩ := h
    obtain ⟨hdepth, hro⟩ := hruns.flags hb
    refine ⟨⟨b, t, hruns, hb, hnone, ⟨rfl, rfl, rfl⟩⟩, ?_, ?_, hof⟩
    · show t.evm.depth - 1 = e.depth
      rw [hdepth]
      exact Nat.add_sub_cancel _ 1
    · show (if readOnly && !e.readOnly then false else t.evm.readOnly) = e.readOnly
      rw [hro]
      exact hreset

/-- **Every run of the interpreter is a run of a call tree.** -/
theorem Evm.run_refines (env : Env) (fuel : Nat) : Refines env (Evm.run env fuel) := by
  induction fuel using Nat.strong_induction_on with
  | h fuel ih =>
    exact runWith_refines (fun s hd => Frame.loop_ends env fuel s hd ih)

end Frames

/-! ## Whole messages -/

namespace Evm

/-- Calls a method from outside, as an account. -/
def Method.exec (env : Env) (fuel : Nat) (caller : Address) : Method → EStateM Fault Evm Unit
  | call addr input gas value => do
    let _ ← Evm.call env (run env fuel) (.accountRef caller) addr input gas value
  | callCode addr input gas value => do
    let _ ← Evm.callCode env (run env fuel) (.accountRef caller) addr input gas value
  | delegateCall addr input gas => do
    let _ ← Evm.delegateCall env (run env fuel) (.accountRef caller) addr input gas
  | staticCall addr input gas => do
    let _ ← Evm.staticCall env (run env fuel) (.accountRef caller) addr input gas
  | create code gas value => do
    let _ ← Evm.create env (run env fuel) (.accountRef caller) code gas value
  | create2 code gas value salt => do
    let _ ← Evm.create2 env (run env fuel) (.accountRef caller) code gas value salt

/-- A frame around a message: it has no code, and the account that sends
the message for its own. -/
def outside (e : Evm) (caller : Address) : Frame where
  evm := e
  contract := { callerAddress := 0, self := caller, gas := 0, value := 0 }

/-- The value a message moves. -/
def Method.value : Method → ℤ
  | call _ _ _ value | create _ _ value | create2 _ _ value _ => value
  | _ => 0

/-- **What a message comes to**: a call or a creation that moves its value,
whether it is finished or something panicked in it. -/
theorem Method.sat_exec (env : Env) (fuel : Nat) (caller : Address) (m : Method) {e : Evm}
    {Q E : Evm → Prop}
    (hcalled : ∀ {o gasLeft err e'}, o.value = m.value →
      Called env caller o gasLeft err e e' → Q e')
    (hcrashed : ∀ {o e'}, o.value = m.value → CallCrashed env caller o e e' → E e')
    (hcreated : ∀ {addr gasLeft err e'}, Created env caller addr m.value gasLeft err e e' → Q e')
    (hlost : ∀ {addr e'}, CreateCrashed env caller addr m.value e e' → E e') :
    Sat (m.exec env fuel caller) e (fun _ => Q) (fun _ => E) := by
  have hrun := run_refines env fuel
  cases m with
  | call addr input gas value =>
    exact .bind ((call_called hrun (.accountRef caller) addr input gas value).mono
      (fun _ _ => hcalled rfl) (fun _ _ => hcrashed rfl))
  | callCode addr input gas value =>
    exact .bind ((callCode_called hrun (.accountRef caller) addr input gas value).mono
      (fun _ _ => hcalled rfl) (fun _ _ => hcrashed rfl))
  | delegateCall addr input gas =>
    exact .bind ((delegateCall_called hrun (.accountRef caller) addr input gas).mono
      (fun _ _ => hcalled rfl) (fun _ _ => hcrashed rfl))
  | staticCall addr input gas =>
    exact .bind ((staticCall_called hrun (.accountRef caller) addr input gas).mono
      (fun _ _ => hcalled rfl) (fun _ _ => hcrashed rfl))
  | create code gas value =>
    exact .bind ((create_created hrun (.accountRef caller) code gas value).mono
      (fun _ _ => hcreated) (fun _ _ => hlost))
  | create2 code gas value salt =>
    exact .bind ((create2_created hrun (.accountRef caller) code gas value salt).mono
      (fun _ _ => hcreated) (fun _ _ => hlost))

/-- **A message is something a frame could do** that may write. -/
theorem Method.exec_runs (env : Env) (fuel : Nat) (caller : Address) (m : Method) {e : Evm}
    (he : e.readOnly = false) (hdepth : e.depth = 0) :
    Sat (m.exec env fuel caller) e
      (fun _ e' => Runs env .running (e.outside caller) (e'.outside caller))
      (fun _ e' => Runs env .crashed (e.outside caller) (e'.outside caller)) := by
  have ha : ∀ o : Opening, o.Allowed e.readOnly e.depth := by
    intro o
    rw [he, hdepth]
    cases o <;> simp [Opening.Allowed]
  exact m.sat_exec env fuel caller (fun _ h => h.runs (t := e.outside caller) (ha _))
    (fun _ h => h.runs (t := e.outside caller) (ha _))
    (fun h => h.runs (t := e.outside caller) (ha _)) fun h => h.runs (t := e.outside caller) (ha _)

/-- A sequence of messages is a run of the state, also if one panics. -/
theorem forM_exec_run (env : Env) (fuel : Nat) (ms : List (Address × Method)) {e : Evm}
    (he : e.readOnly = false) (hdepth : e.depth = 0) :
    Sat (ms.forM fun m => m.2.exec env fuel m.1) e
      (fun _ e' => Run e.statedb e'.statedb) (fun _ e' => Run e.statedb e'.statedb) := by
  induction ms generalizing e with
  | nil => exact Run.refl _
  | cons m ms ih =>
    refine (m.2.exec_runs env fuel m.1 he hdepth).next (fun _ e₁ h => ?_) fun _ e₁ h => h.stateRun
    obtain ⟨hdepth₁, he₁⟩ := h.flags (by decide)
    have hrun : Run e.statedb e₁.statedb := h.stateRun
    exact (ih (he₁.trans he) (hdepth₁.trans hdepth)).mono (fun _ _ h => hrun.trans h)
      fun _ _ h => hrun.trans h

/-- **Whatever messages did can be taken back.** After any sequence of
messages to one EVM – whatever their bytecode, whether they succeed, fail
or panic – the snapshot from before can be reverted to, and every getter
returns what it returned then. -/
theorem forM_exec_revertible (env : Env) (fuel : Nat) (ms : List (Address × Method)) {d : StateDB}
    (hd : Reachable d) :
    Sat (ms.forM fun m => m.2.exec env fuel m.1) { statedb := d }
      (fun _ e => ∃ u, e.statedb.revertToSnapshot d.snapshot = some u ∧ SameReads d u)
      (fun _ e => ∃ u, e.statedb.revertToSnapshot d.snapshot = some u ∧ SameReads d u) := by
  have hback : ∀ {d'}, Run d d' → ∃ u, d'.revertToSnapshot d.snapshot = some u ∧ SameReads d u := by
    intro d' h
    obtain ⟨u, hu, hle, -⟩ := revertToSnapshot_of_extends (h.extends hd.wf).1
    exact ⟨u, hu, hle.sameReads⟩
  exact (forM_exec_run env fuel ms rfl rfl).mono (fun _ _ h => hback h) fun _ _ h => hback h

omit [Keccak] in
/-- A creation, and a call of another account. -/
theorem forM_exec_revertible_two :
    letI := Keccak.digests
    let d := newStateDB .empty
    let ms := [(1, Method.create [0] 50000 0), (2, .call 3 [] 9 0)]
    Sat (ms.forM fun m => m.2.exec {} 20 m.1) { statedb := d }
      (fun _ e => ∃ u, e.statedb.revertToSnapshot d.snapshot = some u ∧ SameReads d u)
      (fun _ e => ∃ u, e.statedb.revertToSnapshot d.snapshot = some u ∧ SameReads d u) := by
  let _ := Keccak.digests
  intro d ms
  exact forM_exec_revertible {} 20 ms (.new _)

end Evm
