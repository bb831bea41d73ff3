import CardinalEvm.Refinement

/-!
# Static calls

A frame that is read-only, and every frame below it, leaves what the
state shows as it is. The write protection is spread over the opcodes:
a store, a self-destruction, a creation and a call with value each check
the flag. Two things come before the check. The gas function of a store
may already have changed the refund counter, but then the frame fails
and is taken back. And a call of a precompiled contract that is not on
the state yet creates its account, without value and in a read-only
frame too, which is why those addresses are left out.
-/

variable [Keccak]

open StateDB

/-- The addresses that are no precompiled contracts. -/
def Env.ordinary (env : Env) : Set Address := {a | env.precompile a = none}

section ReadOnly

variable {env : Env} (henv : env.rules.isEIP158 = true)

/-- Creating an account touches that account alone. -/
theorem StateDB.Untouched.createAccount {A : Set Address} {a : Address} (ha : a ∉ A)
    (d : StateDB) : Untouched A d (d.createAccount a) := by
  obtain ⟨obj, prev, heq, -⟩ := createAccount_eq d a
  rw [heq]
  refine ⟨rfl, fun b hb => ?_, fun _ _ => rfl, rfl⟩
  have hne : b ≠ a := fun h => ha (h ▸ hb)
  exact view_setAccount_of_ne hne d obj

include henv in
/-- **Opening a frame in a read-only one** changes nothing at an ordinary
address: no value is transferred, and no account made. -/
theorem Opening.untouched_prepare {o : Opening} {d : StateDB} {caller : Address} {depth : Nat}
    (ha : o.Allowed true depth) (hc : o.Checked env caller d) :
    Untouched env.ordinary d (o.prepare env caller d) := by
  cases o with
  | code => exact .refl _ d
  | static addr => exact .refl _ d
  | create => cases ha.1
  | call addr value =>
    obtain rfl : value = 0 := ha.1 rfl
    have hexist : Untouched env.ordinary d (d.exist addr).2 := .of_le (loads_exist d addr).le
    show Untouched env.ordinary d (if (d.exist addr).1 then (d.exist addr).2
      else (d.exist addr).2.createAccount addr)
    split_ifs with hex
    · exact hexist
    · have hpre := hc.2 (by simpa using hex) henv rfl
      refine hexist.trans (.createAccount (fun hord => ?_) _)
      rw [show env.precompile addr = none from hord] at hpre
      cases hpre

include henv in
/-- A frame opened in a read-only one that touched nothing itself, or was
taken back, has touched nothing once it is closed. -/
theorem Opens.untouched_closes {caller : Address} {o : Opening} {e e' : Evm} {base : StateDB}
    {child f : Frame} {b : Status} {kept : Bool} (ha : o.Allowed true e.depth)
    (ho : Opens env caller o e base child) (hr : Runs env b child f)
    (hk : kept = true → b = .running) (hc : Closes o base kept e f.evm e')
    (hwf : e.statedb.accessList.WF)
    (hu : b = .running → Untouched env.ordinary child.evm.statedb f.evm.statedb) :
    Untouched env.ordinary e.statedb e'.statedb := by
  cases kept with
  | false => exact .of_le (hc.le_caller ho hr hwf)
  | true =>
    refine Untouched.trans (.of_le ho.reads.le) ?_
    have hfinish : e'.statedb = f.evm.statedb := by
      have hst := hc.statedb
      cases o with
      | create => cases ha.1
      | call | code | static => exact hst
    rw [hfinish]
    exact ((Opening.untouched_prepare henv ha ho.checked).trans
      (ho.statedb.warm.untouched _)).trans (hu (hk rfl))

include henv in
/-- **A read-only frame touches nothing** at an ordinary address, as long
as it does not fail. -/
theorem Runs.untouched {b : Status} {s t : Frame} (h : Runs env b s t)
    (hro : s.evm.readOnly = true) (hwf : s.evm.statedb.accessList.WF) (hb : b = .running) :
    Untouched env.ordinary s.evm.statedb t.evm.statedb := by
  -- what checks the flag finds it set
  have hflag : ∀ {s t : Frame}, Runs env .running s t → s.evm.readOnly = true →
      t.evm.readOnly = false → False := by
    intro s t h hs ht
    rw [(h.flags (by decide)).2, hs] at ht
    cases ht
  induction h with
  | refl s => exact .refl _ _
  | quiet _ hq ih => exact (ih hro hwf rfl).trans (hq.evm.warm.untouched _)
  | stop _ _ ih | jump _ _ _ ih => exact ih hro hwf rfl
  | write _ _ _ h _ _ ht | sstore h _ _ _ ht | selfdestruct h _ _ ht | claim h ht =>
    exact (hflag h hro ht).elim
  | gasFailed _ hb' => exact absurd hb hb'
  | frame h ha ho hr _ hk hc ih ihc =>
    have ht := (h.flags (by decide)).2.trans hro
    rw [ht] at ha
    have hwf' := h.wf hwf
    refine (ih hro hwf rfl).trans (ho.untouched_closes henv ha hr hk hc hwf' fun hb' => ?_)
    refine ihc ?_ ?_ hb'
    · rw [ho.readOnly, ht, Bool.or_true]
    · exact ho.wf hwf'
  | crash => cases hb

end ReadOnly

/-- **Static calls do not write**: from EIP-158 on and for every
bytecode, a `StaticCall` that returns, with or without an error, leaves
what the state shows at ordinary addresses, transient storage, the
refund counter, the depth and the read-only flag as they were. -/
theorem Evm.staticCall_untouched (env : Env) (fuel : Nat) (caller : ContractRef) (addr : Address)
    (input : Bytes) (gas : UInt64) (e : Evm) (henv : env.rules.isEIP158 = true)
    (hs : Reachable e.statedb) :
    Sat (staticCall env (run env fuel) caller addr input gas) e
      (fun _ e' => (∀ a, env.precompile a = none → SameReadsAt e.statedb e'.statedb a)
        ∧ (∀ a k, e'.statedb.getTransientState a k = e.statedb.getTransientState a k)
        ∧ e'.statedb.refund = e.statedb.refund
        ∧ e'.depth = e.depth ∧ e'.readOnly = e.readOnly)
      (fun _ _ => True) := by
  refine (staticCall_called (run_refines env fuel) caller addr input gas).mono
    (fun r e' h => ?_) (fun _ _ _ => trivial)
  obtain ⟨hu, hd, hro⟩ : Untouched env.ordinary e.statedb e'.statedb
      ∧ e'.depth = e.depth ∧ e'.readOnly = e.readOnly := by
    cases h with
    | refused hq _ => exact ⟨hq.quiet.warm.untouched _, hq.quiet.depth, hq.quiet.readOnly⟩
    | frame ho hr _ hk hc _ _ =>
      have ha : (Opening.static addr).Allowed true e.depth := trivial
      refine ⟨ho.untouched_closes henv ha hr hk hc hs.wf fun hb => ?_, hc.depth, hc.readOnly⟩
      exact hr.untouched henv ho.readOnly ((ho.reads.run.trans ho.run).extends hs.wf).2 hb
  exact ⟨fun a ha => hu.sameReadsAt ha, hu.transient, hu.refund, hd, hro⟩

omit [Keccak] in
/-- A static call of a contract that returns. -/
theorem Evm.staticCall_untouched_jumpdest :
    letI := Keccak.digests
    let env : Env := { rules := { isHomestead := true, isEIP150 := true, isEIP158 := true } }
    let tx : StorageTx := .single 0x1000 { codeHash := Hash.bytes (keccak256Hash [0x5b]) } [0x5b]
    let e : Evm := { statedb := newStateDB tx }
    ∃ e', staticCall env (run env 3) (.accountRef 1) 0x1000 [] 7 e = .ok ([], 6, none) e'
      ∧ (∀ a, env.precompile a = none → SameReadsAt e.statedb e'.statedb a)
      ∧ e'.depth = 0 ∧ e'.readOnly = false := by
  let _ := Keccak.digests
  intro env tx e
  refine Exists.imp (fun e' he' => ⟨he', ?_⟩) (exists_of_run' (by decide +kernel))
  obtain ⟨hreads, -, -, hdepth, hro⟩ :=
    (staticCall_untouched env 3 (.accountRef 1) 0x1000 [] 7 e rfl (.new _)).of_ok he'
  exact ⟨hreads, hdepth, hro⟩
