import CardinalEvm.Balance
import CardinalEvm.Refinement

/-!
# Failing frames

From Homestead on, a call that returns an error has left nothing behind.
A call that is refused has only read, and a frame that failed was taken
back to the snapshot it was opened with, so that the law of the journal
says what is left of it – whatever the frames below it did before.

A creation counts the caller's nonce up and warms the new address up
*before* it takes the snapshot, and keeps both. The nonce is counted in
64 bits and is not checked: at the largest nonce a failed creation
leaves the caller with nonce zero.
-/

variable [Keccak]

open StateDB

/-! ## What a creation claims -/

/-- **Two states that show the same but for a creation's claim**: the
caller's nonce is counted up and, from Berlin on, the new address is on
the access list. -/
structure StateDB.Claimed (env : Env) (caller addr : Address) (s t : StateDB) : Prop where
  getBalance : ∀ a, (t.getBalance a).1 = (s.getBalance a).1
  getNonce : ∀ a, (t.getNonce a).1
    = if a = caller then (s.getNonce a).1 + 1 else (s.getNonce a).1
  getCode : ∀ a, (t.getCode a).1 = (s.getCode a).1
  getState : ∀ a k, (t.getState a k).1 = (s.getState a k).1
  getTransientState : ∀ a k, t.getTransientState a k = s.getTransientState a k
  hasSuicided : ∀ a, (t.hasSuicided a).1 = (s.hasSuicided a).1
  refund : t.refund = s.refund
  addressInAccessList : ∀ a, t.addressInAccessList a
    = (s.addressInAccessList a || env.rules.isBerlin && a == addr)
  slotInAccessList : ∀ a k, t.slotInAccessList a k
    = (s.slotInAccessList a k).map (fun p => (p.1 || env.rules.isBerlin && a == addr, p.2))

namespace StateDB

variable {env : Env} {caller addr : Address} {s t u w : StateDB}

/-- What shows the same before and after a claim may be put around it. -/
theorem Claimed.between (h : SameReads s t) (h' : Claimed env caller addr t u)
    (h'' : SameReads u w) : Claimed env caller addr s w where
  getBalance a := by rw [h''.getBalance, h'.getBalance, h.getBalance]
  getNonce a := by rw [h''.getNonce, h'.getNonce, h.getNonce]
  getCode a := by rw [h''.getCode, h'.getCode, h.getCode]
  getState a k := by rw [h''.getState, h'.getState, h.getState]
  getTransientState a k := by
    rw [h''.getTransientState, h'.getTransientState, h.getTransientState]
  hasSuicided a := by rw [h''.hasSuicided, h'.hasSuicided, h.hasSuicided]
  refund := by rw [h''.refund, h'.refund, h.refund]
  addressInAccessList a := by
    rw [h''.addressInAccessList, h'.addressInAccessList, h.addressInAccessList]
  slotInAccessList a k := by rw [h''.slotInAccessList, h'.slotInAccessList, h.slotInAccessList]

omit [Keccak] in
/-- What a creation claims, as a change of one nonce and the access
list. -/
theorem claimed_eq (env : Env) (caller addr : Address) (d : StateDB) :
    ∃ es, claimed env caller addr d
      = { d.setNonce caller ((d.getNonce caller).1 + 1) with
          accessList := if env.rules.isBerlin then (d.accessList.addAddress addr).1
            else d.accessList
          journal := es } := by
  unfold claimed
  dsimp only
  split_ifs
  · unfold addAddressToAccessList
    rcases h : (d.setNonce caller ((d.getNonce caller).1 + 1)).accessList.addAddress addr
      with ⟨al, _ | _⟩
    all_goals
      have hal : (d.accessList.addAddress addr).1 = al := congrArg Prod.fst h
      rw [hal]
      exact ⟨_, rfl⟩
  · exact ⟨_, rfl⟩

/-- **Claiming shows** in the caller's nonce and on the access list. -/
theorem claimed_claimed (env : Env) (caller addr : Address) (d : StateDB) :
    Claimed env caller addr d (claimed env caller addr d) := by
  obtain ⟨es, heq⟩ := claimed_eq env caller addr d
  rw [heq]
  -- the objects other than the caller's are the same, and the caller's but for its nonce
  have hne : ∀ a, a ≠ caller → SameReadsAt d (d.setNonce caller ((d.getNonce caller).1 + 1)) a :=
    fun a ha => .of_view rfl (view_setAccount_of_ne ha d _)
  have hself := getAccount_setAccount d caller
    ((d.getAccount caller).setNonce ((d.getNonce caller).1 + 1)).1
  refine ⟨fun a => ?_, fun a => ?_, fun a => ?_, fun a k => ?_, fun _ _ => rfl, fun a => ?_, rfl,
    fun a => ?_, fun a k => ?_⟩
  · by_cases ha : a = caller
    · subst ha
      exact (getBalance_change d a _).trans (getBalance_fst d a).symm
    · exact (hne a ha).getBalance
  · by_cases ha : a = caller
    · subst ha
      rw [if_pos rfl]
      show (StateObject.getNonce d.tx a (getAccount (d.setAccount a _) a)).1 = _
      rw [hself]
      rfl
    · rw [if_neg ha]
      exact (hne a ha).getNonce
  · by_cases ha : a = caller
    · subst ha
      show (StateObject.getCode d.tx a (getAccount (d.setAccount a _) a)).1
        = (StateObject.getCode d.tx a _).1
      rw [hself, StateObject.getCode_fst, StateObject.getCode_fst]
      rfl
    · exact (hne a ha).getCode
  · by_cases ha : a = caller
    · subst ha
      show (StateObject.getState d.tx a _ (getAccount (d.setAccount a _) a)).1
        = (StateObject.getState d.tx a _ _).1
      rw [hself, StateObject.getState_fst, StateObject.getState_fst]
      rfl
    · exact (hne a ha).getState k
  · by_cases ha : a = caller
    · subst ha
      show (getAccount (d.setAccount a _) a).suicided = _
      rw [hself]
      rfl
    · exact (hne a ha).hasSuicided
  · show (d.alcalc || _) = (d.alcalc || _ || _)
    cases env.rules.isBerlin with
    | true =>
      rw [if_pos rfl, AccessList.containsAddress_addAddress, Bool.true_and, Bool.or_assoc]
    | false => simp
  · show (if d.alcalc then _ else _) = Option.map _ (if d.alcalc then _ else _)
    cases env.rules.isBerlin with
    | true =>
      rw [if_pos rfl, AccessList.contains_addAddress]
      cases d.alcalc <;> simp
    | false => cases d.alcalc <;> simp

end StateDB

/-! ## What is left of a failure -/

/-- The errors that leave a call its gas. -/
def VmErr.leavesGas (x : VmErr) : Bool :=
  x = .executionReverted || x = .depth || x = .insufficientBalance

/-- **A call that fails is invisible**, and its gas is gone unless it
reverted or was refused. -/
def CallInvisible (s : StateDB) (r : CallResult) (t : StateDB) : Prop :=
  ∀ err, r.2.2 = some err → SameReads s t ∧ (err.leavesGas = false → r.2.1 = 0)

/-- **A creation that fails leaves its claim**, unless it was refused. -/
def CreateInvisible (env : Env) (caller addr : Address) (s : StateDB) (r : Evm.CreateResult)
    (t : StateDB) : Prop :=
  ∀ err, r.2.2.2 = some err →
    (if err = .depth ∨ err = .insufficientBalance then SameReads s t
      else Claimed env caller addr s t)
    ∧ (err.leavesGas = false → r.2.2.1 = 0)

section Invisible

variable {env : Env} (henv : env.rules.isHomestead = true)
include henv

/-- A frame that failed shows nothing of what it did. -/
theorem Called.le {caller : Address} {o : Opening} {gasLeft : UInt64} {x : VmErr} {e e' : Evm}
    (h : Called env caller o gasLeft (some x) e e') (hwf : e.statedb.accessList.WF) :
    Le e.statedb e'.statedb ∧ (x.leavesGas = false → gasLeft = 0) := by
  cases h with
  | refused hq hx =>
    refine ⟨hq.reads.le, fun hgas => ?_⟩
    obtain rfl | rfl := hx x rfl <;> cases hgas
  | frame ho hr _ _ hc hx _ =>
    obtain ⟨rfl, hgas⟩ := hx henv x rfl
    refine ⟨hc.le_caller ho hr hwf, fun hx => hgas ?_⟩
    rintro rfl
    cases hx

theorem Called.invisible {caller : Address} {o : Opening} {r : CallResult} {e e' : Evm}
    (h : Called env caller o r.2.1 r.2.2 e e') (hwf : e.statedb.accessList.WF) :
    CallInvisible e.statedb r e'.statedb := by
  intro err herr
  rw [herr] at h
  obtain ⟨hle, hgas⟩ := h.le henv hwf
  exact ⟨hle.sameReads, hgas⟩

/-- **Of a creation that fails, only the claim of its address shows.** -/
theorem Created.invisible {caller addr : Address} {value : Int} {r : Evm.CreateResult} {e e' : Evm}
    (h : Created env caller addr value r.2.2.1 r.2.2.2 e e') (hwf : e.statedb.accessList.WF) :
    CreateInvisible env caller addr e.statedb r e'.statedb := by
  intro err herr
  have hclaim : ∀ {e₀ e₁ : Evm}, e.Reads e₀ →
      Evm.Reads { e₀ with statedb := claimed env caller addr e₀.statedb } e₁ →
      Le e₁.statedb e'.statedb → Claimed env caller addr e.statedb e'.statedb := fun h₀ h₁ hle =>
    .between h₀.reads.le.sameReads (claimed_claimed env caller addr _)
      (h₁.reads.le.trans hle).sameReads
  cases h with
  | refused hq hx =>
    rw [herr] at hx
    have hx' : err = .depth ∨ err = .insufficientBalance := by simpa using hx
    refine ⟨by rw [if_pos hx']; exact hq.reads.le.sameReads, fun hgas => ?_⟩
    obtain rfl | rfl := hx' <;> cases hgas
  | collision h₀ h₁ hx hgas =>
    obtain rfl := Option.some.inj (herr.symm.trans hx)
    exact ⟨hclaim h₀ h₁ (.refl _), fun _ => hgas⟩
  | ran h₀ h₁ hcalled hx =>
    obtain ⟨hdepth, hfunds⟩ := hx err herr
    rw [herr] at hcalled
    have hwf₁ := (((h₀.reads.run.trans (run_claimed env caller addr _)).trans
      h₁.reads.run).extends hwf).2
    obtain ⟨hle, hgas⟩ := hcalled.le henv hwf₁
    refine ⟨?_, hgas⟩
    rw [if_neg (by simp [hdepth, hfunds])]
    exact hclaim h₀ h₁ hle

end Invisible

/-- **Failing frames are invisible**, for every operation that opens a
frame and every bytecode: from Homestead on, in any state, whenever it
returns an error. -/
theorem Evm.failed_invisible (env : Env) (fuel : Nat) (caller : ContractRef) (e : Evm)
    (henv : env.rules.isHomestead = true) (hs : Reachable e.statedb) :
    (∀ addr input gas value, Sat (call env (run env fuel) caller addr input gas value) e
      (fun r e' => CallInvisible e.statedb r e'.statedb) (fun _ _ => True))
    ∧ (∀ addr input gas value, Sat (callCode env (run env fuel) caller addr input gas value) e
      (fun r e' => CallInvisible e.statedb r e'.statedb) (fun _ _ => True))
    ∧ (∀ addr input gas, Sat (delegateCall env (run env fuel) caller addr input gas) e
      (fun r e' => CallInvisible e.statedb r e'.statedb) (fun _ _ => True))
    ∧ (∀ addr input gas, Sat (staticCall env (run env fuel) caller addr input gas) e
      (fun r e' => CallInvisible e.statedb r e'.statedb) (fun _ _ => True))
    ∧ (∀ code gas value, Sat (create env (run env fuel) caller code gas value) e
      (fun r e' => CreateInvisible env caller.address
        (createAddress caller.address (e.statedb.getNonce caller.address).1)
        e.statedb r e'.statedb) (fun _ _ => True))
    ∧ ∀ code gas value salt, Sat (create2 env (run env fuel) caller code gas value salt) e
      (fun r e' => CreateInvisible env caller.address
        (createAddress2 caller.address salt (keccak256Hash code))
        e.statedb r e'.statedb) (fun _ _ => True) := by
  have hrun := run_refines env fuel
  have hwf := hs.wf
  refine ⟨fun addr input gas value => ?_, fun addr input gas value => ?_, fun addr input gas => ?_,
    fun addr input gas => ?_, fun code gas value => ?_, fun code gas value salt => ?_⟩
  · exact (call_called hrun caller addr input gas value).mono
      (fun _ _ h => h.invisible henv hwf) (fun _ _ _ => trivial)
  · exact (callCode_called hrun caller addr input gas value).mono
      (fun _ _ h => h.invisible henv hwf) (fun _ _ _ => trivial)
  · exact (delegateCall_called hrun caller addr input gas).mono
      (fun _ _ h => h.invisible henv hwf) (fun _ _ _ => trivial)
  · exact (staticCall_called hrun caller addr input gas).mono
      (fun _ _ h => h.invisible henv hwf) (fun _ _ _ => trivial)
  · exact (create_created hrun caller code gas value).mono
      (fun _ _ h => h.invisible henv hwf) (fun _ _ _ => trivial)
  · exact (create2_created hrun caller code gas value salt).mono
      (fun _ _ h => h.invisible henv hwf) (fun _ _ _ => trivial)

omit [Keccak]

/-- A call of a contract whose only instruction is a `JUMPDEST`, without
gas to pay for it. -/
theorem Evm.failed_invisible_outOfGas :
    letI := Keccak.digests
    let env : Env := { rules := { isHomestead := true } }
    let tx : StorageTx := .single 0x1000 { codeHash := Hash.bytes (keccak256Hash [0x5b]) } [0x5b]
    let e : Evm := { statedb := newStateDB tx }
    ∃ e', call env (run env 1) (.accountRef 1) 0x1000 [] 0 0 e = .ok ([], 0, some .outOfGas) e'
      ∧ SameReads e.statedb e'.statedb := by
  let _ := Keccak.digests
  intro env tx e
  refine Exists.imp (fun e' he' => ⟨he', ?_⟩) (exists_of_run' (by decide +kernel))
  have h := ((failed_invisible env 1 (.accountRef 1) e rfl (.new _)).1 0x1000 [] 0 0).of_ok he'
  exact (h .outOfGas rfl).1

/-- At the largest nonce, a creation that runs out of gas leaves its
caller with nonce zero. -/
theorem Evm.create_nonce_wraps :
    letI := Keccak.digests
    let env : Env := { rules := { isHomestead := true } }
    let account : Account :=
      { nonce := 0xffffffffffffffff, balance := some 0, codeHash := emptyCode.bytes }
    let e : Evm := { statedb := newStateDB (.single 1 account []) }
    ∃ r e', create env (run env 1) (.accountRef 1) [0x5b] 0 0 e = .ok r e'
      ∧ r.2.2.2 = some .outOfGas
      ∧ (e.statedb.getNonce 1).1.toNat = 2 ^ 64 - 1
      ∧ (e'.statedb.getNonce 1).1 = 0 :=
  exists_of_sat (by decide +kernel)
