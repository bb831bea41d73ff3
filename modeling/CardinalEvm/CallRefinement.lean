import CardinalEvm.Balance
import CardinalEvm.Registers

/-!
# Calls and creations open and close frames

`Call`, `CallCode`, `DelegateCall`, `StaticCall`, `Create` and `Create2`
take the function that runs a frame as a parameter. If it `Refines` call
trees, then so do they: each refuses, and then does nothing but read, or
it opens a frame and closes it again (`Called`, `Created`). What a
failed call takes back, and what happens to its gas, is part of how it
is closed.
-/

variable [Keccak]

open StateDB

/-! ## Frames that ran -/

/-- The frame a contract starts in. -/
def Evm.start (e : Evm) (c : Contract) (input : Bytes) (readOnly : Bool) : Frame where
  evm := { e with depth := e.depth + 1, readOnly := readOnly || e.readOnly, returnData := [] }
  contract := { c with input := input }

/-- **A frame has returned** to the EVM it was opened in. -/
structure Returned (env : Env) (child : Frame) (err : Option VmErr) (e e' : Evm) : Prop where
  runs : ∃ b f, Runs env b child f ∧ b ≠ .crashed ∧ (err = none → b = .running)
    ∧ f.evm.Agrees e'
  depth : e'.depth = e.depth
  readOnly : e'.readOnly = e.readOnly
  ofCode : ∀ x, err = some x → x.ofCode

/-- A frame has not returned. -/
def Crashed (env : Env) (child : Frame) (e' : Evm) : Prop :=
  ∃ b f, Runs env b child f ∧ f.evm.Agrees e'

/-- **What runs the frames runs call trees.** -/
def Refines (env : Env) (run : Runner) : Prop :=
  ∀ c input readOnly e, Sat (run c input readOnly) e
    (fun r e' => Returned env (e.start c input readOnly) r.1.2 e e')
    (fun _ e' => Crashed env (e.start c input readOnly) e')

omit [Keccak] in
theorem Evm.Agrees.refl (e : Evm) : e.Agrees e := ⟨rfl, rfl, rfl⟩

/-! ## Code of the EVM -/

namespace Evm

variable {e : Evm}

section Rules

omit [Keccak]

variable {E : Fault → Evm → Prop} {Q : Unit → Evm → Prop}

@[simp] theorem sat_onDb {α : Type} {f : StateDB → α × StateDB} {Q : α → Evm → Prop} :
    Sat (onDb f) e Q E ↔ Q (f e.statedb).1 { e with statedb := (f e.statedb).2 } := Iff.rfl

@[simp] theorem sat_setDb {f : StateDB → StateDB} :
    Sat (setDb f) e Q E ↔ Q () { e with statedb := f e.statedb } := Iff.rfl

@[simp] theorem sat_transfer {a b : Address} {value : Int} :
    Sat (transfer a b value) e Q E
      ↔ Q () { e with statedb := (e.statedb.subBalance a value).addBalance b value } := Iff.rfl

theorem sat_revertToSnapshot {n : Nat}
    (hQ : ∀ d, e.statedb.revertToSnapshot n = some d →
      Q () { e with statedb := d, trace := .reverted n :: e.trace })
    (hE : E .snapshot e) : Sat (revertToSnapshot n) e Q E := by
  refine sat_attempt (fun _ e₂ h => ?_) (fun _ => hE)
  obtain ⟨d, hd, h⟩ := Option.map_eq_some_iff.mp h
  obtain rfl : { e with statedb := d, trace := .reverted n :: e.trace } = e₂ :=
    congrArg Prod.snd h
  exact hQ d hd

theorem sat_useGas {c : Contract} {amount : UInt64} {Q : Bool × Contract → Evm → Prop}
    (hless : c.gas < amount → Q (false, c) e)
    (hpaid : ¬ c.gas < amount → Q (true, { c with gas := c.gas - amount })
      { e with trace := .useGas c.gas amount :: e.trace }) :
    Sat (useGas c amount) e Q E :=
  .ite hless hpaid

end Rules

theorem Reads.of_db {d : StateDB} (h : StateDB.Reads e.statedb d) :
    e.Reads { e with statedb := d } :=
  ⟨h, rfl⟩

theorem Reads.of_op {d : StateDB} (o : Op) (ho : o.isRead) (h : o.apply e.statedb = some d) :
    e.Reads { e with statedb := d } :=
  .of_db (.of_op o ho h)

/-- `CanTransfer` reads the balance, which is then what it was. -/
theorem canTransfer_reads (addr : Address) (value : Int) :
    Sat (canTransfer addr value) e
      (fun funded e' => e.Reads e' ∧ (funded = true → value ≤ (e'.statedb.getBalance addr).1))
      (fun _ _ => False) := by
  unfold canTransfer
  rw [sat_bind, sat_onDb]
  have hread : StateDB.Reads e.statedb (e.statedb.getBalance addr).2 :=
    .of_op (.getBalance addr) rfl rfl
  refine ⟨.of_db hread, fun hfunded => ?_⟩
  rw [hread.le.sameReads.getBalance]
  exact of_decide_eq_true hfunded

/-- Whether the value of a call can be paid. -/
theorem funded_reads (addr : Address) (value : Int) :
    Sat (if value = 0 then pure true else canTransfer addr value) e
      (fun funded e' => e.Reads e'
        ∧ (funded = true → value ≠ 0 → value ≤ (e'.statedb.getBalance addr).1))
      (fun _ _ => False) := by
  split_ifs with hzero
  · exact ⟨refl_of Reads e, fun _ hne => absurd hzero hne⟩
  · exact (canTransfer_reads addr value).mono (fun _ _ h => ⟨h.1, fun hf _ => h.2 hf⟩)

end Evm

/-! ## Opening -/

/-- **A frame is about to be opened**, and the state has been prepared
for it. -/
structure Prepared (env : Env) (caller : Address) (o : Opening) (base : StateDB) (e e₁ : Evm) :
    Prop where
  reads : StateDB.Reads e.statedb base
  checked : o.Checked env caller base
  statedb : StateDB.Reads (o.prepare env caller base) e₁.statedb
  depth : e₁.depth = e.depth
  readOnly : e₁.readOnly = e.readOnly
  jumpdests : e₁.jumpdests = e.jumpdests ∨ e₁.jumpdests = fun _ => none
  trace : e₁.trace = o.births base ++ e.trace

/-- **A frame was opened and has returned**, and is still to be closed. -/
def Ran (env : Env) (caller : Address) (o : Opening) (base : StateDB) (e : Evm)
    (err : Option VmErr) (e' : Evm) : Prop :=
  ∃ child, Opens env caller o e base child ∧ Returned env child err e e'

/-- A frame was opened and has not returned. -/
def CallCrashed (env : Env) (caller : Address) (o : Opening) (e e' : Evm) : Prop :=
  ∃ base child, Opens env caller o e base child ∧ Crashed env child e'

namespace Prepared

variable {env : Env} {caller : Address} {o : Opening} {base : StateDB} {e e₁ : Evm}

/-- The state is prepared for an opening. -/
theorem of_reads {e₀ : Evm} (h : e.Reads e₀) (hc : o.Checked env caller e₀.statedb)
    (hd : e₁ = { e₀ with
      statedb := o.prepare env caller e₀.statedb
      trace := o.births e₀.statedb ++ e₀.trace }) :
    Prepared env caller o e₀.statedb e e₁ := by
  subst hd
  obtain ⟨hr, hrest⟩ := h
  rw [hrest]
  exact ⟨hr, hc, .refl _, rfl, rfl, .inl rfl, rfl⟩

theorem of_db {d : StateDB} (h : Prepared env caller o base e e₁)
    (hd : StateDB.Reads e₁.statedb d) : Prepared env caller o base e { e₁ with statedb := d } :=
  { h with statedb := h.statedb.trans hd }

/-- `NewContract` may drop the map of analyses, and the contract it
makes has none. -/
theorem newContract (h : Prepared env caller o base e e₁) (ref : ContractRef) (addr : Address)
    (value : Int) (gas : UInt64) :
    Sat (Evm.newContract ref addr value gas) e₁
      (fun c e₂ => c.analysis = none ∧ Prepared env caller o base e e₂
        ∧ e₂.statedb = e₁.statedb) (fun _ _ => False) := by
  cases ref with
  | contract c => exact ⟨rfl, h, rfl⟩
  | accountRef a => exact ⟨rfl, { h with jumpdests := .inr rfl }, rfl⟩

theorem opens (h : Prepared env caller o base e e₁) {c : Contract}
    (hl : Loaded (o.prepare env caller base) c.code c.codeHash) (ha : c.analysis = none)
    (input : Bytes) :
    Opens env caller o e base (e₁.start c input o.isStatic) where
  reads := h.reads
  checked := h.checked
  statedb := h.statedb
  loaded := hl
  analysis := ha
  readOnly := congrArg (o.isStatic || ·) h.readOnly
  depth := congrArg (· + 1) h.depth
  jumpdests := h.jumpdests
  trace := h.trace

end Prepared

/-! ## Running what was opened -/

section Bodies

variable {env : Env} {run : Runner} {caller : Address} {o : Opening} {base : StateDB}
  {e e₁ : Evm}

/-- A call that runs no code, with the error it ends in. -/
theorem Prepared.ran (h : Prepared env caller o base e e₁) {err : Option VmErr}
    (hx : ∀ x, err = some x → x.ofCode) : Ran env caller o base e err e₁ := by
  -- a frame that stops before its first instruction
  let child : Frame :=
    { evm := { e₁ with depth := e₁.depth + 1, readOnly := o.isStatic || e₁.readOnly }
      contract := { callerAddress := 0, self := 0, gas := 0, value := 0 } }
  refine ⟨child, ⟨h.reads, h.checked, h.statedb, .none rfl, rfl,
    congrArg (o.isStatic || ·) h.readOnly, congrArg (· + 1) h.depth, h.jumpdests, h.trace⟩,
    ⟨?_, h.depth, h.readOnly, hx⟩⟩
  cases err with
  | none => exact ⟨.running, child, .refl child, by decide, fun _ => rfl, ⟨rfl, rfl, rfl⟩⟩
  | some x =>
    exact ⟨.failed, child, .stop _ (.refl child), by decide, by simp, ⟨rfl, rfl, rfl⟩⟩

/-- A call that panics before it runs code. -/
theorem Prepared.crashed (h : Prepared env caller o base e e₁) : CallCrashed env caller o e e₁ := by
  obtain ⟨child, ho, hret⟩ := h.ran (fun x (hx : none = some x) => nomatch hx)
  obtain ⟨b, f, hr, -, -, hag⟩ := hret.runs
  exact ⟨base, child, ho, b, f, hr, hag⟩

/-- A precompiled contract. -/
theorem Prepared.ran_precompiled (h : Prepared env caller o base e e₁) (p : Precompiled)
    (input : Bytes) (gas : UInt64) :
    Ran env caller o base e (runPrecompiledContract p input gas).2.2 e₁ := by
  refine h.ran (fun x hx => ?_)
  unfold runPrecompiledContract at hx
  split_ifs at hx
  · cases hx
    rfl
  · obtain ⟨_, -, rfl⟩ := Option.map_eq_some_iff.mp hx
    rfl

/-- Running the code of a frame. -/
theorem Prepared.execute (hrun : Refines env run) (h : Prepared env caller o base e e₁)
    {c : Contract} (hl : Loaded (o.prepare env caller base) c.code c.codeHash)
    (ha : c.analysis = none) (input : Bytes) :
    Sat (Evm.execute run c input o.isStatic) e₁
      (fun r e' => Ran env caller o base e r.2.2 e')
      (fun _ e' => CallCrashed env caller o e e') := by
  unfold Evm.execute
  rw [sat_bind]
  have ho := h.opens hl ha input
  refine (hrun c input o.isStatic e₁).mono (fun r e' hr => ?_) (fun _ e' hr => ⟨base, _, ho, hr⟩)
  exact ⟨_, ho, hr.runs, hr.depth.trans h.depth, hr.readOnly.trans h.readOnly, hr.ofCode⟩

end Bodies

/-! ## Reading code -/

section Resolve

variable (env : Env) (addr : Address)

/-- The account whose code runs for an address. -/
def codeAccount (d : StateDB) : Address :=
  if env.rules.isPrague then (parseDelegation (d.getCode addr).1).getD addr else addr

variable {env addr} {d d' : StateDB}

/-- Reading changes no code. -/
theorem StateDB.Calls.getCode_fst (h : StateDB.Reads d d') (a : Address) :
    (d'.getCode a).1 = (d.getCode a).1 :=
  h.le.sameReads.getCode a

theorem codeAccount_eq (h : StateDB.Reads d d') :
    codeAccount env addr d' = codeAccount env addr d := by
  unfold codeAccount
  rw [h.getCode_fst]

theorem reads_getCode (d : StateDB) (a : Address) : StateDB.Reads d (d.getCode a).2 :=
  .of_op (.getCode a) rfl rfl

theorem reads_getCodeHash (d : StateDB) (a : Address) : StateDB.Reads d (d.getCodeHash a).2 :=
  .of_op (.getCodeHash a) rfl rfl

/-- `resolveCode` reads the code of one account. -/
theorem Evm.sat_resolveCode (e : Evm) :
    Sat (resolveCode env addr) e
      (fun code e' => ∃ d₁ d₂, StateDB.Reads e.statedb d₁ ∧ StateDB.Reads e.statedb d₂
        ∧ code = (d₁.getCode (codeAccount env addr e.statedb)).1 ∧ e' = { e with statedb := d₂ })
      (fun _ _ => False) := by
  unfold resolveCode codeAccount
  rw [sat_bind, sat_onDb]
  split_ifs
  · cases hp : parseDelegation (e.statedb.getCode addr).1 with
    | some target =>
      exact ⟨(e.statedb.getCode addr).2, _, reads_getCode _ _,
        (reads_getCode _ _).trans (reads_getCode _ target), rfl, rfl⟩
    | none => exact ⟨e.statedb, _, .refl _, reads_getCode _ _, rfl, rfl⟩
  · exact ⟨e.statedb, _, .refl _, reads_getCode _ _, rfl, rfl⟩

/-- `resolveCodeHash` reads the code hash of the same account. -/
theorem Evm.sat_resolveCodeHash (e : Evm) :
    Sat (resolveCodeHash env addr) e
      (fun hash e' => ∃ d₁ d₂, StateDB.Reads e.statedb d₁ ∧ StateDB.Reads e.statedb d₂
        ∧ hash = (d₁.getCodeHash (codeAccount env addr e.statedb)).1
        ∧ e' = { e with statedb := d₂ })
      (fun _ _ => False) := by
  unfold resolveCodeHash codeAccount
  split_ifs
  · rw [sat_bind, sat_onDb]
    cases hp : parseDelegation (e.statedb.getCode addr).1 with
    | some target =>
      exact ⟨(e.statedb.getCode addr).2, _, reads_getCode _ _,
        (reads_getCode _ _).trans (reads_getCodeHash _ target), rfl, rfl⟩
    | none =>
      exact ⟨(e.statedb.getCode addr).2, _, reads_getCode _ _,
        (reads_getCode _ _).trans (reads_getCodeHash _ addr), rfl, rfl⟩
  · exact ⟨e.statedb, _, .refl _, reads_getCodeHash _ _, rfl, rfl⟩

end Resolve

/-! ## Calls -/

/-- **How a call ended**, with the gas and the error it returned: it was
refused, or a frame was opened and closed. From Homestead on, an error
takes back what the frame did, and unless it is a revert it takes the
gas. -/
inductive Called (env : Env) (caller : Address) (o : Opening) (gasLeft : UInt64)
    (err : Option VmErr) (e e' : Evm) : Prop
  | refused : e.Reads e' → (∀ x, err = some x → x = .depth ∨ x = .insufficientBalance) →
    Called env caller o gasLeft err e e'
  | frame {base : StateDB} {child f : Frame} {b : Status} {kept : Bool} :
    Opens env caller o e base child → Runs env b child f → b ≠ .crashed →
    (kept = true → b = .running) → Closes o base kept e f.evm e' →
    (env.rules.isHomestead = true → ∀ x, err = some x → kept = false
      ∧ (x ≠ .executionReverted → gasLeft = 0)) →
    (∀ x, err = some x → x ≠ .depth ∧ x ≠ .insufficientBalance) →
    Called env caller o gasLeft err e e'

variable {env : Env} {e' : Evm}

/-- A call or creation is something a frame can do. -/
theorem Called.runs {o : Opening} {gasLeft : UInt64} {err : Option VmErr} {t : Frame}
    (h : Called env t.contract.self o gasLeft err t.evm e')
    (ha : o.Allowed t.evm.readOnly t.evm.depth) : Runs env .running t { t with evm := e' } := by
  cases h with
  | refused hq _ => exact .of_quiet (.of_evm hq.quiet)
  | frame ho hr hb hk hc _ _ => exact .frame (.refl t) ha ho hr hb hk hc

theorem CallCrashed.runs {o : Opening} {t : Frame} (h : CallCrashed env t.contract.self o t.evm e')
    (ha : o.Allowed t.evm.readOnly t.evm.depth) :
    Runs env .crashed t { t with evm := e' } := by
  obtain ⟨base, child, ho, b, f, hr, hag⟩ := h
  exact .crash (.refl t) ha ho hr hag

omit [Keccak] in
theorem VmErr.ne_of_ofCode {x : VmErr} (h : x.ofCode) :
    x ≠ .depth ∧ x ≠ .insufficientBalance := by
  constructor <;> rintro rfl <;> cases h

section Calls

variable {env : Env} {run : Runner} {o : Opening} {e : Evm}

/-- A call that ends before it opens a frame. -/
theorem Called.refuse {caller : Address} {gasLeft : UInt64} {err : Option VmErr} {e' : Evm}
    (h : e.Reads e') (herr : err ∈ [none, some .depth, some .insufficientBalance]) :
    Called env caller o gasLeft err e e' := by
  refine .refused h (fun x hx => ?_)
  subst hx
  simpa using herr

/-- **Closing the frame of a call.** -/
theorem Ran.conclude {caller : Address} {base : StateDB} {r : CallResult} {e₁ : Evm}
    (h : Ran env caller o base e r.2.2 e₁) :
    Sat (Evm.conclude base.snapshot r) e₁
      (fun r' e' => Called env caller o r'.2.1 r'.2.2 e e')
      (fun _ e' => CallCrashed env caller o e e') := by
  obtain ⟨child, ho, hret⟩ := h
  obtain ⟨b, f, hr, hb, hrunning, hag⟩ := hret.runs
  obtain ⟨ret, gas, err⟩ := r
  cases err with
  | none =>
    have hc : Closes o base true e f.evm e₁ :=
      ⟨hret.depth, hret.readOnly, hag.jumpdests, hag.trace ▸ .refl _, by
        rw [hag.statedb]; exact Opening.Finishes.refl o _⟩
    exact .frame ho hr hb (fun _ => hrunning rfl) hc (by simp) (by simp)
  | some x =>
    unfold Evm.conclude
    rw [sat_bind]
    refine Evm.sat_revertToSnapshot (fun d hd => ?_) ⟨base, child, ho, b, f, hr, hag⟩
    have hc : Closes o base false e f.evm
        { e₁ with statedb := d, trace := .reverted base.snapshot :: e₁.trace } :=
      ⟨hret.depth, hret.readOnly, hag.jumpdests, hag.trace ▸ .refl _, by
        rw [← hag.statedb]; exact hd⟩
    refine .frame ho hr hb (by simp) hc (fun _ y hy => ?_) (fun y hy => ?_)
    · cases hy
      exact ⟨rfl, fun hne => if_pos hne⟩
    · cases hy
      exact VmErr.ne_of_ofCode (hret.ofCode _ rfl)

variable (hrun : Refines env run)
include hrun

variable (caller : ContractRef) (addr : Address) (input : Bytes) (gas : UInt64) (value : Int)

/-- The end of `Call`: a precompiled contract, a frame or nothing is run. -/
theorem Evm.callCodeAt_ran {o : Opening} {base : StateDB} {e₁ : Evm}
    (hp : Prepared env caller.address o base e e₁)
    (hd : e₁.statedb = o.prepare env caller.address base) (ho : o.isStatic = false) :
    Sat (callCodeAt env run caller addr input gas value) e₁
      (fun r e' => Ran env caller.address o base e r.2.2 e')
      (fun _ e' => CallCrashed env caller.address o e e') := by
  unfold callCodeAt
  cases env.precompile addr with
  | some p => exact hp.ran_precompiled p input gas
  | none =>
    refine (sat_resolveCode e₁).next fun code e₂ he₂ => ?_
    obtain ⟨d₁, d₂, h₁, h₂, hcode, rfl⟩ := he₂
    have hp₂ := hp.of_db h₂
    refine .ite (fun _ => hp₂.ran (by simp)) (fun _ => ?_)
    refine (hp₂.newContract caller addr value gas).next fun c e₃ he₃ => ?_
    obtain ⟨ha, hp₃, hd₃⟩ := he₃
    refine (sat_resolveCodeHash e₃).next fun hash e₄ he₄ => ?_
    obtain ⟨d₃, d₄, h₃, h₄, hhash, rfl⟩ := he₄
    -- code and hash are those of one account, since reading does not move the delegation
    rw [hd₃] at h₃ hhash
    rw [codeAccount_eq h₂] at hhash
    rw [hd] at h₁ h₂
    have hl : Loaded (o.prepare env caller.address base) (c.setCallCode hash code).code
        (c.setCallCode hash code).codeHash :=
      .account _ h₁ (h₂.trans h₃) hcode hhash
    rw [← ho]
    exact (hp₃.of_db h₄).execute hrun hl ha input

/-- `Call` once it was checked. -/
theorem Evm.callBody_ran {e₀ : Evm} (hq : e.Reads e₀)
    (hc : (Opening.call addr value).Checked env caller.address e₀.statedb) :
    Sat (callBody env run caller addr input gas value (e₀.statedb.exist addr).1)
      { e₀ with statedb := (e₀.statedb.exist addr).2 }
      (fun r e' => Ran env caller.address (.call addr value) e₀.statedb e r.2.2 e')
      (fun _ e' => CallCrashed env caller.address (.call addr value) e e') := by
  unfold callBody
  rw [sat_bind]
  have hsnap : (e₀.statedb.exist addr).2.snapshot = e₀.statedb.snapshot :=
    congrArg List.length (loads_exist e₀.statedb addr).journal
  have hcreate : Sat (if (e₀.statedb.exist addr).1 then pure () else createAccount addr false)
      { e₀ with statedb := (e₀.statedb.exist addr).2 }
      (fun _ e₁ => e₁ = { e₀ with
        statedb := if (e₀.statedb.exist addr).1
          then (e₀.statedb.exist addr).2 else (e₀.statedb.exist addr).2.createAccount addr
        trace := (Opening.call addr value).births e₀.statedb ++ e₀.trace })
      (fun _ _ => False) := by
    rw [show (Opening.call addr value).births e₀.statedb
        = if (e₀.statedb.exist addr).1 then [] else [.created addr e₀.statedb.snapshot false]
      from rfl, ← hsnap]
    split_ifs <;> rfl
  refine hcreate.mono (fun _ e₁ he₁ => ?_)
  rw [sat_bind, sat_transfer, he₁]
  exact callCodeAt_ran hrun caller addr input gas value (.of_reads hq hc rfl) rfl rfl

/-- **`Call`** opens and closes a frame, or refuses to. -/
theorem Evm.call_called :
    Sat (call env run caller addr input gas value) e
      (fun r e' => Called env caller.address (.call addr value) r.2.1 r.2.2 e e')
      (fun _ e' => CallCrashed env caller.address (.call addr value) e e') := by
  unfold call
  rw [sat_bind, sat_get]
  refine .ite (fun _ => .refuse (refl_of _ e) (by simp)) (fun _ => ?_)
  refine (funded_reads caller.address value).next fun funded e₀ hfunded => ?_
  obtain ⟨hq, hfunded⟩ := hfunded
  refine .ite (fun _ => .refuse hq (by simp)) (fun hpaid => ?_)
  rw [sat_bind, sat_get, sat_bind, sat_onDb]
  refine .ite (fun _ => ?_) (fun hnoop => ?_)
  · exact .refuse (trans_of _ hq (.of_op (.exist addr) rfl rfl)) (by simp)
  have hc : (Opening.call addr value).Checked env caller.address e₀.statedb := by
    refine ⟨hfunded (by simpa using hpaid), fun hex h158 hv => ?_⟩
    by_contra hpre
    exact hnoop (by simp [hex, h158, hv, Option.not_isSome_iff_eq_none.mp hpre])
  exact (callBody_ran hrun caller addr input gas value hq hc).next fun r e₂ hr => hr.conclude

/-- The end of `CallCode` and `DelegateCall`. -/
theorem Evm.codeBody_ran {e₁ : Evm} (caller addr : Address) (input : Bytes) (gas : UInt64)
    {contract : EStateM Fault Evm Contract} (hp : Prepared env caller .code e₁.statedb e e₁)
    (hcontract : Sat contract e₁
      (fun c e₂ => c.analysis = none ∧ Prepared env caller .code e₁.statedb e e₂
        ∧ e₂.statedb = e₁.statedb) (fun _ e₂ => e₂ = e₁)) :
    Sat (codeBody env run addr input gas contract) e₁
      (fun r e' => Ran env caller .code e₁.statedb e r.2.2 e')
      (fun _ e' => CallCrashed env caller .code e e') := by
  unfold codeBody
  cases env.precompile addr with
  | some p => exact hp.ran_precompiled p input gas
  | none =>
    rw [sat_bind]
    refine hcontract.mono (fun c e₂ hc => ?_) (fun _ e₂ he₂ => he₂ ▸ hp.crashed)
    obtain ⟨ha, hp₂, hd₂⟩ := hc
    refine (sat_resolveCodeHash e₂).next fun hash e₃ he₃ => ?_
    obtain ⟨d₁, d₂, h₁, h₂, hhash, rfl⟩ := he₃
    refine (sat_resolveCode _).next fun code e₄ he₄ => ?_
    obtain ⟨d₃, d₄, h₃, h₄, hcode, rfl⟩ := he₄
    rw [codeAccount_eq h₂] at hcode
    rw [hd₂] at h₁ h₂ hcode hhash
    have hl : Loaded (Opening.code.prepare env caller e₁.statedb) (c.setCallCode hash code).code
        (c.setCallCode hash code).codeHash :=
      .account _ (h₂.trans h₃) h₁ hcode hhash
    exact ((hp₂.of_db (hd₂ ▸ h₂)).of_db h₄).execute hrun hl ha input

/-- **`CallCode`.** -/
theorem Evm.callCode_called :
    Sat (callCode env run caller addr input gas value) e
      (fun r e' => Called env caller.address .code r.2.1 r.2.2 e e')
      (fun _ e' => CallCrashed env caller.address .code e e') := by
  unfold callCode
  rw [sat_bind, sat_get]
  refine .ite (fun _ => .refuse (refl_of _ e) (by simp)) (fun _ => ?_)
  refine (canTransfer_reads caller.address value).next fun funded e₀ hq => ?_
  replace hq := hq.1
  refine .ite (fun _ => .refuse hq (by simp)) (fun _ => ?_)
  rw [sat_bind, sat_get, sat_bind]
  have hp : Prepared env caller.address .code e₀.statedb e e₀ := .of_reads hq trivial rfl
  exact (codeBody_ran hrun caller.address addr input gas hp
    ((hp.newContract caller caller.address value gas).mono (fun _ _ h => h))).mono
      (fun r e₂ hr => hr.conclude)

/-- **`DelegateCall`.** -/
theorem Evm.delegateCall_called :
    Sat (delegateCall env run caller addr input gas) e
      (fun r e' => Called env caller.address .code r.2.1 r.2.2 e e')
      (fun _ e' => CallCrashed env caller.address .code e e') := by
  unfold delegateCall
  rw [sat_bind, sat_get]
  refine .ite (fun _ => .refuse (refl_of _ e) (by simp)) (fun _ => ?_)
  rw [sat_bind, sat_get, sat_bind]
  have hp : Prepared env caller.address .code e.statedb e e :=
    .of_reads (refl_of _ e) trivial rfl
  refine (codeBody_ran hrun caller.address addr input gas hp ?_).mono
    (fun r e₂ hr => hr.conclude) (fun _ _ h => h)
  cases caller with
  | accountRef a => exact rfl
  | contract parent =>
    exact (hp.newContract (.contract parent) parent.self parent.value gas).next fun _ _ h => h

/-- **`StaticCall`.** -/
theorem Evm.staticCall_called :
    Sat (staticCall env run caller addr input gas) e
      (fun r e' => Called env caller.address (.static addr) r.2.1 r.2.2 e e')
      (fun _ e' => CallCrashed env caller.address (.static addr) e e') := by
  unfold staticCall
  rw [sat_bind, sat_get]
  refine .ite (fun _ => .refuse (refl_of _ e) (by simp)) (fun _ => ?_)
  rw [sat_bind, sat_get, sat_bind]
  suffices h : Sat (staticBody env run caller addr input gas) e
      (fun r e' => Ran env caller.address (.static addr) e.statedb e r.2.2 e')
      (fun _ e' => CallCrashed env caller.address (.static addr) e e') from
    h.mono (fun r e₂ hr => hr.conclude)
  unfold staticBody
  rw [sat_bind, sat_setDb]
  have hp : Prepared env caller.address (.static addr) e.statedb e
      { e with statedb := e.statedb.addBalance addr 0 } :=
    .of_reads (refl_of _ e) trivial rfl
  cases env.precompile addr with
  | some p => exact hp.ran_precompiled p input gas
  | none =>
    refine (hp.newContract caller addr 0 gas).next fun c e₂ hc => ?_
    obtain ⟨ha, hp₂, hd₂⟩ := hc
    have hhash := reads_getCodeHash e₂.statedb addr
    have hl : Loaded ((Opening.static addr).prepare env caller.address e.statedb)
        ((e₂.statedb.getCodeHash addr).2.getCode addr).1 (e₂.statedb.getCodeHash addr).1 :=
      .account addr (hp₂.statedb.trans hhash) hp₂.statedb rfl rfl
    rw [sat_bind, sat_onDb, sat_bind, sat_onDb]
    exact ((hp₂.of_db hhash).of_db (reads_getCode _ addr)).execute hrun
      (c := c.setCallCode (e₂.statedb.getCodeHash addr).1
        ((e₂.statedb.getCodeHash addr).2.getCode addr).1) hl ha input

end Calls

/-! ## Creations -/

/-- The state once a creation has counted the caller's nonce up and, from
Berlin on, warmed the new address up. -/
def claimed (env : Env) (caller addr : Address) (d : StateDB) : StateDB :=
  let d := d.setNonce caller ((d.getNonce caller).1 + 1)
  if env.rules.isBerlin then d.addAddressToAccessList addr else d

theorem run_claimed (env : Env) (caller addr : Address) (d : StateDB) :
    Run d (claimed env caller addr d) := by
  have hnonce : Run d (d.setNonce caller ((d.getNonce caller).1 + 1)) :=
    .single (.setNonce caller _) rfl
  unfold claimed
  dsimp only
  split_ifs
  · exact .op (.addAddressToAccessList addr) hnonce rfl
  · exact hnonce

omit [Keccak] in
/-- This changes no balance. -/
theorem getBalance_claimed (env : Env) (caller addr a : Address) (d : StateDB) :
    ((claimed env caller addr d).getBalance a).1 = (d.getBalance a).1 := by
  unfold claimed
  dsimp only
  split_ifs
  · obtain ⟨al, es, heq, -⟩ := addAddressToAccessList_eq
      (d.setNonce caller ((d.getNonce caller).1 + 1)) addr
    rw [heq, ← getBalance_setNonce d caller ((d.getNonce caller).1 + 1) a]
    rfl
  · exact getBalance_setNonce d caller _ a

/-- **How a creation ended**: it was refused, or there was a contract at
the address, or a frame was opened and closed. -/
inductive Created (env : Env) (caller addr : Address) (value : Int) (gasLeft : UInt64)
    (err : Option VmErr) (e e' : Evm) : Prop
  | refused : e.Reads e' → err = some .depth ∨ err = some .insufficientBalance →
    Created env caller addr value gasLeft err e e'
  | collision {e₀ : Evm} : e.Reads e₀ →
    Evm.Reads { e₀ with statedb := claimed env caller addr e₀.statedb } e' →
    err = some .contractAddressCollision → gasLeft = 0 →
    Created env caller addr value gasLeft err e e'
  | ran {e₀ e₁ : Evm} : e.Reads e₀ →
    Evm.Reads { e₀ with statedb := claimed env caller addr e₀.statedb } e₁ →
    Called env caller (.create addr value) gasLeft err e₁ e' →
    (∀ x, err = some x → x ≠ .depth ∧ x ≠ .insufficientBalance) →
    Created env caller addr value gasLeft err e e'

/-- A creation in which something panicked. -/
def CreateCrashed (env : Env) (caller addr : Address) (value : Int) (e e' : Evm) : Prop :=
  ∃ e₀ e₁, e.Reads e₀ ∧ Evm.Reads { e₀ with statedb := claimed env caller addr e₀.statedb } e₁
    ∧ CallCrashed env caller (.create addr value) e₁ e'

theorem Created.of_reads {caller addr : Address} {value : Int} {gasLeft : UInt64}
    {err : Option VmErr} {e e₀ : Evm} (hq : e.Reads e₀)
    (h : Created env caller addr value gasLeft err e₀ e') :
    Created env caller addr value gasLeft err e e' := by
  cases h with
  | refused hq' herr => exact .refused (trans_of _ hq hq') herr
  | collision hq' hq₁ herr hgas => exact .collision (trans_of _ hq hq') hq₁ herr hgas
  | ran hq' hq₁ hcalled herr => exact .ran (trans_of _ hq hq') hq₁ hcalled herr

theorem CreateCrashed.of_reads {caller addr : Address} {value : Int} {e e₀ : Evm} (hq : e.Reads e₀)
    (h : CreateCrashed env caller addr value e₀ e') :
    CreateCrashed env caller addr value e e' := by
  obtain ⟨e₁, e₂, hq', hq₁, hcrash⟩ := h
  exact ⟨e₁, e₂, trans_of _ hq hq', hq₁, hcrash⟩

section CreatedRuns

variable {env : Env} {addr : Address} {value : Int} {t : Frame} {e₀ e₁ e' : Evm}

/-- Counting the nonce up, in a frame. -/
theorem runs_claimed (hq : t.evm.Reads e₀) (hro : t.evm.readOnly = false)
    (hq₁ : Evm.Reads { e₀ with statedb := claimed env t.contract.self addr e₀.statedb } e₁) :
    Runs env .running t { t with evm := e₁ } := by
  have h₀ : Runs env .running t { t with evm := e₀ } := .of_quiet (.of_evm hq.quiet)
  have h₁ := Runs.claim h₀ (hq.quiet.readOnly.trans hro)
  refine h₁.quiet (.of_evm (trans_of Evm.Quiet ?_ hq₁.quiet))
  unfold claimed
  dsimp only
  split_ifs
  · exact ⟨.of_op (.addAddressToAccessList addr) rfl rfl, rfl, rfl, rfl, .refl _⟩
  · exact refl_of _ _

theorem allowed_claimed (hq : t.evm.Reads e₀)
    (ha : (Opening.create addr value).Allowed t.evm.readOnly t.evm.depth)
    (hq₁ : Evm.Reads { e₀ with statedb := claimed env t.contract.self addr e₀.statedb } e₁) :
    (Opening.create addr value).Allowed e₁.readOnly e₁.depth := by
  rw [hq₁.quiet.readOnly, hq₁.quiet.depth]
  exact hq.quiet.readOnly.symm ▸ hq.quiet.depth.symm ▸ ha

/-- A creation is something a frame can do that may write. -/
theorem Created.runs {gasLeft : UInt64} {err : Option VmErr}
    (h : Created env t.contract.self addr value gasLeft err t.evm e')
    (ha : (Opening.create addr value).Allowed t.evm.readOnly t.evm.depth) :
    Runs env .running t { t with evm := e' } := by
  cases h with
  | refused hq _ => exact .of_quiet (.of_evm hq.quiet)
  | collision hq hq₁ _ _ => exact runs_claimed hq ha.1 hq₁
  | ran hq hq₁ hcalled _ =>
    exact (runs_claimed hq ha.1 hq₁).trans (hcalled.runs (allowed_claimed hq ha hq₁))

theorem CreateCrashed.runs (h : CreateCrashed env t.contract.self addr value t.evm e')
    (ha : (Opening.create addr value).Allowed t.evm.readOnly t.evm.depth) :
    Runs env .crashed t { t with evm := e' } := by
  obtain ⟨e₀, e₁, hq, hq₁, hcrash⟩ := h
  exact (runs_claimed hq ha.1 hq₁).trans (hcrash.runs (allowed_claimed hq ha hq₁))

end CreatedRuns

section Creations

variable {env : Env} {run : Runner} {e : Evm}

variable {err : Option VmErr} {base : StateDB} {e₁ : Evm}

omit [Keccak] in
theorem Evm.checkCode_eq_none {rules : Rules} {ret : Bytes} (h : checkCode rules ret err = none) :
    err = none := by
  cases err with
  | none => rfl
  | some x => simp [checkCode] at h

omit [Keccak] in
theorem Evm.checkCode_ofCode {rules : Rules} {ret : Bytes} {x : VmErr}
    (herr : ∀ y, err = some y → y.ofCode) (h : checkCode rules ret err = some x) : x.ofCode := by
  unfold checkCode at h
  cases err with
  | some y =>
    obtain rfl : y = x := by simpa using h
    exact herr y rfl
  | none =>
    dsimp only at h
    split_ifs at h <;> obtain rfl := Option.some.inj h <;> rfl

/-- Taking a creation back. -/
theorem Evm.revertCreate_closes (o : Opening) {f : Evm} (c : Contract) (x : VmErr)
    (hag : f.Agrees e₁) (hd : e₁.depth = e.depth) (hro : e₁.readOnly = e.readOnly) :
    Sat (revertCreate base.snapshot c x) e₁
      (fun c' e' => Closes o base false e f e' ∧ (x ≠ .executionReverted → c'.gas = 0))
      (fun _ e' => e' = e₁) := by
  unfold revertCreate
  rw [sat_bind]
  refine sat_revertToSnapshot (fun d hrev => ?_) rfl
  rw [hag.statedb] at hrev
  refine .ite (fun _ => ?_) (fun hx => ?_)
  · rw [sat_bind]
    refine sat_useGas (fun h => absurd h (UInt64.lt_irrefl _)) (fun _ => ?_)
    refine ⟨⟨hd, hro, hag.jumpdests, ?_, hrev⟩, fun _ => UInt64.sub_self _⟩
    rw [hag.trace]
    exact .cons (show Event.isGas _ from rfl) _
  · exact ⟨⟨hd, hro, hag.jumpdests, hag.trace ▸ .refl _, hrev⟩, fun h => absurd h hx⟩

/-- **Closing the frame of a creation.** -/
theorem Evm.finishCreate_called {caller addr : Address} {value : Int} {child : Frame} (ret : Bytes)
    (c : Contract) (ho : Opens env caller (.create addr value) e base child)
    (hret : Returned env child err e e₁) :
    Sat (finishCreate env addr base.snapshot ret err c) e₁
      (fun r e' => Called env caller (.create addr value) r.2.2.1 r.2.2.2 e e'
        ∧ ∀ x, r.2.2.2 = some x → x ≠ .depth ∧ x ≠ .insufficientBalance)
      (fun _ e' => CallCrashed env caller (.create addr value) e e') := by
  obtain ⟨b, f, hr, hb, hrunning, hag⟩ := hret.runs
  have hcrash : CallCrashed env caller (.create addr value) e e₁ := ⟨base, child, ho, b, f, hr, hag⟩
  -- an error that is taken back
  have hrevert : ∀ (c : Contract) (x : VmErr), x ≠ .depth ∧ x ≠ .insufficientBalance →
      Sat (revertCreate base.snapshot c x) e₁
        (fun c' e' => Called env caller (.create addr value) c'.gas (some x) e e')
        (fun _ e' => CallCrashed env caller (.create addr value) e e') := by
    intro c x hx
    refine (revertCreate_closes (.create addr value) c x hag hret.depth hret.readOnly).mono
      (fun c' e' h => ?_) (fun _ e' h => h ▸ hcrash)
    refine .frame ho hr hb (by simp) h.1 (fun _ y hy => ⟨rfl, ?_⟩) (fun y hy => ?_)
    · rw [← Option.some.inj hy]
      exact h.2
    · rw [← Option.some.inj hy]
      exact hx
  unfold finishCreate
  rw [sat_bind]
  cases hcheck : checkCode env.rules ret err with
  | some x =>
    have hx : x.ofCode := checkCode_ofCode hret.ofCode hcheck
    have hne : x ≠ .codeStoreOutOfGas := by
      rintro rfl
      cases hx
    show Sat (concludeCreate env base.snapshot c (some x) >>= _) e₁ _ _
    rw [sat_bind]
    show Sat (if _ then _ else _) e₁ _ _
    rw [if_pos (by simp [hne])]
    refine (hrevert c x (VmErr.ne_of_ofCode hx)).mono (fun c' e' h => ⟨h, fun y hy => ?_⟩)
    rw [← Option.some.inj hy]
    exact VmErr.ne_of_ofCode hx
  | none =>
    have hrunning' := hrunning (checkCode_eq_none hcheck)
    show Sat (storeCode addr ret c) e₁ _ _
    unfold storeCode
    rw [sat_bind]
    refine sat_useGas (fun _ => ?_) (fun _ => ?_)
    · -- there is not enough gas for the code
      show Sat (concludeCreate env base.snapshot c (some .codeStoreOutOfGas) >>= _) e₁ _ _
      rw [sat_bind]
      refine .ite (fun _ => ?_) (fun hhome => ?_)
      · exact (hrevert c .codeStoreOutOfGas (by decide)).mono
          (fun c' e' h => ⟨h, fun y hy => by rw [← Option.some.inj hy]; decide⟩) (fun _ _ h => h)
      · have hc : Closes (.create addr value) base true e f.evm e₁ :=
          ⟨hret.depth, hret.readOnly, hag.jumpdests, hag.trace ▸ .refl _, .inl hag.statedb⟩
        refine ⟨.frame ho hr hb (fun _ => hrunning') hc (fun h => absurd (by simp [h]) hhome)
          (fun y hy => ?_), fun y hy => ?_⟩ <;>
        · rw [← Option.some.inj hy]
          decide
    · have hc : Closes (.create addr value) base true e f.evm
          { e₁ with
            statedb := e₁.statedb.setCode addr ret
            trace := .useGas c.gas (UInt64.ofNat ret.length * Params.createDataGas)
              :: e₁.trace } := by
        refine ⟨hret.depth, hret.readOnly, hag.jumpdests, ?_, .inr ⟨ret, ?_⟩⟩
        · rw [hag.trace]
          exact .cons (show Event.isGas _ from rfl) _
        · rw [hag.statedb]
      exact ⟨.frame ho hr hb (fun _ => hrunning') hc (by simp) (by simp), by simp⟩

theorem claimAddress_claimed (caller addr : Address) :
    Sat (Evm.claimAddress env caller addr) e
      (fun _ e' => ∃ d, StateDB.Reads e.statedb d
        ∧ e' = { e with statedb := claimed env caller addr d })
      (fun _ _ => False) := by
  have hw : StateDB.Reads e.statedb (e.statedb.getNonce caller).2 :=
    .of_op (.getNonce caller) rfl rfl
  have hn : ((e.statedb.getNonce caller).2.getNonce caller).1 = (e.statedb.getNonce caller).1 :=
    hw.le.sameReads.getNonce caller
  unfold Evm.claimAddress
  rw [sat_bind, Evm.sat_onDb, sat_bind, Evm.sat_setDb]
  refine .ite (fun hberlin => ⟨_, hw, ?_⟩) (fun hberlin => ⟨_, hw, ?_⟩)
  · unfold claimed
    rw [if_pos hberlin, hn]
  · unfold claimed
    rw [if_neg hberlin, hn]

theorem Evm.collides_reads (addr : Address) :
    Sat (collides addr) e (fun _ e' => e.Reads e') (fun _ _ => False) := by
  unfold collides
  rw [sat_bind, sat_onDb, sat_bind, sat_onDb]
  exact trans_of Reads (.of_op (.getCodeHash addr) rfl rfl) (.of_op (.getNonce addr) rfl rfl)

variable (hrun : Refines env run)
include hrun

variable (caller : ContractRef) (code : Bytes)

theorem Evm.createCodeAt_called (hash : Hash) (gas : UInt64) (value : Int) (addr : Address)
    (hp : Prepared env caller.address (.create addr value) base e e₁)
    (hhash : hash = 0 ∨ hash = keccak256Hash code) :
    Sat (createCodeAt env run caller code hash gas value addr base.snapshot) e₁
      (fun r e' => Called env caller.address (.create addr value) r.2.2.1 r.2.2.2 e e'
        ∧ ∀ x, r.2.2.2 = some x → x ≠ .depth ∧ x ≠ .insufficientBalance)
      (fun _ e' => CallCrashed env caller.address (.create addr value) e e') := by
  refine (hp.newContract caller addr value gas).next fun c e₂ hc => ?_
  obtain ⟨ha, hp₂, -⟩ := hc
  rw [sat_bind]
  have ho := hp₂.opens (c := c.setCallCode hash code) (.init hhash) ha []
  refine (hrun _ [] false e₂).mono (fun r e₃ hr => ?_) (fun _ e' hr => ⟨base, _, ho, hr⟩)
  exact finishCreate_called r.1.1 r.2 ho
    ⟨hr.runs, hr.depth.trans hp₂.depth, hr.readOnly.trans hp₂.readOnly, hr.ofCode⟩

/-- **`create`** opens and closes a frame, or refuses to. -/
theorem Evm.createAt_created (hash : Hash) (gas : UInt64) (value : Int) (addr : Address)
    (hhash : hash = 0 ∨ hash = keccak256Hash code) :
    Sat (createAt env run caller code hash gas value addr) e
      (fun r e' => Created env caller.address addr value r.2.2.1 r.2.2.2 e e')
      (fun _ e' => CreateCrashed env caller.address addr value e e') := by
  unfold createAt
  rw [sat_bind, sat_get]
  refine .ite (fun _ => .refused (refl_of _ e) (.inl rfl)) (fun _ => ?_)
  refine (canTransfer_reads caller.address value).next fun funded e₀ hfunded => ?_
  obtain ⟨hq, hfunded⟩ := hfunded
  refine .ite (fun _ => .refused hq (.inr rfl)) (fun hpaid => ?_)
  refine (claimAddress_claimed caller.address addr).next fun _ e₁ he₁ => ?_
  obtain ⟨d, hd, rfl⟩ := he₁
  have hq₁ : e.Reads { e₀ with statedb := d } := trans_of _ hq (.of_db hd)
  refine (collides_reads addr).next fun collides e₂ hq₂ => ?_
  refine .ite (fun _ => .collision hq₁ hq₂ rfl rfl) (fun _ => ?_)
  rw [sat_bind, sat_get]
  have hvalue : value ≤ (e₂.statedb.getBalance caller.address).1 := by
    rw [hq₂.reads.le.sameReads.getBalance, getBalance_claimed, hd.le.sameReads.getBalance]
    exact hfunded (by simpa using hpaid)
  unfold createBody
  rw [sat_bind]
  refine sat_modify.mpr ?_
  rw [sat_bind]
  have hnonce : Sat (if env.rules.isEIP158 then setDb (fun d => d.setNonce addr 1) else pure ())
      { e₂ with
        statedb := e₂.statedb.createAccount addr
        trace := .created addr e₂.statedb.snapshot true :: e₂.trace }
      (fun _ e₃ => e₃ = { e₂ with
        statedb := if env.rules.isEIP158
          then (e₂.statedb.createAccount addr).setNonce addr 1 else e₂.statedb.createAccount addr
        trace := (Opening.create addr value).births e₂.statedb ++ e₂.trace })
      (fun _ _ => False) := by
    split_ifs <;> rfl
  refine hnonce.mono (fun _ e₃ he₃ => ?_)
  rw [sat_bind, sat_transfer, he₃]
  have hp : Prepared env caller.address (.create addr value) e₂.statedb e₂
      { e₂ with
        statedb := (Opening.create addr value).prepare env caller.address e₂.statedb
        trace := (Opening.create addr value).births e₂.statedb ++ e₂.trace } :=
    .of_reads (refl_of _ e₂) hvalue rfl
  exact (createCodeAt_called hrun caller code hash gas value addr hp hhash).mono
    (fun r e' h => .ran hq₁ hq₂ h.1 h.2) (fun _ e' h => ⟨_, _, hq₁, hq₂, h⟩)

/-- **`Create`.** -/
theorem Evm.create_created (gas : UInt64) (value : Int) :
    Sat (create env run caller code gas value) e
      (fun r e' => Created env caller.address
        (createAddress caller.address (e.statedb.getNonce caller.address).1) value
        r.2.2.1 r.2.2.2 e e')
      (fun _ e' => CreateCrashed env caller.address
        (createAddress caller.address (e.statedb.getNonce caller.address).1) value e e') := by
  refine .bind (sat_onDb.mpr ?_)
  have hq : e.Reads { e with statedb := (e.statedb.getNonce caller.address).2 } :=
    .of_op (.getNonce caller.address) rfl rfl
  exact (createAt_created hrun caller code 0 gas value _ (.inl rfl)).mono
    (fun _ _ h => h.of_reads hq) (fun _ _ h => h.of_reads hq)

/-- **`Create2`.** -/
theorem Evm.create2_created (gas : UInt64) (value : Int) (salt : Word) :
    Sat (create2 env run caller code gas value salt) e
      (fun r e' => Created env caller.address
        (createAddress2 caller.address salt (keccak256Hash code)) value r.2.2.1 r.2.2.2 e e')
      (fun _ e' => CreateCrashed env caller.address
        (createAddress2 caller.address salt (keccak256Hash code)) value e e') :=
  createAt_created hrun caller code _ gas value _ (.inr rfl)

end Creations
