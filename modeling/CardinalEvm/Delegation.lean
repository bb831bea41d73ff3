import CardinalEvm.Emptiness
import CardinalEvm.JumpAnalysis

/-!
# Delegated code

From Prague on, an account whose code is a delegation designator runs
the code of the account it names, one level deep. `codeAccount` is that
account, the one the gas functions of EIP-7702 charge for. `Call`,
`CallCode` and `DelegateCall` resolve designators; `StaticCall` does not,
and runs the designator itself.

Which contract a call executes is a question about the function that
runs frames, of which the calls are parameters: a call `Executes` a
contract if, whatever this function is, it does what the function does
with the contract, and something after it.

The code hash of the contract is what `GetCodeHash` answers, from the
record if it is loaded and from the code otherwise: it is that of the code
if both are right (`StateDB.HashMatches`). If they are not, it need not
be, and `Call` may even take an account with code for one that does not
exist, and run nothing.
-/

variable [Keccak]

open StateDB StateObject

/-- **A call executes a contract** in `P` on this input, after something
and before something that does not depend on what runs it. -/
def Executes (P : Contract → Prop) (input : Bytes) (readOnly : Bool)
    (call : Runner → EStateM Fault Evm CallResult) (e : Evm) : Prop :=
  ∃ c e' k, P c ∧ ∀ run, call run e = (Evm.execute run c input readOnly >>= k) e'

/-- A call runs nothing. -/
def RunsNothing {α : Type} (call : Runner → EStateM Fault Evm α) (e : Evm) : Prop :=
  ∀ run run', call run e = call run' e

/-! ## Rules -/

section Rules

variable {α β : Type} {P : Contract → Prop} {input : Bytes} {readOnly : Bool} {e : Evm}

omit [Keccak]

namespace Executes

/-- Something comes before. -/
theorem bind_left {m : EStateM Fault Evm α} {f : Runner → α → EStateM Fault Evm CallResult}
    (h : Sat m e (fun a e' => Executes P input readOnly (fun run => f run a) e')
      (fun _ _ => False)) :
    Executes P input readOnly (fun run => m >>= f run) e := by
  obtain ⟨a, e₁, hm, c, e', k, hc, hrun⟩ := exists_of_sat h
  refine ⟨c, e', k, hc, fun run => ?_⟩
  rw [← hrun run]
  show EStateM.bind m (f run) e = _
  unfold EStateM.bind
  rw [hm]

/-- Something comes after. -/
theorem bind_right {m : Runner → EStateM Fault Evm CallResult} (h : Executes P input readOnly m e)
    (f : CallResult → EStateM Fault Evm CallResult) :
    Executes P input readOnly (fun run => m run >>= f) e := by
  obtain ⟨c, e', k, hc, hrun⟩ := h
  refine ⟨c, e', fun r => k r >>= f, hc, fun run => ?_⟩
  rw [← bind_assoc]
  show EStateM.bind (m run) f e = EStateM.bind _ f e'
  unfold EStateM.bind
  rw [hrun run]

theorem ite_neg {c : Prop} [Decidable c] {m m' : Runner → EStateM Fault Evm CallResult} (hc : ¬ c)
    (h : Executes P input readOnly m' e) :
    Executes P input readOnly (fun run => if c then m run else m' run) e := by
  simpa only [if_neg hc] using h

theorem execute {c : Contract} (hc : P c) :
    Executes P input readOnly (fun run => Evm.execute run c input readOnly) e :=
  ⟨c, e, pure, hc, fun run => by rw [bind_pure]⟩

/-- **There is one contract that a call executes.** -/
theorem of_eq {m : Runner → EStateM Fault Evm CallResult} (h : Executes P input readOnly m e)
    {c : Contract} {e' : Evm} {k : CallResult → EStateM Fault Evm CallResult}
    (hrun : ∀ run, m run e = (Evm.execute run c input readOnly >>= k) e') : P c := by
  obtain ⟨c₀, e₀, k₀, hc₀, hrun₀⟩ := h
  by_contra hnot
  -- a function that stops in one way on the contracts in `P`, and in another on the rest
  classical
  let run : Runner := fun c _ _ => throw (if P c then .nil else .assertion)
  have hstop : ∀ (c : Contract) (e : Evm) (k : CallResult → EStateM Fault Evm CallResult),
      (Evm.execute run c input readOnly >>= k) e
        = .error (if P c then .nil else .assertion) e := fun _ _ _ => rfl
  have hsame := (hrun₀ run).symm.trans (hrun run)
  rw [hstop, hstop, if_pos hc₀, if_neg hnot] at hsame
  cases hsame

end Executes

namespace RunsNothing

theorem const (m : EStateM Fault Evm α) : RunsNothing (fun _ => m) e := fun _ _ => rfl

theorem bind_left {m : EStateM Fault Evm α} {f : Runner → α → EStateM Fault Evm β}
    (h : Sat m e (fun a e' => RunsNothing (fun run => f run a) e') (fun _ _ => True)) :
    RunsNothing (fun run => m >>= f run) e := by
  intro run run'
  show EStateM.bind m (f run) e = EStateM.bind m (f run') e
  unfold EStateM.bind
  unfold Sat at h
  cases hm : m e with
  | ok a e' =>
    rw [hm] at h
    exact h run run'
  | error x e' => rfl

theorem bind_right {m : Runner → EStateM Fault Evm α} (h : RunsNothing m e)
    (f : α → EStateM Fault Evm β) : RunsNothing (fun run => m run >>= f) e := by
  intro run run'
  show EStateM.bind (m run) f e = EStateM.bind (m run') f e
  unfold EStateM.bind
  rw [h run run']

theorem ite {c : Prop} [Decidable c] {m m' : Runner → EStateM Fault Evm α}
    (h : c → RunsNothing m e) (h' : ¬ c → RunsNothing m' e) :
    RunsNothing (fun run => if c then m run else m' run) e := by
  by_cases hc : c
  · simpa only [if_pos hc] using h hc
  · simpa only [if_neg hc] using h' hc

end RunsNothing

end Rules

/-! ## Code through a call -/

/-- The calls a method makes of the state before it reads code: reads, and
the move of the value. -/
def StateDB.Op.isMove : Op → Bool
  | .subBalance _ _ | .addBalance _ _ => true
  | o => o.isRead

/-- **What an account shows of its code**: whether it is deleted, its
record, loaded or not, and the entry of its code. -/
def StateDB.codeView (d : StateDB) (a : Address) : Bool × Option Account × CodeEntry :=
  ((d.getAccount a).deleted, (d.getAccount a).record d.tx a,
    ((d.getAccount a).codeEntry d.tx a).rehash)

/-- **The code hash of an account matches its code**, in its record if it
has one and in the entry of its code. -/
structure StateDB.HashMatches (d : StateDB) (a : Address) : Prop where
  record : ∀ account ∈ (d.codeView a).2.1,
    bytesToHash account.codeHash = keccak256Hash (d.getCode a).1
  entry : (d.codeView a).1 = false → (d.codeView a).2.2.hash = keccak256Hash (d.getCode a).1

section Code

variable {d d' : StateDB} {a : Address}

theorem StateDB.getCode_eq_of_codeView (d : StateDB) (a : Address) :
    (d.getCode a).1 = if (d.codeView a).1 then [] else (d.codeView a).2.2.code := by
  show ((d.getAccount a).getCode d.tx a).1 = _
  rw [getCode_fst]
  unfold codeOf codeView
  rw [CodeEntry.rehash_code]

/-- **`GetCodeHash` answers with the hash of the code**, if both of its
sources have it. -/
theorem StateDB.HashMatches.getCodeHash (h : d.HashMatches a) :
    (d.getCodeHash a).1 = keccak256Hash (d.getCode a).1 := by
  have hcode := d.getCode_eq_of_codeView a
  show ((d.getAccount a).getCodeHash d.tx a).1 = _
  rw [getCodeHash_fst]
  cases hacc : (d.getAccount a).account with
  | some account =>
    refine h.record account ?_
    show account ∈ (d.getAccount a).record d.tx a
    unfold StateObject.record
    rw [hacc]
    split_ifs <;> rfl
  | none =>
    cases hdel : (d.getAccount a).deleted with
    | true =>
      rw [if_pos (show (d.codeView a).1 = true from hdel)] at hcode
      rw [if_pos rfl, hcode]
      rfl
    | false => exact h.entry hdel

theorem StateDB.Calls.of_reads (h : Reads d d') : Calls (fun o => o.isMove) d d' :=
  h.mono fun o ho => by
    cases o with
    | subBalance | addBalance => rfl
    | _ => exact ho

/-- What an account shows of its code does not depend on what is
loaded. -/
theorem StateDB.codeView_of_view (htx : d'.tx = d.tx) (h : d'.view a = d.view a) :
    d'.codeView a = d.codeView a := by
  have hdel := congrArg deleted h
  have hrec := congrArg StateObject.account h
  have hcode := congrArg StateObject.code h
  simp only [view, loaded_deleted, loaded_account,
    loaded_code] at hdel hrec hcode
  rw [hdel] at hcode
  unfold codeView
  rw [hdel, hrec]
  cases hd : (d.getAccount a).deleted with
  | true =>
    rw [hd, if_pos rfl, if_pos rfl] at hcode
    unfold codeEntry
    rw [hcode, hrec, htx]
  | false =>
    rw [hd, if_neg Bool.false_ne_true, if_neg Bool.false_ne_true] at hcode
    rw [Option.some.inj hcode]

/-- A change of an object that leaves its record and its code alone. -/
theorem StateDB.codeView_change {b : Address} {r : StateObject × ObjectUndo}
    (hacc : r.1.account = (d.getAccount b).account)
    (hdel : r.1.deleted = (d.getAccount b).deleted) (hcode : r.1.code = (d.getAccount b).code)
    (a : Address) : (d.change b r).codeView a = d.codeView a := by
  show (((d.setAccount b r.1).getAccount a).deleted,
    ((d.setAccount b r.1).getAccount a).record d.tx a,
    (((d.setAccount b r.1).getAccount a).codeEntry d.tx a).rehash) = d.codeView a
  by_cases ha : a = b
  · subst ha
    rw [getAccount_setAccount]
    unfold codeEntry codeView
    rw [hcode, hdel, record_of_eq hacc hdel]
    rfl
  · rw [getAccount_setAccount_of_ne ha]
    rfl

/-- **Neither reading nor moving a balance changes what an account shows
of its code.** -/
theorem StateDB.Calls.codeView_eq (h : Calls (fun o => o.isMove) d d') (a : Address) :
    d'.codeView a = d.codeView a := by
  refine h.induct (I := fun t => t.codeView a = d.codeView a) (fun o s t ho hap ih => ?_) rfl
  refine Eq.trans ?_ ih
  have hread : o.isRead = true → t.codeView a = s.codeView a := fun ho => by
    have hle := (Calls.of_op (P := fun o : Op => o.isRead) o ho hap).le
    exact codeView_of_view hle.tx (hle.view a)
  cases o with
  | subBalance b x | addBalance b x =>
    cases hap
    simp only [StateDB.subBalance, StateDB.addBalance, StateObject.subBalance,
      StateObject.addBalance]
    split_ifs
    · rfl
    · cases h : (s.getAccount b).balanceDelta <;> exact codeView_change rfl rfl rfl a
  | _ => exact hread ho

theorem StateDB.Calls.getCode_of_isMove (h : Calls (fun o => o.isMove) d d') (a : Address) :
    (d'.getCode a).1 = (d.getCode a).1 := by
  rw [getCode_eq_of_codeView, getCode_eq_of_codeView, h.codeView_eq]

theorem StateDB.HashMatches.of_isMove (hm : d.HashMatches a)
    (h : Calls (fun o => o.isMove) d d') : d'.HashMatches a := by
  refine ⟨?_, ?_⟩
  · rw [h.codeView_eq, h.getCode_of_isMove]
    exact hm.record
  · rw [h.codeView_eq, h.getCode_of_isMove]
    exact hm.entry

/-- The hash that is read on the way is the hash of the code. -/
theorem StateDB.HashMatches.getCodeHash_of_isMove (hm : d.HashMatches a)
    (h : Calls (fun o => o.isMove) d d') :
    (d'.getCodeHash a).1 = keccak256Hash (d.getCode a).1 := by
  rw [(hm.of_isMove h).getCodeHash, h.getCode_of_isMove]

/-- **An account with code exists**, if its code hash is that of the
code. -/
theorem StateDB.HashMatches.exist (hk : ∀ code, keccak256Hash code = emptyCode → code = [])
    (h : d.HashMatches a) (hcode : (d.getCode a).1 ≠ []) : (d.exist a).1 = true := by
  have hdel : (d.getAccount a).deleted = false := by
    rw [← Bool.not_eq_true]
    intro hdel
    rw [getCode_eq_of_codeView, if_pos (show (d.codeView a).1 = true from hdel)] at hcode
    exact hcode rfl
  have hempty : ((d.getAccount a).empty d.tx a).1 = false := by
    rw [← Bool.not_eq_true, empty_iff hdel]
    rintro ⟨-, -, hhash⟩
    refine hcode (hk _ ?_)
    cases hs : (d.getAccount a).seen d.tx a with
    | some account =>
      rw [hs] at hhash
      rw [← h.record account (record_of_seen hdel hs), hhash]
    | none =>
      rw [hs] at hhash
      rw [← h.entry hdel]
      exact hhash
  show ((if (d.getAccount a).deleted then _ else _ : Bool × StateObject)).1 = true
  rw [if_neg (by simp [hdel])]
  simp [hempty]

/-- An account that was just created has no code. -/
theorem StateDB.getCode_createAccount (hstore : d.tx.accountCode [] = none) (a : Address) :
    ((d.createAccount a).getCode a).1 = [] := by
  have hnew : ∀ (o : StateObject) (es : List JournalEntry), o.account = some {} →
      o.deleted = false → o.code = none →
      (({ d.setAccount a o with journal := es } : StateDB).getCode a).1 = [] := by
    intro o es hacc hdel hcode
    show (((d.setAccount a o).getAccount a).getCode d.tx a).1 = []
    rw [getCode_fst, getAccount_setAccount, codeOf, hdel,
      if_neg Bool.false_ne_true, codeEntry, hcode, StateObject.record, hdel,
      if_neg Bool.false_ne_true, hacc]
    show ((entryOf d.tx (some {})).code) = []
    unfold entryOf
    dsimp only
    split_ifs
    · rfl
    · rw [hstore]
      rfl
  unfold createAccount
  dsimp only
  split_ifs <;> exact hnew _ _ rfl rfl rfl

end Code

/-! ## The calls -/

section Calls

open Evm

variable {env : Env} {a : Address} {e : Evm} {d : StateDB} {input : Bytes} {gas : UInt64}

/-- **A contract carries the code an address stands for**, and its
hash. -/
structure Contract.Carries (env : Env) (d : StateDB) (a : Address) (c : Contract) : Prop where
  code : c.code = (d.getCode (codeAccount env a d)).1
  codeHash : c.codeHash = keccak256Hash c.code

theorem codeAccount_of_isMove {d' : StateDB} (h : StateDB.Calls (fun o => o.isMove) d d') :
    codeAccount env a d' = codeAccount env a d := by
  unfold codeAccount
  rw [h.getCode_of_isMove]

/-- An account without code stands for itself. -/
theorem codeAccount_of_nil (h : (d.getCode a).1 = []) : codeAccount env a d = a := by
  unfold codeAccount
  rw [h]
  split_ifs <;> rfl

omit [Keccak] in
theorem Evm.sat_newContract (caller : ContractRef) (object : Address) (value : Int)
    (gas : UInt64) :
    Sat (newContract caller object value gas) e (fun _ e' => e'.statedb = e.statedb)
      (fun _ _ => False) := by
  cases caller with
  | contract c => exact rfl
  | accountRef b => exact rfl

theorem StateDB.Calls.transfer_isMove {d' : StateDB}
    (h : StateDB.Calls (fun o => o.isMove) d d') (x y : Address) (value : Int) :
    StateDB.Calls (fun o => o.isMove) d ((d'.subBalance x value).addBalance y value) :=
  (h.op (.subBalance x value) rfl rfl).op (.addBalance y value) rfl rfl

/-- `CanTransfer`, for a sender who has the value. -/
theorem Evm.sat_canTransfer {addr : Address} {value : Int}
    (hvalue : value ≤ (e.statedb.getBalance addr).1) :
    Sat (canTransfer addr value) e
      (fun funded e' => funded = true ∧ StateDB.Reads e.statedb e'.statedb) (fun _ _ => False) :=
  ⟨decide_eq_true hvalue, .of_op (.getBalance addr) rfl rfl⟩

/-- The analyses that the contract of a new frame shares. -/
def Evm.jumpdestsOf (e : Evm) : ContractRef → GoMap Hash Bitvec
  | .contract _ => e.jumpdests
  | .accountRef _ => fun _ => none

section Unrefused

variable (hp : env.precompile a = none)

include hp

/-- The end of `CallCode` and `DelegateCall`. -/
theorem Evm.executes_codeBody (ht : d.HashMatches (codeAccount env a d)) (input : Bytes)
    (gas : UInt64) {contract : EStateM Fault Evm Contract} (hreads : StateDB.Reads d e.statedb)
    (hc : Sat contract e (fun _ e' => e'.statedb = e.statedb) (fun _ _ => False)) :
    Executes (Contract.Carries env d a) input false
      (fun run => codeBody env run a input gas contract) e := by
  unfold codeBody
  simp only [hp]
  refine .bind_left (hc.mono (fun c e₁ h₁ => ?_))
  refine .bind_left ((sat_resolveCodeHash e₁).mono (fun hash e₂ h₂ => ?_))
  obtain ⟨d₁, d₂, hr₁, hr₂, hhash, rfl⟩ := h₂
  refine .bind_left ((sat_resolveCode _).mono (fun code e₃ h₃ => ?_))
  obtain ⟨d₃, d₄, hr₃, -, hcode, rfl⟩ := h₃
  rw [h₁] at hr₁ hr₂ hhash
  have hcode' : code = (d.getCode (codeAccount env a d)).1 := by
    rw [hcode, hr₃.getCode_fst, hr₂.getCode_fst, hreads.getCode_fst, codeAccount_eq hr₂,
      codeAccount_eq hreads]
  refine .execute ⟨hcode', ?_⟩
  show hash = keccak256Hash code
  rw [hcode', hhash, codeAccount_eq hreads]
  exact ht.getCodeHash_of_isMove (.of_reads (hreads.trans hr₁))

/-- The end of `Call`, where there is code. -/
theorem Evm.executes_callCodeAt (ht : d.HashMatches (codeAccount env a d))
    (hcode : (d.getCode (codeAccount env a d)).1 ≠ [])
    (caller : ContractRef) (input : Bytes) (gas : UInt64) (value : Int)
    (hmove : StateDB.Calls (fun o => o.isMove) d e.statedb) :
    Executes (Contract.Carries env d a) input false
      (fun run => callCodeAt env run caller a input gas value) e := by
  unfold callCodeAt
  simp only [hp]
  refine .bind_left ((sat_resolveCode e).mono (fun code e₁ h₁ => ?_))
  obtain ⟨d₁, d₂, hr₁, hr₂, hread, rfl⟩ := h₁
  have hcode' : code = (d.getCode (codeAccount env a d)).1 := by
    rw [hread, hr₁.getCode_fst, hmove.getCode_of_isMove, codeAccount_of_isMove hmove]
  refine .ite_neg (by rwa [List.isEmpty_iff, hcode']) ?_
  refine .bind_left ((sat_newContract _ _ _ _).mono (fun c e₂ h₂ => ?_))
  refine .bind_left ((sat_resolveCodeHash e₂).mono (fun hash e₃ h₃ => ?_))
  obtain ⟨d₃, d₄, hr₃, -, hhash, rfl⟩ := h₃
  rw [h₂] at hr₃ hhash
  refine .execute ⟨hcode', ?_⟩
  show hash = keccak256Hash code
  rw [hcode', hhash, codeAccount_eq hr₂, codeAccount_of_isMove hmove]
  exact ht.getCodeHash_of_isMove (hmove.trans (StateDB.Calls.of_reads (hr₂.trans hr₃)))

/-- The end of `Call`, where there is none. -/
theorem Evm.runsNothing_callCodeAt (caller : ContractRef) (input : Bytes) (gas : UInt64)
    (value : Int)
    (hnil : (e.statedb.getCode (codeAccount env a e.statedb)).1 = []) :
    RunsNothing (fun run => callCodeAt env run caller a input gas value) e := by
  unfold callCodeAt
  simp only [hp]
  refine .bind_left ((sat_resolveCode e).mono (fun code e₁ h₁ => ?_))
  obtain ⟨d₁, d₂, hr₁, -, hcode, rfl⟩ := h₁
  rw [hr₁.getCode_fst, hnil] at hcode
  exact .ite (fun _ => .const _) fun h => absurd (hcode ▸ rfl) h

/-- `Call` runs nothing where there is no code. -/
theorem Evm.runsNothing_call (hstore : e.statedb.tx.accountCode [] = none)
    (hnil : (e.statedb.getCode (codeAccount env a e.statedb)).1 = []) (caller : ContractRef)
    (input : Bytes) (gas : UInt64) (value : Int) :
    RunsNothing (fun run => call env run caller a input gas value) e := by
  refine .bind_left (sat_get.mpr (.ite (fun _ => .const _) fun _ => .bind_left ?_))
  refine (funded_reads _ _).mono (fun funded e₁ h₁ => ?_) fun _ _ _ => trivial
  obtain ⟨hreads, -⟩ := h₁
  refine .ite (fun _ => .const _) fun _ => .bind_left (sat_get.mpr (.bind_left (sat_onDb.mpr ?_)))
  refine .ite (fun _ => .const _) fun _ => .bind_right ?_ _
  have hexist : StateDB.Reads e.statedb (e₁.statedb.exist a).2 :=
    hreads.reads.op (.exist a) rfl rfl
  cases (e₁.statedb.exist a).1 with
  | true =>
    refine .bind_left (.bind_left (sat_transfer.mpr ?_))
    have hmove := StateDB.Calls.transfer_isMove (.of_reads hexist) caller.address a value
    refine runsNothing_callCodeAt hp caller input gas value ?_
    exact (hmove.getCode_of_isMove _).trans ((codeAccount_of_isMove hmove).symm ▸ hnil)
  | false =>
    refine .bind_left (.bind_left (sat_transfer.mpr ?_))
    have htx : (e₁.statedb.exist a).2.tx = e.statedb.tx := hexist.le.tx
    refine runsNothing_callCodeAt hp caller input gas value ?_
    have hnew := ((StateDB.Calls.transfer_isMove (.refl _) caller.address a value).getCode_of_isMove
      a).trans (getCode_createAccount (d := (e₁.statedb.exist a).2) (htx ▸ hstore) a)
    exact (codeAccount_of_nil hnew).symm ▸ hnew

variable (hdepth : e.depth ≤ Params.callCreateDepth)

include hdepth

/-- **`Call` runs the code an address stands for**, if there is any. -/
theorem Evm.executes_call (hk : ∀ code, keccak256Hash code = emptyCode → code = [])
    (ha : e.statedb.HashMatches a) (ht : e.statedb.HashMatches (codeAccount env a e.statedb))
    (hcode : (e.statedb.getCode (codeAccount env a e.statedb)).1 ≠ []) (caller : ContractRef)
    (input : Bytes) (gas : UInt64) {value : Int}
    (hvalue : value ≠ 0 → value ≤ (e.statedb.getBalance caller.address).1) :
    Executes (Contract.Carries env e.statedb a) input false
      (fun run => call env run caller a input gas value) e := by
  -- the code of the address itself is not empty, being this code or a designator
  have hown : (e.statedb.getCode a).1 ≠ [] := fun hnil =>
    hcode ((codeAccount_of_nil hnil).symm ▸ hnil)
  have hfunded : Sat (if value = 0 then pure true else canTransfer caller.address value) e
      (fun funded e' => funded = true ∧ StateDB.Reads e.statedb e'.statedb)
      (fun _ _ => False) :=
    .ite (fun _ => ⟨rfl, .refl _⟩) fun hne => sat_canTransfer (hvalue hne)
  refine .bind_left (sat_get.mpr (.ite_neg (Nat.not_lt.mpr hdepth) (.bind_left ?_)))
  refine hfunded.mono ?_ fun _ _ h => h
  rintro _ e₁ ⟨rfl, hreads⟩
  refine .ite_neg (by decide) (.bind_left (sat_get.mpr (.bind_left (sat_onDb.mpr ?_))))
  have hmatches : e₁.statedb.HashMatches a := ha.of_isMove (.of_reads hreads)
  have hexist := hmatches.exist hk (hreads.getCode_fst a ▸ hown)
  refine .ite_neg (by simp [hexist]) (.bind_right ?_ _)
  rw [hexist]
  refine .bind_left (.bind_left (sat_transfer.mpr ?_))
  exact executes_callCodeAt hp ht hcode caller input gas value
    (StateDB.Calls.transfer_isMove (.of_reads (hreads.op (.exist a) rfl rfl)) _ _ _)

/-- **`CallCode` runs the code an address stands for.** -/
theorem Evm.executes_callCode (ht : e.statedb.HashMatches (codeAccount env a e.statedb))
    (caller : ContractRef) (input : Bytes) (gas : UInt64) {value : Int}
    (hvalue : value ≤ (e.statedb.getBalance caller.address).1) :
    Executes (Contract.Carries env e.statedb a) input false
      (fun run => callCode env run caller a input gas value) e := by
  refine .bind_left (sat_get.mpr (.ite_neg (Nat.not_lt.mpr hdepth) (.bind_left ?_)))
  refine (sat_canTransfer hvalue).mono ?_ fun _ _ h => h
  rintro _ e₁ ⟨rfl, hreads⟩
  refine .ite_neg (by decide) (.bind_left (sat_get.mpr (.bind_right ?_ _)))
  exact executes_codeBody hp ht input gas hreads (sat_newContract _ _ _ _)

/-- **So does `DelegateCall`**, of a contract. -/
theorem Evm.executes_delegateCall (ht : e.statedb.HashMatches (codeAccount env a e.statedb))
    (parent : Contract) (input : Bytes) (gas : UInt64) :
    Executes (Contract.Carries env e.statedb a) input false
      (fun run => delegateCall env run (.contract parent) a input gas) e := by
  refine .bind_left (sat_get.mpr (.ite_neg (Nat.not_lt.mpr hdepth)
    (.bind_left (sat_get.mpr (.bind_right ?_ _)))))
  exact executes_codeBody hp ht input gas (.refl _) ((sat_newContract _ _ _ _).next fun _ _ h => h)

/-- **The contract a static call runs** carries the code of the address
itself. -/
theorem Evm.staticCall_eq_execute (caller : ContractRef) (input : Bytes) (gas : UInt64) :
    ∃ c e', c.code = (e.statedb.getCode a).1
      ∧ c.codeHash = (e.statedb.getCodeHash a).1 ∧ ∀ run,
      staticCall env run caller a input gas e
        = (execute run c input true >>= conclude e.statedb.snapshot) e' := by
  have hread := reads_getCodeHash e.statedb a
  refine ⟨Contract.setCallCode
      { callerAddress := caller.address, self := a, gas := gas, value := 0 }
      (e.statedb.getCodeHash a).1 ((e.statedb.getCodeHash a).2.getCode a).1,
    { e with
      statedb := ((e.statedb.getCodeHash a).2.getCode a).2
      jumpdests := e.jumpdestsOf caller },
    hread.getCode_fst a, rfl, fun run => ?_⟩
  have hbody : staticBody env run caller a input gas = (do
      setDb (fun d => d.addBalance a 0)
      let contract ← newContract caller a 0 gas
      let hash ← onDb (fun d => d.getCodeHash a)
      let code ← onDb (fun d => d.getCode a)
      execute run (contract.setCallCode hash code) input true) := by
    unfold staticBody
    rw [hp]
  show (if Params.callCreateDepth < e.depth then pure ([], gas, some VmErr.depth)
    else do
      let s ← get
      let r ← staticBody env run caller a input gas
      conclude s.statedb.snapshot r : EStateM Fault Evm CallResult) e = _
  rw [if_neg (Nat.not_lt.mpr hdepth), hbody]
  cases caller with
  | accountRef b => rfl
  | contract c => rfl

end Unrefused

/-- **Uniform delegation**: each of the four calls, unless it is refused,
executes a contract with the code of the account an address stands for,
and its hash. `Call` does not execute a contract without code. -/
structure UniformDelegation (env : Env) (a : Address) (e : Evm) : Prop where
  call : (e.statedb.getCode (codeAccount env a e.statedb)).1 ≠ [] →
    ∀ (caller : ContractRef) input gas value,
      (value ≠ 0 → value ≤ (e.statedb.getBalance caller.address).1) →
      Executes (Contract.Carries env e.statedb a) input false
        (fun run => Evm.call env run caller a input gas value) e
  callNothing : (e.statedb.getCode (codeAccount env a e.statedb)).1 = [] →
    ∀ caller input gas value, RunsNothing (fun run => Evm.call env run caller a input gas value) e
  callCode : ∀ (caller : ContractRef) input gas value,
    value ≤ (e.statedb.getBalance caller.address).1 →
    Executes (Contract.Carries env e.statedb a) input false
      (fun run => Evm.callCode env run caller a input gas value) e
  delegateCall : ∀ parent input gas, Executes (Contract.Carries env e.statedb a) input false
    (fun run => Evm.delegateCall env run (.contract parent) a input gas) e
  staticCall : ∀ caller input gas, Executes (Contract.Carries env e.statedb a) input true
    (fun run => Evm.staticCall env run caller a input gas) e

/-- A static call executes the code of the address itself. -/
theorem UniformDelegation.getCode_eq (h : UniformDelegation env a e)
    (hp : env.precompile a = none) (hdepth : e.depth ≤ Params.callCreateDepth) :
    (e.statedb.getCode a).1 = (e.statedb.getCode (codeAccount env a e.statedb)).1 := by
  obtain ⟨c, e', hcode, -, heq⟩ := staticCall_eq_execute hp hdepth (.accountRef a) [] 0
  rw [← hcode]
  exact ((h.staticCall _ [] 0).of_eq heq).code

/-- **Delegation is uniform exactly where a static call does without it**:
where the account that the address stands for has the code of the address
itself, as it does if this code is no delegation designator. The code
hashes of the two accounts are those of their code, and only the empty
code has its hash; the store keeps no code under an empty hash. -/
theorem uniformDelegation_iff (hk : ∀ code, keccak256Hash code = emptyCode → code = [])
    (hp : env.precompile a = none) (hdepth : e.depth ≤ Params.callCreateDepth)
    (hstore : e.statedb.tx.accountCode [] = none) (ha : e.statedb.HashMatches a)
    (ht : e.statedb.HashMatches (codeAccount env a e.statedb)) :
    UniformDelegation env a e
      ↔ (e.statedb.getCode a).1 = (e.statedb.getCode (codeAccount env a e.statedb)).1 := by
  refine ⟨fun h => h.getCode_eq hp hdepth, fun heq => ?_⟩
  refine
    { call := fun hcode caller input gas _ =>
        executes_call hp hdepth hk ha ht hcode caller input gas
      callNothing := fun hnil => runsNothing_call hp hstore hnil
      callCode := fun caller input gas _ => executes_callCode hp hdepth ht caller input gas
      delegateCall := executes_delegateCall hp hdepth ht
      staticCall := fun caller input gas => ?_ }
  obtain ⟨c, e', hcode, hhash, hrun⟩ := staticCall_eq_execute hp hdepth caller input gas
  refine ⟨c, e', _, ⟨hcode.trans heq, ?_⟩, hrun⟩
  rw [hhash, hcode, ha.getCodeHash]

omit [Keccak]

/-- A static call of an account that delegates to one that stops: it runs
the designator, and takes all of the gas, where a call has it all back. -/
theorem not_uniformDelegation_static :
    letI := Keccak.digests
    let env : Env := { rules := { isPrague := true } }
    let designator : Bytes := [0xef, 0x01, 0x00] ++ Address.bytes 0x2000
    let d := ((StateDB.newStateDB StorageTx.empty).setCode 0x1000 designator).setCode 0x2000 [0x00]
    let e : Evm := { statedb := d }
    env.precompile 0x1000 = none ∧ e.statedb.tx.accountCode [] = none
      ∧ ¬ UniformDelegation env 0x1000 e
      ∧ (Evm.staticCall env (run env 5) (.accountRef 0x3000) 0x1000 [] 100).run' e
        = some ([], 0, some (.invalidOpCode 0xef))
      ∧ (Evm.callCode env (run env 5) (.accountRef 0x3000) 0x1000 [] 100 0).run' e
        = some ([], 100, none) := by
  let _ := Keccak.digests
  intro env designator d e
  have hp : env.precompile 0x1000 = none := by decide +kernel
  refine ⟨hp, rfl, fun h => ?_, by decide +kernel, by decide +kernel⟩
  exact absurd (h.getCode_eq hp (by decide)) (by decide +kernel)

/-- A contract with code of its own. -/
theorem uniformDelegation_iff_own :
    letI := Keccak.digests
    let env : Env := { rules := { isPrague := true } }
    let tx : StorageTx := .single 0x1000
      { nonce := 1, balance := some 0, codeHash := Hash.bytes (keccak256Hash [0x5b]) } [0x5b]
    let e : Evm := { statedb := StateDB.newStateDB tx }
    env.precompile 0x1000 = none ∧ e.statedb.tx.accountCode [] = none
      ∧ e.statedb.HashMatches 0x1000 ∧ UniformDelegation env 0x1000 e := by
  let _ := Keccak.digests
  intro env tx e
  have hp : env.precompile 0x1000 = none := by decide +kernel
  have hself : codeAccount env 0x1000 e.statedb = 0x1000 := by decide +kernel
  have hmatches : e.statedb.HashMatches 0x1000 := by
    refine ⟨?_, fun _ => by decide +kernel⟩
    rintro account ⟨⟩
    decide +kernel
  refine ⟨hp, by decide +kernel, hmatches, ?_⟩
  refine (uniformDelegation_iff keccak_digests_empty hp (by decide) (by decide +kernel) hmatches
    (hself.symm ▸ hmatches)).mpr ?_
  rw [hself]

end Calls
