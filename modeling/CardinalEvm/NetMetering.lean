import CardinalEvm.Refunds

/-!
# Net metering telescopes

A store is charged by three values of its slot: the one the transaction
began with, the one it has, and the one it is to get. What is charged too
much at one store comes back as a refund at a later one. Taken together,
charge and refund are a difference of one number at two values of the
slot, plus 100: so that of a sequence of stores to one slot only the
number of stores and the value of the last one are left.

The refund counter has 64 bits and wraps around; what is said of it is
said modulo `2 ^ 64`, and without the modulus as long as it stays in its
range. It never falls below where it began.
-/

variable [Keccak]

open StateDB OpCode

/-! ## The price of a value

What is charged and refunded depends on which of the three values are
equal and which are zero, and on nothing else of them. -/

section Values

omit [Keccak]

variable {V : Type} [Zero V] [DecidableEq V]

/-- **What it costs to leave a value in a slot** that began with another,
beyond the 100 of each store. -/
def netPrice (R : ℤ) (original value : V) : ℤ :=
  if value = original then 0
  else if original = 0 then 19900
  else if value = 0 then 2800 - R
  else 2800

/-- The refund that a cleared slot holds. -/
def heldRefund (R : ℤ) (original value : V) : ℤ :=
  if original ≠ 0 ∧ value = 0 then R else 0

/-- What `clearingRefunds` adds to the counter. -/
def clearingNet (R : ℤ) (original current value : V) : ℤ :=
  if original ≠ 0 then if current = 0 then -R else if value = 0 then R else 0 else 0

/-- What `resettingRefunds` adds to it. -/
def resettingNet (original value : V) : ℤ :=
  if original = value then if original = 0 then 19900 else 2800 else 0

/-- **A store was metered**: its price and the refunds differ by what the
new value costs more than the old one, and no more was taken back than
the slot held. -/
structure Metered (R : ℤ) (original current value : V) (cost net : ℤ) : Prop where
  price : cost - net = 100 + netPrice R original value - netPrice R original current
  held : heldRefund R original value - heldRefund R original current ≤ net

namespace Metered

variable {R : ℤ} {original current value : V}

/-- Nothing is stored. -/
theorem noop (original value : V) : Metered R original value value 100 0 :=
  ⟨by omega, by omega⟩

/-- The first store to a slot that began with zero. -/
theorem init (hv : value ≠ 0) : Metered R 0 0 value 20000 0 := by
  constructor
  · simp [netPrice, hv]
  · simp [heldRefund]

/-- The first store to another slot clears it. -/
theorem clear (ho : original ≠ 0) : Metered R original original 0 2900 R := by
  constructor
  · simp [netPrice, ho, ho.symm]
    ring
  · simp [heldRefund, ho]

/-- The first store to another slot changes it. -/
theorem change (ho : original ≠ 0) (hv : value ≠ original) (h0 : value ≠ 0) :
    Metered R original original value 2900 0 := by
  constructor
  · simp [netPrice, ho, hv, h0]
  · simp [heldRefund, ho, h0]

/-- A later store. -/
theorem dirty (hc : original ≠ current) (hv : current ≠ value) :
    Metered R original current value 100
      (clearingNet R original current value + resettingNet original value) := by
  by_cases ho : original = 0
  · subst ho
    by_cases h0 : value = 0
    · subst h0
      constructor <;> simp [netPrice, heldRefund, clearingNet, resettingNet, hv]
    · constructor <;>
        simp [netPrice, heldRefund, clearingNet, resettingNet, hc.symm, h0, Ne.symm h0]
  by_cases h0 : current = 0
  · -- what the slot held is taken back
    subst h0
    by_cases hov : original = value
    · subst hov
      constructor
      · simp [netPrice, clearingNet, resettingNet, ho, hc.symm]
        ring
      · simp [heldRefund, clearingNet, resettingNet, ho]
    · constructor
      · simp [netPrice, clearingNet, resettingNet, ho, hc.symm, hov, Ne.symm hov, hv.symm]
        ring
      · simp [heldRefund, clearingNet, resettingNet, ho, hov, hv.symm]
  · by_cases hov : original = value
    · subst hov
      constructor <;> simp [netPrice, heldRefund, clearingNet, resettingNet, ho, h0, hc.symm]
    · by_cases hv0 : value = 0
      · subst hv0
        constructor
        · simp [netPrice, clearingNet, resettingNet, ho, h0, hc.symm, Ne.symm ho]
          ring
        · simp [heldRefund, clearingNet, resettingNet, ho, h0]
      · constructor <;>
          simp [netPrice, heldRefund, clearingNet, resettingNet, ho, h0, hv0, hov, hc.symm,
            Ne.symm hov]

end Metered

end Values

/-! ## The counter -/

/-- A counter of 64 bits that was moved by a number. -/
def Moved (before : UInt64) (net : ℤ) (after : UInt64) : Prop :=
  (after.toNat : ℤ) = (before.toNat + net) % 2 ^ 64

section Counter

omit [Keccak]

variable {a b c : UInt64} {m n : ℤ}

theorem Moved.zero (a : UInt64) : Moved a 0 a := by
  have := a.toNat_lt
  unfold Moved
  omega

theorem Moved.trans (h : Moved a m b) (h' : Moved b n c) : Moved a (m + n) c := by
  unfold Moved at h h' ⊢
  rw [h', h, Int.emod_add_emod, add_assoc]

theorem Moved.add (a amount : UInt64) : Moved a amount.toNat (a + amount) := by
  unfold Moved
  rw [UInt64.toNat_add]
  omega

theorem Moved.sub (a amount : UInt64) : Moved a (-amount.toNat) (a - amount) := by
  have := amount.toNat_lt
  unfold Moved
  rw [UInt64.toNat_sub]
  omega

/-- A counter that stays in its range was moved by the difference. -/
theorem Moved.sub_eq (h : Moved a m b) (h0 : 0 ≤ m) (hm : a.toNat + m < 2 ^ 64) :
    (b.toNat : ℤ) - a.toNat = m := by
  unfold Moved at h
  omega

end Counter

/-! ## One store -/

/-- **What metering does to a state**: it moves the refund counter, and
leaves the gas, the slots and the access list alone. -/
structure GasSt.Credited (t : GasSt) (net : ℤ) (t' : GasSt) : Prop where
  gas : t'.gas = t.gas
  slots : SameSlots t.statedb t'.statedb
  warm : t'.statedb.slotInAccessList = t.statedb.slotInAccessList
  refund : Moved t.statedb.refund net t'.statedb.refund

namespace GasSt.Credited

omit [Keccak]

variable {t u v : GasSt} {m n : ℤ}

theorem zero (t : GasSt) : t.Credited 0 t := ⟨rfl, .refl _, rfl, .zero _⟩

theorem trans (h : t.Credited m u) (h' : u.Credited n v) : t.Credited (m + n) v :=
  ⟨h'.gas.trans h.gas, h.slots.trans h'.slots, h'.warm.trans h.warm, h.refund.trans h'.refund⟩

end GasSt.Credited

section Store

variable {R : UInt64} {self : Address} {slot original current value : Hash} {t : GasSt}

section Refund

omit [Keccak]

theorem credited_addRefund {α : Type} (a : α) (amount : UInt64) :
    Sat (do GasM.addRefund amount; pure a) t (fun b t' => b = a ∧ t.Credited amount.toNat t')
      (fun _ _ => False) :=
  ⟨rfl, rfl, ⟨fun _ => rfl, fun _ => rfl⟩, rfl, .add _ _⟩

theorem credited_clearingRefunds :
    Sat (clearingRefunds (netCostsEIP2929 R) original current value) t
      (fun _ t' => t.Credited (clearingNet R.toNat original current value) t')
      (fun _ _ => False) := by
  unfold clearingNet
  refine .ite (fun ho => ?_) fun ho => ?_
  · rw [if_pos ho]
    refine .ite (fun hc => ?_) fun hc => .ite (fun hv => ?_) fun hv => ?_
    · rw [if_pos hc]
      exact ⟨rfl, ⟨fun _ => rfl, fun _ => rfl⟩, rfl, .sub _ _⟩
    · rw [if_neg hc, if_pos hv]
      exact ⟨rfl, ⟨fun _ => rfl, fun _ => rfl⟩, rfl, .add _ _⟩
    · rw [if_neg hc, if_neg hv]
      exact .zero t
  · rw [if_neg ho]
    exact .zero t

theorem credited_resettingRefunds :
    Sat (resettingRefunds (netCostsEIP2929 R) original value) t
      (fun _ t' => t.Credited (resettingNet original value) t') (fun _ _ => False) := by
  unfold resettingNet
  refine .ite (fun hv => ?_) fun hv => ?_
  · rw [if_pos hv]
    refine .ite (fun ho => ?_) fun ho => ?_
    · rw [if_pos ho]
      exact ⟨rfl, ⟨fun _ => rfl, fun _ => rfl⟩, rfl, .add _ _⟩
    · rw [if_neg ho]
      exact ⟨rfl, ⟨fun _ => rfl, fun _ => rfl⟩, rfl, .add _ _⟩
  · rw [if_neg hv]
    exact .zero t

end Refund

/-- Looking something up leaves the counter and the slots alone. -/
theorem credited_of_le {d : StateDB} (h : Le t.statedb d) :
    t.Credited 0 { t with statedb := d } := by
  refine ⟨rfl, .of_view h.tx h.view, ?_, ?_⟩
  · funext a k
    unfold slotInAccessList
    rw [h.alcalc, h.accessList]
  · rw [h.refund]
    exact .zero _

end Store

section Store

variable {R : UInt64} {self : Address} {slot value : Hash} {d : StateDB} {t : GasSt}

/-- **Net metering** of a store, by the cases it distinguishes. -/
theorem metered_netSStore (hd : SameSlots d t.statedb) :
    Sat (netSStore (netCostsEIP2929 R) self slot value (d.slotCurrent (self, slotKey slot))) t
      (fun cost t' => ∃ net, t.Credited net t' ∧
        Metered R.toNat (d.slotCommitted (self, slotKey slot)) (d.slotCurrent (self, slotKey slot))
          value cost.toNat net)
      (fun _ _ => False) := by
  have horiginal : (t.statedb.getCommittedState self slot).1
      = d.slotCommitted (self, slotKey slot) :=
    (getCommittedState_eq t.statedb self slot).trans (hd.committed _)
  generalize d.slotCurrent (self, slotKey slot) = current
  generalize d.slotCommitted (self, slotKey slot) = original at horiginal ⊢
  refine .ite (fun hnoop => ?_) (fun hne => .bind (sat_modifyGet.mpr ?_))
  · rw [hnoop]
    exact ⟨0, .zero t, .noop original value⟩
  rw [horiginal]
  have hread := credited_of_le (loads_getCommittedState t.statedb self slot).le
  generalize (t.statedb.getCommittedState self slot).2 = e at hread ⊢
  refine .ite (fun hsame => ?_) fun hdirty => ?_
  · subst hsame
    refine .ite (fun h0 => ?_) fun h0 => .ite (fun hv => ?_) fun hv => ?_
    · subst h0
      exact ⟨0, hread, .init (Ne.symm hne)⟩
    · subst hv
      refine (credited_addRefund _ _).mono (fun cost t' h => ?_)
      obtain ⟨rfl, hadd⟩ := h
      have htotal := hread.trans hadd
      rw [zero_add] at htotal
      exact ⟨_, htotal, .clear h0⟩
    · exact ⟨0, hread, .change h0 (Ne.symm hne) hv⟩
  · refine credited_clearingRefunds.next fun _ u hu => ?_
    refine credited_resettingRefunds.next fun _ v hv => ?_
    exact ⟨_, by simpa using hread.trans (hu.trans hv), .dirty hdirty hne⟩

/-- **The gas function of `SSTORE`** charges what the metering does, for a
slot that is warm. -/
theorem metered_gasSStoreFunc {s : GasScope} {ws : List Word}
    (hstack : s.stack = slot :: value :: ws)
    (hwarm : t.statedb.slotInAccessList s.self slot = some (true, true)) :
    Sat (gasSStoreFunc R s) t
      (fun cost t' => ∃ net, t.Credited net t' ∧
        Metered R.toNat (t.statedb.getCommittedState s.self slot).1
          (t.statedb.getState s.self slot).1 value cost.toNat net)
      (fun _ _ => True) := by
  rw [getState_eq, getCommittedState_eq]
  have hback : ∀ {n w} {u : GasSt} {Q : Word → GasSt → Prop}, s.stack[n]? = some w → Q w u →
      Sat (GasM.back s n) u Q (fun _ _ => True) := by
    intro n w u Q hw hQ
    refine GasM.sat_back (fun w' hw' => ?_) fun _ => trivial
    obtain rfl := Option.some.inj (hw.symm.trans hw')
    exact hQ
  refine .bind (.bind (.ite (fun _ => trivial) fun _ => ?_))
  refine .bind (hback (w := value) (by rw [hstack]; rfl) ?_)
  refine .bind (hback (w := slot) (by rw [hstack]; rfl) ?_)
  refine .bind (sat_modifyGet.mpr ?_)
  rw [getState_eq]
  have hread := credited_of_le (t := t) (loads_getState t.statedb s.self slot).le
  generalize (t.statedb.getState s.self slot).2 = e at hread ⊢
  have hpresent : e.slotInAccessList s.self slot = some (true, true) := by
    rw [show e.slotInAccessList = _ from hread.warm, hwarm]
  refine .bind (.bind (sat_attempt (fun p u h => ?_) fun _ => trivial))
  rw [show (GasSt.statedb _).slotInAccessList s.self slot = _ from hpresent] at h
  cases h
  refine (metered_netSStore (d := t.statedb) hread.slots).next fun net u hu => ?_
  obtain ⟨m, hm, hmetered⟩ := hu
  have htotal := hread.trans hm
  rw [zero_add] at htotal
  exact ⟨m, htotal, by rwa [UInt64.zero_add]⟩

end Store

/-! ## The tables -/

/-- The entry of `SSTORE`, with the refund for clearing a slot. -/
def Operation.sstore (R : UInt64) : Operation :=
  .dynamic (.write .opSstore) 0 (.makeGasSStoreFunc R) 2 0

/-- **The refund for clearing a slot** that the rules set: 4800 from London
on, 15000 under Berlin, and before that there is no such entry. -/
def Rules.clearingRefund (rules : Rules) : Option UInt64 :=
  if rules.isOsaka then some 4800
  else if rules.isPrague then some 4800
  else if rules.isCancun then some 4800
  else if rules.isShanghai then some 4800
  else if rules.isMerge then some 4800
  else if rules.isLondon then some 4800
  else if rules.isBerlin then some 15000
  else none

section Tables

omit [Keccak]

/-- One choice of the table, along with one of the refund. -/
theorem sstore_ite {b : Bool} {jt jt' : JumpTable} {r R : UInt64} {c : Option UInt64}
    (hjt : jt SSTORE = .sstore r) (hjt' : c = some R → jt' SSTORE = .sstore R)
    (h : (if b then some r else c) = some R) : (if b then jt else jt') SSTORE = .sstore R := by
  cases b with
  | true =>
    obtain rfl : r = R := Option.some.inj h
    exact hjt
  | false => exact hjt' h

theorem Rules.instructionSet_sstore {rules : Rules} {R : UInt64}
    (h : rules.clearingRefund = some R) : rules.instructionSet SSTORE = .sstore R := by
  have hlondon : newLondonInstructionSet SSTORE = .sstore 4800 := rfl
  have hberlin : newBerlinInstructionSet SSTORE = .sstore 15000 := rfl
  refine sstore_ite (r := 4800) hlondon (sstore_ite (r := 4800) hlondon (sstore_ite (r := 4800)
    hlondon (sstore_ite (r := 4800) hlondon (sstore_ite (r := 4800) hlondon (sstore_ite hlondon
    (sstore_ite hberlin ?_)))))) h
  exact fun h => (Option.some_ne_none R h.symm).elim

/-- The table has the entry of the rules, unless it was disabled. -/
theorem Env.jumpTable_sstore {env : Env} {R : UInt64} (h : env.rules.clearingRefund = some R)
    (hext : env.extraEips = []) :
    env.jumpTable SSTORE = .sstore R ∨ env.jumpTable SSTORE = .undefined := by
  unfold Env.jumpTable
  rw [hext]
  have hedit : ∀ (jt : JumpTable) (e : TableEdit),
      jt SSTORE = .sstore R ∨ jt SSTORE = .undefined →
      e.apply jt SSTORE = .sstore R ∨ e.apply jt SSTORE = .undefined := by
    intro jt e hjt
    cases e with
    | disable op =>
      show (if SSTORE = op then _ else _) = _ ∨ (if SSTORE = op then _ else _) = _
      split_ifs
      · exact .inr rfl
      · exact hjt
    | difficulty => exact hjt
  generalize env.tableEdits ++ env.ownEdits = edits
  have hset := Or.inl (b := env.rules.instructionSet SSTORE = .undefined)
    (Rules.instructionSet_sstore h)
  generalize env.rules.instructionSet = jt at hset ⊢
  induction edits generalizing jt with
  | nil => exact hset
  | cons e edits ih => exact ih _ (hedit jt e hset)

end Tables

/-! ## Turns of the loop -/

section Turns

variable {env : Env} {run : Runner} {R : UInt64} {f : Frame} {slot value : Hash} {ws : List Word}

/-- The execution of a store takes its operands off the stack and writes
the state. -/
theorem Frame.sat_exec_sstore {t : Frame} (hstack : t.regs.stack = slot :: value :: ws) :
    Sat ((ExecFn.write .opSstore).exec env run) t
      (fun out t' => out.2 = none → t'.contract = t.contract ∧
        t.evm.statedb.setState t.contract.self slot value = some t'.evm.statedb)
      (fun _ _ => True) := by
  refine .bind (sat_get.mpr (.bind (sat_zoom.mpr ?_)))
  refine .ite (fun _ => ?_) fun _ => ?_
  · exact fun h => absurd h (Option.some_ne_none VmErr.writeProtection)
  refine .bind (RegsDb.sat_pop (fun x xs hx => .bind (RegsDb.sat_pop (fun y ys hy => ?_) trivial))
    trivial)
  obtain ⟨rfl, rfl⟩ := List.cons.inj (hstack.symm.trans hx)
  obtain ⟨rfl, rfl⟩ := List.cons.inj hy
  refine .bind (RegsDb.sat_setDb (fun d hd => ?_) trivial)
  exact fun _ => ⟨rfl, hd⟩

/-- A frame about to execute a store has paid what the gas function
charged. -/
theorem Frame.Prepared.sstore {t : Frame} (h : Prepared env (.sstore R) f t) :
    ∃ cost st, gasSStoreFunc R (f.gasScope env) (f.paid 0).gasSt = .ok cost st ∧
      cost ≤ st.gas ∧ t.contract.gas = st.gas - cost ∧ t.contract.self = f.contract.self ∧
      t.evm.statedb = st.statedb := by
  cases h with
  | constant hdyn => exact absurd hdyn (Option.some_ne_none _)
  | dynamic hdyn _ _ _ _ hgas hle =>
    cases hdyn
    exact ⟨_, _, hgas, hle, rfl, rfl, rfl⟩

/-- **A turn of the loop at an `SSTORE`** that lets the frame go on. -/
theorem Frame.sat_step_sstore (hop : f.contract.getOp f.regs.pc = SSTORE)
    (htable : env.jumpTable SSTORE = .sstore R) (hstack : f.regs.stack = slot :: value :: ws) :
    Sat (step env run) f
      (fun out f' => out.2 = none → ∃ cost st,
        gasSStoreFunc R (f.gasScope env) (f.paid 0).gasSt = .ok cost st ∧ cost ≤ st.gas ∧
        f'.contract.gas = st.gas - cost ∧
        st.statedb.setState f.contract.self slot value = some f'.evm.statedb)
      (fun _ _ => True) := by
  refine .bind (sat_get.mpr ?_)
  dsimp only
  rw [hop, htable]
  refine (sat_prepare f).next fun failed t ht => ?_
  cases failed with
  | some err => exact fun h => absurd h (Option.some_ne_none err)
  | none =>
    obtain ⟨cost, st, hgas, hle, hleft, hself, hdb⟩ := (ht rfl).sstore
    have hoperands : t.regs.stack = slot :: value :: ws :=
      (ht rfl).stack_eq.trans hstack
    refine (sat_exec_sstore hoperands).next fun out t' h => ?_
    refine .bind (sat_pure.mpr (.bind ?_))
    obtain ⟨res, _ | err⟩ := out
    · obtain ⟨hcontract, hset⟩ := h rfl
      refine fun _ => ⟨cost, st, hgas, hle, ?_, ?_⟩
      · rw [hcontract]
        exact hleft
      · rw [← hself, ← hdb]
        exact hset
    · exact fun h => absurd h (Option.some_ne_none err)

end Turns

/-! ## Sequences of stores -/

/-- **What happens between two stores** to a slot: nothing to the slot, its
place on the access list and the counter. -/
structure StateDB.Between (addr : Address) (slot : Hash) (d d' : StateDB) : Prop where
  current : (d'.getState addr slot).1 = (d.getState addr slot).1
  committed : (d'.getCommittedState addr slot).1 = (d.getCommittedState addr slot).1
  warm : d.slotInAccessList addr slot = some (true, true) →
    d'.slotInAccessList addr slot = some (true, true)
  refund : d'.refund = d.refund

/-- **A sequence of stores to one slot**: turns of the loop at an `SSTORE`,
in one frame or several, with the values they store and the gas that is
charged in all. -/
inductive StoresTo (env : Env) (self : Address) (slot : Hash) :
    StateDB → List Hash → ℤ → StateDB → Prop
  | nil (d : StateDB) : StoresTo env self slot d [] 0 d
  | store {d d₁ : StateDB} {vs : List Hash} {total : ℤ} {run : Runner} {f f' : Frame} {v : Hash}
      {ws : List Word} {res : Bytes} : StoresTo env self slot d vs total d₁ →
    Between self slot d₁ f.evm.statedb → f.contract.self = self →
    f.contract.getOp f.regs.pc = SSTORE → f.regs.stack = slot :: v :: ws →
    Frame.step env run f = .ok (res, none) f' →
    StoresTo env self slot d (vs ++ [v]) (total + (f.contract.gas.toNat - f'.contract.gas.toNat))
      f'.evm.statedb

/-- **What a slot looks like** after stores to it: what was charged and
what was refunded are told by the last value. -/
structure StateDB.Telescoped (addr : Address) (slot : Hash) (R : ℤ) (original : Hash)
    (refund : UInt64) (vs : List Hash) (total : ℤ) (d : StateDB) : Prop where
  committed : (d.getCommittedState addr slot).1 = original
  current : (d.getState addr slot).1 = vs.getLast?.getD original
  warm : d.slotInAccessList addr slot = some (true, true)
  net : ∃ net, Moved refund net d.refund ∧
    total - net = 100 * vs.length + netPrice R original (vs.getLast?.getD original) ∧
    heldRefund R original (vs.getLast?.getD original) ≤ net

section Runs

variable {env : Env} {self : Address} {slot original : Hash} {R : UInt64} {refund : UInt64}
  {vs : List Hash} {total : ℤ} {d d' : StateDB}

theorem StateDB.Telescoped.between (h : d.Telescoped self slot R.toNat original refund vs total)
    (hb : Between self slot d d') : d'.Telescoped self slot R.toNat original refund vs total := by
  obtain ⟨net, hnet⟩ := h.net
  exact ⟨hb.committed.trans h.committed, hb.current.trans h.current, hb.warm h.warm, net,
    by rwa [hb.refund]⟩

/-- What a store leaves of its slot. -/
theorem StateDB.stored_setState {v : Hash} (h : d.setState self slot v = some d') :
    (d'.getState self slot).1 = v ∧
      (d'.getCommittedState self slot).1 = (d.getCommittedState self slot).1 ∧
      d'.slotInAccessList = d.slotInAccessList ∧ d'.refund = d.refund := by
  obtain ⟨r, hr, rfl⟩ := Option.map_eq_some_iff.mp h
  obtain ⟨m, hm, rfl⟩ := Option.map_eq_some_iff.mp hr
  have hslots := slots_setAccount d self
    { d.getAccount self with dirty := some (Function.update m (slotKey slot) (some v)) }
    (self, slotKey slot)
  rw [if_pos rfl] at hslots
  refine ⟨?_, ?_, rfl, rfl⟩
  · rw [getState_eq]
    refine hslots.2.trans ?_
    simp [StateObject.current]
  · rw [getCommittedState_eq, getCommittedState_eq]
    exact hslots.1

/-- **A store carries it on.** -/
theorem StateDB.Telescoped.store {run : Runner} {f f' : Frame} {v : Hash} {ws : List Word}
    {res : Bytes} (h : f.evm.statedb.Telescoped self slot R.toNat original refund vs total)
    (htable : env.jumpTable SSTORE = .sstore R) (hself : f.contract.self = self)
    (hop : f.contract.getOp f.regs.pc = SSTORE) (hstack : f.regs.stack = slot :: v :: ws)
    (hstep : Frame.step env run f = .ok (res, none) f') :
    f'.evm.statedb.Telescoped self slot R.toNat original refund (vs ++ [v])
      (total + (f.contract.gas.toNat - f'.contract.gas.toNat)) := by
  subst hself
  obtain ⟨cost, st, hgas, hle, hleft, hset⟩ :=
    (Frame.sat_step_sstore hop htable hstack).of_ok hstep rfl
  obtain ⟨net, hcredited, hmetered⟩ :=
    (metered_gasSStoreFunc (s := f.gasScope env) (t := (f.paid 0).gasSt) hstack h.warm).of_ok hgas
  obtain ⟨hstored, hcommitted, hwarm, hrefund⟩ := stored_setState hset
  obtain ⟨net₀, hnet₀, htotal, hheld⟩ := h.net
  have hlast : (vs ++ [v]).getLast?.getD original = v := by simp
  have hsame : (st.statedb.getCommittedState f.contract.self slot).1
      = (f.evm.statedb.getCommittedState f.contract.self slot).1 := by
    rw [getCommittedState_eq, getCommittedState_eq]
    exact hcredited.slots.committed _
  have hprice := hmetered.price
  have hback := hmetered.held
  rw [show ((f.paid 0).gasSt.statedb.getCommittedState (f.gasScope env).self slot).1 = original
      from h.committed,
    show ((f.paid 0).gasSt.statedb.getState (f.gasScope env).self slot).1
      = vs.getLast?.getD original from h.current] at hprice hback
  have hcharged : (f'.contract.gas.toNat : ℤ) = f.contract.gas.toNat - cost.toNat := by
    have hgas₀ : st.gas = f.contract.gas := hcredited.gas.trans (UInt64.sub_zero _)
    have hle' := UInt64.le_iff_toNat_le.mp hle
    rw [hleft, UInt64.toNat_sub_of_le _ _ hle, hgas₀]
    rw [hgas₀] at hle'
    omega
  refine ⟨hcommitted.trans (hsame.trans h.committed), by rw [hlast, hstored], ?_,
    net₀ + net, ?_, ?_, ?_⟩
  · rw [hwarm, hcredited.warm]
    exact h.warm
  · rw [hrefund]
    exact hnet₀.trans hcredited.refund
  · rw [hlast, List.length_append, hcharged]
    push_cast
    simp only [List.length_singleton]
    omega
  · rw [hlast]
    omega

/-- A frame does not go on after an opcode that was disabled. -/
theorem Frame.sat_step_undefined {run : Runner} {f : Frame}
    (hop : f.contract.getOp f.regs.pc = SSTORE) (htable : env.jumpTable SSTORE = .undefined) :
    Sat (step env run) f (fun out _ => out.2 ≠ none) (fun _ _ => True) := by
  refine .bind (sat_get.mpr ?_)
  dsimp only
  rw [hop, htable]
  refine .bind (.of_forall (fun failed t => ?_) fun _ _ => trivial)
  cases failed with
  | some err => exact Option.some_ne_none err
  | none =>
    refine .bind (.bind (sat_get.mpr (sat_zoom.mpr ?_)))
    refine (ScopeFn.opUndefined_fails _ _).mono (fun out r h => ?_)
    exact .bind (sat_pure.mpr (.bind (.of_forall (fun _ _ => h.1) fun _ _ => trivial)))

theorem StoresTo.telescoped (hR : env.rules.clearingRefund = some R) (hext : env.extraEips = [])
    (h : StoresTo env self slot d vs total d')
    (hcommitted : (d.getCommittedState self slot).1 = original)
    (hcurrent : (d.getState self slot).1 = original)
    (hwarm : d.slotInAccessList self slot = some (true, true)) :
    d'.Telescoped self slot R.toNat original d.refund vs total := by
  induction h with
  | nil =>
    refine ⟨hcommitted, hcurrent, hwarm, 0, .zero _, ?_, ?_⟩
    · simp [netPrice]
    · exact (if_neg fun h => h.1 h.2).le
  | store _ hb hself hop hstack hstep ih =>
    obtain htable | htable := Env.jumpTable_sstore hR hext
    · exact (ih.between hb).store htable hself hop hstack hstep
    · exact absurd rfl ((Frame.sat_step_undefined hop htable).of_ok hstep)

/-- **SSTORE net metering telescopes.** Of a sequence of stores to a warm
slot that begins as it is committed, the gas that is charged is 100 for
each store, what the last value costs, and what the refund counter grows
by; whatever the values in between. The counter wraps around at `2 ^ 64`,
and is not lower at the end than at the beginning if it does not. -/
theorem sstore_telescopes (hR : env.rules.clearingRefund = some R) (hext : env.extraEips = [])
    (h : StoresTo env self slot d vs total d')
    (hcommitted : (d.getCommittedState self slot).1 = original)
    (hcurrent : (d.getState self slot).1 = original)
    (hwarm : d.slotInAccessList self slot = some (true, true)) :
    let due := 100 * vs.length + netPrice R.toNat original (vs.getLast?.getD original)
    0 ≤ total - due ∧ Moved d.refund (total - due) d'.refund ∧
      (d.refund.toNat + (total - due) < 2 ^ 64 →
        total - (d'.refund.toNat - d.refund.toNat) = due) := by
  obtain ⟨net, hmoved, hprice, hheld⟩ := (h.telescoped hR hext hcommitted hcurrent hwarm).net
  intro due
  have hnet : total - due = net := by omega
  have hheld₀ : 0 ≤ heldRefund (R.toNat : ℤ) original (vs.getLast?.getD original) := by
    unfold heldRefund
    split_ifs <;> omega
  rw [hnet]
  refine ⟨hheld₀.trans hheld, hmoved, fun hrange => ?_⟩
  rw [hmoved.sub_eq (hheld₀.trans hheld) hrange]
  omega

end Runs

/-- A frame about to store 0, 5 and 9 in slot 0 of the account 1. -/
def storingFrame (d : StateDB) : Frame where
  evm := { statedb := d }
  regs := { stack := [0, 0, 0, 5, 0, 9] }
  contract :=
    { callerAddress := 2, self := 1, code := [SSTORE, SSTORE, SSTORE], gas := 30000, value := 0 }

/-- One more store, by a turn of the loop that goes on. -/
theorem StoresTo.turn {env : Env} {self : Address} {slot v : Hash} {d : StateDB}
    {vs : List Hash} {total : ℤ} {f : Frame} {ws : List Word}
    (h : StoresTo env self slot d vs total f.evm.statedb) (run : Runner)
    (hself : f.contract.self = self) (hop : f.contract.getOp f.regs.pc = SSTORE)
    (hstack : f.regs.stack = slot :: v :: ws)
    (hturn : Sat (Frame.step env run) f (fun out _ => out = ([], none)) (fun _ _ => False)) :
    let f' := lastState (Frame.step env run) f
    StoresTo env self slot d (vs ++ [v]) (total + (f.contract.gas.toNat - f'.contract.gas.toNat))
      f'.evm.statedb := by
  obtain ⟨out, hstep, rfl⟩ := eq_lastState_of_sat hturn
  exact h.store ⟨rfl, rfl, id, rfl⟩ hself hop hstack hstep

omit [Keccak] in
/-- **A slot is cleared, set and put back**: 3100 gas are charged for the
three stores. The refund for clearing is added and taken away again, and
the old value brings back 2800, so that 100 are left for each store. -/
theorem sstore_telescopes_restored :
    letI := Keccak.digests
    let env : Env := { rules := { isBerlin := true, isLondon := true } }
    let tx : StorageTx := { StorageTx.single 1 { nonce := 1, codeHash := emptyCode.bytes } [] with
      accountStorage := fun _ _ => some 9 }
    let d := ((newStateDB tx).addSlotToAccessList 1 0).getD (newStateDB tx)
    ∃ total d', StoresTo env 1 0 d [0, 5, 9] total d' ∧ total = 3100 ∧ d'.refund = 2800 ∧
      total - (d'.refund.toNat - d.refund.toNat) = 3 * 100 := by
  let _ := Keccak.digests
  intro env tx d
  let run : Runner := fun _ _ _ => throw .nil
  have h₀ : StoresTo env 1 0 d [] 0 (storingFrame d).evm.statedb := .nil d
  have h₁ := h₀.turn run rfl rfl rfl (by decide +kernel)
  have h₂ := h₁.turn run (by decide +kernel) (by decide +kernel)
    (show _ = 0 :: 5 :: [0, 9] by decide +kernel) (by decide +kernel)
  have h₃ := h₂.turn run (by decide +kernel) (by decide +kernel)
    (show _ = 0 :: 9 :: [] by decide +kernel) (by decide +kernel)
  have hdue := (sstore_telescopes (R := 4800) rfl rfl h₃ (show _ = 9 by decide +kernel)
    (by decide +kernel) (by decide +kernel)).2.2 (by decide +kernel)
  exact ⟨_, _, h₃, by decide +kernel, by decide +kernel, hdue⟩
