import CardinalEvm.Journal

/-!
# Balances

A balance is spread over three fields – the record's balance or the
override in its place, plus a signed delta – and `GetBalance` consults
none of them unless the account has a record. So the law one expects of
the three setters, `BalanceLaw`, does not hold of every state:

* at an address without a record, whatever is added, taken or set, the
  balance shown stays `0`;
* `SetBalance` sets the override and leaves the delta, so what it sets
  is shown off by what was added before.

`balanceLaw_iff` says that these are the only ways it fails.
-/

namespace StateObject

/-- What the delta is relative to. -/
def baseBalance (tx : StorageTx) (a : Address) (o : StateObject) : Int :=
  match o.fakeBalance with
  | some balance => balance
  | none => ((o.record tx a).bind Account.balance).getD 0

variable {tx : StorageTx} {a : Address} {o : StateObject}

theorem balance_of_record (hd : o.deleted = false) (hr : (o.record tx a).isSome) :
    o.balance tx a = o.balanceDelta.getD 0 + o.baseBalance tx a := by
  rw [balance, if_pos ⟨hd, hr⟩]
  rfl

theorem balance_delta (hd : o.deleted = false) (hr : (o.record tx a).isSome) (delta : Int) :
    { o with balanceDelta := some delta }.balance tx a = delta + o.baseBalance tx a :=
  balance_of_record (o := { o with balanceDelta := some delta }) hd hr

theorem balance_of_no_record (hr : ¬ (o.record tx a).isSome) : o.balance tx a = 0 := by
  rw [balance, if_neg (fun h => hr h.2)]

theorem addBalance_fst (amount : Int) (o : StateObject) :
    (o.addBalance amount).1
      = { o with balanceDelta := some (o.balanceDelta.getD 0 + amount) } := by
  unfold addBalance
  cases o.balanceDelta <;> simp

theorem subBalance_fst (amount : Int) (o : StateObject) :
    (o.subBalance amount).1
      = { o with balanceDelta := some (o.balanceDelta.getD 0 - amount) } := by
  unfold subBalance
  cases o.balanceDelta <;> simp

end StateObject

namespace StateDB

/-- The account has a record to show a balance with: loaded, or in the
store. -/
def HasRecord (s : StateDB) (a : Address) : Prop := ((s.getAccount a).record s.tx a).isSome

instance (s : StateDB) (a : Address) : Decidable (s.HasRecord a) :=
  inferInstanceAs (Decidable (_ = true))

/-- The balance of an address whose object was changed. -/
theorem getBalance_change (s : StateDB) (a : Address) (r : StateObject × ObjectUndo) :
    ((s.change a r).getBalance a).1 = r.1.balance s.tx a := by
  rw [getBalance_fst]
  show ((s.setAccount a r.1).getAccount a).balance s.tx a = _
  rw [getAccount_setAccount]

/-- The balance of another address. -/
theorem getBalance_change_of_ne {a b : Address} (h : b ≠ a) (s : StateDB)
    (r : StateObject × ObjectUndo) :
    ((s.change a r).getBalance b).1 = (s.getBalance b).1 := by
  rw [getBalance_fst, getBalance_fst]
  show ((s.setAccount a r.1).getAccount b).balance s.tx b = _
  rw [getAccount_setAccount_of_ne h]

/-- A nonce does not change balances. -/
theorem getBalance_setNonce (s : StateDB) (a : Address) (nonce : UInt64) (b : Address) :
    ((s.setNonce a nonce).getBalance b).1 = (s.getBalance b).1 := by
  unfold setNonce
  by_cases hb : b = a
  · rw [hb, getBalance_change, getBalance_fst]
    rfl
  · exact getBalance_change_of_ne hb s _

/-! ## The law -/

/-- **What the three setters should do** to the balances shown. -/
structure BalanceLaw (s : StateDB) (a : Address) (x : Int) : Prop where
  add : ((s.addBalance a x).getBalance a).1 = (s.getBalance a).1 + x
  sub : ((s.subBalance a x).getBalance a).1 = (s.getBalance a).1 - x
  set : ((s.setBalance a x).getBalance a).1 = x
  others : ∀ b, b ≠ a →
    ((s.addBalance a x).getBalance b).1 = (s.getBalance b).1
      ∧ ((s.subBalance a x).getBalance b).1 = (s.getBalance b).1
      ∧ ((s.setBalance a x).getBalance b).1 = (s.getBalance b).1

section Law

variable {s : StateDB} {a : Address} (x : Int)

theorem getBalance_addBalance (hd : (s.getAccount a).deleted = false) (hr : s.HasRecord a) :
    ((s.addBalance a x).getBalance a).1 = (s.getBalance a).1 + x := by
  unfold addBalance
  split_ifs with hx
  · rw [hx, Int.add_zero]
  · rw [getBalance_change, getBalance_fst, StateObject.addBalance_fst,
      StateObject.balance_of_record hd hr, StateObject.balance_delta hd hr]
    exact Int.add_right_comm _ _ _

theorem getBalance_subBalance (hd : (s.getAccount a).deleted = false) (hr : s.HasRecord a) :
    ((s.subBalance a x).getBalance a).1 = (s.getBalance a).1 - x := by
  unfold subBalance
  split_ifs with hx
  · rw [hx, Int.sub_zero]
  · rw [getBalance_change, getBalance_fst, StateObject.subBalance_fst,
      StateObject.balance_of_record hd hr, StateObject.balance_delta hd hr]
    exact Int.add_right_comm _ _ _

theorem getBalance_setBalance (hd : (s.getAccount a).deleted = false) (hr : s.HasRecord a) :
    ((s.setBalance a x).getBalance a).1 = (s.getAccount a).balanceDelta.getD 0 + x := by
  rw [setBalance, getBalance_change]
  exact StateObject.balance_of_record hd hr

/-- Without a record, what is set is not shown. -/
theorem getBalance_of_no_record (hr : ¬ s.HasRecord a) :
    (s.getBalance a).1 = 0 ∧ ((s.addBalance a x).getBalance a).1 = 0
      ∧ ((s.subBalance a x).getBalance a).1 = 0
      ∧ ((s.setBalance a x).getBalance a).1 = 0 := by
  have h0 : (s.getBalance a).1 = 0 := by
    rw [getBalance_fst]
    exact StateObject.balance_of_no_record hr
  -- none of the three writes makes a record
  refine ⟨h0, ?_, ?_, ?_⟩
  · unfold addBalance
    split_ifs
    · exact h0
    · rw [getBalance_change, StateObject.addBalance_fst]
      exact StateObject.balance_of_no_record hr
  · unfold subBalance
    split_ifs
    · exact h0
    · rw [getBalance_change, StateObject.subBalance_fst]
      exact StateObject.balance_of_no_record hr
  · rw [setBalance, getBalance_change]
    exact StateObject.balance_of_no_record hr

/-- Other addresses are never affected. -/
theorem getBalance_others {b : Address} (hb : b ≠ a) :
    ((s.addBalance a x).getBalance b).1 = (s.getBalance b).1
      ∧ ((s.subBalance a x).getBalance b).1 = (s.getBalance b).1
      ∧ ((s.setBalance a x).getBalance b).1 = (s.getBalance b).1 := by
  refine ⟨?_, ?_, getBalance_change_of_ne hb s _⟩
  · unfold addBalance
    split_ifs
    · rfl
    · exact getBalance_change_of_ne hb s _
  · unfold subBalance
    split_ifs
    · rfl
    · exact getBalance_change_of_ne hb s _

/-- **When the law holds.** At an account that is not deleted, exactly
if there is a record and nothing was added to its balance yet, or there
is none and the amount is zero. -/
theorem balanceLaw_iff (hd : (s.getAccount a).deleted = false) :
    s.BalanceLaw a x ↔
      (s.HasRecord a ∧ (s.getAccount a).balanceDelta.getD 0 = 0)
        ∨ (¬ s.HasRecord a ∧ x = 0) := by
  by_cases hr : s.HasRecord a
  · have hset := getBalance_setBalance x hd hr
    constructor
    · intro h
      refine .inl ⟨hr, ?_⟩
      have := h.set
      omega
    · rintro (⟨-, h0⟩ | ⟨hn, -⟩)
      · exact ⟨getBalance_addBalance x hd hr, getBalance_subBalance x hd hr,
          by rw [hset, h0, Int.zero_add], fun b hb => getBalance_others x hb⟩
      · exact absurd hr hn
  · obtain ⟨h0, hadd, hsub, hset⟩ := getBalance_of_no_record x hr
    constructor
    · intro h
      exact .inr ⟨hr, h.set.symm.trans hset⟩
    · rintro (⟨hn, -⟩ | ⟨-, rfl⟩)
      · exact absurd hn hr
      · exact ⟨by rw [hadd, h0]; rfl, by rw [hsub, h0]; rfl, hset,
          fun b hb => getBalance_others 0 hb⟩

end Law

/-- A fresh state over a store that has one account, with a balance of
7. -/
theorem balanceLaw_iff_stored :
    letI := Keccak.digests
    let s := newStateDB (.single 1 { balance := some 7, codeHash := emptyCode.bytes } [])
    s.BalanceLaw 1 5 ∧ ¬ s.BalanceLaw 2 5 := by
  let _ := Keccak.digests
  intro s
  refine ⟨(balanceLaw_iff 5 rfl).mpr (.inl ⟨rfl, rfl⟩), fun h => ?_⟩
  rcases (balanceLaw_iff 5 rfl).mp h with ⟨hr, -⟩ | ⟨-, h0⟩
  · exact absurd hr (by decide)
  · exact absurd h0 (by decide)

/-- Five added to the balance of an account the store does not have are
not shown. -/
theorem addBalance_absent_not_shown :
    letI := Keccak.digests
    Reachable (newStateDB .empty)
      ∧ ((newStateDB .empty).getAccount 1).deleted = false
      ∧ ((newStateDB .empty).getBalance 1).1 = 0
      ∧ (((newStateDB .empty).addBalance 1 5).getBalance 1).1 = 0 :=
  letI := Keccak.digests
  ⟨.new _, rfl, rfl, rfl⟩

end StateDB
