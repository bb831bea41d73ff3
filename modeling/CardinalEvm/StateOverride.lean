import CardinalEvm.Balance
import CardinalEvm.Effect

/-!
# State overrides

`StateOverride.Apply` of `api/eth.go` sets fields of accounts before a
message is run. The override is a map of accounts, and `stateDiff` a map
of slots, and Go ranges over a map in any order it likes. Here both are
lists without repeated keys: a list is a map together with one order, so
what is proved of every list is proved of every map in every order.

An override of the nonce, of the code or of single slots does what it
says. The other two do not. The balance is kept beside the account's
record and is not shown without one (`Balance`), so it is lost on an
account that is not in the store. And the map that replaces the storage
is put in the place of `dirty`, which is keyed by hashed slots, with the
slots it was given as its keys.
-/

variable [Keccak]

open StateDB StateObject

/-- **What is overridden of an account.** -/
structure OverrideAccount where
  nonce : Option UInt64 := none
  code : Option Bytes := none
  balance : Option Int := none
  /-- The storage in place of the account's; a nil map is nothing. -/
  state : Option (Option Storage) := none
  /-- The slots to be set, in the order they are iterated over. -/
  stateDiff : Option (List (Hash × Hash)) := none
  nodup : ∀ diff, stateDiff = some diff → (diff.map Prod.fst).Nodup := by simp

/-- **The overridden accounts**, in the order they are iterated over. -/
structure StateOverride where
  accounts : List (Address × OverrideAccount)
  nodup : (accounts.map Prod.fst).Nodup

/-- How `Apply` ends other than by returning nil. -/
inductive OverrideStop where
  /-- "account … has both 'state' and 'stateDiff'". -/
  | stateAndStateDiff (addr : Address)
  /-- An assignment to a nil map. -/
  | nilMap
  deriving DecidableEq

/-- The loop over a `stateDiff`. -/
def setStates (addr : Address) : List (Hash × Hash) → EStateM OverrideStop StateDB Unit
  | [] => pure ()
  | (key, value) :: diff => do
    attempt .nilMap (fun s => (s.setState addr key value).map (fun s => ((), s)))
    setStates addr diff

/-- The body of the loop in `Apply`. -/
def OverrideAccount.apply (addr : Address) (account : OverrideAccount) :
    EStateM OverrideStop StateDB Unit := do
  (match account.nonce with
    | some nonce => modify (fun s => s.setNonce addr nonce)
    | none => pure ())
  (match account.code with
    | some code => modify (fun s => s.setCode addr code)
    | none => pure ())
  (match account.balance with
    | some balance => modify (fun s => s.setBalance addr balance)
    | none => pure ())
  (if account.state.isSome && account.stateDiff.isSome then throw (.stateAndStateDiff addr)
    else pure ())
  (match account.state with
    | some state => modify (fun s => s.setStorage addr state)
    | none => pure ())
  (match account.stateDiff with
    | some diff => setStates addr diff
    | none => pure ())

/-- The loop over the accounts. -/
def applyAccounts : List (Address × OverrideAccount) → EStateM OverrideStop StateDB Unit
  | [] => pure ()
  | (addr, account) :: accounts => do
    account.apply addr
    applyAccounts accounts

/-- **`StateOverride.Apply`.** -/
def StateOverride.apply : Option StateOverride → EStateM OverrideStop StateDB Unit
  | none => pure ()
  | some diff => applyAccounts diff.accounts

/-! ## What is written -/

/-- **One object was written**, and nothing else changed. -/
structure StateDB.Writes (a : Address) (f : StateObject → StateObject) (s t : StateDB) : Prop where
  tx : t.tx = s.tx
  self : t.getAccount a = f (s.getAccount a)
  others : ∀ b, b ≠ a → t.getAccount b = s.getAccount b

namespace StateDB.Writes

omit [Keccak]

variable {a : Address} {f g : StateObject → StateObject} {s t u : StateDB}

theorem refl (a : Address) (s : StateDB) : Writes a id s s := ⟨rfl, rfl, fun _ _ => rfl⟩

theorem trans (h : Writes a f s t) (h' : Writes a g t u) : Writes a (g ∘ f) s u where
  tx := h'.tx.trans h.tx
  self := by rw [h'.self, h.self]; rfl
  others b hb := (h'.others b hb).trans (h.others b hb)

theorem change {c : StateObject → StateObject × ObjectUndo} (a : Address) (s : StateDB) :
    Writes a (fun o => (c o).1) s (s.change a (c (s.getAccount a))) where
  tx := rfl
  self := getAccount_setAccount s a _
  others _ hb := getAccount_setAccount_of_ne hb s _

end StateDB.Writes

/-- The slots of a `stateDiff`, written to a storage one after the
other. -/
def writeDiff (diff : List (Hash × Hash)) (m : Storage) : Storage :=
  diff.foldl (fun m p => Function.update m (slotKey p.1) (some p.2)) m

/-- **What an override makes of an object.** -/
def OverrideAccount.write (account : OverrideAccount) (o : StateObject) : StateObject :=
  { o with
    nonce := account.nonce.or o.nonce
    code := (account.code.map (fun code => ⟨code, keccak256Hash code⟩)).or o.code
    fakeBalance := account.balance.or o.fakeBalance
    dirty := match account.state, account.stateDiff with
      | some state, _ => state
      | none, some diff => o.dirty.map (writeDiff diff)
      | none, none => o.dirty }

section Apply

variable {a : Address} {s : StateDB}

/-- A slot that is set. -/
theorem StateDB.Writes.setState {k v : Hash} {t : StateDB} (h : s.setState a k v = some t) :
    Writes a (fun o => { o with dirty := o.dirty.map (fun m => writeDiff [(k, v)] m) }) s t := by
  obtain ⟨r, hr, rfl⟩ := Option.map_eq_some_iff.mp h
  obtain ⟨m, hm, rfl⟩ := Option.map_eq_some_iff.mp hr
  refine ⟨rfl, (getAccount_setAccount s a _).trans ?_,
    fun _ hb => getAccount_setAccount_of_ne hb s _⟩
  rw [hm]
  rfl

theorem sat_setStates (diff : List (Hash × Hash)) :
    Sat (setStates a diff) s
      (fun _ t => Writes a (fun o => { o with dirty := o.dirty.map (writeDiff diff) }) s t)
      (fun _ _ => True) := by
  induction diff generalizing s with
  | nil =>
    have hid : (fun o : StateObject => { o with dirty := o.dirty.map (writeDiff []) }) = id := by
      funext o
      rw [show writeDiff [] = id from rfl, Option.map_id]
      rfl
    rw [hid]
    exact Writes.refl a s
  | cons p diff ih =>
    refine .bind (sat_attempt (fun _ t h => ?_) (fun _ => trivial))
    obtain ⟨t', ht, h⟩ := Option.map_eq_some_iff.mp h
    obtain rfl : t' = t := congrArg Prod.snd h
    refine ih.mono (fun _ u hu => ?_)
    have hcomp := (Writes.setState ht).trans hu
    simp only [Function.comp_def, Option.map_map] at hcomp
    exact hcomp

/-- **The body of the loop** writes the object of one account, whose
storage is not overridden twice. -/
theorem OverrideAccount.sat_apply (account : OverrideAccount) :
    Sat (account.apply a) s
      (fun _ t => Writes a account.write s t
        ∧ (account.state = none ∨ account.stateDiff = none)) (fun _ _ => True) := by
  have hnonce : Sat (match account.nonce with
      | some nonce => modify (fun s => s.setNonce a nonce)
      | none => pure () : EStateM OverrideStop StateDB Unit) s
      (fun _ t => Writes a (fun o => { o with nonce := account.nonce.or o.nonce }) s t)
      (fun _ _ => False) := by
    cases account.nonce with
    | some nonce => exact Writes.change (c := setNonce nonce) a s
    | none => exact Writes.refl a s
  have hcode : ∀ s, Sat (match account.code with
      | some code => modify (fun s => s.setCode a code)
      | none => pure () : EStateM OverrideStop StateDB Unit) s
      (fun _ t => Writes a (fun o => { o with
        code := (account.code.map (fun code => ⟨code, keccak256Hash code⟩)).or o.code }) s t)
      (fun _ _ => False) := by
    intro s
    cases account.code with
    | some code => exact Writes.change (c := setCode code) a s
    | none => exact Writes.refl a s
  have hbalance : ∀ s, Sat (match account.balance with
      | some balance => modify (fun s => s.setBalance a balance)
      | none => pure () : EStateM OverrideStop StateDB Unit) s
      (fun _ t => Writes a (fun o => { o with
        fakeBalance := account.balance.or o.fakeBalance }) s t)
      (fun _ _ => False) := by
    intro s
    cases account.balance with
    | some balance => exact Writes.change (c := setBalance balance) a s
    | none => exact Writes.refl a s
  refine hnonce.next fun _ s₁ h₁ => ?_
  refine (hcode s₁).next fun _ s₂ h₂ => ?_
  refine (hbalance s₂).next fun _ s₃ h₃ => ?_
  refine .bind (.ite (fun _ => trivial) fun hboth => ?_)
  have hfields := (h₁.trans h₂).trans h₃
  refine .bind ?_
  cases hstate : account.state with
  | some state =>
    have hdiff : account.stateDiff = none := by simpa [hstate] using hboth
    rw [hdiff]
    refine sat_modify.mpr ?_
    have hwrite := hfields.trans (Writes.change (c := setStorage state) a s₃)
    refine ⟨⟨hwrite.tx, hwrite.self.trans ?_, hwrite.others⟩, .inr rfl⟩
    rw [write, hstate]
    rfl
  | none =>
    cases hdiff : account.stateDiff with
    | none =>
      refine ⟨⟨hfields.tx, hfields.self.trans ?_, hfields.others⟩, .inl rfl⟩
      rw [write, hstate, hdiff]
      rfl
    | some diff =>
      refine (sat_setStates diff).mono (fun _ t ht => ?_)
      have hwrite := hfields.trans ht
      refine ⟨⟨hwrite.tx, hwrite.self.trans ?_, hwrite.others⟩, .inl rfl⟩
      rw [write, hstate, hdiff]
      rfl

end Apply

/-- **`Apply` to a state that knows nothing of the accounts** writes the
objects of exactly these accounts, in whatever order. -/
theorem sat_applyAccounts {accounts : List (Address × OverrideAccount)}
    (hnodup : (accounts.map Prod.fst).Nodup) {s : StateDB}
    (hfresh : ∀ p ∈ accounts, s.getAccount p.1 = {}) :
    Sat (applyAccounts accounts) s
      (fun _ t => t.tx = s.tx
        ∧ (∀ p ∈ accounts, t.getAccount p.1 = p.2.write {}
          ∧ (p.2.state = none ∨ p.2.stateDiff = none))
        ∧ ∀ a, a ∉ accounts.map Prod.fst → t.getAccount a = s.getAccount a)
      (fun _ _ => True) := by
  induction accounts generalizing s with
  | nil => exact ⟨rfl, by simp, fun _ _ => rfl⟩
  | cons p accounts ih =>
    obtain ⟨hnot, hnodup⟩ := List.nodup_cons.mp hnodup
    have hne : ∀ q ∈ accounts, q.1 ≠ p.1 :=
      fun q hq heq => hnot (heq ▸ List.mem_map_of_mem hq)
    refine p.2.sat_apply.next fun _ s₁ h₁ => ?_
    obtain ⟨h₁, hone⟩ := h₁
    have hfresh₁ : ∀ q ∈ accounts, s₁.getAccount q.1 = {} := fun q hq =>
      (h₁.others q.1 (hne q hq)).trans (hfresh q (List.mem_cons_of_mem p hq))
    refine (ih hnodup hfresh₁).mono (fun _ t ht => ?_)
    obtain ⟨htx, hwritten, hothers⟩ := ht
    refine ⟨htx.trans h₁.tx, fun q hq => ?_, fun b hb => ?_⟩
    · obtain rfl | hq := List.mem_cons.mp hq
      · rw [hothers q.1 hnot, h₁.self, hfresh q List.mem_cons_self]
        exact ⟨rfl, hone⟩
      · exact hwritten q hq
    · rw [List.map_cons, List.mem_cons, not_or] at hb
      rw [hothers b hb.2, h₁.others b hb.1]

/-! ## What is shown -/

/-- **What an override should show** of an account of the store. -/
structure OverrideAccount.Shown (tx : StorageTx) (a : Address) (account : OverrideAccount)
    (t : StateDB) : Prop where
  nonce : (t.getNonce a).1 = account.nonce.getD ((newStateDB tx).getNonce a).1
  code : (t.getCode a).1 = account.code.getD ((newStateDB tx).getCode a).1
  balance : (t.getBalance a).1 = account.balance.getD ((newStateDB tx).getBalance a).1
  state : ∀ m, account.state = some m →
    ∀ k, (t.getState a k).1 = (m.bind (fun m => m k)).getD 0
  stateDiff : ∀ diff, account.stateDiff = some diff →
    ∀ k, (t.getState a k).1 = (diff.lookup k).getD ((newStateDB tx).getState a k).1
  storage : account.state = none → account.stateDiff = none →
    ∀ k, (t.getState a k).1 = ((newStateDB tx).getState a k).1

/-- **When an override shows what it should**: a balance needs a record
to be shown with, and a storage has to hold under the hash of a slot, or
else in the store, what it holds under the slot. -/
structure OverrideAccount.Sound (tx : StorageTx) (a : Address) (account : OverrideAccount) :
    Prop where
  balance : ∀ b, account.balance = some b → (tx.accountData a).isSome ∨ b = 0
  state : ∀ m, account.state = some m → ∀ k,
    (m.bind (fun m => m (slotKey k))).getD ((tx.accountStorage a (slotKey k)).getD 0)
      = (m.bind (fun m => m k)).getD 0

/-- A `stateDiff` is found under the hashed slots, if the hash tells
slots apart. -/
theorem writeDiff_apply (hinj : Function.Injective slotKey) {diff : List (Hash × Hash)}
    (hnodup : (diff.map Prod.fst).Nodup) (m : Storage) (k : Hash) :
    writeDiff diff m (slotKey k) = (diff.lookup k).or (m (slotKey k)) := by
  induction diff generalizing m with
  | nil => rfl
  | cons p diff ih =>
    obtain ⟨hnot, hnodup⟩ := List.nodup_cons.mp hnodup
    rw [show writeDiff (p :: diff) m
      = writeDiff diff (Function.update m (slotKey p.1) (some p.2)) from rfl, ih hnodup]
    by_cases hk : k = p.1
    · have hnone : diff.lookup p.1 = none := by
        rw [List.lookup_eq_none_iff]
        intro q hq
        rw [bne_iff_ne]
        exact fun heq => hnot (heq ▸ List.mem_map_of_mem hq)
      rw [hk, hnone, Function.update_self, List.lookup_cons_self]
      rfl
    · have hbeq : (k == p.1) = false := beq_eq_false_iff_ne.mpr hk
      rw [Function.update_of_ne fun h => hk (hinj h), List.lookup_cons, hbeq]

section Shown

variable {tx : StorageTx} {a : Address} {t : StateDB} {account : OverrideAccount}
  (htx : t.tx = tx) (ht : t.getAccount a = account.write {})
include htx ht

/-- A balance that is set is shown only if there is an account. -/
theorem OverrideAccount.shown_balance :
    (t.getBalance a).1 = account.balance.getD ((newStateDB tx).getBalance a).1
      ↔ ∀ b, account.balance = some b → (tx.accountData a).isSome ∨ b = 0 := by
  rw [getBalance_fst, getBalance_fst, ht, htx]
  cases hb : account.balance with
  | none =>
    refine iff_of_true ?_ (by simp)
    simp only [write, hb]
    rfl
  | some b =>
    have hshown : (account.write {}).balance tx a
        = if (tx.accountData a).isSome then b else 0 := by
      simp [StateObject.balance, StateObject.record, StateObject.getBalance, write, hb]
    rw [hshown, Option.getD_some]
    split_ifs with hrec
    · exact iff_of_true rfl fun _ _ => .inl hrec
    · constructor
      · rintro rfl b' hb'
        exact .inr (Option.some.inj hb').symm
      · intro h
        exact ((h b rfl).resolve_left hrec).symm

theorem OverrideAccount.getState_written (k : Hash) :
    (t.getState a k).1 = ((account.write {}).dirty.bind (fun m => m (slotKey k))).getD
      ((tx.accountStorage a (slotKey k)).getD 0) := by
  rw [show (t.getState a k).1 = _ from getState_fst t.tx a (slotKey k) _, ht, htx]
  rfl

/-- **One account**: the override shows what it should exactly if it is
sound. -/
theorem OverrideAccount.shown_iff (hinj : Function.Injective slotKey)
    (hone : account.state = none ∨ account.stateDiff = none) :
    account.Shown tx a t ↔ account.Sound tx a := by
  have hstored : ∀ k, ((newStateDB tx).getState a k).1
      = (tx.accountStorage a (slotKey k)).getD 0 :=
    fun k => getState_fst tx a (slotKey k) {}
  have hstate : ∀ m, account.state = some m → (account.write {}).dirty = m := by
    intro m hm
    simp only [write, hm]
  have hdiff : ∀ diff, account.stateDiff = some diff →
      (account.write {}).dirty = some (writeDiff diff (fun _ => none)) := by
    intro diff hd
    have hnone : account.state = none := hone.resolve_right (by simp [hd])
    simp only [write, hnone, hd, Option.map_some]
  constructor
  · intro h
    refine ⟨(shown_balance htx ht).mp h.balance, fun m hm k => ?_⟩
    rw [← h.state m hm k, getState_written htx ht, hstate m hm]
  · intro h
    refine ⟨?_, ?_, (shown_balance htx ht).mpr h.balance, fun m hm k => ?_, fun diff hd k => ?_,
      fun hs hd k => ?_⟩
    · rw [show (t.getNonce a).1 = _ from getNonce_fst t.tx a _, ht, htx,
        show ((newStateDB tx).getNonce a).1 = _ from getNonce_fst tx a {}]
      cases hn : account.nonce <;> simp only [write, hn] <;> rfl
    · rw [show (t.getCode a).1 = _ from getCode_fst t.tx a _, ht, htx,
        show ((newStateDB tx).getCode a).1 = _ from getCode_fst tx a {}]
      cases hc : account.code <;> simp only [write, hc] <;> rfl
    · rw [getState_written htx ht, hstate m hm]
      exact h.state m hm k
    · rw [getState_written htx ht, hdiff diff hd, hstored, Option.bind_some,
        writeDiff_apply hinj (account.nodup diff hd), Option.or_none]
    · rw [getState_written htx ht, hstored]
      simp only [write, hs, hd]
      rfl

end Shown

/-- **An address reads as in a fresh state** over the store. -/
structure StateDB.ReadsFresh (tx : StorageTx) (t : StateDB) (a : Address) : Prop where
  reads : SameReadsAt (newStateDB tx) t a
  getCodeHash : (t.getCodeHash a).1 = ((newStateDB tx).getCodeHash a).1
  exist : (t.exist a).1 = ((newStateDB tx).exist a).1
  empty : (t.empty a).1 = ((newStateDB tx).empty a).1

theorem StateDB.ReadsFresh.of_getAccount {tx : StorageTx} {t : StateDB} {a : Address}
    (htx : t.tx = tx) (h : t.getAccount a = {}) : t.ReadsFresh tx a := by
  have hread : ∀ {α : Type} (f : StorageTx → StateObject → α × StateObject),
      (t.read a (f t.tx)).1 = ((newStateDB tx).read a (f tx)).1 := by
    intro α f
    show (f t.tx (t.getAccount a)).1 = (f tx {}).1
    rw [h, htx]
  refine ⟨.of_view htx ?_, hread (fun tx => StateObject.getCodeHash tx a),
    hread (fun tx o => if o.deleted then (false, o) else (!(o.empty tx a).1, (o.empty tx a).2)),
    hread (fun tx o => if o.deleted || o.suicided then (true, o) else o.empty tx a)⟩
  rw [view, h, htx]
  rfl

/-- **`Apply` on a fresh state**, if it returns nil and the hash tells
slots apart: every overridden account shows what it should, and every
other address reads as before, exactly if the overrides are sound. -/
theorem StateOverride.apply_iff_sound (hinj : Function.Injective slotKey) (tx : StorageTx)
    (diff : StateOverride) {t : StateDB}
    (h : StateOverride.apply (some diff) (newStateDB tx) = .ok () t) :
    ((∀ p ∈ diff.accounts, p.2.Shown tx p.1 t)
        ∧ ∀ a, a ∉ diff.accounts.map Prod.fst → t.ReadsFresh tx a)
      ↔ ∀ p ∈ diff.accounts, p.2.Sound tx p.1 := by
  obtain ⟨htx, hwritten, hothers⟩ :=
    (sat_applyAccounts diff.nodup (s := newStateDB tx) fun _ _ => rfl).of_ok h
  have hiff : ∀ p ∈ diff.accounts, p.2.Shown tx p.1 t ↔ p.2.Sound tx p.1 :=
    fun p hp => OverrideAccount.shown_iff htx (hwritten p hp).1 hinj (hwritten p hp).2
  constructor
  · intro hlaw p hp
    exact (hiff p hp).mp (hlaw.1 p hp)
  · intro hsound
    exact ⟨fun p hp => (hiff p hp).mpr (hsound p hp), fun a ha => .of_getAccount htx (hothers a ha)⟩

/-- Keccak-256 on the slot 0 and on the inputs of the table, and one to
one on all slots. -/
@[reducible] def Keccak.slots : Keccak where
  keccak256Hash b :=
    if b.length = 32 then Equiv.swap 0 (Keccak.digests.keccak256Hash (toBytes 32 0)) (bytesToHash b)
    else Keccak.digests.keccak256Hash b

omit [Keccak]

theorem Keccak.slots_injective : letI := Keccak.slots; Function.Injective slotKey := by
  have hkey : ∀ k : Hash, Keccak.slots.keccak256Hash k.bytes
      = Equiv.swap 0 (Keccak.digests.keccak256Hash (toBytes 32 0)) k := by
    intro k
    have hlen : k.bytes.length = 32 := length_toBytes 32 k.toNat
    show (if k.bytes.length = 32
      then Equiv.swap 0 (Keccak.digests.keccak256Hash (toBytes 32 0)) (bytesToHash k.bytes)
      else Keccak.digests.keccak256Hash k.bytes) = _
    rw [if_pos hlen, bytesToHash_bytes]
  intro k k' h
  exact (Equiv.swap _ _).injective ((hkey k).symm.trans (h.trans (hkey k')))

/-- An account of the store whose nonce, balance and first slot are
overridden. -/
theorem StateOverride.apply_iff_sound_stored :
    letI := Keccak.slots
    let tx : StorageTx :=
      .single 0x1000 { nonce := 3, balance := some 7, codeHash := emptyCode.bytes } []
    let account : OverrideAccount :=
      { nonce := some 9, balance := some 5, stateDiff := some [(0, 2)], nodup := by simp }
    ∃ t, StateOverride.apply (some ⟨[(0x1000, account)], by simp⟩) (newStateDB tx) = .ok () t
      ∧ account.Shown tx 0x1000 t ∧ t.ReadsFresh tx 1 := by
  let _ := Keccak.slots
  intro tx account
  refine ⟨_, rfl, ?_⟩
  have hsound : ∀ p ∈ [((0x1000 : Address), account)], p.2.Sound tx p.1 := by
    intro p hp
    obtain rfl := List.mem_singleton.mp hp
    exact ⟨fun _ _ => .inl rfl, fun _ hm => nomatch hm⟩
  have hlaw :=
    (apply_iff_sound Keccak.slots_injective tx ⟨[(0x1000, account)], by simp⟩ rfl).mpr hsound
  exact ⟨hlaw.1 _ List.mem_cons_self, hlaw.2 1 (by decide)⟩

/-- A balance is overridden on an account that is not in the store, and
a storage with a value in slot 0. Neither is shown. -/
theorem StateOverride.balance_and_state_not_shown :
    letI := Keccak.digests
    let account : OverrideAccount :=
      { balance := some 5, state := some (some (Function.update (fun _ => none) 0 (some 7))) }
    ∃ t, StateOverride.apply (some ⟨[(0x1000, account)], by simp⟩) (newStateDB .empty) = .ok () t
      ∧ (t.getBalance 0x1000).1 = 0 ∧ (t.getState 0x1000 0).1 = 0 :=
  ⟨_, rfl, rfl, by decide +kernel⟩
