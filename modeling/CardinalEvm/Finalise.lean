import CardinalEvm.Quiet

/-!
# The end of a transaction

`Finalise` moves the storage written to the committed one, drops what
belongs to the transaction – the refund counter, transient storage, the
access list – and marks the accounts that self-destructed as deleted.
The mark is all that is left of their deletion: the balance, the code,
`Exist` and `Empty` heed it, but a nonce that was set, the code hash of
a record that was loaded and the storage are still read where they were.

`finaliseLaw_iff` says so exactly. Accounts that did not self-destruct
are always finalised as they should be; those that did read as gone if
and only if they had nothing left in these three places.
-/

variable [Keccak]

open StateObject

namespace StateObject

/-- An object that shows nothing: it is deleted, and nothing is left
where deletion is not heeded. -/
structure Gone (tx : StorageTx) (a : Address) (o : StateObject) : Prop where
  deleted : o.deleted = true
  nonce : o.nonce.getD 0 = 0
  codeHash : ∀ account, o.account = some account → bytesToHash account.codeHash = emptyCode
  current : ∀ k, o.current tx a (slotKey k) = 0
  committed : ∀ k, o.committed tx a (slotKey k) = 0

section Finalised

omit [Keccak]

variable (tx : StorageTx) (a : Address) (o : StateObject)

/-- What was current is committed. -/
theorem committed_finalise (k : Hash) :
    o.finalise.committed tx a k = o.current tx a k := by
  unfold committed current finalise
  cases o.dirty with
  | none => rfl
  | some m => cases h : m k <;> simp [committed, h]

/-- What was current stays so. -/
theorem current_finalise (k : Hash) : o.finalise.current tx a k = o.current tx a k := by
  unfold current
  rw [committed_finalise]
  show (o.dirty.bind _).getD (o.current tx a k) = _
  unfold current
  cases o.dirty.bind (fun m => m k) <;> rfl

end Finalised

variable {tx : StorageTx} {a : Address} {o o' : StateObject}

omit [Keccak] in
/-- An account record that is loaded is all a deleted object has. -/
theorem record_of_deleted (h : o.deleted = true) : o.record tx a = o.account := if_pos h

/-- Showing nothing is a matter of what is there once loaded. -/
theorem Gone.congr (h : o.Gone tx a) (hl : o'.loaded tx a = o.loaded tx a) : o'.Gone tx a := by
  have hd : o'.deleted = o.deleted :=
    show (o'.loaded tx a).deleted = (o.loaded tx a).deleted by rw [hl]
  have hn : o'.nonce = o.nonce := show (o'.loaded tx a).nonce = (o.loaded tx a).nonce by rw [hl]
  have hr : o'.record tx a = o.record tx a :=
    show (o'.loaded tx a).account = (o.loaded tx a).account by rw [hl]
  rw [record_of_deleted h.deleted, record_of_deleted (hd.trans h.deleted)] at hr
  exact ⟨hd.trans h.deleted, hn ▸ h.nonce, hr ▸ h.codeHash, current_congr hl ▸ h.current,
    committed_congr hl ▸ h.committed⟩

end StateObject

/-- The changes of an object that a deletion does not hide. -/
def ObjectOp.revives : ObjectOp → Bool
  | setNonce _ | setState _ _ | setStorage _ => true
  | _ => false

/-- Any other change of an object that shows nothing is not shown. -/
theorem ObjectOp.run_gone {tx : StorageTx} {a : Address} {c : ObjectOp} {o : StateObject}
    {r : StateObject × ObjectUndo} (h : c.run o = some r) (hc : c.revives = false)
    (ho : o.Gone tx a) : r.1.Gone tx a := by
  obtain ⟨hd, hn, hr, hcur, hcom⟩ := ho
  cases c with
  | subBalance x | addBalance x =>
    cases h
    simp only [StateObject.subBalance, StateObject.addBalance]
    cases o.balanceDelta <;> exact ⟨hd, hn, hr, hcur, hcom⟩
  | setBalance x | setCode code =>
    cases h
    exact ⟨hd, hn, hr, hcur, hcom⟩
  | suicide =>
    -- there is nothing to do for an account that is deleted
    simp only [ObjectOp.run, StateObject.suicide, hd, Bool.or_true, if_true] at h
    cases h
  | setNonce | setState | setStorage => cases hc

namespace StateDB

/-- The calls after which a deleted account may show something again:
those that create it, and those that write what deletion does not
hide. -/
def Op.revives (a : Address) : Op → Bool
  | createAccount b | setNonce b _ | setState b _ _ | setStorage b _ => b = a
  | _ => false

/-- **The account reads as one that does not exist.** -/
structure ReadsGone (s : StateDB) (a : Address) : Prop where
  getNonce : (s.getNonce a).1 = 0
  getBalance : (s.getBalance a).1 = 0
  getCode : (s.getCode a).1 = []
  getCodeHash : (s.getCodeHash a).1 = emptyCode
  exist : (s.exist a).1 = false
  empty : (s.empty a).1 = true
  getState : ∀ k, (s.getState a k).1 = 0
  getCommittedState : ∀ k, (s.getCommittedState a k).1 = 0

/-- **What `Finalise` should leave behind.** An account that
self-destructed reads as gone, now and after any further calls that do
not revive it; the others show what they showed, all of it committed;
nothing is left of the transaction. -/
structure FinaliseLaw (s : StateDB) : Prop where
  gone : ∀ a, (s.hasSuicided a).1 = true →
    ∀ t, Calls (fun o => o.revives a = false) s.finalise t → t.ReadsGone a
  getBalance : ∀ a, (s.hasSuicided a).1 = false →
    (s.finalise.getBalance a).1 = (s.getBalance a).1
  getNonce : ∀ a, (s.hasSuicided a).1 = false →
    (s.finalise.getNonce a).1 = (s.getNonce a).1
  getCode : ∀ a, (s.hasSuicided a).1 = false →
    (s.finalise.getCode a).1 = (s.getCode a).1
  getState : ∀ a, (s.hasSuicided a).1 = false →
    ∀ k, (s.finalise.getState a k).1 = (s.getState a k).1
  getCommittedState : ∀ a, (s.hasSuicided a).1 = false →
    ∀ k, (s.finalise.getCommittedState a k).1 = (s.finalise.getState a k).1
  refund : s.finalise.refund = 0
  transient : ∀ a k, s.finalise.getTransientState a k = 0
  addresses : ∀ a, s.finalise.accessList.containsAddress a = false
  slots : ∀ a k, s.finalise.accessList.contains a k = some (false, false)

/-- **What an account may have when it self-destructs**: no nonce set
but zero, no record loaded with code, and no storage. -/
structure LeavesNothing (s : StateDB) (a : Address) : Prop where
  nonce : ∀ n, (s.getAccount a).nonce = some n → n = 0
  codeHash : ∀ account, (s.getAccount a).account = some account →
    bytesToHash account.codeHash = emptyCode
  storage : ∀ k, (s.getState a k).1 = 0

/-! ## Accounts that self-destructed -/

/-- What a deleted account shows. -/
theorem readsGone_iff {s : StateDB} {a : Address} (hd : (s.getAccount a).deleted = true) :
    s.ReadsGone a ↔ (s.getAccount a).Gone s.tx a := by
  have hnonce : (s.getNonce a).1 = (s.getAccount a).nonce.getD 0 := by
    show ((s.getAccount a).getNonce s.tx a).1 = _
    rw [getNonce_fst, nonceOf, hd]
    rfl
  have hhash : (s.getCodeHash a).1 = emptyCode ↔
      ∀ account, (s.getAccount a).account = some account →
        bytesToHash account.codeHash = emptyCode := by
    show ((s.getAccount a).getCodeHash s.tx a).1 = emptyCode ↔ _
    rw [getCodeHash_fst]
    cases (s.getAccount a).account <;> simp [hd]
  have hstate : ∀ k, (s.getState a k).1 = (s.getAccount a).current s.tx a (slotKey k) :=
    fun k => getState_fst s.tx a (slotKey k) _
  have hcommitted : ∀ k,
      (s.getCommittedState a k).1 = (s.getAccount a).committed s.tx a (slotKey k) := fun k => by
    show ((s.getAccount a).getCommittedState s.tx a (slotKey k)).1 = _
    rw [getCommittedState_eq]
  constructor
  · intro h
    exact ⟨hd, hnonce ▸ h.getNonce, hhash.mp h.getCodeHash, fun k => hstate k ▸ h.getState k,
      fun k => hcommitted k ▸ h.getCommittedState k⟩
  · intro h
    refine ⟨hnonce ▸ h.nonce, ?_, ?_, hhash.mpr h.codeHash, ?_, ?_,
      fun k => (hstate k).trans (h.current k), fun k => (hcommitted k).trans (h.committed k)⟩
    · rw [getBalance_fst, balance, hd]
      exact if_neg (fun h => Bool.noConfusion h.1)
    · show ((s.getAccount a).getCode s.tx a).1 = []
      rw [getCode_fst, codeOf, if_pos hd]
    · simp [StateDB.exist, read, hd]
    · simp [StateDB.empty, read, hd]

theorem Op.revives_target {o : Op} {a : Address} {c : ObjectOp} (ht : o.target = some (a, c))
    (ho : o.revives a = false) : c.revives = false := by
  cases o with
  | setNonce b n | setState b k v | setStorage b m =>
    obtain ⟨rfl, -⟩ := Prod.mk.inj (Option.some.inj ht)
    simp [revives] at ho
  | _ => cases ht <;> rfl

/-- **One call** that does not revive an account leaves it showing
nothing. -/
theorem Step.gone {o : Op} {s s' : StateDB} {a : Address} (h : Step s o s')
    (ho : o.revives a = false) (hs : (s.getAccount a).Gone s.tx a) :
    (s'.getAccount a).Gone s'.tx a := by
  have htx := h.tx_eq
  obtain hv | ⟨c, r, hc, hr, heq⟩ | ⟨rfl, -⟩ := h.account a
  · rw [view, htx] at hv
    rw [htx]
    exact hs.congr hv
  · rw [htx, heq]
    exact ObjectOp.run_gone hr (Op.revives_target hc ho) hs
  · simp [Op.revives] at ho

/-! ## What `Finalise` does to an object -/

section Finalised

variable (s : StateDB) (a : Address)

omit [Keccak] in
theorem getAccount_finalise : s.finalise.getAccount a = (s.getAccount a).finalise := by
  show ((s.state a).map StateObject.finalise).getD {} = ((s.state a).getD {}).finalise
  cases s.state a <;> rfl

theorem getState_finalise (k : Hash) : (s.finalise.getState a k).1 = (s.getState a k).1 := by
  show ((s.finalise.getAccount a).getState s.tx a (slotKey k)).1
    = ((s.getAccount a).getState s.tx a (slotKey k)).1
  rw [getAccount_finalise, getState_fst, getState_fst,
    StateObject.current_finalise]

/-- After `Finalise` what is current is committed. -/
theorem getCommittedState_finalise (k : Hash) :
    (s.finalise.getCommittedState a k).1 = (s.getState a k).1 := by
  show ((s.finalise.getAccount a).getCommittedState s.tx a (slotKey k)).1
    = ((s.getAccount a).getState s.tx a (slotKey k)).1
  rw [getAccount_finalise, getState_fst, getCommittedState_eq,
    StateObject.committed_finalise]

variable {s a}

omit [Keccak] in
/-- An account that did not self-destruct is not deleted by it. -/
theorem deleted_finalise (h : (s.hasSuicided a).1 = false) :
    (s.getAccount a).finalise.deleted = (s.getAccount a).deleted := by
  show ((s.getAccount a).deleted || (s.getAccount a).suicided) = _
  rw [show (s.getAccount a).suicided = false from h, Bool.or_false]

omit [Keccak] in
/-- One that did is. -/
theorem deleted_of_hasSuicided (h : (s.hasSuicided a).1 = true) :
    (s.finalise.getAccount a).deleted = true := by
  rw [getAccount_finalise]
  show ((s.getAccount a).deleted || (s.getAccount a).suicided) = true
  rw [show (s.getAccount a).suicided = true from h, Bool.or_true]

/-- **An account that self-destructed shows nothing** after `Finalise`,
if it leaves nothing. -/
theorem gone_finalise (h : (s.hasSuicided a).1 = true) :
    (s.finalise.getAccount a).Gone s.tx a ↔ s.LeavesNothing a := by
  have hcurrent : ∀ k, (s.getState a k).1 = (s.getAccount a).current s.tx a (slotKey k) :=
    fun k => getState_fst s.tx a (slotKey k) _
  have hdel := deleted_of_hasSuicided h
  rw [getAccount_finalise] at hdel ⊢
  constructor
  · intro hg
    refine ⟨fun n hn => ?_, hg.codeHash, fun k => ?_⟩
    · have := hg.nonce
      rwa [show (s.getAccount a).finalise.nonce = some n from hn] at this
    · rw [hcurrent, ← StateObject.current_finalise]
      exact hg.current k
  · intro hl
    refine ⟨hdel, ?_, hl.codeHash, fun k => ?_, fun k => ?_⟩
    · show (s.getAccount a).nonce.getD 0 = 0
      cases hn : (s.getAccount a).nonce with
      | none => rfl
      | some n => exact hl.nonce n hn
    · rw [StateObject.current_finalise, ← hcurrent]
      exact hl.storage k
    · rw [StateObject.committed_finalise, ← hcurrent]
      exact hl.storage k

end Finalised

/-! ## The theorem -/

/-- **What `Finalise` does**: what it should, exactly if every account
that self-destructed leaves nothing where its deletion is not heeded. -/
theorem finaliseLaw_iff (s : StateDB) :
    s.FinaliseLaw ↔ ∀ a, (s.hasSuicided a).1 = true → s.LeavesNothing a := by
  constructor
  · intro h a ha
    have hgone := (readsGone_iff (deleted_of_hasSuicided ha)).mp (h.gone a ha _ (.refl _))
    exact (gone_finalise ha).mp hgone
  · intro h
    refine
      { gone := fun a ha t ht => ?_
        getBalance := fun a ha => ?_
        getNonce := fun a ha => ?_
        getCode := fun a ha => ?_
        getState := fun a _ k => getState_finalise s a k
        getCommittedState := fun a _ k =>
          (getCommittedState_finalise s a k).trans (getState_finalise s a k).symm
        refund := rfl
        transient := fun _ _ => rfl
        addresses := fun _ => rfl
        slots := fun _ _ => rfl }
    · have hgone := ht.induct (I := fun t => (t.getAccount a).Gone t.tx a)
        (fun _ _ _ ho hap hg => (Op.step hap).gone ho hg) ((gone_finalise ha).mpr (h a ha))
      exact (readsGone_iff hgone.deleted).mpr hgone
    · rw [getBalance_fst, getBalance_fst, getAccount_finalise]
      unfold balance record
      rw [deleted_finalise ha]
      rfl
    · show ((s.finalise.getAccount a).getNonce s.tx a).1 = ((s.getAccount a).getNonce s.tx a).1
      rw [getAccount_finalise, getNonce_fst, getNonce_fst]
      unfold nonceOf record
      rw [deleted_finalise ha]
      rfl
    · show ((s.finalise.getAccount a).getCode s.tx a).1 = ((s.getAccount a).getCode s.tx a).1
      rw [getAccount_finalise, getCode_fst, getCode_fst]
      unfold codeOf codeEntry record
      rw [deleted_finalise ha]
      rfl

omit [Keccak] in
/-- A contract that is created, sets its first slot and self-destructs
in one transaction keeps its nonce and the slot, and its code hash is
the zero hash. -/
theorem finalise_leaves_nonce_and_storage :
    letI := Keccak.digests
    ∃ s, Reachable s ∧ (s.hasSuicided 1).1 = true ∧ (s.finalise.getNonce 1).1 = 1
      ∧ (s.finalise.getCodeHash 1).1 = 0 ∧ (s.finalise.getState 1 0).1 = 5
      ∧ (s.finalise.getCommittedState 1 0).1 = 5 := by
  let _ := Keccak.digests
  have hcreated : Reachable ((newStateDB .empty).createAccount 1) :=
    .op (.createAccount 1) (.new _) trivial rfl
  have hnonce := ReachableBy.op (.setNonce 1 1) hcreated trivial rfl
  have hstate := ReachableBy.op (.setState 1 0 5) hnonce trivial rfl
  exact ⟨_, .op (.suicide 1) hstate trivial rfl, rfl, rfl, rfl, rfl, rfl⟩

end StateDB
