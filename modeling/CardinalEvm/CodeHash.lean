import CardinalEvm.Journal

/-!
# Code hashes

`GetCodeHash` answers from the account record if it is loaded and from
the code otherwise. The two agree as long as the record's hash is that
of the code, and neither of the two methods that change an account's
code sees to it: `SetCode` replaces the code and not the record, and the
record of an account made by `CreateAccount` has no hash at all, which
reads as the zero hash where the hash of its code, the empty string, is
another.

`codeHashLaw_of_codeSafe` is what is left: along calls that do neither –
no `CreateAccount`, and `SetCode` only where the store has no record or
one with the very hash of the new code – the law holds in every state
reached, reverts included.
-/

variable [Keccak]

/-- **A store whose records are right about their code**: the code hash
of an account is that of the empty code, or of the code found under
it. -/
def CodeStore (tx : StorageTx) : Prop :=
  ∀ a account, tx.accountData a = some account →
    account.codeHash = emptyCode.bytes
      ∨ ∃ code, tx.accountCode account.codeHash = some code
        ∧ account.codeHash = (keccak256Hash code).bytes

theorem codeStore_single {a : Address} {account : Account} {code : Bytes}
    (h : account.codeHash = (keccak256Hash code).bytes) :
    CodeStore (.single a account code) := by
  intro b account' hb
  obtain ⟨-, hacc⟩ := Option.ite_none_right_eq_some.mp hb
  cases hacc
  exact .inr ⟨code, if_pos rfl, h⟩

namespace StateDB

/-- **The code hash law**: the code hash of an existing account is the
hash of its code. -/
def CodeHashLaw (s : StateDB) : Prop :=
  ∀ a, (s.exist a).1 = true → (s.getCodeHash a).1 = keccak256Hash (s.getCode a).1

/-- The calls that keep code and record together. -/
def CodeSafe (s : StateDB) : Op → Prop
  | .createAccount _ => False
  | .setCode a code => ∀ account, s.tx.accountData a = some account →
      keccak256Hash code = bytesToHash account.codeHash
  | _ => True

end StateDB

/-! ## Code entries -/

/-- A code entry that is right about its own hash and about the record
in the store. -/
structure CodeEntry.Right (tx : StorageTx) (a : Address) (c : CodeEntry) : Prop where
  hash : c.rehash.hash = keccak256Hash c.code
  stored : ∀ account, tx.accountData a = some account →
    keccak256Hash c.code = bytesToHash account.codeHash

section Entries

variable {tx : StorageTx} {a : Address} {c : CodeEntry}

theorem CodeEntry.right_rehash : c.rehash.Right tx a ↔ c.Right tx a := by
  constructor
  · rintro ⟨hh, hs⟩
    rw [rehash_rehash, rehash_code] at hh
    rw [rehash_code] at hs
    exact ⟨hh, hs⟩
  · rintro ⟨hh, hs⟩
    exact ⟨by rwa [rehash_rehash, rehash_code], by rwa [rehash_code]⟩

/-- An entry whose hash is that of its code keeps it. -/
theorem CodeEntry.rehash_hash (h : c.hash = keccak256Hash c.code) :
    c.rehash.hash = keccak256Hash c.code := by
  unfold rehash
  split_ifs
  · rfl
  · exact h

/-- What `loadCode` finds for the account in the store is right. -/
theorem CodeStore.entryOf_right (h : CodeStore tx) (a : Address) :
    (StateObject.entryOf tx (tx.accountData a)).Right tx a := by
  have hempty : ∀ account, tx.accountData a = some account →
      account.codeHash = emptyCode.bytes →
      keccak256Hash [] = bytesToHash account.codeHash := by
    intro account _ he
    rw [he, bytesToHash_bytes]
    rfl
  cases ha : tx.accountData a with
  | none =>
    refine ⟨CodeEntry.rehash_hash rfl, fun account h' => ?_⟩
    rw [ha] at h'
    cases h'
  | some account =>
    unfold StateObject.entryOf
    dsimp only
    split_ifs with he
    · refine ⟨CodeEntry.rehash_hash rfl, fun account' h' => ?_⟩
      obtain rfl := Option.some.inj (ha.symm.trans h')
      exact hempty account ha he
    · obtain hc | ⟨code, hcode, hhash⟩ := h a account ha
      · exact absurd hc he
      have hkey : bytesToHash account.codeHash = keccak256Hash code := by
        rw [hhash, bytesToHash_bytes]
      rw [hcode]
      refine ⟨CodeEntry.rehash_hash hkey, fun account' h' => ?_⟩
      obtain rfl := Option.some.inj (ha.symm.trans h')
      exact hkey.symm

end Entries

/-! ## Objects -/

/-- An object whose account is the store's and whose code, if it has
any, is right. -/
structure StateObject.CodeRight (tx : StorageTx) (a : Address) (o : StateObject) : Prop where
  record : o.deleted = false → o.record tx a = tx.accountData a
  code : ∀ c, o.code = some c → c.Right tx a

/-- How an entry of the journal keeps objects right. -/
def JournalEntry.CodeRight (tx : StorageTx) : JournalEntry → Prop
  | .object a (.code (some c)) => c.Right tx a
  | .createAccount _ _ => False
  | _ => True

namespace StateObject

variable {tx : StorageTx} {a : Address} {o o' : StateObject}

/-- The code an object shows is right, loaded or not. -/
theorem CodeRight.codeEntry (htx : CodeStore tx) (h : o.CodeRight tx a)
    (hd : o.deleted = false) : (o.codeEntry tx a).Right tx a := by
  unfold StateObject.codeEntry
  cases hc : o.code with
  | some c => exact h.code c hc
  | none =>
    rw [h.record hd]
    exact htx.entryOf_right a

/-- Being right is a matter of what is there once loaded. -/
theorem CodeRight.congr (htx : CodeStore tx) (h : o.CodeRight tx a)
    (hl : o'.loaded tx a = o.loaded tx a) : o'.CodeRight tx a := by
  have hdel : o'.deleted = o.deleted :=
    show (o'.loaded tx a).deleted = (o.loaded tx a).deleted by rw [hl]
  have hrec : o'.record tx a = o.record tx a :=
    show (o'.loaded tx a).account = (o.loaded tx a).account by rw [hl]
  have hcode : (o'.loaded tx a).code = (o.loaded tx a).code := by rw [hl]
  refine ⟨fun hd => hrec.trans (h.record (hdel ▸ hd)), fun c hc => ?_⟩
  rw [loaded_code, loaded_code, hdel] at hcode
  cases hd : o.deleted with
  | true =>
    rw [hd, if_pos rfl, if_pos rfl] at hcode
    exact h.code c (hcode ▸ hc)
  | false =>
    rw [hd, if_neg Bool.false_ne_true, if_neg Bool.false_ne_true] at hcode
    have hre : c.rehash = (o.codeEntry tx a).rehash := by
      rw [← Option.some.inj hcode, StateObject.codeEntry, hc]
      rfl
    rw [← CodeEntry.right_rehash, hre, CodeEntry.right_rehash]
    exact h.codeEntry htx hd

/-- A change that leaves account, code and deletion alone keeps an
object right. -/
theorem CodeRight.of_eq (h : o.CodeRight tx a) (ha : o'.account = o.account)
    (hc : o'.code = o.code) (hd : o'.deleted = o.deleted) : o'.CodeRight tx a := by
  refine ⟨fun hf => ?_, fun c hcc => h.code c (hc ▸ hcc)⟩
  rw [StateObject.record, ha, hd]
  exact h.record (hd ▸ hf)

end StateObject

/-- Every change but `setCode` leaves account and code alone and journals
an undo that does too. -/
theorem ObjectOp.run_frame {c : ObjectOp} {o : StateObject} {r : StateObject × ObjectUndo}
    (h : c.run o = some r) (hc : ∀ code, c ≠ .setCode code) :
    r.1.account = o.account ∧ r.1.code = o.code ∧ r.1.deleted = o.deleted
      ∧ ∀ old, r.2 ≠ .code old := by
  cases c with
  | subBalance x | addBalance x =>
    cases h
    simp only [StateObject.subBalance, StateObject.addBalance]
    cases o.balanceDelta <;> exact ⟨rfl, rfl, rfl, by simp⟩
  | setCode code => exact absurd rfl (hc code)
  | setState k v =>
    obtain ⟨m, -, rfl⟩ := Option.map_eq_some_iff.mp h
    refine ⟨rfl, rfl, rfl, ?_⟩
    cases m k <;> simp
  | suicide =>
    simp only [ObjectOp.run, StateObject.suicide] at h
    split_ifs at h
    cases h
    exact ⟨rfl, rfl, rfl, by simp⟩
  | _ =>
    cases h
    exact ⟨rfl, rfl, rfl, by simp [StateObject.setBalance, StateObject.setNonce,
      StateObject.setStorage]⟩

/-- An undo keeps an object right if its entry does. -/
theorem ObjectUndo.run_codeRight {tx : StorageTx} {a : Address} {u : ObjectUndo}
    {o p : StateObject} (he : (JournalEntry.object a u).CodeRight tx)
    (h : o.CodeRight tx a) (hp : u.run o = some p) : p.CodeRight tx a := by
  cases u with
  | code old =>
    cases hp
    refine ⟨h.record, fun c hc => ?_⟩
    obtain rfl : old = some c := hc
    exact he
  | balanceDeltaAdd x | balanceDeltaSub x | dirtyPut k old =>
    obtain ⟨_, -, rfl⟩ := Option.map_eq_some_iff.mp hp
    exact h.of_eq rfl rfl rfl
  | _ =>
    cases hp
    exact h.of_eq rfl rfl rfl

namespace StateDB

/-! ## The invariant -/

/-- **Code and record agree**, in every object and after every undo. -/
structure CodeInv (s : StateDB) : Prop where
  objects : ∀ a, (s.getAccount a).CodeRight s.tx a
  entries : ∀ e ∈ s.journal, e.CodeRight s.tx

variable {s s' t : StateDB}

theorem codeRight_setAccount {a : Address} {o : StateObject}
    (h : ∀ b, (s.getAccount b).CodeRight s.tx b) (ho : o.CodeRight s.tx a) (b : Address) :
    ((s.setAccount a o).getAccount b).CodeRight s.tx b := by
  by_cases hb : b = a
  · subst hb
    rwa [getAccount_setAccount]
  · rw [getAccount_setAccount_of_ne hb]
    exact h b

theorem codeInv_newStateDB (tx : StorageTx) : (newStateDB tx).CodeInv :=
  ⟨fun _ => ⟨fun _ => rfl, fun _ h => by cases h⟩, fun _ h => by cases h⟩

/-- A journaled change of one object keeps the invariant if the object
and the entry are right. -/
theorem CodeInv.change (h : s.CodeInv) {a : Address} {r : StateObject × ObjectUndo}
    (ho : r.1.CodeRight s.tx a) (he : (JournalEntry.object a r.2).CodeRight s.tx) :
    (s.change a r).CodeInv := by
  refine ⟨codeRight_setAccount h.objects ho, fun e hmem => ?_⟩
  obtain rfl | hmem := List.mem_cons.mp hmem
  · exact he
  · exact h.entries e hmem

/-- Entries about other parts of the state are right. -/
theorem CodeInv.push (h : s.CodeInv) {l : List JournalEntry} (htx : s'.tx = s.tx)
    (hst : s'.state = s.state) (hj : s'.journal = l ++ s.journal) (he : ∀ e ∈ l, e.CodeRight s.tx) :
    s'.CodeInv := by
  have hget : ∀ a, s'.getAccount a = s.getAccount a := fun a => by
    rw [getAccount, hst]
    rfl
  refine ⟨fun a => by rw [hget, htx]; exact h.objects a, fun e hmem => ?_⟩
  rw [hj] at hmem
  rw [htx]
  obtain hmem | hmem := List.mem_append.mp hmem
  · exact he e hmem
  · exact h.entries e hmem

/-- **One allowed call keeps the invariant.** -/
theorem Step.codeInv {o : Op} (h : Step s o s') (htx : CodeStore s.tx) (hs : s.CodeInv)
    (ho : s.CodeSafe o) : s'.CodeInv := by
  cases h with
  | loads hl =>
    have ht := hl.le.tx
    refine ⟨fun a => ?_, fun e he => ?_⟩
    · rw [ht]
      refine (hs.objects a).congr htx ?_
      have hv := hl.view a
      rwa [view, ht] at hv
    · rw [ht]
      exact hs.entries e (hl.journal ▸ he)
  | change a c r ht hr =>
    by_cases hc : ∃ code, c = .setCode code
    · obtain ⟨code, rfl⟩ := hc
      obtain rfl : o = .setCode a code := by
        cases o <;> simp only [Op.target, Option.some.injEq, Prod.mk.injEq, reduceCtorEq,
          and_false, ObjectOp.setCode.injEq] at ht
        rw [ht.1, ht.2]
      cases hr
      refine hs.change ⟨(hs.objects a).record, fun c hc => ?_⟩ ?_
      · cases hc
        exact ⟨CodeEntry.rehash_hash rfl, ho⟩
      · show JournalEntry.CodeRight s.tx (.object a (.code (s.getAccount a).code))
        cases hold : (s.getAccount a).code with
        | none => trivial
        | some old => exact (hs.objects a).code old hold
    · obtain ⟨hacc, hcode, hdel, hundo⟩ :=
        ObjectOp.run_frame hr (fun code hcode => hc ⟨code, hcode⟩)
      refine hs.change ((hs.objects a).of_eq hacc hcode hdel) ?_
      cases hu : r.2 with
      | code old => exact absurd hu (hundo old)
      | _ => trivial
  | createAccount a => exact ho.elim
  | addRefund x | subRefund x | transient a k v =>
    exact hs.push (l := [_]) rfl rfl rfl (by simp [JournalEntry.CodeRight])
  | address a =>
    obtain ⟨al, es, heq, hes⟩ := addAddressToAccessList_eq s a
    rw [heq]
    exact hs.push rfl rfl rfl (fun e he => by rw [hes e he]; trivial)
  | slot a k h =>
    obtain ⟨al, es, rfl, hes⟩ := addSlotToAccessList_eq h
    exact hs.push rfl rfl rfl (fun e he => by
      obtain rfl | rfl := hes e he <;> trivial)

/-- Undoing a right entry keeps the objects right. -/
theorem codeRight_undo {e : JournalEntry} (he : e.CodeRight s.tx)
    (hs : ∀ a, (s.getAccount a).CodeRight s.tx a) (h : e.undo s = some t) :
    t.tx = s.tx ∧ ∀ a, (t.getAccount a).CodeRight s.tx a := by
  cases e with
  | object a u =>
    obtain ⟨p, hp, rfl⟩ := Option.map_eq_some_iff.mp h
    exact ⟨rfl, codeRight_setAccount hs (ObjectUndo.run_codeRight he (hs a) hp)⟩
  | createAccount a prev => exact he.elim
  | transient a k old | accessListSlot a k =>
    obtain ⟨_, -, rfl⟩ := Option.map_eq_some_iff.mp h
    exact ⟨rfl, hs⟩
  | _ =>
    cases h
    exact ⟨rfl, hs⟩

theorem codeRight_undoAll {es : List JournalEntry} (he : ∀ e ∈ es, e.CodeRight s.tx)
    (hs : ∀ a, (s.getAccount a).CodeRight s.tx a) (h : undoAll JournalEntry.undo es s = some t) :
    t.tx = s.tx ∧ ∀ a, (t.getAccount a).CodeRight s.tx a := by
  induction es generalizing s with
  | nil =>
    cases h
    exact ⟨rfl, hs⟩
  | cons e es ih =>
    obtain ⟨s₁, hs₁, h⟩ := Option.bind_eq_some_iff.mp h
    obtain ⟨ht, hobj⟩ := codeRight_undo (he e List.mem_cons_self) hs hs₁
    rw [← ht] at hobj
    have := ih (fun e' h' => ht ▸ he e' (List.mem_cons_of_mem _ h')) hobj h
    rwa [ht] at this

theorem CodeInv.revertToSnapshot {snap : ℕ} (hs : s.CodeInv)
    (h : s.revertToSnapshot snap = some t) : t.tx = s.tx ∧ t.CodeInv := by
  unfold StateDB.revertToSnapshot at h
  split_ifs at h
  obtain ⟨u, hu, rfl⟩ := Option.map_eq_some_iff.mp h
  obtain ⟨ht, hobj⟩ := codeRight_undoAll
    (fun e he => hs.entries e (List.mem_of_mem_take he)) hs.objects hu
  refine ⟨ht, fun a => ?_, fun e he => ?_⟩
  · rw [ht]
    exact hobj a
  · rw [ht]
    exact hs.entries e (List.mem_of_mem_drop he)

/-- Mapping all objects by a function that keeps them right. -/
theorem CodeInv.map (hs : s.CodeInv) {f : StateObject → StateObject}
    (hf : ∀ a o, o.CodeRight s.tx a → (f o).CodeRight s.tx a) (ht : s'.tx = s.tx)
    (hst : ∀ a, s'.state a = (s.state a).map f) (hj : s'.journal = s.journal) : s'.CodeInv := by
  refine ⟨fun a => ?_, fun e he => ?_⟩
  · have h := hs.objects a
    unfold getAccount at h ⊢
    rw [ht, hst]
    cases ho : s.state a with
    | none => rwa [ho] at h
    | some o =>
      rw [ho] at h
      exact hf a o h
  · rw [ht]
    exact hs.entries e (hj ▸ he)

/-- **The invariant holds along allowed calls.** -/
theorem ReachableBy.codeInv (h : ReachableBy CodeSafe s) (htx : CodeStore s.tx) : s.CodeInv := by
  induction h with
  | new tx => exact codeInv_newStateDB tx
  | op o _ hsafe ho ih =>
    have hstep := Op.step ho
    rw [hstep.tx_eq] at htx
    exact hstep.codeInv htx (ih htx) hsafe
  | revert snap _ hr ih =>
    rw [revertToSnapshot_tx hr] at htx
    exact ((ih htx).revertToSnapshot hr).2
  | finalise _ ih =>
    refine (ih htx).map (f := StateObject.finalise) (fun a o h => ⟨fun hd => ?_, h.code⟩) rfl
      (fun _ => rfl) rfl
    have hd' : o.deleted = false := (Bool.or_eq_false_iff.mp hd).1
    rw [StateObject.record, hd]
    have hr := h.record hd'
    rwa [StateObject.record, hd'] at hr
  | copy _ ih | alCalcCopy _ ih =>
    exact (ih htx).map (f := StateObject.copy) (fun a o h => h.of_eq rfl rfl rfl) rfl
      (fun _ => rfl) rfl

/-- A state in which code and record agree satisfies the law. -/
theorem CodeInv.codeHashLaw (h : s.CodeInv) (htx : CodeStore s.tx) :
    s.CodeHashLaw := by
  intro a hex
  have hd : (s.getAccount a).deleted = false := by
    by_contra hne
    rw [Bool.not_eq_false] at hne
    simp [exist, read, hne] at hex
  have hentry := (h.objects a).codeEntry htx hd
  show ((s.getAccount a).getCodeHash s.tx a).1
    = keccak256Hash ((s.getAccount a).getCode s.tx a).1
  rw [StateObject.getCodeHash_fst, StateObject.getCode_fst, StateObject.codeOf, hd,
    if_neg Bool.false_ne_true, if_neg Bool.false_ne_true]
  cases hacc : (s.getAccount a).account with
  | none => exact hentry.hash
  | some account =>
    have hrec := (h.objects a).record hd
    rw [StateObject.record, hd, if_neg Bool.false_ne_true, hacc] at hrec
    exact (hentry.stored account hrec.symm).symm

/-- **The code hash law**, along calls that keep code and record
together: over a store whose records are right about their code, it
holds in every state reached. -/
theorem codeHashLaw_of_codeSafe {s : StateDB} (htx : CodeStore s.tx)
    (h : ReachableBy CodeSafe s) : s.CodeHashLaw :=
  (h.codeInv htx).codeHashLaw htx

omit [Keccak]

/-- Code set at an address the store has no record of, beside an account
whose code the store has. -/
theorem codeHashLaw_of_codeSafe_absent :
    letI := Keccak.digests
    CodeHashLaw ((newStateDB
      (.single 1 { codeHash := (keccak256Hash [0x5b]).bytes } [0x5b])).setCode 2 [0x00]) := by
  let _ := Keccak.digests
  refine codeHashLaw_of_codeSafe (codeStore_single rfl)
    (.op (.setCode 2 [0x00]) (.new _) (fun account h => ?_) rfl)
  cases h

/-- The account `CreateAccount` makes exists, with the zero hash for its
empty code. -/
theorem createAccount_codeHash_zero :
    letI := Keccak.digests
    let s := (newStateDB .empty).createAccount 1
    Reachable s ∧ CodeStore s.tx ∧ (s.exist 1).1 = true ∧ (s.getCode 1).1 = []
      ∧ (s.getCodeHash 1).1 = 0 ∧ keccak256Hash [] ≠ 0 := by
  let _ := Keccak.digests
  refine ⟨.op (.createAccount 1) (.new _) trivial rfl, fun _ _ h => ?_, rfl, rfl, rfl, by decide⟩
  cases h

end StateDB
