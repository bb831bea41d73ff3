import CardinalEvm.Caller
import CardinalEvm.Emptiness
import CardinalEvm.Finalise

/-!
# Reads are pure

Every getter may fill an object in, so a caller that reads more has
states that are filled in further. `Sim s t` says of two states that
they differ in no other way, in their objects and in what their journals
will put back; every call leads from two such states to two such states
(`Sim.run`), and a getter called on one of them alone changes nothing
(`Sim.read`).

What is left is whether the difference shows. It does in two places.
`GetCodeHash` answers from the record if it is loaded and from the code
otherwise, and `Empty` and `Exist` leave the record unloaded, and its
balance uncounted, if a nonce was set. So these calls are `Settled` where
the two answers agree, and `reads_pure` is about the sequences whose
calls all are.
-/

variable [Keccak]

namespace StateObject

/-! ## Objects filled in differently -/

/-- The record of an object: an empty one if `CreateAccount` made it,
the store's otherwise. -/
def recordOf (tx : StorageTx) (a : Address) (created : Bool) : Option Account :=
  if created then some {} else tx.accountData a

/-- The record is loaded from the store, if at all, unless `CreateAccount`
put it there. -/
def Accounted (tx : StorageTx) (a : Address) (o : StateObject) : Prop :=
  if o.created then o.account = some {} else o.account = none ∨ o.account = tx.accountData a

/-- **Two objects that differ in what is filled in**, and in nothing
else. The code of a deleted object can no longer be filled in, but what
the journal puts back must still agree. -/
structure Alike (tx : StorageTx) (a : Address) (o p : StateObject) : Prop where
  balanceDelta : p.balanceDelta = o.balanceDelta
  dirty : p.dirty = o.dirty
  created : p.created = o.created
  suicided : p.suicided = o.suicided
  deleted : p.deleted = o.deleted
  nonce : p.nonce = o.nonce
  fakeBalance : p.fakeBalance = o.fakeBalance
  committed : ∀ k, p.committed tx a k = o.committed tx a k
  code : (p.code.getD (entryOf tx (recordOf tx a o.created))).rehash
    = (o.code.getD (entryOf tx (recordOf tx a o.created))).rehash
  accounted : o.Accounted tx a
  accounted' : p.Accounted tx a

/-- `o'` is `o` filled in further. -/
structure Fills (tx : StorageTx) (a : Address) (o o' : StateObject) : Prop where
  loaded : o'.loaded tx a = o.loaded tx a
  account : o'.account = o.account ∨ o'.account = o.record tx a

section Filling

variable {tx : StorageTx} {a : Address} {o p q o' : StateObject}

omit [Keccak] in
/-- The record of an object that is not deleted. -/
theorem Accounted.record (h : o.Accounted tx a) (hd : o.deleted = false) :
    o.record tx a = recordOf tx a o.created := by
  unfold Accounted at h
  unfold StateObject.record recordOf
  rw [hd, if_neg Bool.false_ne_true]
  split_ifs at h ⊢ with hc
  · rw [h]
    rfl
  · obtain h | h := h
    · rw [h]
      rfl
    · rw [h, Option.or_self]

theorem Alike.refl (h : o.Accounted tx a) : Alike tx a o o :=
  ⟨rfl, rfl, rfl, rfl, rfl, rfl, rfl, fun _ => rfl, rfl, h, h⟩

theorem Alike.symm (h : Alike tx a o p) : Alike tx a p o where
  balanceDelta := h.balanceDelta.symm
  dirty := h.dirty.symm
  created := h.created.symm
  suicided := h.suicided.symm
  deleted := h.deleted.symm
  nonce := h.nonce.symm
  fakeBalance := h.fakeBalance.symm
  committed k := (h.committed k).symm
  code := by rw [h.created]; exact h.code.symm
  accounted := h.accounted'
  accounted' := h.accounted

theorem Fills.refl (tx : StorageTx) (a : Address) (o : StateObject) : Fills tx a o o :=
  ⟨rfl, .inl rfl⟩

theorem Fills.trans (h : Fills tx a o p) (h' : Fills tx a p q) : Fills tx a o q := by
  refine ⟨h'.loaded.trans h.loaded, ?_⟩
  have hrec : p.record tx a = o.record tx a :=
    show (p.loaded tx a).account = (o.loaded tx a).account by rw [h.loaded]
  obtain hq | hq := h'.account
  · rw [hq]
    exact h.account
  · exact .inr (hq.trans hrec)

/-- Filling in keeps an object's record where it is from. -/
theorem Fills.accounted (h : Fills tx a o o') (ho : o.Accounted tx a) : o'.Accounted tx a := by
  have hc : o'.created = o.created :=
    show (o'.loaded tx a).created = (o.loaded tx a).created by rw [h.loaded]
  have hrec : o.record tx a = o.account ∨ o.record tx a = recordOf tx a o.created := by
    cases hd : o.deleted with
    | true => exact .inl (if_pos hd)
    | false => exact .inr (ho.record hd)
  have hacc : o'.account = o.account ∨ o'.account = recordOf tx a o.created := by
    obtain h | h := h.account
    · exact .inl h
    · exact hrec.imp h.trans h.trans
  unfold Accounted at ho ⊢
  unfold recordOf at hacc
  rw [hc]
  split_ifs at ho hacc ⊢ with hcr
  · exact hacc.elim (fun h => h.trans ho) id
  · exact hacc.elim (fun h => by rwa [h]) .inr

/-- **Filling one of the two in.** -/
theorem Alike.fills (h : Alike tx a o p) (hq : Fills tx a p q) : Alike tx a o q := by
  have hl := hq.loaded
  have field : ∀ {β : Type} (f : StateObject → β), f (q.loaded tx a) = f (p.loaded tx a) :=
    fun f => congrArg f hl
  have hd : q.deleted = p.deleted := field StateObject.deleted
  have hcreated : q.created = p.created := field StateObject.created
  refine
    { balanceDelta := (field StateObject.balanceDelta).trans h.balanceDelta
      dirty := (field StateObject.dirty).trans h.dirty
      created := hcreated.trans h.created
      suicided := (field StateObject.suicided).trans h.suicided
      deleted := hd.trans h.deleted
      nonce := (field StateObject.nonce).trans h.nonce
      fakeBalance := (field StateObject.fakeBalance).trans h.fakeBalance
      committed := fun k => (congrFun (committed_congr hl) k).trans (h.committed k)
      code := Eq.trans ?_ h.code
      accounted := h.accounted
      accounted' := hq.accounted h.accounted' }
  have hcode : (q.loaded tx a).code = (p.loaded tx a).code := field StateObject.code
  rw [loaded_code, loaded_code, hd] at hcode
  cases hpd : p.deleted with
  | true =>
    rw [hpd, if_pos rfl, if_pos rfl] at hcode
    rw [hcode]
  | false =>
    -- what is not deleted has its code filled in from the record
    rw [hpd, if_neg Bool.false_ne_true, if_neg Bool.false_ne_true] at hcode
    have hentry := Option.some.inj hcode
    unfold codeEntry at hentry
    rwa [(hq.accounted h.accounted').record (hd.trans hpd), h.accounted'.record hpd, hcreated,
      h.created] at hentry

/-! ### The getters fill in -/

variable (tx a o)

theorem fills_loadAccount : Fills tx a o (o.loadAccount tx a).2 :=
  ⟨loaded_loadAccount tx a o, .inr (by rw [loadAccount_eq])⟩

theorem fills_loadCode : Fills tx a o (o.loadCode tx a).2 := by
  refine ⟨loaded_loadCode tx a o, ?_⟩
  rw [loadCode_eq]
  split_ifs
  · exact .inl rfl
  · exact .inr rfl

theorem fills_getBalance : Fills tx a o (match o.loadAccount tx a with
    | (false, o') => ((0 : Int), o')
    | (true, o') => (o'.getBalance, o')).2 := by
  have h := fills_loadAccount tx a o
  revert h
  rcases o.loadAccount tx a with ⟨_ | _, o'⟩ <;> exact id

theorem fills_getNonce : Fills tx a o (o.getNonce tx a).2 := by
  refine ⟨loaded_getNonce tx a o, ?_⟩
  rw [getNonce_snd]
  unfold seen
  split_ifs
  · exact .inl rfl
  · exact .inr rfl

theorem fills_getCode : Fills tx a o (o.getCode tx a).2 := by
  have h := fills_loadCode tx a o
  unfold getCode
  revert h
  rcases o.loadCode tx a with ⟨_ | _, o'⟩ <;> exact id

theorem fills_getCodeHash : Fills tx a o (o.getCodeHash tx a).2 := by
  refine ⟨loaded_getCodeHash tx a o, ?_⟩
  have h := (fills_loadCode tx a o).account
  unfold getCodeHash
  cases hacc : o.account with
  | some account => exact .inl hacc
  | none =>
    rw [hacc] at h
    revert h
    rcases o.loadCode tx a with ⟨_ | _, o'⟩
    · exact id
    · dsimp only
      cases o'.code <;> exact id

theorem fills_getCommittedState (k : Hash) : Fills tx a o (o.getCommittedState tx a k).2 :=
  ⟨loaded_getCommittedState tx a k o, .inl (by rw [getCommittedState_eq])⟩

theorem fills_getState (k : Hash) : Fills tx a o (o.getState tx a k).2 := by
  unfold getState
  cases o.dirty.bind (fun m => m k) with
  | some data => exact .refl tx a o
  | none => exact fills_getCommittedState tx a o k

theorem fills_empty : Fills tx a o (o.empty tx a).2 := by
  have h := fills_getNonce tx a o
  unfold empty
  revert h
  rcases o.getNonce tx a with ⟨n, o'⟩
  intro h
  dsimp only
  split_ifs
  · exact h
  · exact h
  · exact h.trans (fills_getCodeHash tx a o')

variable {tx a o}

section Alike

variable (h : Alike tx a o p)
include h

/-- What `CreateAccount` keeps of two objects that are alike. -/
theorem Alike.replaced : (o.replaced tx a).1.Alike tx a (p.replaced tx a).1
      ∧ (p.replaced tx a).2 = (o.replaced tx a).2
      ∧ (o.replaced tx a).1.created = o.created := by
  unfold StateObject.replaced
  rw [h.deleted, h.suicided]
  by_cases hgone : (!o.deleted && !o.suicided) = true
  · have hd : o.deleted = false := by
      revert hgone
      cases o.deleted <;> simp
    have hrec : p.record tx a = o.record tx a := by
      rw [h.accounted'.record (h.deleted.trans hd), h.accounted.record hd, h.created]
    have hfills := h.fills (fills_loadAccount tx a p)
    replace hfills := (hfills.symm.fills (fills_loadAccount tx a o)).symm
    rw [if_pos hgone, if_pos hgone]
    rw [loadAccount_eq, loadAccount_eq] at hfills ⊢
    rw [h.deleted, hrec] at hfills ⊢
    cases !o.deleted && (o.record tx a).isSome with
    | true =>
      refine ⟨hfills, ?_, rfl⟩
      simp only [getBalance, h.balanceDelta, h.fakeBalance]
    | false => exact ⟨hfills, rfl, rfl⟩
  · rw [if_neg hgone, if_neg hgone]
    exact ⟨h, rfl, rfl⟩

theorem Alike.current (k : Hash) : p.current tx a k = o.current tx a k := by
  unfold StateObject.current
  rw [h.dirty, h.committed]

theorem Alike.finalise : Alike tx a o.finalise p.finalise :=
  { h with
    deleted := by
      show (p.deleted || p.suicided) = (o.deleted || o.suicided)
      rw [h.deleted, h.suicided]
    committed := fun k => by
      rw [committed_finalise, committed_finalise]
      exact h.current k }

theorem Alike.copy : Alike tx a o.copy p.copy :=
  { h with
    dirty := by
      show some (p.dirty.getD _) = some (o.dirty.getD _)
      rw [h.dirty]
    fakeBalance := rfl }

/-! ### What they show -/

/-- Two objects that are not deleted agree once loaded. -/
theorem Alike.loaded_eq (hd : o.deleted = false) : p.loaded tx a = o.loaded tx a := by
  have hpd : p.deleted = false := h.deleted.trans hd
  have hrec := h.accounted.record hd
  have hrec' := h.accounted'.record hpd
  have hcode := h.code
  rw [h.created] at hrec'
  simp only [loaded, codeEntry, hrec, hrec', hd, hpd, h.balanceDelta, h.dirty, h.created,
    h.suicided, h.nonce, h.fakeBalance, funext h.committed, hcode, if_neg Bool.false_ne_true]

theorem Alike.balance : p.balance tx a = o.balance tx a := by
  cases hd : o.deleted with
  | false => exact balance_congr (h.loaded_eq hd)
  | true => simp [StateObject.balance, h.deleted, hd]

theorem Alike.nonceOf : p.nonceOf tx a = o.nonceOf tx a := by
  cases hd : o.deleted with
  | false => exact nonceOf_congr (h.loaded_eq hd)
  | true => simp [StateObject.nonceOf, h.deleted, h.nonce, hd]

theorem Alike.codeOf : p.codeOf tx a = o.codeOf tx a := by
  cases hd : o.deleted with
  | false => exact codeOf_congr (h.loaded_eq hd)
  | true => simp [StateObject.codeOf, h.deleted, hd]

end Alike

theorem Alike.rehash_eq (h : Alike tx a o p) (hd : o.deleted = false) :
    (p.codeEntry tx a).rehash = (o.codeEntry tx a).rehash := by
  have hcode : (p.loaded tx a).code = (o.loaded tx a).code := by rw [h.loaded_eq hd]
  rw [loaded_code, loaded_code, h.deleted, hd, if_neg Bool.false_ne_true] at hcode
  exact Option.some.inj hcode

end Filling

/-! ## When loading does not show -/

/-- **The code hash shown does not depend on the record being loaded**:
the store has no record, or one with the hash of the code shown, or
`CreateAccount` made the object. -/
def HashSettled (tx : StorageTx) (a : Address) (o : StateObject) : Prop :=
  o.created = false → ∀ account, tx.accountData a = some account →
    bytesToHash account.codeHash
      = if o.deleted then emptyCode else (o.codeEntry tx a).rehash.hash

/-- **Nor does emptiness**: the nonce was not set to zero, or the code
hash is settled and the balance of the record is overridden or zero. -/
def EmptySettled (tx : StorageTx) (a : Address) (o : StateObject) : Prop :=
  o.deleted = false → o.nonce = some 0 → o.HashSettled tx a
    ∧ (o.created = false → o.fakeBalance = none → ∀ account, tx.accountData a = some account →
      account.balance.getD 0 = 0)

section Settled

variable {tx : StorageTx} {a : Address} {o p : StateObject}

theorem Alike.hashSettled (h : Alike tx a o p) (hs : o.HashSettled tx a) :
    p.HashSettled tx a := by
  intro hc account hacc
  rw [hs (h.created ▸ hc) account hacc, h.deleted]
  cases hd : o.deleted with
  | true => rfl
  | false => rw [if_neg Bool.false_ne_true, if_neg Bool.false_ne_true, h.rehash_eq hd]

theorem Alike.emptySettled (h : Alike tx a o p) (hs : o.EmptySettled tx a) :
    p.EmptySettled tx a := by
  intro hd hn
  obtain ⟨hhash, hbal⟩ := hs (h.deleted ▸ hd) (h.nonce ▸ hn)
  refine ⟨h.hashSettled hhash, fun hc hf => hbal (h.created ▸ hc) (h.fakeBalance ▸ hf)⟩

/-- What a settled code hash is. -/
theorem getCodeHash_settled (ho : o.Accounted tx a) (hs : o.HashSettled tx a) :
    (o.getCodeHash tx a).1 = if o.created then 0
      else if o.deleted then emptyCode else (o.codeEntry tx a).rehash.hash := by
  rw [getCodeHash_fst]
  unfold Accounted at ho
  split_ifs at ho with hc
  · rw [ho, if_pos hc]
    rfl
  · rw [if_neg hc]
    obtain ho | ho := ho
    · rw [ho]
    · cases hacc : tx.accountData a with
      | none => rw [ho, hacc]
      | some account => rw [ho, hacc, ← hs (Bool.not_eq_true _ ▸ hc) account hacc]

theorem Alike.getCodeHash (h : Alike tx a o p) (hs : o.HashSettled tx a) :
    (p.getCodeHash tx a).1 = (o.getCodeHash tx a).1 := by
  rw [getCodeHash_settled h.accounted hs, getCodeHash_settled h.accounted' (h.hashSettled hs),
    h.created, h.deleted]
  cases hd : o.deleted with
  | true => rfl
  | false => rw [if_neg Bool.false_ne_true, if_neg Bool.false_ne_true, h.rehash_eq hd]

/-- What `empty` asks where it is settled, all of it the record's. -/
theorem empty_settled (ho : o.Accounted tx a) (hd : o.deleted = false)
    (hs : o.EmptySettled tx a) :
    (o.empty tx a).1 = true ↔
      o.nonceOf tx a = 0
        ∧ { o with account := recordOf tx a o.created }.getBalance = (0 : Int)
        ∧ match recordOf tx a o.created with
          | some account => bytesToHash account.codeHash = emptyCode
          | none => (o.codeEntry tx a).rehash.hash = emptyCode := by
  rw [empty_iff hd]
  refine and_congr_right fun hn => ?_
  by_cases hsome : o.nonce.isSome
  · obtain ⟨n, hnonce⟩ := Option.isSome_iff_exists.mp hsome
    have hzero : n = 0 := by
      rwa [nonceOf, hnonce] at hn
    obtain ⟨hhash, hbal⟩ := hs hd (hzero ▸ hnonce)
    rw [seen, if_pos hsome]
    unfold Accounted at ho
    unfold recordOf
    split_ifs at ho ⊢ with hc
    · rw [ho]
    · rw [Bool.not_eq_true] at hc
      obtain ho | ho := ho
      · cases hacc : tx.accountData a with
        | none => rw [ho]
        | some account =>
          -- the record is not loaded, but what it would tell is known
          have hh := hhash hc account hacc
          rw [hd, if_neg Bool.false_ne_true] at hh
          have hb : { o with account := none }.getBalance
              = { o with account := some account }.getBalance := by
            cases hf : o.fakeBalance with
            | some x => simp only [getBalance]
            | none =>
              simp only [getBalance]
              rw [show (Option.bind (some account) Account.balance).getD 0 = 0 from
                hbal hc hf account hacc]
              rfl
          rw [ho]
          dsimp only
          rw [hb, hh]
      · rewrite [ho]
        exact Iff.rfl
  · rewrite [seen, if_neg hsome, ho.record hd]
    exact Iff.rfl

theorem Alike.empty (h : Alike tx a o p) (hd : o.deleted = false) (hs : o.EmptySettled tx a) :
    (p.empty tx a).1 = (o.empty tx a).1 := by
  have hbal : ∀ account, { p with account := account }.getBalance
      = { o with account := account }.getBalance := by
    intro account
    simp only [getBalance, h.balanceDelta, h.fakeBalance]
  rw [Bool.eq_iff_iff, empty_settled h.accounted hd hs,
    empty_settled h.accounted' (h.deleted.trans hd) (h.emptySettled hs), h.nonceOf, hbal,
    h.created, h.rehash_eq hd]

end Settled

end StateObject

namespace StateDB

open StateObject in
/-- **A getter fills one object in.** -/
theorem Op.fills {o : Op} (ho : o.isRead) {s t : StateDB} (h : o.apply s = some t) :
    ∃ a p, t = s.setAccount a p ∧ (s.getAccount a).Fills s.tx a p := by
  cases o with
  | getBalance a => exact ⟨a, _, (Option.some.inj h).symm, fills_getBalance s.tx a _⟩
  | getNonce a => exact ⟨a, _, (Option.some.inj h).symm, fills_getNonce s.tx a _⟩
  | getCodeHash a => exact ⟨a, _, (Option.some.inj h).symm, fills_getCodeHash s.tx a _⟩
  | getCode a | getCodeSize a => exact ⟨a, _, (Option.some.inj h).symm, fills_getCode s.tx a _⟩
  | getCommittedState a k =>
    exact ⟨a, _, (Option.some.inj h).symm, fills_getCommittedState s.tx a _ (slotKey k)⟩
  | getState a k => exact ⟨a, _, (Option.some.inj h).symm, fills_getState s.tx a _ (slotKey k)⟩
  | hasSuicided a => exact ⟨a, _, (Option.some.inj h).symm, .refl s.tx a _⟩
  | exist a | empty a =>
    refine ⟨a, _, (Option.some.inj h).symm, ?_⟩
    dsimp only
    split_ifs
    · exact .refl s.tx a _
    · exact fills_empty s.tx a _
  | _ => cases ho

end StateDB

/-! ## Journals -/

/-- Two undos that do the same to an object with a given record. Code
that was not loaded when it was replaced will be loaded from there. -/
def ObjectUndo.Alike (tx : StorageTx) (record : Option Account) (u u' : ObjectUndo) : Prop :=
  u' = u ∨ ∃ old old', u = .code old ∧ u' = .code old'
    ∧ (old'.getD (StateObject.entryOf tx record)).rehash
      = (old.getD (StateObject.entryOf tx record)).rehash

namespace JournalEntry

/-- Which objects were made by `CreateAccount` before an entry was
written, given which are now. -/
def rewind : JournalEntry → (Address → Bool) → Address → Bool
  | createAccount a prev, created => Function.update created a prev.created
  | _, created => created

/-- Two entries that put the same back. -/
inductive Alike (tx : StorageTx) (created : Address → Bool) : JournalEntry → JournalEntry → Prop
  | object {a : Address} {u u' : ObjectUndo} :
    u.Alike tx (StateObject.recordOf tx a (created a)) u' →
    Alike tx created (.object a u) (.object a u')
  | createAccount {a : Address} {prev prev' : StateObject} : prev.Alike tx a prev' →
    Alike tx created (.createAccount a prev) (.createAccount a prev')
  | refund (old : UInt64) : Alike tx created (.refund old) (.refund old)
  | transient (a : Address) (k old : Hash) :
    Alike tx created (.transient a k old) (.transient a k old)
  | accessListAddress (a : Address) :
    Alike tx created (.accessListAddress a) (.accessListAddress a)
  | accessListSlot (a : Address) (k : Hash) :
    Alike tx created (.accessListSlot a k) (.accessListSlot a k)

/-- Two journals, entry by entry. -/
inductive Journals (tx : StorageTx) :
    (Address → Bool) → List JournalEntry → List JournalEntry → Prop
  | nil (created : Address → Bool) : Journals tx created [] []
  | cons {created : Address → Bool} {e e' : JournalEntry} {es es' : List JournalEntry} :
    e.Alike tx created e' → Journals tx (e.rewind created) es es' →
    Journals tx created (e :: es) (e' :: es')

end JournalEntry

section Symmetry

variable {tx : StorageTx}

theorem ObjectUndo.Alike.symm {record : Option Account} {u u' : ObjectUndo}
    (h : u.Alike tx record u') : u'.Alike tx record u := by
  obtain rfl | ⟨old, old', rfl, rfl, hr⟩ := h
  · exact .inl rfl
  · exact .inr ⟨old', old, rfl, rfl, hr.symm⟩

theorem JournalEntry.Alike.symm {created : Address → Bool} {e e' : JournalEntry}
    (h : e.Alike tx created e') :
    e'.Alike tx created e ∧ e'.rewind created = e.rewind created := by
  cases h with
  | object h => exact ⟨.object h.symm, rfl⟩
  | createAccount h =>
    refine ⟨.createAccount h.symm, ?_⟩
    simp only [rewind, h.created]
  | refund | transient | accessListAddress | accessListSlot => exact ⟨by constructor, rfl⟩

theorem JournalEntry.Journals.symm {created : Address → Bool} {es es' : List JournalEntry}
    (h : Journals tx created es es') : Journals tx created es' es := by
  induction h with
  | nil created => exact .nil created
  | cons he _ ih =>
    obtain ⟨he', hrew⟩ := he.symm
    exact .cons he' (hrew ▸ ih)

theorem JournalEntry.Journals.length_eq {created : Address → Bool}
    {es es' : List JournalEntry} (h : Journals tx created es es') : es'.length = es.length := by
  induction h with
  | nil => rfl
  | cons _ _ ih => simp [ih]

end Symmetry

/-! ## Changes and undos -/

section Changes

variable {tx : StorageTx} {a : Address} {o p : StateObject}

/-- **One change of two objects that are alike.** -/
theorem ObjectOp.run_alike (c : ObjectOp) (h : o.Alike tx a p) :
    Option.Rel (fun r r' => r.1.Alike tx a r'.1 ∧ r.1.created = o.created
      ∧ r.2.Alike tx (StateObject.recordOf tx a o.created) r'.2) (c.run o) (c.run p) := by
  cases c with
  | subBalance x | addBalance x =>
    simp only [ObjectOp.run, StateObject.subBalance, StateObject.addBalance, h.balanceDelta]
    cases o.balanceDelta <;> exact .some ⟨{ h with balanceDelta := rfl }, rfl, .inl rfl⟩
  | setBalance x =>
    exact .some ⟨{ h with fakeBalance := rfl }, rfl,
      .inl (congrArg ObjectUndo.fakeBalance h.fakeBalance)⟩
  | setNonce n =>
    exact .some ⟨{ h with nonce := rfl }, rfl, .inl (congrArg ObjectUndo.nonce h.nonce)⟩
  | setCode code =>
    exact .some ⟨{ h with code := rfl }, rfl, .inr ⟨o.code, p.code, rfl, rfl, h.code⟩⟩
  | setState k v =>
    simp only [ObjectOp.run, StateObject.setState, h.dirty]
    cases o.dirty with
    | none => exact .none
    | some m => exact .some ⟨{ h with dirty := rfl }, rfl, .inl rfl⟩
  | setStorage m =>
    exact .some ⟨{ h with dirty := rfl }, rfl, .inl (congrArg ObjectUndo.dirtyMap h.dirty)⟩
  | suicide =>
    simp only [ObjectOp.run, StateObject.suicide, h.suicided, h.deleted]
    split_ifs
    · exact .none
    · exact .some ⟨{ h with suicided := rfl, deleted := rfl }, rfl, .inl rfl⟩

/-- **One undo of two objects that are alike.** -/
theorem ObjectUndo.run_alike {u u' : ObjectUndo}
    (hu : u.Alike tx (StateObject.recordOf tx a o.created) u') (h : o.Alike tx a p) :
    Option.Rel (fun q q' => q.Alike tx a q' ∧ q.created = o.created) (u.run o) (u'.run p) := by
  obtain rfl | ⟨old, old', rfl, rfl, hold⟩ := hu
  · cases u' with
    | balanceDeltaAdd x | balanceDeltaSub x =>
      simp only [ObjectUndo.run, h.balanceDelta]
      cases o.balanceDelta with
      | none => exact .none
      | some delta => exact .some ⟨{ h with balanceDelta := rfl }, rfl⟩
    | dirtyPut k old =>
      simp only [ObjectUndo.run, h.dirty]
      cases o.dirty with
      | none => exact .none
      | some m => exact .some ⟨{ h with dirty := rfl }, rfl⟩
    | dirtyDelete k => exact .some ⟨{ h with dirty := congrArg (Option.map _) h.dirty }, rfl⟩
    | balanceDeltaNil => exact .some ⟨{ h with balanceDelta := rfl }, rfl⟩
    | fakeBalance old => exact .some ⟨{ h with fakeBalance := rfl }, rfl⟩
    | nonce old => exact .some ⟨{ h with nonce := rfl }, rfl⟩
    | code old => exact .some ⟨{ h with code := rfl }, rfl⟩
    | dirtyMap old => exact .some ⟨{ h with dirty := rfl }, rfl⟩
    | suicided => exact .some ⟨{ h with suicided := rfl }, rfl⟩
  · exact .some ⟨{ h with code := hold }, rfl⟩

end Changes

namespace StateDB

open JournalEntry (Journals)

/-- The objects `CreateAccount` made. -/
def createdOf (s : StateDB) (a : Address) : Bool := (s.getAccount a).created

/-- **Two states that differ in what is filled in**, and in nothing
else. -/
structure Sim (s t : StateDB) : Prop where
  tx : t.tx = s.tx
  transient : t.transient = s.transient
  refund : t.refund = s.refund
  accessList : t.accessList = s.accessList
  alcalc : t.alcalc = s.alcalc
  object : ∀ a, (s.getAccount a).Alike s.tx a (t.getAccount a)
  journal : Journals s.tx s.createdOf s.journal t.journal

namespace Sim

variable {s t : StateDB} {a : Address} {o p : StateObject}

omit [Keccak] in
theorem createdOf_setAccount (s : StateDB) (a : Address) (o : StateObject) :
    (s.setAccount a o).createdOf = Function.update s.createdOf a o.created := by
  funext b
  by_cases hb : b = a
  · subst hb
    simp [createdOf]
  · rw [createdOf, getAccount_setAccount_of_ne hb, Function.update_of_ne hb]
    rfl

omit [Keccak] in
theorem update_createdOf (s : StateDB) (a : Address) :
    Function.update s.createdOf a (s.getAccount a).created = s.createdOf :=
  Function.update_eq_self a s.createdOf

omit [Keccak] in
theorem getAccount_copy (s : StateDB) (a : Address) :
    s.copy.getAccount a = (s.getAccount a).copy := by
  show ((s.state a).map StateObject.copy).getD {} = ((s.state a).getD {}).copy
  cases s.state a <;> rfl

variable (h : Sim s t)

include h

theorem symm : Sim t s where
  tx := h.tx.symm
  transient := h.transient.symm
  refund := h.refund.symm
  accessList := h.accessList.symm
  alcalc := h.alcalc.symm
  object a := by rw [h.tx]; exact (h.object a).symm
  journal := by
    have hc : t.createdOf = s.createdOf := funext fun a => (h.object a).created
    rw [h.tx, hc]
    exact h.journal.symm

/-- Writing two objects that are alike, and two entries that put the
same back. -/
theorem setAccount (ho : o.Alike s.tx a p) {es es' : List JournalEntry}
    (hj : Journals s.tx (Function.update s.createdOf a o.created) es es') :
    Sim { s.setAccount a o with journal := es } { t.setAccount a p with journal := es' } where
  tx := h.tx
  transient := h.transient
  refund := h.refund
  accessList := h.accessList
  alcalc := h.alcalc
  object b := by
    by_cases hb : b = a
    · subst hb
      show ((s.setAccount b o).getAccount b).Alike s.tx b ((t.setAccount b p).getAccount b)
      rwa [getAccount_setAccount, getAccount_setAccount]
    · show ((s.setAccount a o).getAccount b).Alike s.tx b ((t.setAccount a p).getAccount b)
      rw [getAccount_setAccount_of_ne hb, getAccount_setAccount_of_ne hb]
      exact h.object b
  journal := by
    show Journals s.tx (s.setAccount a o).createdOf es es'
    rwa [createdOf_setAccount]

/-- Writing two objects that are alike, in place of two of the same
kind. -/
theorem setAccount_same (ho : o.Alike s.tx a p) (hc : o.created = (s.getAccount a).created) :
    Sim (s.setAccount a o) (t.setAccount a p) := by
  have hj : Journals s.tx (Function.update s.createdOf a o.created) s.journal t.journal := by
    rw [hc, update_createdOf]
    exact h.journal
  exact h.setAccount ho hj

/-- **A getter called on one of the two.** -/
theorem read {c : Op} (hc : c.isRead) {t' : StateDB} (ht : c.apply t = some t') : Sim s t' := by
  obtain ⟨a, p, rfl, hp⟩ := Op.fills hc ht
  rw [h.tx] at hp
  refine { h with object := fun b => ?_ }
  by_cases hb : b = a
  · subst hb
    rw [getAccount_setAccount]
    exact (h.object b).fills hp
  · rw [getAccount_setAccount_of_ne hb]
    exact h.object b

/-- A journaled change of the same object. -/
theorem change (c : ObjectOp) :
    Option.Rel (fun r r' => Sim (s.change a r) (t.change a r')) (c.run (s.getAccount a))
      (c.run (t.getAccount a)) := by
  refine (c.run_alike (h.object a)).mono fun r r' ⟨ho, hcr, hu⟩ => ?_
  refine h.setAccount ho (.cons (.object ?_) ?_)
  · rwa [hcr, Function.update_self]
  · rw [hcr, update_createdOf]
    exact h.journal

/-- **The account `CreateAccount` makes** is the same on both. -/
theorem createAccount (a : Address) : Sim (s.createAccount a) (t.createAccount a) := by
  obtain ⟨hprev, hbal, hcr⟩ := (h.object a).replaced
  rw [createAccount_replaced, createAccount_replaced, h.tx, hbal]
  refine h.setAccount (.refl ?_) (.cons (.createAccount hprev) ?_)
  · rw [StateObject.Accounted, if_pos rfl]
  · -- what is pushed puts the old object back, and with it its kind
    rw [JournalEntry.rewind, Function.update_idem, hcr, update_createdOf]
    exact h.journal

/-- Looking the same object up in both. -/
theorem touch (a : Address) :
    Sim (s.setAccount a (s.getAccount a)) (t.setAccount a (t.getAccount a)) :=
  h.setAccount_same (h.object a) rfl

theorem suicide (a : Address) :
    (t.suicide a).1 = (s.suicide a).1 ∧ Sim (s.suicide a).2 (t.suicide a).2 := by
  have hsim : Option.Rel _ (s.getAccount a).suicide (t.getAccount a).suicide := h.change .suicide
  unfold StateDB.suicide
  generalize (s.getAccount a).suicide = x, (t.getAccount a).suicide = y at hsim
  cases hsim with
  | none => exact ⟨rfl, h.touch a⟩
  | some hr => exact ⟨rfl, hr⟩

theorem setTransientState (a : Address) (k v : Hash) :
    Sim (s.setTransientState a k v) (t.setTransientState a k v) := by
  unfold StateDB.setTransientState
  rw [h.transient]
  exact { h with
    transient := rfl
    journal := .cons (.transient a k _) h.journal }

theorem addAddressToAccessList (a : Address) :
    Sim (s.addAddressToAccessList a) (t.addAddressToAccessList a) := by
  unfold StateDB.addAddressToAccessList
  rw [h.accessList]
  rcases s.accessList.addAddress a with ⟨al, _ | _⟩
  · exact { h with accessList := rfl }
  · exact { h with
      accessList := rfl
      journal := .cons (.accessListAddress a) h.journal }

theorem addSlotToAccessList (a : Address) (k : Hash) :
    Option.Rel Sim (s.addSlotToAccessList a k) (t.addSlotToAccessList a k) := by
  unfold StateDB.addSlotToAccessList
  rw [h.accessList]
  rcases s.accessList.addSlot a k with _ | ⟨al, addrMod, slotMod⟩
  · exact .none
  have haddr := Journals.cons (.accessListAddress a) h.journal
  cases addrMod <;> cases slotMod
  · exact .some { h with accessList := rfl }
  · exact .some { h with accessList := rfl, journal := .cons (.accessListSlot a k) h.journal }
  · exact .some { h with accessList := rfl, journal := haddr }
  · exact .some { h with accessList := rfl, journal := .cons (.accessListSlot a k) haddr }

/-- **One method, on both.** -/
theorem op (c : Op) : Option.Rel Sim (c.apply s) (c.apply t) := by
  have hread : c.isRead → ∀ {s' t'}, c.apply s = some s' → c.apply t = some t' → Sim s' t' :=
    fun hc _ _ hs ht => ((h.read hc ht).symm.read hc hs).symm
  cases c with
  | createAccount a => exact .some (h.createAccount a)
  | subBalance a x =>
    simp only [Op.apply, StateDB.subBalance]
    split_ifs
    · exact .some h
    · exact (h.change (.subBalance x)).map fun _ _ hr => hr
  | addBalance a x =>
    simp only [Op.apply, StateDB.addBalance]
    split_ifs
    · exact .some h
    · exact (h.change (.addBalance x)).map fun _ _ hr => hr
  | setBalance a x => exact (h.change (.setBalance x)).map fun _ _ hr => hr
  | setNonce a n => exact (h.change (.setNonce n)).map fun _ _ hr => hr
  | setCode a code => exact (h.change (.setCode code)).map fun _ _ hr => hr
  | setStorage a m => exact (h.change (.setStorage m)).map fun _ _ hr => hr
  | setState a k v => exact (h.change (.setState (slotKey k) v)).map fun _ _ hr => hr
  | setTransientState a k v => exact .some (h.setTransientState a k v)
  | suicide a => exact .some (h.suicide a).2
  | selfDestruct6780 a =>
    simp only [Op.apply, StateDB.selfDestruct6780, (h.object a).created]
    split_ifs
    · exact .some (h.suicide a).2
    · exact .some (h.touch a)
  | addRefund x | subRefund x =>
    simp only [Op.apply, StateDB.addRefund, StateDB.subRefund, h.refund]
    exact .some { h with refund := rfl, journal := .cons (.refund _) h.journal }
  | addAddressToAccessList a => exact .some (h.addAddressToAccessList a)
  | addSlotToAccessList a k => exact h.addSlotToAccessList a k
  | getBalance | getNonce | getCodeHash | getCode | getCodeSize | getCommittedState | getState
  | hasSuicided | exist | empty => exact .some (hread rfl rfl rfl)

/-! ### Reverting -/

omit h in
/-- **One entry, on both.** -/
theorem undo {e e' : JournalEntry} {es es' : List JournalEntry}
    (h : Sim { s with journal := e :: es } { t with journal := e' :: es' }) :
    Option.Rel (fun s t => Sim { s with journal := es } { t with journal := es' }) (e.undo s)
      (e'.undo t) := by
  obtain ⟨htx, htr, href, hal, halc, hobj, hj⟩ := h
  cases hj with
  | cons he hjs =>
    have hrest : Sim { s with journal := [] } { t with journal := [] } :=
      ⟨htx, htr, href, hal, halc, hobj, .nil _⟩
    cases he with
    | @object a u u' hu =>
      refine (ObjectUndo.run_alike hu (hobj a)).map fun q q' hq => hrest.setAccount hq.1 ?_
      show Journals s.tx (Function.update s.createdOf a q.created) es es'
      rw [show q.created = (s.getAccount a).created from hq.2, update_createdOf]
      exact hjs
    | createAccount hprev => exact .some (hrest.setAccount hprev hjs)
    | refund old => exact .some ⟨htx, htr, rfl, hal, halc, hobj, hjs⟩
    | transient a k old =>
      unfold JournalEntry.undo
      dsimp only
      rw [show t.transient a = s.transient a from congrFun htr a]
      cases s.transient a with
      | none => exact .none
      | some m =>
        exact .some ⟨htx, congrArg (fun f => Function.update f a _) htr, href, hal, halc, hobj, hjs⟩
    | accessListAddress a =>
      exact .some ⟨htx, htr, href, congrArg (AccessList.deleteAddress · a) hal, halc, hobj, hjs⟩
    | accessListSlot a k =>
      unfold JournalEntry.undo
      dsimp only
      rw [show t.accessList = s.accessList from hal]
      cases s.accessList.deleteSlot a k with
      | none => exact .none
      | some al => exact .some ⟨htx, htr, href, rfl, halc, hobj, hjs⟩

/-- **Reverting both to the same snapshot.** -/
theorem revertToSnapshot (snap : ℕ) :
    Option.Rel Sim (s.revertToSnapshot snap) (t.revertToSnapshot snap) := by
  have hlen : t.journal.length = s.journal.length := h.journal.length_eq
  unfold StateDB.revertToSnapshot
  rw [hlen]
  split_ifs
  · exact .none
  · refine (undoAll_rel
      (R := fun es es' s t => Sim { s with journal := es } { t with journal := es' })
      (s.journal.drop (s.journal.length - snap)) (t.journal.drop (s.journal.length - snap))
      (fun _ _ _ _ _ _ _ h => h.undo) (by simp [hlen]) ?_).map fun _ _ h => h
    rwa [List.take_append_drop, List.take_append_drop]

/-! ### `Finalise` and the copies -/

theorem finalise : Sim s.finalise t.finalise where
  tx := h.tx
  transient := rfl
  refund := rfl
  accessList := rfl
  alcalc := h.alcalc
  object a := by
    rw [getAccount_finalise, getAccount_finalise]
    exact (h.object a).finalise
  journal := by
    have hc : s.finalise.createdOf = s.createdOf := funext fun a => by
      rw [createdOf, getAccount_finalise]
      rfl
    rw [hc]
    exact h.journal

theorem copy : Sim s.copy t.copy := by
  have hc : s.copy.createdOf = s.createdOf := funext fun a => by
    rw [createdOf, getAccount_copy]
    rfl
  refine { h with alcalc := rfl, object := fun a => ?_, journal := hc ▸ h.journal }
  rw [getAccount_copy, getAccount_copy]
  exact (h.object a).copy

theorem alCalcCopy : Sim s.alCalcCopy t.alCalcCopy := { h.copy with alcalc := rfl }

end Sim

/-- **Every reachable state** is like itself. -/
theorem ReachableBy.sim {s : StateDB} (h : Reachable s) : Sim s s := by
  have hself :
      ∀ {x : Option StateDB} {s' : StateDB}, x = some s' → Option.Rel Sim x x → Sim s' s' := by
    rintro _ s' rfl ⟨⟩
    assumption
  induction h with
  | new tx =>
    refine ⟨rfl, rfl, rfl, rfl, rfl, fun a => .refl ?_, .nil _⟩
    exact .inl rfl
  | op o _ _ ho ih => exact hself ho (ih.op o)
  | revert snap _ hr ih => exact hself hr (ih.revertToSnapshot snap)
  | finalise _ ih => exact ih.finalise
  | copy _ ih => exact ih.copy
  | alCalcCopy _ ih => exact ih.alCalcCopy

/-! ## Calls -/

/-- **The calls whose answers do not depend on what is loaded.** -/
def Call.Settled (s : StateDB) : Call → Prop
  | op (.getCodeHash a) => (s.getAccount a).HashSettled s.tx a
  | op (.exist a) => (s.getAccount a).EmptySettled s.tx a
  | op (.empty a) => (s.getAccount a).EmptySettled s.tx a
  | _ => True

namespace Sim

variable {s t : StateDB}

open StateObject in
/-- **A settled method returns the same on both.** -/
theorem value (h : Sim s t) {o : Op} (hs : (Call.op o).Settled s) : o.value t = o.value s := by
  cases o with
  | suicide a => exact congrArg Value.bool (h.suicide a).1
  | getBalance a =>
    simp only [Op.value, getBalance_fst, h.tx, (h.object a).balance]
  | getNonce a =>
    simp only [Op.value, StateDB.getNonce, StateDB.read, getNonce_fst, h.tx, (h.object a).nonceOf]
  | getCodeHash a =>
    simp only [Op.value, StateDB.getCodeHash, StateDB.read, h.tx, (h.object a).getCodeHash hs]
  | getCode a | getCodeSize a =>
    simp only [Op.value, StateDB.getCode, StateDB.getCodeSize, StateDB.read, getCode_fst, h.tx,
      (h.object a).codeOf]
  | getCommittedState a k =>
    simp only [Op.value, StateDB.getCommittedState, StateDB.read, getCommittedState_eq, h.tx,
      (h.object a).committed]
  | getState a k =>
    simp only [Op.value, StateDB.getState, StateDB.read, getState_fst, h.tx, (h.object a).current]
  | hasSuicided a => exact congrArg Value.bool (h.object a).suicided
  | exist a =>
    simp only [Op.value, StateDB.exist, StateDB.read, h.tx, (h.object a).deleted]
    cases hd : (s.getAccount a).deleted with
    | true => rfl
    | false => simp [(h.object a).empty hd hs]
  | empty a =>
    simp only [Op.value, StateDB.empty, StateDB.read, h.tx, (h.object a).deleted,
      (h.object a).suicided]
    cases hd : (s.getAccount a).deleted with
    | true => rfl
    | false =>
      cases (s.getAccount a).suicided with
      | true => rfl
      | false => simp [(h.object a).empty hd hs]
  | _ => rfl

/-- **One call, on both**: the states stay alike, and what is settled is
answered alike. -/
theorem run (h : Sim s t) (c : Call) :
    Option.Rel (fun p q => Sim p.2 q.2 ∧ (c.Settled s → q.1 = p.1)) (c.run s) (c.run t) := by
  cases c with
  | op o => exact (h.op o).map fun _ _ hsim => ⟨hsim, h.value⟩
  | getTransientState a k =>
    refine .some ⟨h, fun _ => ?_⟩
    rw [StateDB.getTransientState, h.transient]
    rfl
  | getRefund => exact .some ⟨h, fun _ => congrArg Value.uint64 h.refund⟩
  | addressInAccessList a =>
    refine .some ⟨h, fun _ => ?_⟩
    rw [StateDB.addressInAccessList, h.alcalc, h.accessList]
    rfl
  | slotInAccessList a k =>
    have hslot : t.slotInAccessList a k = s.slotInAccessList a k := by
      rw [StateDB.slotInAccessList, h.alcalc, h.accessList]
      rfl
    rw [Call.run, Call.run, hslot]
    cases s.slotInAccessList a k with
    | none => exact .none
    | some p => exact .some ⟨h, fun _ => rfl⟩
  | snapshot => exact .some ⟨h, fun _ => congrArg Value.size h.journal.length_eq⟩
  | revertToSnapshot snap =>
    exact (h.revertToSnapshot snap).map fun _ _ hsim => ⟨hsim, fun _ => rfl⟩
  | finalise => exact .some ⟨h.finalise, fun _ => rfl⟩
  | copy => exact .some ⟨h.copy, fun _ => rfl⟩
  | alCalcCopy => exact .some ⟨h.alCalcCopy, fun _ => rfl⟩

/-- **A getter that is inserted** does not panic and leaves the states
alike. -/
theorem run_read (h : Sim s t) (hs : Reachable s) {c : Call} (hc : c.isRead) :
    ∃ w t', c.run t = some (w, t') ∧ Sim s t' := by
  cases c with
  | op o =>
    have hap : ∃ t', o.apply t = some t' := by
      cases o with
      | getBalance | getNonce | getCodeHash | getCode | getCodeSize | getCommittedState
      | getState | hasSuicided | exist | empty => exact ⟨_, rfl⟩
      | _ => cases hc
    obtain ⟨t', ht'⟩ := hap
    exact ⟨_, t', Option.map_eq_some_iff.mpr ⟨t', ht', rfl⟩, h.read hc ht'⟩
  | slotInAccessList a k =>
    obtain ⟨p, hp⟩ : ∃ p, t.slotInAccessList a k = some p := by
      rw [StateDB.slotInAccessList, h.accessList]
      split_ifs
      · exact ⟨_, rfl⟩
      · exact Option.isSome_iff_exists.mp (hs.wf.contains_isSome a k)
    exact ⟨_, t, Option.map_eq_some_iff.mpr ⟨p, hp, rfl⟩, h⟩
  | getTransientState | getRefund | addressInAccessList => exact ⟨_, t, rfl, h⟩
  | _ => cases hc

end Sim

/-! ## The theorem -/

/-- **What a sequence of calls returns**, a panic last. Of the calls that
are marked as inserted nothing is kept. -/
def answers : List (Bool × Call) → StateDB → List (Option Value)
  | [], _ => []
  | (inserted, c) :: cs, s => match c.run s with
    | none => [none]
    | some (v, s') => if inserted then answers cs s' else some v :: answers cs s'

/-- The sequence without the calls that are inserted. -/
def original (cs : List (Bool × Call)) : List (Bool × Call) := cs.filter (fun p => !p.1)

/-- Every call of a sequence is settled when it is made. -/
def Steady : List (Bool × Call) → StateDB → Prop
  | [], _ => True
  | (_, c) :: cs, s => c.Settled s ∧ ∀ v s', c.run s = some (v, s') → Steady cs s'

/-- Two runs, the one with the insertions in a state that is filled in
further. -/
theorem Sim.answers {s t : StateDB} (h : Sim s t) (hs : Reachable s) {cs : List (Bool × Call)}
    (hread : ∀ p ∈ cs, p.1 = true → p.2.isRead = true) (hst : Steady (original cs) s) :
    answers cs t = StateDB.answers (original cs) s := by
  induction cs generalizing s t with
  | nil => rfl
  | cons p cs ih =>
    obtain ⟨inserted, c⟩ := p
    have hread' : ∀ p ∈ cs, p.1 = true → p.2.isRead = true :=
      fun p hp => hread p (List.mem_cons_of_mem _ hp)
    cases inserted with
    | true =>
      obtain ⟨w, t', ht', hsim⟩ := h.run_read hs (hread _ List.mem_cons_self rfl)
      simp only [StateDB.answers, ht', if_true]
      exact ih hsim hs hread' hst
    | false =>
      obtain ⟨hset, hrest⟩ : c.Settled s ∧ ∀ v s', c.run s = some (v, s') →
        Steady (original cs) s' := hst
      show StateDB.answers ((false, c) :: cs) t = StateDB.answers ((false, c) :: original cs) s
      cases hrun : c.run s with
      | none => simp only [StateDB.answers, hrun, (h.run c).of_none hrun]
      | some r =>
        obtain ⟨v, s'⟩ := r
        obtain ⟨⟨w, t'⟩, ht', hsim, hval⟩ := (h.run c).of_some hrun
        obtain rfl : w = v := hval hset
        simp only [StateDB.answers, hrun, ht', Bool.false_eq_true, if_false]
        rw [ih hsim (Call.reachable hs hrun) hread' (hrest w s' hrun)]

/-- **Reads are pure.** From any reachable state, getters inserted
anywhere in a sequence of calls do not change what the others return, if
those are settled when they are made without the insertions. -/
theorem reads_pure {s : StateDB} (hs : Reachable s) {cs : List (Bool × Call)}
    (hread : ∀ p ∈ cs, p.1 = true → p.2.isRead = true) (hst : Steady (original cs) s) :
    answers cs s = answers (original cs) s :=
  hs.sim.answers hs hread hst

omit [Keccak]

/-- A transfer to a stored account, whose code hash is read before and
after it is loaded. -/
theorem reads_pure_stored :
    letI := Keccak.digests
    let s := newStateDB (.single 1 { balance := some 7, codeHash := emptyCode.bytes } [])
    let cs := [(false, Call.op (.getCodeHash 1)), (true, .op (.exist 1)),
      (false, .op (.addBalance 1 5)), (true, .op (.getState 1 0)), (false, .op (.getCodeHash 1)),
      (true, .slotInAccessList 1 0), (false, .op (.getBalance 1))]
    answers cs s = answers (original cs) s
      ∧ answers cs s
        = [some (.hash emptyCode), some .unit, some (.hash emptyCode), some (.int 12)] := by
  let _ := Keccak.digests
  intro s cs
  have hsettled : ∀ t : StateDB, t.tx = s.tx → (t.getAccount 1).deleted = false →
      ((t.getAccount 1).codeEntry t.tx 1).rehash.hash = emptyCode →
      (t.getAccount 1).HashSettled t.tx 1 := by
    intro t htx hd hentry _ account hacc
    rw [htx] at hacc
    cases hacc
    rw [hd, hentry]
    exact bytesToHash_bytes _
  refine ⟨reads_pure (.new _) (by decide) ?_, by decide⟩
  refine ⟨hsettled _ rfl rfl (by decide), fun _ s₁ h₁ => ?_⟩
  obtain ⟨-, rfl⟩ := Prod.mk.inj (Option.some.inj h₁)
  refine ⟨trivial, fun _ s₂ h₂ => ?_⟩
  obtain ⟨-, rfl⟩ := Prod.mk.inj (Option.some.inj h₂)
  refine ⟨hsettled _ rfl rfl (by decide), fun _ s₃ h₃ => ?_⟩
  exact ⟨trivial, fun _ _ _ => trivial⟩

/-- Code set over a stored account: its hash is that of the code, unless
the balance is read before. -/
theorem getBalance_changes_codeHash :
    letI := Keccak.digests
    let s := newStateDB (.single 1 { balance := some 7, codeHash := emptyCode.bytes } [])
    let cs := [(false, Call.op (.setCode 1 [0x00])), (true, .op (.getBalance 1)),
      (false, .op (.getCodeHash 1))]
    Reachable s ∧ answers (original cs) s = [some .unit, some (.hash (keccak256Hash [0x00]))]
      ∧ answers cs s = [some .unit, some (.hash emptyCode)]
      ∧ keccak256Hash [0x00] ≠ emptyCode := by
  let _ := Keccak.digests
  exact ⟨.new _, by decide, by decide, by decide⟩

end StateDB
