import CardinalEvm.StateDB

/-!
# Reverting to a snapshot

`RevertToSnapshot` gives back every value the state showed when the
snapshot was taken. The journal is an instance of `UndoLog`: the order
of the library is `Le`, which allows objects to be filled in further and
transient maps to be allocated, and each method `Extends` the state it
is called on. What is left of the theorem is then that the values shown
depend only on what `Le` keeps.

The one part of the state whose undo can fail is the access list. Its
invariant `AccessList.WF` holds in every reachable state, but showing it
takes more than the list itself: a revert past a `Finalise` runs entries
made for a list that is gone. `Undoable` says what the journal owes the
list – it is well-formed now and after each number of undos that
succeed.
-/

variable [Keccak]

open StateObject Function Option

/-- What `CreateAccount` keeps of the object it replaces: the object,
loaded unless it is gone, and the balance that is carried over. -/
def StateObject.replaced (tx : StorageTx) (a : Address) (o : StateObject) :
    StateObject × Option Int :=
  if !o.deleted && !o.suicided then
    match o.loadAccount tx a with
    | (true, o') => (o', some o'.getBalance)
    | (false, o') => (o', none)
  else (o, none)

namespace StateDB

/-! ## Objects of a state -/

section Frame

omit [Keccak]

@[simp] theorem getAccount_setAccount (s : StateDB) (a : Address) (o : StateObject) :
    (s.setAccount a o).getAccount a = o := by
  simp [setAccount, getAccount]

theorem getAccount_setAccount_of_ne {a b : Address} (h : b ≠ a) (s : StateDB)
    (o : StateObject) : (s.setAccount a o).getAccount b = s.getAccount b := by
  simp [setAccount, getAccount, update_of_ne h]

end Frame

/-- **What a state knows of an address**, everything filled in. -/
def view (s : StateDB) (a : Address) : StateObject := (s.getAccount a).loaded s.tx a

@[simp] theorem view_setAccount (s : StateDB) (a : Address) (o : StateObject) :
    (s.setAccount a o).view a = o.loaded s.tx a := by
  rw [view, getAccount_setAccount]
  rfl

variable {a : Address} {s t s' : StateDB} {k : Hash} {o : Op}

theorem view_setAccount_of_ne {b : Address} (h : b ≠ a) (s : StateDB) (o : StateObject) :
    (s.setAccount a o).view b = s.view b := by
  rw [view, getAccount_setAccount_of_ne h]
  rfl

/-! ## Filling in -/

/-- `t` is `s` with objects filled in further, and nothing else. -/
structure Loads (s t : StateDB) : Prop where
  rest : t = { s with state := t.state }
  view : ∀ a, t.view a = s.view a

/-- **The order of the journal**: `t` shows what `s` shows. Objects may
be filled in further and transient maps allocated. -/
structure Le (s t : StateDB) : Prop where
  tx : t.tx = s.tx
  view : ∀ a, t.view a = s.view a
  transient : ∀ a k, t.getTransientState a k = s.getTransientState a k
  allocated : ∀ a, (s.transient a).isSome → (t.transient a).isSome
  refund : t.refund = s.refund
  accessList : t.accessList = s.accessList
  alcalc : t.alcalc = s.alcalc

theorem Le.refl (s : StateDB) : Le s s :=
  ⟨rfl, fun _ => rfl, fun _ _ => rfl, fun _ => id, rfl, rfl, rfl⟩

theorem Le.trans {u : StateDB} (h : Le s t) (h' : Le t u) : Le s u where
  tx := h'.tx.trans h.tx
  view a := (h'.view a).trans (h.view a)
  transient a k := (h'.transient a k).trans (h.transient a k)
  allocated a := h'.allocated a ∘ h.allocated a
  refund := h'.refund.trans h.refund
  accessList := h'.accessList.trans h.accessList
  alcalc := h'.alcalc.trans h.alcalc

theorem Loads.refl (s : StateDB) : Loads s s := ⟨rfl, fun _ => rfl⟩

theorem Loads.le (h : Loads s t) : Le s t := by
  obtain ⟨hrest, hview⟩ := h
  refine ⟨?_, hview, ?_, ?_, ?_, ?_, ?_⟩ <;> rw [hrest]
  · exact fun _ _ => rfl
  · exact fun _ => id

theorem Loads.journal (h : Loads s t) : t.journal = s.journal := by
  rw [h.rest]

/-- Writing an object that agrees once loaded is filling in. -/
theorem Loads.setAccount {o : StateObject} (h : o.loaded s.tx a = s.view a) :
    Loads s (s.setAccount a o) where
  rest := rfl
  view b := by
    by_cases hb : b = a
    · subst hb
      rw [view_setAccount, h]
    · exact view_setAccount_of_ne hb s o

/-- Two states stay comparable when two objects that agree once loaded
are written to them. -/
theorem Le.setAccount {o p : StateObject} (h : Le s t) (hp : p.loaded s.tx a = o.loaded s.tx a) :
    Le (s.setAccount a o) (t.setAccount a p) where
  tx := h.tx
  view b := by
    by_cases hb : b = a
    · subst hb
      rw [view_setAccount, view_setAccount, h.tx, hp]
    · rw [view_setAccount_of_ne hb, view_setAccount_of_ne hb, h.view]
  transient := h.transient
  allocated := h.allocated
  refund := h.refund
  accessList := h.accessList
  alcalc := h.alcalc

/-! ## The journal as an undo log -/

/-- Undoing is monotone: an entry finds in `t` what it finds in `s`. -/
theorem undo_mono {e : JournalEntry} (h : Le s t) (hu : e.undo s = some s') :
    ∃ t', e.undo t = some t' ∧ Le s' t' := by
  cases e with
  | object a u =>
    obtain ⟨p, hp, rfl⟩ := map_eq_some_iff.mp hu
    have hv : (t.getAccount a).loaded s.tx a = (s.getAccount a).loaded s.tx a := by
      have := h.view a
      rwa [view, h.tx] at this
    obtain ⟨p', hp', hload⟩ := ObjectUndo.run_congr hv hp
    exact ⟨t.setAccount a p', by simp [JournalEntry.undo, hp'], h.setAccount hload⟩
  | createAccount a prev =>
    cases hu
    exact ⟨_, rfl, h.setAccount rfl⟩
  | refund old =>
    cases hu
    exact ⟨_, rfl, { h with refund := rfl }⟩
  | transient a k old =>
    obtain ⟨m, hm, rfl⟩ := map_eq_some_iff.mp hu
    obtain ⟨m', hm'⟩ := isSome_iff_exists.mp (h.allocated a (by rw [hm]; rfl))
    refine ⟨{ t with transient :=
        Function.update t.transient a (some (Function.update m' k (some old))) },
      by simp only [JournalEntry.undo, hm', map_some], { h with
        transient := fun b j => ?_
        allocated := fun b hb => ?_ }⟩
    · have hbj := h.transient b j
      unfold getTransientState at hbj ⊢
      dsimp only
      by_cases hb : b = a
      · subst hb
        rw [hm, hm'] at hbj
        rw [update_self, update_self]
        by_cases hj : j = k
        · simp [hj]
        · simpa [update_of_ne hj] using hbj
      · rwa [update_of_ne hb, update_of_ne hb]
    · dsimp only at hb ⊢
      by_cases hba : b = a
      · simp [hba]
      · rw [update_of_ne hba] at hb ⊢
        exact h.allocated b hb
  | accessListAddress a =>
    cases hu
    exact ⟨_, rfl, { h with accessList := by rw [h.accessList] }⟩
  | accessListSlot a k =>
    obtain ⟨al, hal, rfl⟩ := map_eq_some_iff.mp hu
    exact ⟨{ t with accessList := al },
      by simp only [JournalEntry.undo, h.accessList, hal, map_some],
      { h with accessList := rfl }⟩

/-- **The journal**, as an instance of the library. -/
def journalLog : UndoLog StateDB JournalEntry where
  log := journal
  undo := JournalEntry.undo
  le := Le
  le_refl := Le.refl
  le_trans := Le.trans
  undo_mono := undo_mono

/-! ## The getters -/

/-- A read that keeps an object's `loaded` fills the state in. -/
theorem loads_read {α : Type} (s : StateDB) (a : Address) {f : StateObject → α × StateObject}
    (h : ∀ o, (f o).2.loaded s.tx a = o.loaded s.tx a) : Loads s (s.read a f).2 :=
  .setAccount (h _)

section Getters

variable (s : StateDB) (a : Address)

theorem loads_getBalance : Loads s (s.getBalance a).2 :=
  loads_read s a (fun o => by
    have h := loaded_loadAccount s.tx a o
    revert h
    rcases o.loadAccount s.tx a with ⟨_ | _, o'⟩ <;> exact id)

theorem loads_getNonce : Loads s (s.getNonce a).2 :=
  loads_read s a (loaded_getNonce s.tx a)

theorem loads_getCodeHash : Loads s (s.getCodeHash a).2 :=
  loads_read s a (loaded_getCodeHash s.tx a)

theorem loads_getCode : Loads s (s.getCode a).2 :=
  loads_read s a (loaded_getCode s.tx a)

theorem loads_getCodeSize : Loads s (s.getCodeSize a).2 :=
  loads_getCode s a

theorem loads_getCommittedState (k : Hash) : Loads s (s.getCommittedState a k).2 :=
  loads_read s a (loaded_getCommittedState s.tx a (slotKey k))

theorem loads_getState (k : Hash) : Loads s (s.getState a k).2 :=
  loads_read s a (loaded_getState s.tx a (slotKey k))

/-- Looking an object up makes it, and no more. -/
theorem loads_touch : Loads s (s.setAccount a (s.getAccount a)) :=
  .setAccount rfl

theorem loads_hasSuicided : Loads s (s.hasSuicided a).2 :=
  loads_touch s a

theorem loads_exist : Loads s (s.exist a).2 :=
  loads_read s a (fun o => by
    have h := loaded_empty s.tx a o
    split_ifs
    · rfl
    · exact h)

theorem loads_empty : Loads s (s.empty a).2 :=
  loads_read s a (fun o => by
    have h := loaded_empty s.tx a o
    split_ifs
    · rfl
    · exact h)

end Getters

/-! ## The setters -/

/-- **Reverting**, for states related by the journal: it does not panic
and gives back the earlier state up to `Le`. -/
theorem revertToSnapshot_of_extends (h : journalLog.Extends s t) :
    ∃ u, t.revertToSnapshot s.snapshot = some u ∧ Le s u ∧ u.journal = s.journal := by
  obtain ⟨u, hu, hle, hdrop⟩ := h.rollback
  have hlen : ¬ t.journal.length < s.snapshot := Nat.not_lt.mpr h.length_le
  refine ⟨{ u with journal := t.journal.drop (t.journal.length - s.snapshot) }, ?_, ?_, hdrop⟩
  · unfold revertToSnapshot
    rw [if_neg hlen]
    exact congrArg (Option.map _) hu
  · exact { hle with }

/-- A journaled change of an object extends the state, if its undo gives
the object back. -/
theorem extends_change (s : StateDB) (a : Address) {r : StateObject × ObjectUndo}
    (h : r.2.run r.1 = some (s.getAccount a)) : journalLog.Extends s (s.change a r) := by
  refine .of_undo journalLog rfl (t := (s.change a r).setAccount a (s.getAccount a)) ?_ ?_
  · show (r.2.run ((s.setAccount a r.1).getAccount a)).map _ = _
    rw [getAccount_setAccount, h]
    rfl
  · have hset : (s.change a r).setAccount a (s.getAccount a)
        = { s.setAccount a (s.getAccount a) with journal := (s.change a r).journal } := by
      simp [change, setAccount]
    rw [hset]
    exact { (loads_touch s a).le with }

omit [Keccak] in
/-- **What `CreateAccount` does**: a new object takes the place of the
old one, and the old one's balance. -/
theorem createAccount_replaced (s : StateDB) (a : Address) :
    s.createAccount a = { s.setAccount a
        { account := some {}, balanceDelta := ((s.getAccount a).replaced s.tx a).2,
          created := true } with
      journal := .createAccount a ((s.getAccount a).replaced s.tx a).1 :: s.journal } := by
  unfold createAccount replaced
  dsimp only
  by_cases hc : (!(s.getAccount a).deleted && !(s.getAccount a).suicided) = true
  · rw [if_pos hc, if_pos hc]
    rcases (s.getAccount a).loadAccount s.tx a with ⟨_ | _, o'⟩ <;> rfl
  · rw [if_neg hc, if_neg hc]

/-- `CreateAccount` journals an object that agrees, once loaded, with
the one it replaces. -/
theorem createAccount_eq (s : StateDB) (a : Address) :
    ∃ obj prev, s.createAccount a
        = { s.setAccount a obj with journal := .createAccount a prev :: s.journal }
      ∧ prev.loaded s.tx a = s.view a := by
  unfold createAccount
  dsimp only
  by_cases hc : (!(s.getAccount a).deleted && !(s.getAccount a).suicided) = true
  · rw [if_pos hc]
    exact ⟨_, _, rfl, loaded_loadAccount s.tx a _⟩
  · rw [if_neg hc]
    exact ⟨_, _, rfl, rfl⟩

theorem extends_createAccount (s : StateDB) (a : Address) :
    journalLog.Extends s (s.createAccount a) := by
  obtain ⟨obj, prev, heq, hprev⟩ := createAccount_eq s a
  rw [heq]
  refine .of_undo journalLog rfl rfl ?_
  have hset : StateDB.setAccount
        { s.setAccount a obj with journal := .createAccount a prev :: s.journal } a prev
      = { s.setAccount a prev with journal := .createAccount a prev :: s.journal } := by
    simp [setAccount]
  rw [hset]
  exact { (Loads.setAccount hprev).le with }

theorem extends_setTransientState (s : StateDB) (a : Address) (k v : Hash) :
    journalLog.Extends s (s.setTransientState a k v) := by
  refine .of_undo journalLog rfl
    (show Option.map _ (update s.transient a _ a) = some _ by
      rw [update_self]; rfl) ?_
  refine { Le.refl s with transient := fun b j => ?_, allocated := fun b hb => ?_ }
  · unfold getTransientState setTransientState
    dsimp only
    by_cases hb : b = a
    · subst hb
      rw [update_self]
      by_cases hj : j = k
      · subst hj
        cases s.transient b <;> simp
      · cases s.transient b <;> simp [update_of_ne hj]
    · rw [update_of_ne hb, update_of_ne hb]
  · by_cases hba : b = a
    · simp [hba]
    · show isSome (update (update s.transient a _) a _ b) = true
      rwa [update_of_ne hba, update_of_ne hba]

theorem extends_addAddressToAccessList (s : StateDB) (a : Address) :
    journalLog.Extends s (s.addAddressToAccessList a) := by
  unfold addAddressToAccessList
  rcases h : s.accessList.addAddress a with ⟨al, _ | _⟩
  · dsimp only
    rw [AccessList.addAddress_false h]
    exact .refl journalLog s
  · exact .of_undo journalLog rfl rfl
      { Le.refl s with accessList := AccessList.deleteAddress_addAddress h }

theorem extends_addSlotToAccessList (hs : s.accessList.WF)
    (h : s.addSlotToAccessList a k = some s') : journalLog.Extends s s' := by
  obtain ⟨al, addrMod, slotMod, hadd, -, hfalse, htrue⟩ := hs.addSlot a k
  rw [addSlotToAccessList, hadd, map_some] at h
  cases h
  cases slotMod with
  | false =>
    obtain ⟨rfl, rfl⟩ := hfalse rfl
    exact .refl journalLog s
  | true =>
    obtain ⟨al', hdel, -, hal⟩ := htrue rfl
    cases addrMod with
    | false =>
      refine .of_undo journalLog rfl (t := { s with
          accessList := al', journal := .accessListSlot a k :: s.journal }) ?_
        { Le.refl s with accessList := hal }
      show Option.map _ (al.deleteSlot a k) = _
      rw [hdel]
      rfl
    | true =>
      -- the slot's entry is on top of the address's
      refine ⟨[.accessListSlot a k, .accessListAddress a], rfl,
        { s with
          accessList := al'.deleteAddress a
          journal := .accessListSlot a k :: .accessListAddress a :: s.journal }, ?_,
        { Le.refl s with accessList := hal }⟩
      show (Option.map _ (al.deleteSlot a k)).bind _ = _
      rw [hdel]
      rfl

/-! ## What a call can do

`Step` says it once, for all methods: a call fills in, changes one
object by an `ObjectOp`, or does one of five things of its own. -/

/-- The object a call changes, if it changes one, and how. -/
def Op.target : Op → Option (Address × ObjectOp)
  | subBalance a x => some (a, .subBalance x)
  | addBalance a x => some (a, .addBalance x)
  | setBalance a x => some (a, .setBalance x)
  | setNonce a n => some (a, .setNonce n)
  | setCode a c => some (a, .setCode c)
  | setState a k v => some (a, .setState (slotKey k) v)
  | setStorage a m => some (a, .setStorage m)
  | suicide a => some (a, .suicide)
  | selfDestruct6780 a => some (a, .suicide)
  | _ => none

/-- **One call**, by what it does to the state. -/
inductive Step (s : StateDB) : Op → StateDB → Prop
  | loads {o : Op} {s' : StateDB} : Loads s s' → Step s o s'
  | change {o : Op} (a : Address) (c : ObjectOp) (r : StateObject × ObjectUndo) :
    o.target = some (a, c) → c.run (s.getAccount a) = some r → Step s o (s.change a r)
  | createAccount (a : Address) : Step s (.createAccount a) (s.createAccount a)
  | addRefund (x : UInt64) : Step s (.addRefund x) (s.addRefund x)
  | subRefund (x : UInt64) : Step s (.subRefund x) (s.subRefund x)
  | transient (a : Address) (k v : Hash) :
    Step s (.setTransientState a k v) (s.setTransientState a k v)
  | address (a : Address) :
    Step s (.addAddressToAccessList a) (s.addAddressToAccessList a)
  | slot (a : Address) (k : Hash) {s' : StateDB} :
    s.addSlotToAccessList a k = some s' → Step s (.addSlotToAccessList a k) s'

theorem step_suicide (ho : o.target = some (a, .suicide)) (s : StateDB) :
    Step s o (s.suicide a).2 := by
  unfold suicide
  cases h : (s.getAccount a).suicide with
  | none => exact .loads (loads_touch s a)
  | some r => exact .change a .suicide r ho h

theorem step_selfDestruct6780 (s : StateDB) (a : Address) :
    Step s (.selfDestruct6780 a) (s.selfDestruct6780 a) := by
  unfold selfDestruct6780
  split_ifs
  · exact step_suicide rfl s
  · exact .loads (loads_touch s a)

theorem step_subBalance (s : StateDB) (a : Address) (x : Int) :
    Step s (.subBalance a x) (s.subBalance a x) := by
  unfold subBalance
  split_ifs
  · exact .loads (.refl s)
  · exact .change a (.subBalance x) _ rfl rfl

theorem step_addBalance (s : StateDB) (a : Address) (x : Int) :
    Step s (.addBalance a x) (s.addBalance a x) := by
  unfold addBalance
  split_ifs
  · exact .loads (.refl s)
  · exact .change a (.addBalance x) _ rfl rfl

theorem step_setState {v : Hash} (h : s.setState a k v = some s') :
    Step s (.setState a k v) s' := by
  obtain ⟨r, hr, rfl⟩ := map_eq_some_iff.mp h
  exact .change a (.setState (slotKey k) v) r rfl hr

/-- Every call is a step. -/
theorem Op.step (h : o.apply s = some s') : Step s o s' := by
  cases o with
  | setState a k v => exact step_setState h
  | addSlotToAccessList a k => exact .slot a k h
  | _ => ?_
  all_goals obtain rfl := Option.some.inj h
  case createAccount a => exact .createAccount a
  case subBalance a x => exact step_subBalance s a x
  case addBalance a x => exact step_addBalance s a x
  case setBalance a x => exact .change a (.setBalance x) _ rfl rfl
  case setNonce a n => exact .change a (.setNonce n) _ rfl rfl
  case setCode a c => exact .change a (.setCode c) _ rfl rfl
  case setStorage a m => exact .change a (.setStorage m) _ rfl rfl
  case setTransientState a k v => exact .transient a k v
  case suicide a => exact step_suicide rfl s
  case selfDestruct6780 a => exact step_selfDestruct6780 s a
  case addRefund x => exact .addRefund x
  case subRefund x => exact .subRefund x
  case addAddressToAccessList a => exact .address a
  case getBalance a => exact .loads (loads_getBalance s a)
  case getNonce a => exact .loads (loads_getNonce s a)
  case getCodeHash a => exact .loads (loads_getCodeHash s a)
  case getCode a => exact .loads (loads_getCode s a)
  case getCodeSize a => exact .loads (loads_getCodeSize s a)
  case getCommittedState a k => exact .loads (loads_getCommittedState s a k)
  case getState a k => exact .loads (loads_getState s a k)
  case hasSuicided a => exact .loads (loads_hasSuicided s a)
  case exist a => exact .loads (loads_exist s a)
  case empty a => exact .loads (loads_empty s a)

omit [Keccak] in
theorem addAddressToAccessList_eq (s : StateDB) (a : Address) :
    ∃ al es, s.addAddressToAccessList a
        = { s with accessList := al, journal := es ++ s.journal }
      ∧ ∀ e ∈ es, e = .accessListAddress a := by
  unfold addAddressToAccessList
  rcases s.accessList.addAddress a with ⟨al, _ | _⟩
  · exact ⟨al, [], rfl, by simp⟩
  · exact ⟨al, [.accessListAddress a], rfl, by simp⟩

omit [Keccak] in
theorem addSlotToAccessList_eq (h : s.addSlotToAccessList a k = some s') :
    ∃ al es, s' = { s with accessList := al, journal := es ++ s.journal }
      ∧ ∀ e ∈ es, e = .accessListAddress a ∨ e = .accessListSlot a k := by
  obtain ⟨⟨al, addrMod, slotMod⟩, -, rfl⟩ := map_eq_some_iff.mp h
  refine ⟨al, _, rfl, ?_⟩
  cases addrMod <;> cases slotMod <;> simp

omit [Keccak] in
theorem createAccount_tx (s : StateDB) (a : Address) : (s.createAccount a).tx = s.tx := by
  unfold createAccount
  dsimp only
  split_ifs <;> rfl

/-- No call changes the store. -/
theorem Step.tx_eq (h : Step s o s') : s'.tx = s.tx := by
  cases h with
  | loads h => exact h.le.tx
  | createAccount a => exact createAccount_tx s a
  | address a =>
    obtain ⟨al, es, heq, -⟩ := addAddressToAccessList_eq s a
    rw [heq]
  | slot a k h =>
    obtain ⟨al, es, rfl, -⟩ := addSlotToAccessList_eq h
    rfl
  | _ => rfl

/-- **One call, seen from one address**: its object is filled in, if at
all, or changed by an `ObjectOp`, or made anew. -/
theorem Step.account (h : Step s o s') (a : Address) :
    s'.view a = s.view a
      ∨ (∃ c r, o.target = some (a, c) ∧ c.run (s.getAccount a) = some r
        ∧ s'.getAccount a = r.1)
      ∨ o = .createAccount a ∧ s' = s.createAccount a := by
  cases h with
  | loads h => exact .inl (h.view a)
  | change b c r hc hr =>
    by_cases hb : a = b
    · subst hb
      exact .inr (.inl ⟨c, r, hc, hr, getAccount_setAccount s a r.1⟩)
    · exact .inl (view_setAccount_of_ne hb s r.1)
  | createAccount b =>
    by_cases hb : a = b
    · subst hb
      exact .inr (.inr ⟨rfl, rfl⟩)
    · obtain ⟨obj, prev, heq, -⟩ := createAccount_eq s b
      rw [heq]
      exact .inl (view_setAccount_of_ne hb s obj)
  | address b =>
    obtain ⟨al, es, heq, -⟩ := addAddressToAccessList_eq s b
    rw [heq]
    exact .inl rfl
  | slot b k h =>
    obtain ⟨al, es, rfl, -⟩ := addSlotToAccessList_eq h
    exact .inl rfl
  | addRefund | subRefund | transient => exact .inl rfl

omit [Keccak] in
theorem undo_tx {e : JournalEntry} (h : e.undo s = some t) : t.tx = s.tx := by
  cases e with
  | object a u | transient a k old | accessListSlot a k =>
    obtain ⟨_, -, rfl⟩ := map_eq_some_iff.mp h
    rfl
  | _ =>
    cases h
    rfl

omit [Keccak] in
/-- Nor does a revert. -/
theorem revertToSnapshot_tx {snap : ℕ} (h : s.revertToSnapshot snap = some t) :
    t.tx = s.tx := by
  unfold revertToSnapshot at h
  split_ifs at h
  obtain ⟨u, hu, rfl⟩ := map_eq_some_iff.mp h
  exact undoAll_induct (fun t => t.tx = s.tx) (fun _ _ _ ht hu => (undo_tx hu).trans ht) rfl hu

/-- **Every call extends the state it is made on**, given a well-formed
access list. -/
theorem Step.extends (h : Step s o s') (hs : s.accessList.WF) :
    journalLog.Extends s s' := by
  cases h with
  | loads h => exact .of_le journalLog h.le h.journal
  | change a c r _ h => exact extends_change s a (ObjectOp.undo_run h)
  | createAccount a => exact extends_createAccount s a
  | addRefund x | subRefund x => exact .of_undo journalLog rfl rfl { Le.refl s with }
  | transient a k v => exact extends_setTransientState s a k v
  | address a => exact extends_addAddressToAccessList s a
  | slot a k h => exact extends_addSlotToAccessList hs h

/-! ## The access list along a run -/

omit [Keccak] in
/-- What a call does to the access list: nothing, or it adds to it. -/
theorem wf_addAddressToAccessList (hs : s.accessList.WF) (a : Address) :
    (s.addAddressToAccessList a).accessList.WF := by
  have h := hs.addAddress a
  unfold addAddressToAccessList
  revert h
  rcases s.accessList.addAddress a with ⟨al, _ | _⟩ <;> exact id

omit [Keccak] in
theorem wf_addSlotToAccessList (hs : s.accessList.WF) (h : s.addSlotToAccessList a k = some s') :
    s'.accessList.WF := by
  obtain ⟨al, addrMod, slotMod, hadd, hwf, -⟩ := hs.addSlot a k
  rw [addSlotToAccessList, hadd, map_some] at h
  cases h
  exact hwf

omit [Keccak] in
@[simp] theorem createAccount_accessList (s : StateDB) (a : Address) :
    (s.createAccount a).accessList = s.accessList := by
  unfold createAccount
  dsimp only
  by_cases hc : (!(s.getAccount a).deleted && !(s.getAccount a).suicided) = true
  · rw [if_pos hc]
    rfl
  · rw [if_neg hc]
    rfl

/-- A call keeps the access list well-formed. -/
theorem Step.wf (h : Step s o s') (hs : s.accessList.WF) :
    s'.accessList.WF := by
  cases h with
  | loads h => rwa [h.le.accessList]
  | change a c r _ _ => exact hs
  | createAccount a => rwa [createAccount_accessList]
  | addRefund x => exact hs
  | subRefund x => exact hs
  | transient a k v => exact hs
  | address a => exact wf_addAddressToAccessList hs a
  | slot a k h => exact wf_addSlotToAccessList hs h

end StateDB

/-- What an entry does to the access list. -/
def JournalEntry.undoAccessList : JournalEntry → AccessList → Option AccessList
  | accessListAddress addr, al => some (al.deleteAddress addr)
  | accessListSlot addr slot, al => al.deleteSlot addr slot
  | _, al => some al

omit [Keccak] in
theorem JournalEntry.undoAccessList_of_undo {e : JournalEntry} {s t : StateDB}
    (h : e.undo s = some t) : e.undoAccessList s.accessList = some t.accessList := by
  cases e with
  | object a u | transient a k old =>
    obtain ⟨_, -, rfl⟩ := map_eq_some_iff.mp h
    rfl
  | accessListSlot a k =>
    obtain ⟨al, hal, rfl⟩ := map_eq_some_iff.mp h
    exact hal
  | _ =>
    cases h
    rfl

namespace StateDB

/-- **What a journal owes an access list**: the list is well-formed, and
stays so while entries are undone, as long as that succeeds. -/
def Undoable : List JournalEntry → AccessList → Prop
  | [], al => al.WF
  | e :: es, al => al.WF ∧ ∀ al', e.undoAccessList al = some al' → Undoable es al'

section Undoable

omit [Keccak]

theorem Undoable.wf {es : List JournalEntry} {al : AccessList} (h : Undoable es al) :
    al.WF := by
  cases es with
  | nil => exact h
  | cons e es => exact h.1

/-- The empty list is owed nothing: an entry finds nothing on it to
delete, or fails. -/
theorem undoable_newAccessList (es : List JournalEntry) :
    Undoable es .newAccessList := by
  induction es with
  | nil => exact AccessList.wf_newAccessList
  | cons e es ih =>
    refine ⟨AccessList.wf_newAccessList, fun al' h => ?_⟩
    cases e with
    | accessListAddress a =>
      cases h
      rw [show AccessList.newAccessList.deleteAddress a = .newAccessList by
        simp [AccessList.newAccessList, AccessList.deleteAddress]]
      exact ih
    | accessListSlot a k => cases h
    | _ =>
      cases h
      exact ih

/-- Undoing hands the debt on. -/
theorem Undoable.undoAll {es es' : List JournalEntry} {s t : StateDB}
    (h : Undoable (es ++ es') s.accessList) (hu : undoAll JournalEntry.undo es s = some t) :
    Undoable es' t.accessList := by
  induction es generalizing s with
  | nil =>
    cases hu
    exact h
  | cons e es ih =>
    obtain ⟨s₁, hs₁, hu⟩ := bind_eq_some_iff.mp hu
    exact ih (h.2 _ (JournalEntry.undoAccessList_of_undo hs₁)) hu

theorem Undoable.revertToSnapshot {s t : StateDB} {snap : ℕ}
    (h : Undoable s.journal s.accessList) (hr : s.revertToSnapshot snap = some t) :
    Undoable t.journal t.accessList := by
  unfold StateDB.revertToSnapshot at hr
  split_ifs at hr
  obtain ⟨u, hu, rfl⟩ := map_eq_some_iff.mp hr
  rw [← List.take_append_drop (s.journal.length - snap) s.journal] at h
  exact show Undoable _ u.accessList from Undoable.undoAll h hu

theorem Undoable.addAddressToAccessList {s : StateDB} (h : Undoable s.journal s.accessList)
    (a : Address) : Undoable (s.addAddressToAccessList a).journal
      (s.addAddressToAccessList a).accessList := by
  have hwf := wf_addAddressToAccessList h.wf a
  revert hwf
  unfold StateDB.addAddressToAccessList
  rcases hadd : s.accessList.addAddress a with ⟨al, _ | _⟩
  · intro _
    dsimp only
    rwa [AccessList.addAddress_false hadd]
  · refine fun hwf => ⟨hwf, fun al' hal' => ?_⟩
    cases hal'
    rwa [AccessList.deleteAddress_addAddress hadd]

theorem Undoable.addSlotToAccessList {s s' : StateDB} {a : Address} {k : Hash}
    (h : Undoable s.journal s.accessList) (hs : s.addSlotToAccessList a k = some s') :
    Undoable s'.journal s'.accessList := by
  obtain ⟨al, addrMod, slotMod, hadd, hwf, hfalse, htrue⟩ := h.wf.addSlot a k
  rw [StateDB.addSlotToAccessList, hadd, map_some] at hs
  cases hs
  cases slotMod with
  | false =>
    obtain ⟨rfl, rfl⟩ := hfalse rfl
    exact h
  | true =>
    obtain ⟨al', hdel, hwf', hal⟩ := htrue rfl
    cases addrMod with
    | false =>
      refine ⟨hwf, fun al₁ h₁ => ?_⟩
      obtain rfl : al' = al₁ := Option.some.inj (hdel.symm.trans h₁)
      rw [show al' = s.accessList from hal]
      exact h
    | true =>
      refine ⟨hwf, fun al₁ h₁ => ?_⟩
      obtain rfl : al' = al₁ := Option.some.inj (hdel.symm.trans h₁)
      refine ⟨hwf', fun al₂ h₂ => ?_⟩
      cases h₂
      rw [show al'.deleteAddress a = s.accessList from hal]
      exact h

end Undoable

/-- A call hands on what the journal owes. -/
theorem Step.undoable {o : Op} {s s' : StateDB} (h : Step s o s')
    (hs : Undoable s.journal s.accessList) : Undoable s'.journal s'.accessList := by
  cases h with
  | loads h => rwa [h.le.accessList, h.journal]
  | change a c r _ _ | addRefund x | subRefund x | transient a k v =>
    exact ⟨hs.wf, fun _ h => Option.some.inj h ▸ hs⟩
  | createAccount a =>
    obtain ⟨obj, prev, heq, -⟩ := createAccount_eq s a
    rw [heq]
    exact ⟨hs.wf, fun _ h => Option.some.inj h ▸ hs⟩
  | address a => exact hs.addAddressToAccessList a
  | slot a k h => exact hs.addSlotToAccessList h

/-- **The access list is well-formed in every reachable state.** -/
theorem ReachableBy.wf {allowed : StateDB → Op → Prop} {s : StateDB}
    (h : ReachableBy allowed s) : s.accessList.WF := by
  suffices Undoable s.journal s.accessList from this.wf
  induction h with
  | new tx | finalise => exact undoable_newAccessList _
  | op o _ _ ho ih => exact (Op.step ho).undoable ih
  | revert snap _ hr ih => exact ih.revertToSnapshot hr
  | copy _ ih => exact ih
  | alCalcCopy _ ih => exact ih

/-! ## The theorem -/

/-- **A run with properly nested snapshots**: calls, and runs that are
reverted to the snapshot taken at their start. A snapshot that is never
reverted to is no step at all. -/
inductive Run : StateDB → StateDB → Prop
  | refl (s : StateDB) : Run s s
  | op {s t u : StateDB} (o : Op) : Run s t → o.apply t = some u → Run s u
  | nested {s t u v : StateDB} :
    Run s t → Run t u → u.revertToSnapshot t.snapshot = some v → Run s v

/-- A run extends its start, and keeps the access list well-formed. -/
theorem Run.extends {s t : StateDB} (h : Run s t) (hs : s.accessList.WF) :
    journalLog.Extends s t ∧ t.accessList.WF := by
  induction h with
  | refl s => exact ⟨.refl journalLog s, hs⟩
  | op o _ ho ih =>
    obtain ⟨hext, hwf⟩ := ih hs
    exact ⟨hext.trans ((Op.step ho).extends hwf), (Op.step ho).wf hwf⟩
  | nested _ _ hr ih ih' =>
    -- the inner run is undone up to `Le`, so as a whole it only fills in
    obtain ⟨hext, hwf⟩ := ih hs
    obtain ⟨hext', -⟩ := ih' hwf
    obtain ⟨v', hv', hle, hj⟩ := revertToSnapshot_of_extends hext'
    obtain rfl := Option.some.inj (hv'.symm.trans hr)
    exact ⟨hext.trans (.of_le journalLog hle hj), by rwa [hle.accessList]⟩

/-- **Two states that show the same**: every getter of a value returns
the same on both. -/
structure SameReads (s t : StateDB) : Prop where
  getBalance : ∀ a, (t.getBalance a).1 = (s.getBalance a).1
  getNonce : ∀ a, (t.getNonce a).1 = (s.getNonce a).1
  getCode : ∀ a, (t.getCode a).1 = (s.getCode a).1
  getState : ∀ a k, (t.getState a k).1 = (s.getState a k).1
  getCommittedState : ∀ a k, (t.getCommittedState a k).1 = (s.getCommittedState a k).1
  getTransientState : ∀ a k, t.getTransientState a k = s.getTransientState a k
  hasSuicided : ∀ a, (t.hasSuicided a).1 = (s.hasSuicided a).1
  refund : t.refund = s.refund
  addressInAccessList : ∀ a, t.addressInAccessList a = s.addressInAccessList a
  slotInAccessList : ∀ a k, t.slotInAccessList a k = s.slotInAccessList a k

omit [Keccak] in
/-- The balance a state shows is its object's. -/
theorem getBalance_fst (s : StateDB) (a : Address) :
    (s.getBalance a).1 = (s.getAccount a).balance s.tx a := by
  unfold getBalance read balance
  dsimp only
  rw [loadAccount_eq]
  cases (s.getAccount a).deleted <;> cases h : (s.getAccount a).record s.tx a <;> simp

/-- Two states that show the same at one address. -/
structure SameReadsAt (s t : StateDB) (a : Address) : Prop where
  getBalance : (t.getBalance a).1 = (s.getBalance a).1
  getNonce : (t.getNonce a).1 = (s.getNonce a).1
  getCode : (t.getCode a).1 = (s.getCode a).1
  getState : ∀ k, (t.getState a k).1 = (s.getState a k).1
  getCommittedState : ∀ k, (t.getCommittedState a k).1 = (s.getCommittedState a k).1
  hasSuicided : (t.hasSuicided a).1 = (s.hasSuicided a).1

/-- What a state shows at an address depends on its view of it. -/
theorem SameReadsAt.of_view {s t : StateDB} {a : Address} (htx : t.tx = s.tx)
    (h : t.view a = s.view a) : SameReadsAt s t a := by
  have hv : (t.getAccount a).loaded s.tx a = (s.getAccount a).loaded s.tx a := by
    simpa only [StateDB.view, htx] using h
  refine ⟨?_, ?_, ?_, fun k => ?_, fun k => ?_, ?_⟩
  · rw [getBalance_fst, getBalance_fst, htx]
    exact balance_congr hv
  · show (StateObject.getNonce t.tx a _).1 = (StateObject.getNonce s.tx a _).1
    rw [getNonce_fst, getNonce_fst, htx]
    exact nonceOf_congr hv
  · show (StateObject.getCode t.tx a _).1 = (StateObject.getCode s.tx a _).1
    rw [getCode_fst, getCode_fst, htx]
    exact codeOf_congr hv
  · show (StateObject.getState t.tx a _ _).1 = (StateObject.getState s.tx a _ _).1
    rw [getState_fst, getState_fst, htx, current_congr hv]
  · show (StateObject.getCommittedState t.tx a _ _).1
      = (StateObject.getCommittedState s.tx a _ _).1
    rw [getCommittedState_eq, getCommittedState_eq, htx]
    exact congrFun (committed_congr hv) _
  · show ((t.getAccount a).loaded s.tx a).suicided = ((s.getAccount a).loaded s.tx a).suicided
    rw [hv]

/-- States in the order of the journal show the same. -/
theorem Le.sameReads {s t : StateDB} (h : Le s t) : SameReads s t := by
  have hv : ∀ a, SameReadsAt s t a := fun a => .of_view h.tx (h.view a)
  refine ⟨fun a => (hv a).getBalance, fun a => (hv a).getNonce, fun a => (hv a).getCode,
    fun a => (hv a).getState, fun a => (hv a).getCommittedState, h.transient,
    fun a => (hv a).hasSuicided, h.refund, fun a => ?_, fun a k => ?_⟩
  · rw [addressInAccessList, addressInAccessList, h.alcalc, h.accessList]
  · rw [slotInAccessList, slotInAccessList, h.alcalc, h.accessList]

/-- **Reverting to a snapshot.** From any reachable state and after any
run with properly nested snapshots, `RevertToSnapshot` does not panic
and every getter returns what it returned when the snapshot was
taken. -/
theorem revertToSnapshot_sameReads {s t : StateDB} (hs : Reachable s) (h : Run s t) :
    ∃ u, t.revertToSnapshot s.snapshot = some u ∧ SameReads s u := by
  obtain ⟨hext, -⟩ := h.extends hs.wf
  obtain ⟨u, hu, hle, -⟩ := revertToSnapshot_of_extends hext
  exact ⟨u, hu, hle.sameReads⟩

omit [Keccak] in
/-- A run that warms a slot, has a creation reverted inside it and then
adds to a balance. -/
theorem revertToSnapshot_sameReads_nested :
    letI := Keccak.digests
    ∃ t, Run (newStateDB .empty) t ∧ t.journal.length = 3
      ∧ ∃ u, t.revertToSnapshot (newStateDB .empty).snapshot = some u
        ∧ SameReads (newStateDB .empty) u :=
  letI := Keccak.digests
  have hrun : ∃ t, Run (newStateDB .empty) t ∧ t.journal.length = 3 :=
    ⟨_, .op (.addBalance 1 5)
      (.nested (.op (.addSlotToAccessList 1 7) (.refl _) rfl)
        (.op (.createAccount 1) (.refl _) rfl) rfl) rfl, rfl⟩
  hrun.imp fun _ h => ⟨h.1, h.2, revertToSnapshot_sameReads (.new _) h.1⟩

/-! ## Reverting in stages -/

section Stages

omit [Keccak]

theorem undo_journal (e : JournalEntry) (s : StateDB) (es : List JournalEntry) :
    e.undo { s with journal := es } = (e.undo s).map (fun t => { t with journal := es }) := by
  cases e with
  | object | transient | accessListSlot =>
    simp only [JournalEntry.undo, map_map]
    rfl
  | _ => rfl

/-- What entries do does not depend on the journal. -/
theorem undoAll_journal (es journal : List JournalEntry) (s : StateDB) :
    undoAll JournalEntry.undo es { s with journal }
      = (undoAll JournalEntry.undo es s).map (fun t => { t with journal }) := by
  induction es generalizing s with
  | nil => rfl
  | cons e es ih =>
    rw [undoAll_cons, undoAll_cons, undo_journal, bind_map, map_bind]
    exact congrArg _ (funext ih)

/-- **Reverting in stages.** In any state, going back to a snapshot by way
of a later one leaves what going back at once does, down to the journal,
and panics where that does. -/
theorem revertToSnapshot_revertToSnapshot {s : StateDB} {snap later : ℕ} (hle : snap ≤ later)
    (hlater : later ≤ s.snapshot) :
    (s.revertToSnapshot later).bind (·.revertToSnapshot snap) = s.revertToSnapshot snap := by
  have hlen : later ≤ s.journal.length := hlater
  have hsum : s.journal.length - later + (later - snap) = s.journal.length - snap := by omega
  have hdrop : (s.journal.drop (s.journal.length - later)).length = later := by
    rw [List.length_drop]
    omega
  -- the entries are undone in the same order, in two parts
  unfold revertToSnapshot
  rw [if_neg (by omega), if_neg (by omega), ← hsum, List.take_add, undoAll_append, bind_map,
    map_bind]
  refine congrArg _ (funext fun t => ?_)
  show ite _ _ _ = _
  rw [hdrop, if_neg (by omega), undoAll_journal, map_map, List.drop_drop]
  rfl

/-- By way of the snapshot between two additions. -/
theorem revertToSnapshot_revertToSnapshot_two :
    let s := ((newStateDB .empty).addBalance 1 5).addBalance 2 7
    (s.revertToSnapshot 1).bind (·.revertToSnapshot 0) = s.revertToSnapshot 0 :=
  revertToSnapshot_revertToSnapshot (by decide) (by decide)

end Stages

end StateDB
