import CardinalEvm.Types

/-!
# State objects

What a state knows about one address. A state object is filled lazily:
the account record, the code and the storage values are read from the
store the first time they are asked for and kept from then on, while the
changes a transaction makes are kept beside them – a signed
`balanceDelta` over the record's balance, an override `fakeBalance` in
its place, a `nonce` and `code` that hide the record's, and a `dirty`
storage over the `clean` one.

A getter therefore returns a value *and* the object with more of it
filled in. `loaded` is the object with everything filled in, and the two
facts proved of each getter are that it leaves `loaded` alone and that
its value can be read off the object without filling anything
(`record`, `codeEntry`, `committed`, `current`). `getCodeHash` is the
exception, and the only one: it answers from the account record if that
happens to be filled in and from the code otherwise, so its value is not
a function of `loaded`.

The source's objects know their own address, which is also the key they
are found under; here the address is an argument. A change is undone by
a closure in the source and by an `ObjectUndo`, a piece of data with the
closure's captured values, here.
-/

variable [Keccak]

/-- `Storage`, keyed by hashed slots. -/
abbrev Storage := GoMap Hash Hash

/-- `codeEntry`. -/
structure CodeEntry where
  code : Bytes
  hash : Hash
  deriving DecidableEq

namespace CodeEntry

/-- The entry after `getHash`, which recomputes the hash unless it is
zero. -/
def rehash (c : CodeEntry) : CodeEntry :=
  if c.hash ≠ 0 then { c with hash := keccak256Hash c.code } else c

/-- `getHash`. -/
def getHash (c : CodeEntry) : Hash × CodeEntry := (c.rehash.hash, c.rehash)

@[simp] theorem rehash_code (c : CodeEntry) : c.rehash.code = c.code := by
  unfold rehash; split <;> rfl

@[simp] theorem rehash_rehash (c : CodeEntry) : c.rehash.rehash = c.rehash := by
  unfold rehash
  split_ifs <;> rfl

end CodeEntry

/-- **What the state knows about one address.** -/
structure StateObject where
  /-- The account record, once loaded. -/
  account : Option Account := none
  /-- What was added to the balance, or taken from it if negative. -/
  balanceDelta : Option Int := none
  /-- The code, once loaded or set. -/
  code : Option CodeEntry := none
  /-- The storage written. It is a nil map only if `setStorage` made it
  one, and then a write panics. -/
  dirty : Option Storage := some (fun _ => none)
  /-- The storage values read so far. -/
  clean : Storage := fun _ => none
  /-- Made by `CreateAccount`. -/
  created : Bool := false
  /-- Self-destructed in the current transaction. -/
  suicided : Bool := false
  /-- Self-destructed in a finalised one. -/
  deleted : Bool := false
  /-- The nonce, if it was set. -/
  nonce : Option UInt64 := none
  /-- The balance, if it was overridden. -/
  fakeBalance : Option Int := none

/-- **How a change to one object is undone**: the closure of a
`journalEntry` with an address. -/
inductive ObjectUndo where
  | balanceDeltaNil
  | balanceDeltaAdd (amount : Int)
  | balanceDeltaSub (amount : Int)
  | fakeBalance (old : Option Int)
  | nonce (old : Option UInt64)
  | code (old : Option CodeEntry)
  | dirtyPut (storage old : Hash)
  | dirtyDelete (storage : Hash)
  | dirtyMap (old : Option Storage)
  | suicided

/-- Runs an undo on the object that is current when it runs. Arithmetic
on a nil delta and an assignment to a nil map panic; `delete` on a nil
map does nothing. -/
def ObjectUndo.run : ObjectUndo → StateObject → Option StateObject
  | balanceDeltaNil, o => some { o with balanceDelta := none }
  | balanceDeltaAdd amount, o =>
    o.balanceDelta.map (fun delta => { o with balanceDelta := some (delta + amount) })
  | balanceDeltaSub amount, o =>
    o.balanceDelta.map (fun delta => { o with balanceDelta := some (delta - amount) })
  | fakeBalance old, o => some { o with fakeBalance := old }
  | nonce old, o => some { o with nonce := old }
  | code old, o => some { o with code := old }
  | dirtyPut storage old, o =>
    o.dirty.map (fun m => { o with dirty := some (Function.update m storage (some old)) })
  | dirtyDelete storage, o =>
    some { o with dirty := o.dirty.map (fun m => Function.update m storage none) }
  | dirtyMap old, o => some { o with dirty := old }
  | suicided, o => some { o with suicided := false }

namespace StateObject

/-! ## The methods of the source -/

variable (tx : StorageTx) (addr : Address) (o : StateObject)

/-- `copy`. The override of the balance is not carried over, and a nil
`dirty` map comes out empty. -/
def copy : StateObject :=
  { o with dirty := some (o.dirty.getD (fun _ => none)), fakeBalance := none }

/-- `finalise`. -/
def finalise : StateObject :=
  { o with
    clean := fun k => ((o.dirty.getD (fun _ => none)) k).or (o.clean k)
    deleted := o.deleted || o.suicided }

/-- `loadAccount`. -/
def loadAccount : Bool × StateObject :=
  if o.deleted then (false, o)
  else match o.account with
    | some _ => (true, o)
    | none => match tx.accountData addr with
      | some account => (true, { o with account := some account })
      | none => (false, o)

/-- The code entry `loadCode` makes for the account it loaded, if it
loaded one. -/
def entryOf : Option Account → CodeEntry
  | none => ⟨[], emptyCode⟩
  | some account =>
    if account.codeHash = emptyCode.bytes then ⟨[], emptyCode⟩
    else ⟨(tx.accountCode account.codeHash).getD [], bytesToHash account.codeHash⟩

/-- `loadCode`. -/
def loadCode : Bool × StateObject :=
  if o.deleted then (false, o)
  else match o.code with
    | some _ => (true, o)
    | none =>
      -- past the test of `deleted`, loading fails exactly if there is no account afterwards
      let o' := (o.loadAccount tx addr).2
      (true, { o' with code := some (entryOf tx o'.account) })

/-- `subBalance`. -/
def subBalance (amount : Int) (o : StateObject) : StateObject × ObjectUndo :=
  match o.balanceDelta with
  | none => ({ o with balanceDelta := some (-amount) }, .balanceDeltaNil)
  | some delta => ({ o with balanceDelta := some (delta - amount) }, .balanceDeltaAdd amount)

/-- `addBalance`. -/
def addBalance (amount : Int) (o : StateObject) : StateObject × ObjectUndo :=
  match o.balanceDelta with
  | none => ({ o with balanceDelta := some amount }, .balanceDeltaNil)
  | some delta => ({ o with balanceDelta := some (delta + amount) }, .balanceDeltaSub amount)

/-- `getBalance`. It does not load the account. -/
def getBalance : Int :=
  o.balanceDelta.getD 0
    + (match o.fakeBalance with
      | some balance => balance
      | none => (o.account.bind Account.balance).getD 0)

/-- `setBalance`. -/
def setBalance (balance : Int) (o : StateObject) : StateObject × ObjectUndo :=
  ({ o with fakeBalance := some balance }, .fakeBalance o.fakeBalance)

/-- `getNonce`. -/
def getNonce : UInt64 × StateObject :=
  match o.nonce with
  | some nonce => (nonce, o)
  | none => match o.loadAccount tx addr with
    | (false, o') => (0, o')
    | (true, o') => ((o'.account.map Account.nonce).getD 0, o')

/-- `setNonce`. -/
def setNonce (nonce : UInt64) (o : StateObject) : StateObject × ObjectUndo :=
  ({ o with nonce := some nonce }, .nonce o.nonce)

/-- `getCodeHash`: of the account record if it is loaded, of the code
otherwise. -/
def getCodeHash : Hash × StateObject :=
  match o.account with
  | some account => (bytesToHash account.codeHash, o)
  | none => match o.loadCode tx addr with
    | (false, o') => (emptyCode, o')
    | (true, o') => match o'.code with
      | none => (emptyCode, o')
      | some c => (c.getHash.1, { o' with code := some c.getHash.2 })

/-- `getCode`. -/
def getCode : Bytes × StateObject :=
  match o.loadCode tx addr with
  | (false, o') => ([], o')
  | (true, o') => ((o'.code.map CodeEntry.code).getD [], o')

/-- `setCode`. -/
def setCode (code : Bytes) (o : StateObject) : StateObject × ObjectUndo :=
  ({ o with code := some ⟨code, keccak256Hash code⟩ }, .code o.code)

/-- `getCommittedState`. A value the store has is kept in `clean`, the
zero of an absent one is not. -/
def getCommittedState (storage : Hash) (o : StateObject) : Hash × StateObject :=
  match o.clean storage with
  | some data => (data, o)
  | none => match tx.accountStorage addr storage with
    | some value => (value, { o with clean := Function.update o.clean storage (some value) })
    | none => (0, o)

/-- `getState`. -/
def getState (storage : Hash) (o : StateObject) : Hash × StateObject :=
  match o.dirty.bind (fun m => m storage) with
  | some data => (data, o)
  | none => o.getCommittedState tx addr storage

/-- `setState`, which panics on a nil map. -/
def setState (storage data : Hash) (o : StateObject) : Option (StateObject × ObjectUndo) :=
  o.dirty.map (fun m =>
    ({ o with dirty := some (Function.update m storage (some data)) },
      match m storage with
      | some old => .dirtyPut storage old
      | none => .dirtyDelete storage))

/-- `setStorage`. -/
def setStorage (storage : Option Storage) (o : StateObject) : StateObject × ObjectUndo :=
  ({ o with dirty := storage }, .dirtyMap o.dirty)

/-- `suicide`, with nothing to undo where it does nothing. -/
def suicide : Option (StateObject × ObjectUndo) :=
  if o.suicided || o.deleted then none
  else some ({ o with suicided := true }, .suicided)

/-- `empty`. The conjunction stops at its first false part, so what gets
loaded depends on the values. -/
def empty : Bool × StateObject :=
  match o.getNonce tx addr with
  | (nonce, o') =>
    if nonce ≠ 0 then (false, o')
    else if o'.getBalance ≠ 0 then (false, o')
    else match o'.getCodeHash tx addr with
      | (hash, o'') => (hash == emptyCode, o'')

/-! ## Everything filled in

`record`, `codeEntry`, `committed` and `current` say what the getters
would find, whether or not it has been loaded. -/

/-- The account record, loaded or still in the store. A deleted object
no longer looks in the store. -/
def record : Option Account :=
  if o.deleted then o.account else o.account.or (tx.accountData addr)

/-- The code entry, set, loaded or still in the store. -/
def codeEntry : CodeEntry :=
  o.code.getD (entryOf tx (o.record tx addr))

/-- The committed value of a hashed slot. -/
def committed (storage : Hash) : Hash :=
  (o.clean storage).getD ((tx.accountStorage addr storage).getD 0)

/-- The current value of a hashed slot. -/
def current (storage : Hash) : Hash :=
  (o.dirty.bind (fun m => m storage)).getD (o.committed tx addr storage)

/-- The balance an object shows: none without a record to show it. -/
def balance : Int :=
  if o.deleted = false ∧ (o.record tx addr).isSome then
    { o with account := o.record tx addr }.getBalance
  else 0

/-- The nonce an object shows. -/
def nonceOf : UInt64 :=
  o.nonce.getD (if o.deleted then 0 else ((o.record tx addr).map Account.nonce).getD 0)

/-- The code an object shows. -/
def codeOf : Bytes :=
  if o.deleted then [] else (o.codeEntry tx addr).code

/-- **The object with everything filled in.** -/
@[simps] def loaded : StateObject :=
  { o with
    account := o.record tx addr
    code := if o.deleted then o.code else some (o.codeEntry tx addr).rehash
    clean := fun k => some (o.committed tx addr k) }

section Loading

variable (tx : StorageTx) (a : Address)

variable (o : StateObject)

omit [Keccak] in
/-- Loading the account fills the record in, and succeeds if there is
one and the object is not deleted. -/
theorem loadAccount_eq :
    o.loadAccount tx a
      = (!o.deleted && (o.record tx a).isSome, { o with account := o.record tx a }) := by
  obtain ⟨account, _, _, _, _, _, _, deleted, _, _⟩ := o
  cases deleted <;> cases account <;> cases h : tx.accountData a <;>
    simp [loadAccount, record, h]

/-- Loading the code fills the record and the code in, unless the code
is there already. -/
theorem loadCode_eq :
    o.loadCode tx a
      = (!o.deleted, if o.deleted ∨ o.code.isSome then o
          else { o with account := o.record tx a, code := some (o.codeEntry tx a) }) := by
  unfold loadCode
  rw [loadAccount_eq]
  obtain ⟨_, _, code, _, _, _, _, deleted, _, _⟩ := o
  cases deleted <;> cases code <;> simp [codeEntry]

omit [Keccak] in
/-- Reading a committed value fills in the one slot. -/
theorem getCommittedState_eq (k : Hash) (o : StateObject) :
    o.getCommittedState tx a k
      = (o.committed tx a k, { o with
          clean := Function.update o.clean k ((o.clean k).or (tx.accountStorage a k)) }) := by
  unfold getCommittedState committed
  have hself : ∀ v, o.clean k = v → Function.update o.clean k v = o.clean :=
    fun v hv => Function.update_eq_self_iff.mpr hv.symm
  cases hc : o.clean k with
  | some data => simp [hself _ hc]
  | none => cases hs : tx.accountStorage a k <;> simp [hself _ hc]

/-! ### What filling in keeps -/

omit [Keccak] in
@[simp] theorem record_fill :
    { o with account := o.record tx a }.record tx a = o.record tx a := by
  unfold record
  cases o.deleted <;> cases o.account <;> simp

@[simp] theorem loaded_fillAccount :
    { o with account := o.record tx a }.loaded tx a = o.loaded tx a := by
  have hr := record_fill tx a o
  simp only [loaded, codeEntry, hr]
  rfl

@[simp] theorem loaded_loadAccount :
    (o.loadAccount tx a).2.loaded tx a = o.loaded tx a := by
  rw [loadAccount_eq]
  exact loaded_fillAccount tx a o

@[simp] theorem loaded_loadCode :
    (o.loadCode tx a).2.loaded tx a = o.loaded tx a := by
  rw [loadCode_eq]
  split_ifs with h
  · rfl
  · obtain ⟨hd, hc⟩ := not_or.mp h
    rw [Option.not_isSome_iff_eq_none] at hc
    cases ho : o.account <;> simp [loaded, codeEntry, record, committed, hd, hc, ho]

theorem loaded_getCommittedState (k : Hash) (o : StateObject) :
    (o.getCommittedState tx a k).2.loaded tx a = o.loaded tx a := by
  rw [getCommittedState_eq]
  simp only [loaded]
  congr 1
  funext j
  unfold committed
  by_cases hj : j = k
  · subst hj
    cases o.clean j <;> cases tx.accountStorage a j <;> simp
  · simp [Function.update_of_ne hj]

/-- Rehashing the code entry is part of filling in. -/
theorem loaded_rehash {o : StateObject} {c : CodeEntry} (hc : o.code = some c)
    (hd : o.deleted = false) :
    { o with code := some c.rehash }.loaded tx a = o.loaded tx a := by
  simp [loaded, codeEntry, record, committed, hd, hc]

end Loading

/-! ## The getters

Each returns what the object shows and only fills in. -/

section Getters

variable (tx : StorageTx) (a : Address)

variable (o : StateObject)

omit [Keccak] in
theorem getNonce_fst : (o.getNonce tx a).1 = o.nonceOf tx a := by
  unfold getNonce nonceOf
  cases o.nonce with
  | some n => rfl
  | none =>
    rw [loadAccount_eq]
    cases o.deleted <;> cases h : o.record tx a <;> simp

@[simp] theorem loaded_getNonce :
    (o.getNonce tx a).2.loaded tx a = o.loaded tx a := by
  unfold getNonce
  cases o.nonce with
  | some n => rfl
  | none =>
    have h := loaded_loadAccount tx a o
    revert h
    rcases o.loadAccount tx a with ⟨_ | _, o'⟩ <;> exact id

theorem getCode_fst : (o.getCode tx a).1 = o.codeOf tx a := by
  unfold getCode codeOf
  rw [loadCode_eq]
  cases hd : o.deleted <;> cases hc : o.code <;> simp [codeEntry, hc]

@[simp] theorem loaded_getCode :
    (o.getCode tx a).2.loaded tx a = o.loaded tx a := by
  have h := loaded_loadCode tx a o
  unfold getCode
  revert h
  rcases o.loadCode tx a with ⟨_ | _, o'⟩ <;> exact id

/-- **The code hash an object shows**, which depends on whether its
account is loaded. -/
theorem getCodeHash_fst :
    (o.getCodeHash tx a).1
      = match o.account with
        | some account => bytesToHash account.codeHash
        | none => if o.deleted then emptyCode else (o.codeEntry tx a).rehash.hash := by
  unfold getCodeHash
  cases o.account with
  | some account => rfl
  | none =>
    dsimp only
    rw [loadCode_eq]
    cases hd : o.deleted <;> cases hc : o.code <;> simp [codeEntry, hc, CodeEntry.getHash]

@[simp] theorem loaded_getCodeHash :
    (o.getCodeHash tx a).2.loaded tx a = o.loaded tx a := by
  unfold getCodeHash
  cases o.account with
  | some account => rfl
  | none =>
    have h := loaded_loadCode tx a o
    have hd : (o.loadCode tx a).1 = true → (o.loadCode tx a).2.deleted = false := by
      rw [loadCode_eq]
      intro hd
      rw [Bool.not_eq_true'] at hd
      dsimp only
      split_ifs <;> exact hd
    revert h hd
    rcases o.loadCode tx a with ⟨_ | _, o'⟩
    · exact fun h _ => h
    · intro h hd
      dsimp only
      cases hc : o'.code with
      | none => exact h
      | some c => exact (loaded_rehash tx a hc (hd rfl)).trans h

omit [Keccak] in
theorem getState_fst (k : Hash) (o : StateObject) :
    (o.getState tx a k).1 = o.current tx a k := by
  unfold getState current
  cases o.dirty.bind (fun m => m k) with
  | some data => rfl
  | none =>
    dsimp only
    rw [getCommittedState_eq]
    rfl

@[simp] theorem loaded_getState (k : Hash) (o : StateObject) :
    (o.getState tx a k).2.loaded tx a = o.loaded tx a := by
  unfold getState
  cases o.dirty.bind (fun m => m k) with
  | some data => rfl
  | none => exact loaded_getCommittedState tx a k o

@[simp] theorem loaded_empty :
    (o.empty tx a).2.loaded tx a = o.loaded tx a := by
  have h := loaded_getNonce tx a o
  unfold empty
  revert h
  rcases o.getNonce tx a with ⟨n, o'⟩
  intro h
  dsimp only at h ⊢
  split_ifs
  · exact h
  · exact h
  · exact (loaded_getCodeHash tx a o').trans h

end Getters

/-! ## What an object shows depends on `loaded` alone -/

section Shown

variable {tx : StorageTx} {a : Address} {o o' : StateObject}

theorem codeOf_eq (o : StateObject) :
    o.codeOf tx a = if (o.loaded tx a).deleted then []
      else (((o.loaded tx a).code.map CodeEntry.code).getD []) := by
  unfold codeOf loaded
  cases o.deleted <;> simp

variable (h : o.loaded tx a = o'.loaded tx a)

include h

theorem balance_congr : o.balance tx a = o'.balance tx a :=
  congrArg (fun v : StateObject =>
    if v.deleted = false ∧ v.account.isSome then v.getBalance else 0) h

theorem nonceOf_congr : o.nonceOf tx a = o'.nonceOf tx a :=
  congrArg (fun v : StateObject =>
    v.nonce.getD (if v.deleted then 0 else (v.account.map Account.nonce).getD 0)) h

theorem codeOf_congr : o.codeOf tx a = o'.codeOf tx a := by
  rw [codeOf_eq, codeOf_eq, h]

theorem committed_congr : o.committed tx a = o'.committed tx a := by
  funext k
  exact Option.some.inj (congrFun (congrArg clean h) k)

theorem current_congr : o.current tx a = o'.current tx a := by
  have hd : o.dirty = o'.dirty :=
    show (o.loaded tx a).dirty = (o'.loaded tx a).dirty from congrArg dirty h
  funext k
  rw [current, current, hd, committed_congr h]

end Shown

end StateObject

/-! ## Undoing

Every setter's undo gives back the very object it was made on, and an
undo run on two objects that agree once loaded gives two that do. -/

namespace ObjectUndo

/-- What an undo does to the object with everything filled in: the same,
except that putting unloaded code back leaves it loaded. -/
def runLoaded (tx : StorageTx) : ObjectUndo → StateObject → Option StateObject
  | code old, o => some { o with
      code := if o.deleted then old
        else some (old.getD (StateObject.entryOf tx o.account)).rehash }
  | u, o => u.run o

theorem map_loaded_run (tx : StorageTx) (a : Address) (u : ObjectUndo) (o : StateObject) :
    (u.run o).map (StateObject.loaded tx a) = u.runLoaded tx (o.loaded tx a) := by
  cases u with
  | balanceDeltaAdd amount | balanceDeltaSub amount =>
    show Option.map _ (Option.map _ o.balanceDelta) = Option.map _ o.balanceDelta
    cases o.balanceDelta <;> rfl
  | dirtyPut k old =>
    show Option.map _ (Option.map _ o.dirty) = Option.map _ o.dirty
    cases o.dirty <;> rfl
  | _ => rfl

/-- Undoing respects agreement once loaded. -/
theorem run_congr {tx : StorageTx} {a : Address} {u : ObjectUndo} {o o' p : StateObject}
    (h : o'.loaded tx a = o.loaded tx a) (hp : u.run o = some p) :
    ∃ p', u.run o' = some p' ∧ p'.loaded tx a = p.loaded tx a := by
  have hmap : (u.run o').map (StateObject.loaded tx a) = some (p.loaded tx a) := by
    rw [map_loaded_run, h, ← map_loaded_run, hp]
    rfl
  exact Option.map_eq_some_iff.mp hmap

end ObjectUndo

namespace StateObject

omit [Keccak] in
theorem undo_subBalance (amount : Int) (o : StateObject) :
    (o.subBalance amount).2.run (o.subBalance amount).1 = some o := by
  obtain ⟨_, delta, _, _, _, _, _, _, _, _⟩ := o
  cases delta <;> simp [subBalance, ObjectUndo.run]

omit [Keccak] in
theorem undo_addBalance (amount : Int) (o : StateObject) :
    (o.addBalance amount).2.run (o.addBalance amount).1 = some o := by
  obtain ⟨_, delta, _, _, _, _, _, _, _, _⟩ := o
  cases delta <;> simp [addBalance, ObjectUndo.run]

omit [Keccak] in
theorem undo_setState {k v : Hash} {o : StateObject} {r : StateObject × ObjectUndo}
    (h : o.setState k v = some r) : r.2.run r.1 = some o := by
  obtain ⟨m, hm, rfl⟩ := Option.map_eq_some_iff.mp h
  obtain ⟨_, _, _, dirty, _, _, _, _, _, _⟩ := o
  obtain rfl : dirty = some m := hm
  have hself : ∀ w, m k = w → Function.update m k w = m :=
    fun w hw => Function.update_eq_self_iff.mpr hw.symm
  cases hk : m k <;> simp [ObjectUndo.run, hself _ hk]

omit [Keccak] in
theorem undo_suicide {o : StateObject} {r : StateObject × ObjectUndo}
    (h : o.suicide = some r) : r.2.run r.1 = some o := by
  unfold suicide at h
  split_ifs at h with hs
  cases h
  obtain ⟨_, _, _, _, _, _, suicided, _, _, _⟩ := o
  obtain rfl : suicided = false := by
    revert hs
    cases suicided <;> simp
  rfl

end StateObject

/-- **A change to one object**, the setters as data. -/
inductive ObjectOp where
  | subBalance (amount : Int)
  | addBalance (amount : Int)
  | setBalance (balance : Int)
  | setNonce (nonce : UInt64)
  | setCode (code : Bytes)
  | setState (storage data : Hash)
  | setStorage (storage : Option Storage)
  | suicide

namespace ObjectOp

/-- The changed object and its undo; nothing where the setter panics or
does nothing. -/
def run : ObjectOp → StateObject → Option (StateObject × ObjectUndo)
  | subBalance amount, o => some (o.subBalance amount)
  | addBalance amount, o => some (o.addBalance amount)
  | setBalance balance, o => some (o.setBalance balance)
  | setNonce nonce, o => some (o.setNonce nonce)
  | setCode code, o => some (o.setCode code)
  | setState storage data, o => o.setState storage data
  | setStorage storage, o => some (o.setStorage storage)
  | suicide, o => o.suicide

/-- **A change is undone exactly.** -/
theorem undo_run {c : ObjectOp} {o : StateObject} {r : StateObject × ObjectUndo}
    (h : c.run o = some r) : r.2.run r.1 = some o := by
  cases c with
  | setState k v => exact StateObject.undo_setState h
  | suicide => exact StateObject.undo_suicide h
  | subBalance x =>
    cases h
    exact StateObject.undo_subBalance x o
  | addBalance x =>
    cases h
    exact StateObject.undo_addBalance x o
  | _ =>
    cases h
    rfl

end ObjectOp
