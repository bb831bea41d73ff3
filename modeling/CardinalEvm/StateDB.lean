import CardinalEvm.AccessList
import CardinalEvm.StateObject
import CardinalEvm.UndoLog

/-!
# The state database

A `stateDB` is a read-only store, the objects of the addresses touched
so far, and what a transaction keeps beside the accounts: transient
storage, the refund counter and the access list. Every change appends an
entry to the journal, `Snapshot` is the journal's length, and
`RevertToSnapshot` runs the entries above a length from the newest down.

The methods are the source's, one definition each. A method that panics
– an assignment to a nil map, an index out of range – is `none` there; a
getter returns its value and the state, in which it may have filled in
an object (`StateObject`). The journal is kept newest entry first.

`Op` lists the methods a caller may use between two snapshots, and
`Reachable` is the states any caller can bring about.
-/

/-- **An entry of the journal**: the closure of the source as data. -/
inductive JournalEntry where
  /-- Undoes a change to the object of an address. -/
  | object (addr : Address) (undo : ObjectUndo)
  /-- Puts back the object `CreateAccount` replaced. -/
  | createAccount (addr : Address) (prev : StateObject)
  | refund (old : UInt64)
  | transient (addr : Address) (storage old : Hash)
  | accessListAddress (addr : Address)
  | accessListSlot (addr : Address) (slot : Hash)

/-- **The state database.** -/
structure StateDB where
  tx : StorageTx
  /-- The journal, newest entry first. -/
  journal : List JournalEntry := []
  state : GoMap Address StateObject := fun _ => none
  /-- Transient storage, by raw slots. -/
  transient : GoMap Address Storage := fun _ => none
  refund : UInt64 := 0
  accessList : AccessList := .newAccessList
  /-- Set while an access list is being computed: everything counts as
  being on it. -/
  alcalc : Bool := false

namespace StateDB

/-! ## Objects -/

variable (s : StateDB) (addr : Address)

/-- `getAccount`: the object of an address, a fresh one if there is
none. -/
def getAccount : StateObject := (s.state addr).getD {}

/-- Writes the object of an address. -/
def setAccount (o : StateObject) : StateDB :=
  { s with state := Function.update s.state addr (some o) }

/-- Reads an object, which may fill it in. -/
def read {α : Type} (s : StateDB) (addr : Address) (f : StateObject → α × StateObject) :
    α × StateDB :=
  ((f (s.getAccount addr)).1, s.setAccount addr (f (s.getAccount addr)).2)

/-- Writes a changed object and journals its undo. -/
def change (r : StateObject × ObjectUndo) : StateDB :=
  { s.setAccount addr r.1 with journal := .object addr r.2 :: s.journal }

/-! ## The methods -/

/-- `NewStateDB`. -/
def newStateDB (tx : StorageTx) : StateDB := { tx := tx }

/-- `Copy`. It does not copy `alcalc`. -/
def copy : StateDB :=
  { s with state := fun addr => (s.state addr).map StateObject.copy, alcalc := false }

/-- `ALCalcCopy`. -/
def alCalcCopy : StateDB := { s.copy with alcalc := true }

/-- `Finalise`. The journal stays. -/
def finalise : StateDB :=
  { s with
    state := fun addr => (s.state addr).map StateObject.finalise
    accessList := .newAccessList
    transient := fun _ => none
    refund := 0 }

/-- `CreateAccount`. The replaced object is loaded after the entry that
holds it is made, and its balance is carried over without an entry. -/
def createAccount : StateDB :=
  let prev := s.getAccount addr
  let obj : StateObject := { account := some {}, created := true }
  if !prev.deleted && !prev.suicided then
    match prev.loadAccount s.tx addr with
    | (ok, prev') =>
      { s.setAccount addr (if ok then (obj.addBalance prev'.getBalance).1 else obj) with
        journal := .createAccount addr prev' :: s.journal }
  else { s.setAccount addr obj with journal := .createAccount addr prev :: s.journal }

/-- `SubBalance`. -/
def subBalance (amount : Int) : StateDB :=
  if amount = 0 then s else s.change addr ((s.getAccount addr).subBalance amount)

/-- `AddBalance`. -/
def addBalance (amount : Int) : StateDB :=
  if amount = 0 then s else s.change addr ((s.getAccount addr).addBalance amount)

/-- `SetNonce`. -/
def setNonce (nonce : UInt64) : StateDB :=
  s.change addr ((s.getAccount addr).setNonce nonce)

/-- `AddRefund`, in wrapping arithmetic. -/
def addRefund (amount : UInt64) : StateDB :=
  { s with refund := s.refund + amount, journal := .refund s.refund :: s.journal }

/-- `SubRefund`, in wrapping arithmetic. -/
def subRefund (amount : UInt64) : StateDB :=
  { s with refund := s.refund - amount, journal := .refund s.refund :: s.journal }

/-- `GetTransientState`. -/
def getTransientState (storage : Hash) : Hash :=
  ((s.transient addr).bind (fun m => m storage)).getD 0

/-- `SetTransientState`. -/
def setTransientState (storage data : Hash) : StateDB :=
  let m := (s.transient addr).getD (fun _ => none)
  { s with
    transient := Function.update s.transient addr (some (Function.update m storage (some data)))
    journal := .transient addr storage ((m storage).getD 0) :: s.journal }

/-- `SetBalance`. -/
def setBalance (balance : Int) : StateDB :=
  s.change addr ((s.getAccount addr).setBalance balance)

/-- `SetStorage`. The map replaces `dirty` as it is, raw keys and all. -/
def setStorage (storage : Option Storage) : StateDB :=
  s.change addr ((s.getAccount addr).setStorage storage)

/-- `Suicide`. -/
def suicide : Bool × StateDB :=
  match (s.getAccount addr).suicide with
  | some r => (true, s.change addr r)
  | none => (false, s.setAccount addr (s.getAccount addr))

/-- `SelfDestruct6780`. -/
def selfDestruct6780 : StateDB :=
  if (s.getAccount addr).created then (s.suicide addr).2
  else s.setAccount addr (s.getAccount addr)

/-- `GetBalance`. -/
def getBalance : Int × StateDB :=
  s.read addr (fun o => match o.loadAccount s.tx addr with
    | (false, o') => (0, o')
    | (true, o') => (o'.getBalance, o'))

/-- `GetNonce`. -/
def getNonce : UInt64 × StateDB :=
  s.read addr (StateObject.getNonce s.tx addr)

/-- `HasSuicided`. -/
def hasSuicided : Bool × StateDB :=
  s.read addr (fun o => (o.suicided, o))

/-- `AddressInAccessList`. -/
def addressInAccessList : Bool :=
  s.alcalc || s.accessList.containsAddress addr

/-- `SlotInAccessList`. -/
def slotInAccessList (slot : Hash) : Option (Bool × Bool) :=
  if s.alcalc then some (true, true) else s.accessList.contains addr slot

/-- `AddAddressToAccessList`. -/
def addAddressToAccessList : StateDB :=
  match s.accessList.addAddress addr with
  | (al, true) =>
    { s with accessList := al, journal := .accessListAddress addr :: s.journal }
  | (al, false) => { s with accessList := al }

/-- `AddSlotToAccessList`. The address's entry is made before the
slot's. -/
def addSlotToAccessList (slot : Hash) : Option StateDB :=
  (s.accessList.addSlot addr slot).map (fun (al, addrMod, slotMod) =>
    { s with
      accessList := al
      journal := (if slotMod then [.accessListSlot addr slot] else [])
        ++ (if addrMod then [.accessListAddress addr] else []) ++ s.journal })

/-- `Snapshot`. -/
def snapshot : ℕ := s.journal.length

end StateDB

/-- Runs an entry on the state that is current when it runs. -/
def JournalEntry.undo : JournalEntry → StateDB → Option StateDB
  | object addr u, s => (u.run (s.getAccount addr)).map (s.setAccount addr)
  | createAccount addr prev, s => some (s.setAccount addr prev)
  | refund old, s => some { s with refund := old }
  | transient addr storage old, s => (s.transient addr).map (fun m =>
      { s with transient :=
          Function.update s.transient addr (some (Function.update m storage (some old))) })
  | accessListAddress addr, s =>
    some { s with accessList := s.accessList.deleteAddress addr }
  | accessListSlot addr slot, s =>
    (s.accessList.deleteSlot addr slot).map (fun al => { s with accessList := al })

namespace StateDB

/-- `RevertToSnapshot`. A number above the journal's length is not a
snapshot of it. -/
def revertToSnapshot (s : StateDB) (snap : ℕ) : Option StateDB :=
  if s.journal.length < snap then none
  else
    (undoAll JournalEntry.undo (s.journal.take (s.journal.length - snap)) s).map (fun t =>
      { t with journal := s.journal.drop (s.journal.length - snap) })

section Hashing

variable [Keccak] (s : StateDB) (addr : Address)

/-- `GetCodeHash`. -/
def getCodeHash : Hash × StateDB :=
  s.read addr (StateObject.getCodeHash s.tx addr)

/-- `GetCode`. -/
def getCode : Bytes × StateDB :=
  s.read addr (StateObject.getCode s.tx addr)

/-- `SetCode`. -/
def setCode (code : Bytes) : StateDB :=
  s.change addr ((s.getAccount addr).setCode code)

/-- `GetCodeSize`. -/
def getCodeSize : ℕ × StateDB :=
  ((s.getCode addr).1.length, (s.getCode addr).2)

/-- `GetCommittedState`. -/
def getCommittedState (storage : Hash) : Hash × StateDB :=
  s.read addr (StateObject.getCommittedState s.tx addr (slotKey storage))

/-- `GetState`. -/
def getState (storage : Hash) : Hash × StateDB :=
  s.read addr (StateObject.getState s.tx addr (slotKey storage))

/-- `SetState`. -/
def setState (storage data : Hash) : Option StateDB :=
  ((s.getAccount addr).setState (slotKey storage) data).map (s.change addr)

/-- `Exist`. -/
def exist : Bool × StateDB :=
  s.read addr (fun o =>
    if o.deleted then (false, o)
    else match o.empty s.tx addr with
      | (e, o') => (!e, o'))

/-- `Empty`. -/
def empty : Bool × StateDB :=
  s.read addr (fun o =>
    if o.deleted || o.suicided then (true, o) else o.empty s.tx addr)

end Hashing

/-! ## Callers

The methods as data, and the states they lead to. -/

/-- **A call of a method** other than `Snapshot`, `RevertToSnapshot`,
`Finalise` and the copies. -/
inductive Op where
  | createAccount (addr : Address)
  | subBalance (addr : Address) (amount : Int)
  | addBalance (addr : Address) (amount : Int)
  | setBalance (addr : Address) (balance : Int)
  | setNonce (addr : Address) (nonce : UInt64)
  | setCode (addr : Address) (code : Bytes)
  | setState (addr : Address) (storage data : Hash)
  | setStorage (addr : Address) (storage : Option Storage)
  | setTransientState (addr : Address) (storage data : Hash)
  | suicide (addr : Address)
  | selfDestruct6780 (addr : Address)
  | addRefund (amount : UInt64)
  | subRefund (amount : UInt64)
  | addAddressToAccessList (addr : Address)
  | addSlotToAccessList (addr : Address) (slot : Hash)
  | getBalance (addr : Address)
  | getNonce (addr : Address)
  | getCodeHash (addr : Address)
  | getCode (addr : Address)
  | getCodeSize (addr : Address)
  | getCommittedState (addr : Address) (storage : Hash)
  | getState (addr : Address) (storage : Hash)
  | hasSuicided (addr : Address)
  | exist (addr : Address)
  | empty (addr : Address)

/-- The state after a call. The getters that are not listed – of the
refund, transient storage and the access list – leave the state as it
is. -/
def Op.apply [Keccak] : Op → StateDB → Option StateDB
  | createAccount addr, s => some (s.createAccount addr)
  | subBalance addr amount, s => some (s.subBalance addr amount)
  | addBalance addr amount, s => some (s.addBalance addr amount)
  | setBalance addr balance, s => some (s.setBalance addr balance)
  | setNonce addr nonce, s => some (s.setNonce addr nonce)
  | setCode addr code, s => some (s.setCode addr code)
  | setState addr storage data, s => s.setState addr storage data
  | setStorage addr storage, s => some (s.setStorage addr storage)
  | setTransientState addr storage data, s => some (s.setTransientState addr storage data)
  | suicide addr, s => some (s.suicide addr).2
  | selfDestruct6780 addr, s => some (s.selfDestruct6780 addr)
  | addRefund amount, s => some (s.addRefund amount)
  | subRefund amount, s => some (s.subRefund amount)
  | addAddressToAccessList addr, s => some (s.addAddressToAccessList addr)
  | addSlotToAccessList addr slot, s => s.addSlotToAccessList addr slot
  | getBalance addr, s => some (s.getBalance addr).2
  | getNonce addr, s => some (s.getNonce addr).2
  | getCodeHash addr, s => some (s.getCodeHash addr).2
  | getCode addr, s => some (s.getCode addr).2
  | getCodeSize addr, s => some (s.getCodeSize addr).2
  | getCommittedState addr storage, s => some (s.getCommittedState addr storage).2
  | getState addr storage, s => some (s.getState addr storage).2
  | hasSuicided addr, s => some (s.hasSuicided addr).2
  | exist addr, s => some (s.exist addr).2
  | empty addr, s => some (s.empty addr).2

/-- The getters. -/
def Op.isRead : Op → Bool
  | .getBalance _ | .getNonce _ | .getCodeHash _ | .getCode _ | .getCodeSize _
  | .getCommittedState _ _ | .getState _ _ | .hasSuicided _ | .exist _ | .empty _ => true
  | _ => false

/-- **The states a caller can bring about** with calls that are
`allowed`. A revert may go back to any length of the journal, also past
a `Finalise`. -/
inductive ReachableBy [Keccak] (allowed : StateDB → Op → Prop) : StateDB → Prop
  | new (tx : StorageTx) : ReachableBy allowed (newStateDB tx)
  | op {s s' : StateDB} (o : Op) :
    ReachableBy allowed s → allowed s o → o.apply s = some s' → ReachableBy allowed s'
  | revert {s s' : StateDB} (snap : ℕ) :
    ReachableBy allowed s → s.revertToSnapshot snap = some s' → ReachableBy allowed s'
  | finalise {s : StateDB} : ReachableBy allowed s → ReachableBy allowed s.finalise
  | copy {s : StateDB} : ReachableBy allowed s → ReachableBy allowed s.copy
  | alCalcCopy {s : StateDB} : ReachableBy allowed s → ReachableBy allowed s.alCalcCopy

/-- The states any caller can bring about. -/
abbrev Reachable [Keccak] : StateDB → Prop := ReachableBy (fun _ _ => True)

end StateDB
