import CardinalEvm.Caller

/-!
# The heap

A `StateDB` holds its objects, maps and code by value. The program holds
pointers, and `Copy` shares some of what they point to: the two states
have the code entries, the maps of transient storage, and, in the
journal they both keep, the objects and maps its entries will put back
in common. This module is the program's memory with these pointers.

A `Heap` has three kinds of cells: state objects, `Storage` maps, and
code entries. A `Handle` is a `stateDB`, with references to cells in the
place of pointers. Of an object's fields only `code` and `dirty` are
references. The others are not shared – `clean` and `balanceDelta`,
which `copy` copies – or never changed in place: an account record, a
nonce or an override is replaced as a whole.

The methods are those of `StateDB` with the places they write to spelled
out. Most of them change an object, its `dirty` map and its code entry
in place (`Heap.modify`); `CreateAccount`, `SetCode` and `SetStorage` put
a new cell in the place of an old one, and their entries in the journal
hold on to the old.
-/

variable [Keccak]

open Function

/-- A reference to a cell. -/
abbrev Ref := ℕ

/-- A `stateObject` in memory. -/
structure Cell where
  account : Option Account := none
  balanceDelta : Option Int := none
  code : Option Ref := none
  dirty : Option Ref := none
  clean : Storage := fun _ => none
  created : Bool := false
  suicided : Bool := false
  deleted : Bool := false
  nonce : Option UInt64 := none
  fakeBalance : Option Int := none

/-- **The memory**, free from `next` on. -/
structure Heap where
  objects : Ref → Cell := fun _ => {}
  maps : Ref → Storage := fun _ _ => none
  codes : Ref → CodeEntry := fun _ => ⟨[], 0⟩
  next : Ref := 0

/-- The closure of an entry about one object. Those that hold on to a
cell have its reference. -/
inductive CellUndo where
  | inPlace (undo : ObjectUndo)
  | code (old : Option Ref)
  | dirtyMap (old : Option Ref)

/-- An entry of the journal in memory. -/
inductive HeapEntry where
  | object (addr : Address) (undo : CellUndo)
  | createAccount (addr : Address) (prev : Ref)
  | refund (old : UInt64)
  | transient (addr : Address) (storage old : Hash)
  | accessListAddress (addr : Address)
  | accessListSlot (addr : Address) (slot : Hash)

/-- **A `stateDB` in memory.** Its two maps are lists of their entries,
which `Finalise` and `Copy` go through. -/
structure Handle where
  tx : StorageTx
  /-- The journal, newest entry first. -/
  journal : List HeapEntry := []
  state : List (Address × Ref) := []
  transient : List (Address × Ref) := []
  refund : UInt64 := 0
  accessList : AccessList := .newAccessList
  alcalc : Bool := false

/-- Assigns to a key of a map. -/
def assign (addr : Address) (r : Ref) (m : List (Address × Ref)) : List (Address × Ref) :=
  (addr, r) :: m.filter (fun p => p.1 ≠ addr)

namespace Heap

/-- The value of an object, with those of its map and code. -/
def get (h : Heap) (r : Ref) : StateObject :=
  let c := h.objects r
  { account := c.account
    balanceDelta := c.balanceDelta
    code := c.code.map h.codes
    dirty := c.dirty.map h.maps
    clean := c.clean
    created := c.created
    suicided := c.suicided
    deleted := c.deleted
    nonce := c.nonce
    fakeBalance := c.fakeBalance }

/-- Writes the value of an object in place. Code that was not there
before is a new entry. -/
def put (h : Heap) (r : Ref) (o : StateObject) : Heap :=
  let c := h.objects r
  { objects := update h.objects r
      { account := o.account
        balanceDelta := o.balanceDelta
        code := if o.code.isSome then some (c.code.getD h.next) else none
        dirty := c.dirty
        clean := o.clean
        created := o.created
        suicided := o.suicided
        deleted := o.deleted
        nonce := o.nonce
        fakeBalance := o.fakeBalance }
    maps := match c.dirty, o.dirty with
      | some m, some f => update h.maps m f
      | _, _ => h.maps
    codes := match o.code with
      | some e => update h.codes (c.code.getD h.next) e
      | none => h.codes
    next := h.next + 1 }

/-- Calls a method of an object that changes it in place. -/
def modify {α : Type} (h : Heap) (r : Ref) (f : StateObject → α × StateObject) : α × Heap :=
  ((f (h.get r)).1, h.put r (f (h.get r)).2)

/-- A new object, with a new map for `dirty`. Its reference is the old
`next`. -/
def alloc (h : Heap) (c : Cell) : Heap :=
  { h with
    objects := update h.objects h.next { c with dirty := some h.next }
    maps := update h.maps h.next (fun _ => none)
    next := h.next + 1 }

end Heap

namespace Handle

open StateDB (Op Value Call)

/-- `NewStateDB`. -/
def newStateDB (tx : StorageTx) : Handle := { tx := tx }

variable (h : Heap) (s : Handle) (addr : Address)

/-- `getAccount`. -/
def getAccount : Ref × Heap × Handle :=
  match s.state.lookup addr with
  | some r => (r, h, s)
  | none => (h.next, h.alloc {}, { s with state := assign addr h.next s.state })

/-- Calls a getter of an object. -/
def read {α : Type} (h : Heap) (s : Handle) (addr : Address)
    (f : StateObject → α × StateObject) : α × Heap × Handle :=
  match s.getAccount h addr with
  | (r, h, s) => ((h.modify r f).1, (h.modify r f).2, s)

/-- Calls a setter of an object that works in place, and journals its
closure; a setter may panic or do nothing. -/
def change (c : ObjectOp) : Option (Heap × Handle) × Heap × Handle :=
  match s.getAccount h addr with
  | (r, h, s) =>
    ((c.run (h.get r)).map (fun p => (h.put r p.1,
      { s with journal := .object addr (.inPlace p.2) :: s.journal })), h, s)

/-- `CreateAccount`. -/
def createAccount : Heap × Handle :=
  match s.getAccount h addr with
  | (prev, h, s) =>
    let obj := h.next
    let h := h.alloc { account := some {}, created := true }
    let s := { s with
      state := assign addr obj s.state
      journal := .createAccount addr prev :: s.journal }
    if !(h.objects prev).deleted && !(h.objects prev).suicided then
      match h.modify prev (StateObject.loadAccount s.tx addr) with
      | (true, h) => (h.put obj ((h.get obj).addBalance (h.get prev).getBalance).1, s)
      | (false, h) => (h, s)
    else (h, s)

/-- `SetCode`: a new code entry. -/
def setCode (code : Bytes) : Heap × Handle :=
  match s.getAccount h addr with
  | (r, h, s) =>
    ({ h with
        objects := update h.objects r { h.objects r with code := some h.next }
        codes := update h.codes h.next ⟨code, keccak256Hash code⟩
        next := h.next + 1 },
      { s with journal := .object addr (.code (h.objects r).code) :: s.journal })

/-- `SetStorage`: the caller's map becomes the object's. It gets a cell of its
own here, so this is the method for a caller who neither shares the map nor
uses it again. -/
def setStorage (storage : Option Storage) : Heap × Handle :=
  match s.getAccount h addr with
  | (r, h, s) =>
    ({ h with
        objects := update h.objects r
          { h.objects r with dirty := storage.map (fun _ => h.next) }
        maps := update h.maps h.next (storage.getD (fun _ => none))
        next := h.next + 1 },
      { s with journal := .object addr (.dirtyMap (h.objects r).dirty) :: s.journal })

/-- `SetTransientState`. -/
def setTransientState (storage data : Hash) : Heap × Handle :=
  match s.transient.lookup addr with
  | some m =>
    ({ h with
        maps := update h.maps m (update (h.maps m) storage (some data)) },
      { s with journal := .transient addr storage ((h.maps m storage).getD 0) :: s.journal })
  | none =>
    ({ h with
        maps := update h.maps h.next (update (fun _ => none) storage (some data))
        next := h.next + 1 },
      { s with
        transient := assign addr h.next s.transient
        journal := .transient addr storage 0 :: s.journal })

/-- `Suicide`. -/
def suicide : Bool × Heap × Handle :=
  match s.change h addr .suicide with
  | (some p, _, _) => (true, p)
  | (none, p) => (false, p)

/-- `Finalise`: every object in place. -/
def finalise : Heap × Handle :=
  ({ h with objects := fun r =>
      if r ∈ s.state.map Prod.snd then
        { h.objects r with
          clean := (h.get r).finalise.clean
          deleted := (h.get r).finalise.deleted }
      else h.objects r },
    { s with
      accessList := .newAccessList
      transient := []
      refund := 0 })

/-- `Copy`: new objects with new `dirty` maps; the code entries, the maps
of transient storage and the entries of the journal are those of the
original. -/
def copy : Heap × Handle :=
  ({ h with
      objects := fun r => match s.state[r - h.next]? with
        | some (_, old) => if h.next ≤ r then
            { h.objects old with dirty := some r, fakeBalance := none }
          else h.objects r
        | none => h.objects r
      maps := fun r => match s.state[r - h.next]? with
        | some (_, old) => if h.next ≤ r then ((h.get old).dirty.getD (fun _ => none))
          else h.maps r
        | none => h.maps r
      next := h.next + s.state.length },
    { s with
      state := s.state.mapIdx (fun i p => (p.1, h.next + i))
      alcalc := false })

end Handle

/-- Runs a closure of the journal on an object. -/
def CellUndo.run : CellUndo → Ref → Heap → Option Heap
  | inPlace u, r, h => (u.run (h.get r)).map (h.put r)
  | code old, r, h =>
    some { h with objects := update h.objects r { h.objects r with code := old } }
  | dirtyMap old, r, h =>
    some { h with objects := update h.objects r { h.objects r with dirty := old } }

/-- Runs an entry of the journal. -/
def HeapEntry.undo : HeapEntry → Heap × Handle → Option (Heap × Handle)
  | object addr u, (h, s) => match s.getAccount h addr with
    | (r, h, s) => (u.run r h).map (fun h => (h, s))
  | createAccount addr prev, (h, s) => some (h, { s with state := assign addr prev s.state })
  | refund old, (h, s) => some (h, { s with refund := old })
  | transient addr storage old, (h, s) => (s.transient.lookup addr).map (fun m =>
      ({ h with
          maps := update h.maps m (update (h.maps m) storage (some old)) }, s))
  | accessListAddress addr, (h, s) =>
    some (h, { s with accessList := s.accessList.deleteAddress addr })
  | accessListSlot addr slot, (h, s) =>
    (s.accessList.deleteSlot addr slot).map (fun al => (h, { s with accessList := al }))

namespace Handle

open StateDB (Op Value Call)

/-- `RevertToSnapshot`. -/
def revertToSnapshot (h : Heap) (s : Handle) (snap : ℕ) : Option (Heap × Handle) :=
  if s.journal.length < snap then none
  else
    (undoAll HeapEntry.undo (s.journal.take (s.journal.length - snap)) (h, s)).map (fun p =>
      (p.1, { p.2 with journal := s.journal.drop (s.journal.length - snap) }))

/-- The getter of an object that a method calls, with what it makes of
the value. -/
def reader (tx : StorageTx) : Op → Option (Address × (StateObject → Value × StateObject))
  | .getBalance a => some (a, fun o => match o.loadAccount tx a with
    | (ok, o') => (.int (if ok then o'.getBalance else 0), o'))
  | .getNonce a => some (a, fun o => (o.getNonce tx a).map .uint64 id)
  | .getCodeHash a => some (a, fun o => (o.getCodeHash tx a).map .hash id)
  | .getCode a => some (a, fun o => (o.getCode tx a).map .bytes id)
  | .getCodeSize a => some (a, fun o => (o.getCode tx a).map (fun b => .size b.length) id)
  | .getCommittedState a k =>
    some (a, fun o => (o.getCommittedState tx a (slotKey k)).map .hash id)
  | .getState a k => some (a, fun o => (o.getState tx a (slotKey k)).map .hash id)
  | .hasSuicided a => some (a, fun o => (.bool o.suicided, o))
  | .exist a => some (a, fun o => if o.deleted then (.bool false, o)
    else (o.empty tx a).map (fun e => .bool !e) id)
  | .empty a => some (a, fun o => if o.deleted || o.suicided then (.bool true, o)
    else (o.empty tx a).map .bool id)
  | _ => none

/-- **A method**, what it returns and what it leaves in memory. -/
def apply (o : Op) (h : Heap) (s : Handle) : Option (Value × Heap × Handle) :=
  match o with
  | .createAccount a => some (.unit, s.createAccount h a)
  | .subBalance a x => if x = 0 then some (.unit, h, s)
    else (s.change h a (.subBalance x)).1.map (fun p => (.unit, p))
  | .addBalance a x => if x = 0 then some (.unit, h, s)
    else (s.change h a (.addBalance x)).1.map (fun p => (.unit, p))
  | .setBalance a x => (s.change h a (.setBalance x)).1.map (fun p => (.unit, p))
  | .setNonce a n => (s.change h a (.setNonce n)).1.map (fun p => (.unit, p))
  | .setCode a code => some (.unit, s.setCode h a code)
  | .setState a k v => (s.change h a (.setState (slotKey k) v)).1.map (fun p => (.unit, p))
  | .setStorage a m => some (.unit, s.setStorage h a m)
  | .setTransientState a k v => some (.unit, s.setTransientState h a k v)
  | .suicide a => some (.bool (s.suicide h a).1, (s.suicide h a).2)
  | .selfDestruct6780 a => match s.getAccount h a with
    | (r, h, s) => if (h.objects r).created then some (.unit, (s.suicide h a).2)
      else some (.unit, h, s)
  | .addRefund x => some (.unit, h, { s with
      refund := s.refund + x, journal := .refund s.refund :: s.journal })
  | .subRefund x => some (.unit, h, { s with
      refund := s.refund - x, journal := .refund s.refund :: s.journal })
  | .addAddressToAccessList a => match s.accessList.addAddress a with
    | (al, true) => some (.unit, h, { s with
        accessList := al, journal := .accessListAddress a :: s.journal })
    | (al, false) => some (.unit, h, { s with accessList := al })
  | .addSlotToAccessList a k =>
    (s.accessList.addSlot a k).map (fun (al, addrMod, slotMod) => (.unit, h, { s with
      accessList := al
      journal := (if slotMod then [.accessListSlot a k] else [])
        ++ (if addrMod then [.accessListAddress a] else []) ++ s.journal }))
  | o => (reader s.tx o).map (fun p => s.read h p.1 p.2)

/-- **A call**, what it returns and what it leaves in memory. -/
def run (c : Call) (h : Heap) (s : Handle) : Option (Value × Heap × Handle) :=
  match c with
  | .op o => s.apply o h
  | .getTransientState a k =>
    some (.hash (((s.transient.lookup a).bind (fun m => h.maps m k)).getD 0), h, s)
  | .getRefund => some (.uint64 s.refund, h, s)
  | .addressInAccessList a => some (.bool (s.alcalc || s.accessList.containsAddress a), h, s)
  | .slotInAccessList a k => if s.alcalc then some (.bools (true, true), h, s)
    else (s.accessList.contains a k).map (fun p => (.bools p, h, s))
  | .snapshot => some (.size s.journal.length, h, s)
  | .revertToSnapshot snap => (s.revertToSnapshot h snap).map (fun p => (.unit, p))
  | .finalise => some (.unit, s.finalise h)
  | .copy => some (.unit, s.copy h)
  | .alCalcCopy => some (.unit, (s.copy h).1, { (s.copy h).2 with alcalc := true })

end Handle
