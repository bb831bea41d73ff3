import CardinalEvm.Quiet

/-!
# Callers

A caller of a state sees the values its calls return. `Call` is the
whole interface as data – the methods of `StateDB.Op`, the getters that
leave the state as it is, snapshots, `Finalise` and the copies – and
`Call.run` is what a call returns and the state it leaves. A call that
panics returns nothing.
-/

variable [Keccak]

namespace StateDB

/-- What a method returns. -/
inductive Value where
  | unit
  | bool (b : Bool)
  | bools (p : Bool × Bool)
  | int (x : Int)
  | uint64 (n : UInt64)
  | size (n : ℕ)
  | hash (h : Hash)
  | bytes (b : Bytes)
  deriving DecidableEq

/-- What a method of `Op` returns, where it does not panic. -/
def Op.value : Op → StateDB → Value
  | suicide a, s => .bool (s.suicide a).1
  | getBalance a, s => .int (s.getBalance a).1
  | getNonce a, s => .uint64 (s.getNonce a).1
  | getCodeHash a, s => .hash (s.getCodeHash a).1
  | getCode a, s => .bytes (s.getCode a).1
  | getCodeSize a, s => .size (s.getCodeSize a).1
  | getCommittedState a k, s => .hash (s.getCommittedState a k).1
  | getState a k, s => .hash (s.getState a k).1
  | hasSuicided a, s => .bool (s.hasSuicided a).1
  | exist a, s => .bool (s.exist a).1
  | empty a, s => .bool (s.empty a).1
  | _, _ => .unit

/-- **A call of a method.** After a copy the caller goes on with the
copy. -/
inductive Call where
  | op (o : Op)
  | getTransientState (addr : Address) (storage : Hash)
  | getRefund
  | addressInAccessList (addr : Address)
  | slotInAccessList (addr : Address) (slot : Hash)
  | snapshot
  | revertToSnapshot (snap : ℕ)
  | finalise
  | copy
  | alCalcCopy

namespace Call

/-- What a call returns, and the state after it. -/
def run : Call → StateDB → Option (Value × StateDB)
  | op o, s => (o.apply s).map (fun s' => (o.value s, s'))
  | getTransientState a k, s => some (.hash (s.getTransientState a k), s)
  | getRefund, s => some (.uint64 s.refund, s)
  | addressInAccessList a, s => some (.bool (s.addressInAccessList a), s)
  | slotInAccessList a k, s => (s.slotInAccessList a k).map (fun p => (.bools p, s))
  | snapshot, s => some (.size s.snapshot, s)
  | revertToSnapshot snap, s => (s.revertToSnapshot snap).map (fun s' => (.unit, s'))
  | finalise, s => some (.unit, s.finalise)
  | copy, s => some (.unit, s.copy)
  | alCalcCopy, s => some (.unit, s.alCalcCopy)

/-- The getters. -/
def isRead : Call → Bool
  | op o => o.isRead
  | getTransientState _ _ | getRefund | addressInAccessList _ | slotInAccessList _ _ => true
  | _ => false

/-- Calls lead from reachable states to reachable states. -/
theorem reachable {c : Call} {s s' : StateDB} {v : Value} (hs : Reachable s)
    (h : c.run s = some (v, s')) : Reachable s' := by
  cases c with
  | op o =>
    obtain ⟨s₁, hs₁, heq⟩ := Option.map_eq_some_iff.mp h
    obtain ⟨-, rfl⟩ := Prod.mk.inj heq
    exact .op o hs trivial hs₁
  | slotInAccessList a k =>
    obtain ⟨p, -, heq⟩ := Option.map_eq_some_iff.mp h
    obtain ⟨-, rfl⟩ := Prod.mk.inj heq
    exact hs
  | revertToSnapshot snap =>
    obtain ⟨s₁, hs₁, heq⟩ := Option.map_eq_some_iff.mp h
    obtain ⟨-, rfl⟩ := Prod.mk.inj heq
    exact .revert snap hs hs₁
  | finalise =>
    obtain ⟨-, rfl⟩ := Prod.mk.inj (Option.some.inj h)
    exact hs.finalise
  | copy =>
    obtain ⟨-, rfl⟩ := Prod.mk.inj (Option.some.inj h)
    exact hs.copy
  | alCalcCopy =>
    obtain ⟨-, rfl⟩ := Prod.mk.inj (Option.some.inj h)
    exact hs.alCalcCopy
  | _ =>
    obtain ⟨-, rfl⟩ := Prod.mk.inj (Option.some.inj h)
    exact hs

end Call

end StateDB
