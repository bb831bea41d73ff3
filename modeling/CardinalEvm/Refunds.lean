import CardinalEvm.Backing
import CardinalEvm.Refinement
import CardinalEvm.StateOverride

/-!
# The refund counter

A store that clears a slot adds a refund, and a store that sets a
cleared slot again takes it back. The counter is one number for all
slots and all frames, and a frame that is reverted takes its refunds and
its stores back together.

What keeps the counter from going below zero is that it *backs* the set
of cleared slots (`Backs`): the slots whose committed value is not zero
and whose current value is. Every step of a run keeps this. A store does
by what its gas function finds in the slot, a revert because it restores
the counter and the slots, and everything else because it clears
nothing.

It has to hold at the start. A slot that was overridden with zero is
cleared with no refund to show for it, and the first store that sets it
takes back what was never added.
-/

variable [Keccak]

/-- Changes of an object that leave its storage alone. -/
def ObjectOp.keepsStorage : ObjectOp → Bool
  | setState _ _ | setStorage _ => false
  | _ => true

theorem ObjectOp.run_storage {c : ObjectOp} {o : StateObject} {r : StateObject × ObjectUndo}
    (hc : c.keepsStorage) (h : c.run o = some r) :
    r.1.clean = o.clean ∧ r.1.dirty = o.dirty := by
  cases c with
  | setState | setStorage => cases hc
  | suicide =>
    replace h : o.suicide = some r := h
    unfold StateObject.suicide at h
    split_ifs at h
    cases h
    exact ⟨rfl, rfl⟩
  | subBalance x | addBalance x =>
    cases h
    constructor
    all_goals
      first | unfold StateObject.subBalance | unfold StateObject.addBalance
      cases o.balanceDelta <;> rfl
  | setBalance | setNonce | setCode =>
    cases h
    exact ⟨rfl, rfl⟩

namespace StateDB

/-! ## Cleared slots -/

/-- The committed value of a hashed slot. -/
def slotCommitted (s : StateDB) (p : Address × Hash) : Hash :=
  (s.getAccount p.1).committed s.tx p.1 p.2

/-- The current value of a hashed slot. -/
def slotCurrent (s : StateDB) (p : Address × Hash) : Hash :=
  (s.getAccount p.1).current s.tx p.1 p.2

theorem getState_eq (s : StateDB) (a : Address) (k : Hash) :
    (s.getState a k).1 = s.slotCurrent (a, slotKey k) :=
  StateObject.getState_fst s.tx a (slotKey k) (s.getAccount a)

theorem getCommittedState_eq (s : StateDB) (a : Address) (k : Hash) :
    (s.getCommittedState a k).1 = s.slotCommitted (a, slotKey k) :=
  congrArg Prod.fst (StateObject.getCommittedState_eq s.tx a (slotKey k) (s.getAccount a))

/-- **The cleared slots**: those a caller can name that are committed
with a value and are zero now. -/
def cleared (s : StateDB) : Set (Address × Hash) :=
  {p | (∃ k, slotKey k = p.2) ∧ s.slotCommitted p ≠ 0 ∧ s.slotCurrent p = 0}

/-- Nothing was cleared and the refund counter is as it was. -/
structure NoneCleared (s t : StateDB) : Prop where
  refund : t.refund = s.refund
  cleared : t.cleared ⊆ s.cleared

/-- Every slot is as it was. -/
structure SameSlots (s t : StateDB) : Prop where
  committed : ∀ p, t.slotCommitted p = s.slotCommitted p
  current : ∀ p, t.slotCurrent p = s.slotCurrent p

section Slots

variable {s t u : StateDB}

omit [Keccak] in
theorem SameSlots.refl (s : StateDB) : SameSlots s s := ⟨fun _ => rfl, fun _ => rfl⟩

omit [Keccak] in
theorem SameSlots.trans (h : SameSlots s t) (h' : SameSlots t u) : SameSlots s u :=
  ⟨fun p => (h'.committed p).trans (h.committed p), fun p => (h'.current p).trans (h.current p)⟩

theorem SameSlots.cleared_eq (h : SameSlots s t) : t.cleared = s.cleared := by
  ext p
  rw [StateDB.cleared, StateDB.cleared, Set.mem_ofPred_eq, Set.mem_ofPred_eq, h.committed,
    h.current]

theorem SameSlots.of_view (htx : t.tx = s.tx) (h : ∀ a, t.view a = s.view a) :
    SameSlots s t := by
  have hview : ∀ a, (t.getAccount a).loaded s.tx a = (s.getAccount a).loaded s.tx a := by
    intro a
    rw [← htx]
    exact (h a).trans (by rw [view, htx])
  refine ⟨fun p => ?_, fun p => ?_⟩
  · rw [slotCommitted, slotCommitted, htx, StateObject.committed_congr (hview p.1)]
  · rw [slotCurrent, slotCurrent, htx, StateObject.current_congr (hview p.1)]

theorem NoneCleared.refl (s : StateDB) : NoneCleared s s := ⟨rfl, subset_rfl⟩

theorem NoneCleared.trans (h : NoneCleared s t) (h' : NoneCleared t u) : NoneCleared s u :=
  ⟨h'.refund.trans h.refund, h'.cleared.trans h.cleared⟩

theorem NoneCleared.of_slots (hr : t.refund = s.refund) (h : SameSlots s t) : NoneCleared s t :=
  ⟨hr, h.cleared_eq.subset⟩

theorem NoneCleared.of_le (h : Le s t) : NoneCleared s t :=
  .of_slots h.refund (.of_view h.tx h.view)

end Slots

/-! ## What the calls do to the slots -/

section Calls

variable {s t : StateDB}

omit [Keccak] in
/-- The slots of an object that is written are those of the object, and
the others are as they were. -/
theorem slots_setAccount (s : StateDB) (a : Address) (o : StateObject) (p : Address × Hash) :
    (s.setAccount a o).slotCommitted p
        = (if p.1 = a then o else s.getAccount p.1).committed s.tx p.1 p.2
      ∧ (s.setAccount a o).slotCurrent p
        = (if p.1 = a then o else s.getAccount p.1).current s.tx p.1 p.2 := by
  have hget : (s.setAccount a o).getAccount p.1 = if p.1 = a then o else s.getAccount p.1 := by
    split_ifs with h
    · rw [h, getAccount_setAccount]
    · exact getAccount_setAccount_of_ne h s o
  exact ⟨by rw [slotCommitted, hget]; rfl, by rw [slotCurrent, hget]; rfl⟩

/-- A change that keeps an object's storage keeps every slot. -/
theorem SameSlots.change {a : Address} {c : ObjectOp} {r : StateObject × ObjectUndo}
    (hc : c.keepsStorage) (h : c.run (s.getAccount a) = some r) : SameSlots s (s.change a r) := by
  obtain ⟨hclean, hdirty⟩ := ObjectOp.run_storage hc h
  have hcommitted : ∀ k, r.1.committed s.tx a k = (s.getAccount a).committed s.tx a k := by
    intro k
    rw [StateObject.committed, hclean, StateObject.committed]
  have hcurrent : ∀ k, r.1.current s.tx a k = (s.getAccount a).current s.tx a k := by
    intro k
    rw [StateObject.current, hdirty, hcommitted, StateObject.current]
  refine ⟨fun p => (slots_setAccount s a r.1 p).1.trans ?_,
    fun p => (slots_setAccount s a r.1 p).2.trans ?_⟩
  · split_ifs with hp
    · rw [slotCommitted, hp, hcommitted]
    · rfl
  · split_ifs with hp
    · rw [slotCurrent, hp, hcurrent]
    · rfl

/-- In a new account every slot has its committed value. -/
theorem NoneCleared.createAccount (s : StateDB) (a : Address) :
    NoneCleared s (s.createAccount a) := by
  obtain ⟨obj, hobj, es, heq⟩ : ∃ obj : StateObject,
      (∀ k, obj.current s.tx a k = obj.committed s.tx a k) ∧
        ∃ es, s.createAccount a = { s.setAccount a obj with journal := es } := by
    unfold StateDB.createAccount
    dsimp only
    split_ifs
    all_goals exact ⟨_, fun _ => rfl, _, rfl⟩
  rw [heq]
  refine ⟨rfl, fun p hp => ?_⟩
  obtain ⟨hk, hcommitted, hcurrent⟩ := hp
  have hslots := slots_setAccount s a obj p
  replace hcommitted := hslots.1.symm.trans_ne hcommitted
  replace hcurrent := hslots.2.symm.trans hcurrent
  split_ifs at hcommitted hcurrent with hpa
  · rw [hpa, hobj] at hcurrent
    rw [hpa] at hcommitted
    exact absurd hcurrent hcommitted
  · exact ⟨hk, hcommitted, hcurrent⟩

/-- **A plain call clears nothing.** -/
theorem Op.noneCleared {o : Op} (ho : o.isPlain) (h : o.apply s = some t) : NoneCleared s t := by
  cases Op.step h with
  | loads h => exact .of_le h.le
  | change a c r hc hr =>
    have hkeeps : c.keepsStorage := by
      cases o with
      | setCode | setState | setStorage => cases ho
      | _ => cases hc <;> rfl
    exact .of_slots rfl (.change hkeeps hr)
  | createAccount a => exact .createAccount s a
  | addRefund | subRefund => cases ho
  | transient a k v => exact .of_slots rfl ⟨fun _ => rfl, fun _ => rfl⟩
  | address a =>
    obtain ⟨al, es, heq, -⟩ := addAddressToAccessList_eq s a
    rw [heq]
    exact .of_slots rfl ⟨fun _ => rfl, fun _ => rfl⟩
  | slot a k h =>
    obtain ⟨al, es, rfl, -⟩ := addSlotToAccessList_eq h
    exact .of_slots rfl ⟨fun _ => rfl, fun _ => rfl⟩

/-- Reads, warming up and refunds leave every slot as it was. -/
theorem Op.sameSlots {o : Op} (ho : o.isWarm ∨ o.isRefund) (h : o.apply s = some t) :
    SameSlots s t := by
  obtain ho | ho := ho
  · have hu := Op.untouched ho h Set.univ
    exact .of_view hu.tx fun a => hu.view a trivial
  · cases o with
    | addRefund | subRefund =>
      cases h
      exact ⟨fun _ => rfl, fun _ => rfl⟩
    | _ => cases ho

theorem Calls.sameSlots (h : Calls (fun o => o.isWarm ∨ o.isRefund) s t) : SameSlots s t :=
  h.induct (I := SameSlots s) (fun _ _ _ ho hap ih => ih.trans (Op.sameSlots ho hap)) (.refl s)

theorem Calls.noneCleared (h : Calls (fun o => o.isPlain) s t) : NoneCleared s t :=
  h.induct (I := NoneCleared s) (fun _ _ _ ho hap ih => ih.trans (Op.noneCleared ho hap)) (.refl s)

theorem NoneCleared.setCode (s : StateDB) (a : Address) (code : Bytes) :
    NoneCleared s (s.setCode a code) :=
  .of_slots rfl (.change (c := .setCode code) rfl rfl)

end Calls

/-! ## What a store clears -/

/-- The slots that are cleared once a value is stored in one of them. -/
def clearedBy (s : StateDB) (p : Address × Hash) (value : Hash) : Set (Address × Hash) :=
  {q | if q = p then s.slotCommitted p ≠ 0 ∧ value = 0 else q ∈ s.cleared}

section Stores

variable {s s' : StateDB} {a : Address} {k v : Hash}

theorem SameSlots.clearedBy_eq (h : SameSlots s s') (p : Address × Hash) (v : Hash) :
    s'.clearedBy p v = s.clearedBy p v := by
  ext q
  rw [clearedBy, clearedBy, h.committed, h.cleared_eq]

theorem clearedBy_subset_insert (s : StateDB) (p : Address × Hash) (v : Hash) :
    s.clearedBy p v ⊆ insert p s.cleared := by
  intro q hq
  by_cases hqp : q = p
  · exact .inl hqp
  · exact .inr ((if_neg hqp).mp hq)

/-- A store clears nothing if it stores a value, or where nothing is
committed. -/
theorem clearedBy_subset_diff {p : Address × Hash} (h : s.slotCommitted p ≠ 0 → v ≠ 0) :
    s.clearedBy p v ⊆ s.cleared \ {p} := by
  intro q hq
  by_cases hqp : q = p
  · obtain ⟨hcommitted, hv⟩ := (if_pos hqp).mp hq
    exact absurd hv (h hcommitted)
  · exact ⟨(if_neg hqp).mp hq, hqp⟩

/-- Nor does it clear anything if it stores what is there. -/
theorem clearedBy_current (s : StateDB) (a : Address) (k : Hash) :
    s.clearedBy (a, slotKey k) (s.slotCurrent (a, slotKey k)) ⊆ s.cleared := by
  intro q hq
  by_cases hqp : q = (a, slotKey k)
  · obtain ⟨hcommitted, hcurrent⟩ := (if_pos hqp).mp hq
    rw [hqp]
    exact ⟨⟨k, rfl⟩, hcommitted, hcurrent⟩
  · exact (if_neg hqp).mp hq

theorem setState_refund (h : s.setState a k v = some s') : s'.refund = s.refund := by
  obtain ⟨_, -, rfl⟩ := Option.map_eq_some_iff.mp h
  rfl

/-- **A store** changes the current value of one slot. -/
theorem cleared_setState (h : s.setState a k v = some s') :
    s'.cleared ⊆ s.clearedBy (a, slotKey k) v := by
  obtain ⟨r, hr, rfl⟩ := Option.map_eq_some_iff.mp h
  obtain ⟨m, hm, rfl⟩ := Option.map_eq_some_iff.mp hr
  rintro q ⟨hk, hcommitted, hcurrent⟩
  have hslots := slots_setAccount s a
    { s.getAccount a with dirty := some (Function.update m (slotKey k) (some v)) } q
  replace hcommitted := hslots.1.symm.trans_ne hcommitted
  replace hcurrent := hslots.2.symm.trans hcurrent
  show if q = _ then _ else _
  by_cases hqa : q.1 = a
  · rw [if_pos hqa, hqa] at hcommitted hcurrent
    by_cases hqk : q.2 = slotKey k
    · rw [hqk] at hcommitted hcurrent
      rw [if_pos (Prod.ext hqa hqk)]
      refine ⟨hcommitted, ?_⟩
      simpa [StateObject.current] using hcurrent
    · rw [if_neg fun h => hqk (congrArg Prod.snd h)]
      refine ⟨hk, ?_, ?_⟩
      · rw [slotCommitted, hqa]
        exact hcommitted
      · rw [slotCurrent, hqa, ← hcurrent, StateObject.current, StateObject.current, hm]
        simp [Function.update_of_ne hqk, StateObject.committed]
  · rw [if_neg hqa] at hcommitted hcurrent
    rw [if_neg fun h => hqa (congrArg Prod.fst h)]
    exact ⟨hk, hcommitted, hcurrent⟩

end Stores

end StateDB

open StateDB

/-! ## The counter -/

/-- An `AddRefund` does not carry the counter past its range. -/
def Event.AddOk : Event → Prop
  | .addRefund refund amount => refund.toNat + amount.toNat < 2 ^ 64
  | _ => True

/-- A `SubRefund` takes back no more than there is. -/
def Event.SubOk : Event → Prop
  | .subRefund refund amount => amount ≤ refund
  | _ => True

instance : DecidablePred Event.AddOk := fun v => by
  unfold Event.AddOk
  cases v <;> infer_instance

/-- The counter has not gone below zero, as long as it was not carried
past its range. -/
def RefundsOk (trace : List Event) : Prop := (∀ v ∈ trace, v.AddOk) → ∀ v ∈ trace, v.SubOk

omit [Keccak] in
theorem Event.not_isRefund {v : Event} (h : v.isGas ∨ v.isRecord) : v.isRefund = false := by
  cases v with
  | addRefund | subRefund => rcases h with h | h <;> exact absurd h Bool.false_ne_true
  | _ => rfl

omit [Keccak] in
/-- Other events have nothing to do with the counter. -/
theorem RefundsOk.grows {trace trace' : List Event} (h : RefundsOk trace)
    (ht : Grows (fun v => v.isRefund = false) trace trace') : RefundsOk trace' := by
  intro hadd
  obtain ⟨es, rfl, hes⟩ := ht
  have hsub := h fun v hv => hadd v (List.mem_append_right es hv)
  intro v hv
  obtain hv | hv := List.mem_append.mp hv
  · have hkind := hes v hv
    cases v with
    | subRefund => cases hkind
    | _ => trivial
  · exact hsub v hv

/-- **The counter backs a set of slots**, and has not gone below zero, as
long as it was not carried past its range. -/
def Backing (rate : ℕ) (refund : UInt64) (S : Set (Address × Hash)) (trace : List Event) : Prop :=
  (∀ v ∈ trace, v.AddOk) → (∀ v ∈ trace, v.SubOk) ∧ Backs rate refund.toNat S

namespace Backing

omit [Keccak]

variable {rate : ℕ} {refund amount : UInt64} {S T : Set (Address × Hash)} {p : Address × Hash}
  {trace trace' : List Event}

variable (h : Backing rate refund S trace)
include h

theorem mono (hT : T ⊆ S) : Backing rate refund T trace :=
  fun hadd => ⟨(h hadd).1, (h hadd).2.mono le_rfl hT⟩

theorem refundsOk : RefundsOk trace := fun hadd => (h hadd).1

theorem grows (ht : Grows (fun v => v.isRefund = false) trace trace') :
    Backing rate refund S trace' := by
  intro hadd
  refine ⟨h.refundsOk.grows ht hadd, ?_⟩
  obtain ⟨es, rfl, -⟩ := ht
  exact (h fun v hv => hadd v (List.mem_append_right es hv)).2

/-- A refund that pays for a slot. -/
theorem insert (ha : amount.toNat = rate) (p : Address × Hash) :
    Backing rate (refund + amount) (insert p S) (.addRefund refund amount :: trace) := by
  intro hadd
  obtain ⟨hok, hadd⟩ := List.forall_mem_cons.mp hadd
  obtain ⟨hsub, hbacks⟩ := h hadd
  refine ⟨List.forall_mem_cons.mpr ⟨trivial, hsub⟩, ?_⟩
  rw [UInt64.toNat_add, Nat.mod_eq_of_lt hok, ha]
  exact hbacks.insert p

/-- Any other refund. -/
theorem add (amount : UInt64) :
    Backing rate (refund + amount) S (.addRefund refund amount :: trace) := by
  intro hadd
  obtain ⟨hok, hadd⟩ := List.forall_mem_cons.mp hadd
  obtain ⟨hsub, hbacks⟩ := h hadd
  refine ⟨List.forall_mem_cons.mpr ⟨trivial, hsub⟩, ?_⟩
  rw [UInt64.toNat_add, Nat.mod_eq_of_lt hok]
  exact hbacks.mono (Nat.le_add_right _ _) subset_rfl

/-- The refund for a slot is taken back. -/
theorem remove (ha : amount.toNat = rate) (hp : p ∈ S) :
    Backing rate (refund - amount) (S \ {p}) (.subRefund refund amount :: trace) := by
  intro hadd
  obtain ⟨hsub, hbacks⟩ := h (List.forall_mem_cons.mp hadd).2
  have hle : amount ≤ refund := by
    rw [UInt64.le_iff_toNat_le, ha]
    exact hbacks.rate_le hp
  refine ⟨List.forall_mem_cons.mpr ⟨hle, hsub⟩, ?_⟩
  rw [UInt64.toNat_sub_of_le _ _ hle, ha]
  exact hbacks.remove hp

end Backing

/-! ## The gas functions -/

/-- The counter backs a set of slots in the state of a gas function. -/
def GasSt.Backed (rate : ℕ) (S : Set (Address × Hash)) (t : GasSt) : Prop :=
  Backing rate t.statedb.refund S t.trace

/-- **A gas function that only adds refunds**: it leaves every slot as it
was, and the counter backs what it backed. -/
structure GasSt.Raises (t t' : GasSt) : Prop where
  slots : SameSlots t.statedb t'.statedb
  backed : ∀ rate S, t.Backed rate S → t'.Backed rate S

instance : IsPreorder GasSt GasSt.Raises where
  refl _ := ⟨.refl _, fun _ _ => id⟩
  trans _ _ _ h h' := ⟨h.slots.trans h'.slots, fun rate S => h'.backed rate S ∘ h.backed rate S⟩

theorem GasSt.Quiet.raises {t t' : GasSt} (h : GasSt.Quiet t t') : t.Raises t' := by
  have hu := h.calls.untouched Set.univ
  refine ⟨.of_view hu.tx fun a => hu.view a trivial, fun rate S hb => ?_⟩
  unfold Backed
  rw [hu.refund]
  exact Backing.grows hb (h.trace.mono fun _ hv => Event.not_isRefund (.inl hv))

theorem Keeps.raises {α : Type} {m : GasM α} (h : Keeps GasSt.Quiet m) : Keeps GasSt.Raises m :=
  h.mono fun _ _ => GasSt.Quiet.raises

namespace GasM

omit [Keccak] in
theorem raises_addRefund (amount : UInt64) : Keeps GasSt.Raises (addRefund amount) :=
  fun _ => ⟨⟨fun _ => rfl, fun _ => rfl⟩, fun _ _ hb => Backing.add hb amount⟩

omit [Keccak] in
/-- What `back` returns is on the stack. -/
theorem sat_back {s : GasScope} {n : Nat} {t : GasSt} {Q : Word → GasSt → Prop}
    {E : GasStop → GasSt → Prop} (hQ : ∀ w, s.stack[n]? = some w → Q w t) (hE : ∀ e, E e t) :
    Sat (back s n) t Q E := by
  refine sat_attempt (fun w t' h => ?_) (fun _ => hE _)
  obtain ⟨v, hv, h⟩ := Option.map_eq_some_iff.mp h
  obtain ⟨rfl, rfl⟩ := Prod.mk.inj h
  exact hQ v hv

end GasM

open GasM

/-- **Gas functions other than those of `SSTORE`** only add refunds. -/
theorem GasFn.keeps_raises {g : GasFn} (hs : g.kind ≠ .sstore) (s : GasScope) (n : UInt64) :
    Keeps GasSt.Raises (g.gas s n) := by
  have hlaw : GasLaw s n g.reads (· ≠ .sstore) fun _ _ => Keeps GasSt.Raises :=
    (law_quiet s n g.reads).mono (fun _ _ => GasSt.Quiet.raises) (fun _ => raises_addRefund)
      (fun h => absurd rfl h) (fun _ _ => ⟨nofun, nofun⟩)
  exact hlaw.gas hs le_rfl

omit [Keccak] in
theorem raises_resettingRefunds (p : NetCosts) (original value : Hash) :
    Keeps GasSt.Raises (resettingRefunds p original value) :=
  .ite (.ite (raises_addRefund _) (raises_addRefund _)) (.pure _)

omit [Keccak] in
theorem raises_legacySStore (value current : Hash) :
    Keeps GasSt.Raises (legacySStore value current) :=
  .ite (.pure _) (.ite (.bind (raises_addRefund _) fun _ => .pure _) (.pure _))

section Metering

variable {p : NetCosts} {d : StateDB} {self : Address} {slot value : Hash} {t : GasSt}

/-- The refunds of a slot that was changed before follow whether it is
cleared. -/
theorem sat_clearingRefunds (hb : t.Backed p.clearRefund.toNat d.cleared)
    (hne : d.slotCurrent (self, slotKey slot) ≠ value) :
    Sat (clearingRefunds p (d.slotCommitted (self, slotKey slot))
        (d.slotCurrent (self, slotKey slot)) value) t
      (fun _ t' => t'.Backed p.clearRefund.toNat (d.clearedBy (self, slotKey slot) value))
      (fun _ _ => False) := by
  refine .ite
    (fun hcommitted => .ite (fun hcurrent => ?_) fun _ => .ite (fun hv => ?_) fun hv => ?_)
    fun hcommitted => ?_
  · have hmem : (self, slotKey slot) ∈ d.cleared := ⟨⟨slot, rfl⟩, hcommitted, hcurrent⟩
    rw [hcurrent] at hne
    exact (Backing.remove hb rfl hmem).mono (clearedBy_subset_diff fun _ => hne.symm)
  · exact (Backing.insert hb rfl _).mono (clearedBy_subset_insert d _ value)
  · exact Backing.mono hb ((clearedBy_subset_diff fun _ => hv).trans Set.sdiff_subset)
  · exact Backing.mono hb ((clearedBy_subset_diff fun h => absurd h hcommitted).trans
      Set.sdiff_subset)

/-- **Net metering** changes the counter by what the store will clear. -/
theorem sat_netSStore (hd : SameSlots d t.statedb) (hb : t.Backed p.clearRefund.toNat d.cleared) :
    Sat (netSStore p self slot value (d.slotCurrent (self, slotKey slot))) t
      (fun _ t' => t'.Backed p.clearRefund.toNat (d.clearedBy (self, slotKey slot) value))
      (fun _ t' => t'.Backed p.clearRefund.toNat ∅) := by
  refine .ite (fun hnoop => ?_) (fun hne => .bind ?_)
  · rw [← hnoop]
    exact Backing.mono hb (clearedBy_current d self slot)
  have hread := (keeps_onDb (f := fun d => d.getCommittedState self slot)
    (.getCommittedState self slot) rfl (fun _ => rfl) t).raises
  have horiginal : (t.statedb.getCommittedState self slot).1
      = d.slotCommitted (self, slotKey slot) :=
    (getCommittedState_eq t.statedb self slot).trans (hd.committed _)
  refine sat_modifyGet.mpr ?_
  rw [horiginal]
  replace hb := hread.backed _ _ hb
  refine .ite (fun hsame => .ite (fun hzero => ?_) fun _ => .ite (fun hv => ?_) fun hv => ?_)
    (fun _ => .bind ?_)
  · exact Backing.mono hb ((clearedBy_subset_diff fun h => absurd hzero h).trans Set.sdiff_subset)
  · exact (Backing.insert hb rfl _).mono (clearedBy_subset_insert d _ value)
  · exact Backing.mono hb ((clearedBy_subset_diff fun _ => hv).trans Set.sdiff_subset)
  · refine (sat_clearingRefunds hb hne).mono (fun _ t' hb' => .bind ?_)
    exact (raises_resettingRefunds p _ _ t').mono (fun _ _ h => h.backed _ _ hb')
      (fun _ _ h => Backing.mono (h.backed _ _ hb') (Set.empty_subset _))

end Metering

/-! ### Stores -/

/-- What a gas function refunds for a cleared slot. -/
def GasFn.clearRate (rules : Rules) : GasFn → UInt64
  | gasSStore =>
    if rules.isPetersburg || !rules.isConstantinople then 0 else netCostsEIP1283.clearRefund
  | gasSStoreEIP2200 => netCostsEIP2200.clearRefund
  | makeGasSStoreFunc clearingRefund => clearingRefund
  | _ => 0

/-- The two operands of a store, and what it leaves the counter to back. -/
def GasSt.BacksStore (s : GasScope) (rate : ℕ) (d : StateDB) (t : GasSt) : Prop :=
  ∃ x y, s.stack[0]? = some x ∧ s.stack[1]? = some y
    ∧ t.Backed rate (d.clearedBy (s.self, slotKey x) y)

section Stores

variable {s : GasScope} {t : GasSt} {d : StateDB} {rate : ℕ}

/-- The common part of the gas functions of `SSTORE`: they look up the
operands and the current value before anything else. -/
theorem sat_operands {α : Type} {m : Word → Word → Hash → GasM α} {Q : α → GasSt → Prop}
    {E : GasStop → GasSt → Prop} (hd : SameSlots d t.statedb)
    (hm : ∀ x y t', s.stack[0]? = some x → s.stack[1]? = some y → t.Raises t' →
      Sat (m x y (d.slotCurrent (s.self, slotKey x))) t' Q E) (hE : ∀ e, E e t) :
    Sat (do
      let y ← back s 1
      let x ← back s 0
      let current ← onDb (fun d => d.getState s.self x)
      m x y current) t Q E := by
  refine .bind (sat_back (fun y hy => .bind (sat_back (fun x hx => .bind ?_) hE)) hE)
  have hread := (keeps_onDb (f := fun d => d.getState s.self x) (.getState s.self x) rfl
    (fun _ => rfl) t).raises
  have hcurrent : (t.statedb.getState s.self x).1 = d.slotCurrent (s.self, slotKey x) :=
    (getState_eq t.statedb s.self x).trans (hd.current _)
  refine sat_modifyGet.mpr ?_
  rw [hcurrent]
  exact hm x y _ hx hy hread

/-- Net metering, once the operands are known. -/
theorem sat_netSStore_operands {p : NetCosts} {x y : Word} {t' : GasSt}
    (hx : s.stack[0]? = some x) (hy : s.stack[1]? = some y) (hd : SameSlots d t.statedb)
    (hb : t.Backed p.clearRefund.toNat d.cleared) (ht : t.Raises t') :
    Sat (netSStore p s.self x y (d.slotCurrent (s.self, slotKey x))) t'
      (fun _ t' => t'.BacksStore s p.clearRefund.toNat d)
      (fun _ t' => t'.Backed p.clearRefund.toNat ∅) :=
  (sat_netSStore (hd.trans ht.slots) (ht.backed _ _ hb)).mono
    (fun _ _ h => ⟨x, y, hx, hy, h⟩) (fun _ _ h => h)

/-- **The gas functions of `SSTORE`** change the counter by what the
store will clear, whatever the metering. -/
theorem GasFn.sat_sstore {g : GasFn} (hk : g.kind = .sstore) (n : UInt64)
    (hd : SameSlots d t.statedb) (hb : t.Backed (g.clearRate s.rules).toNat d.cleared) :
    Sat (g.gas s n) t (fun _ t' => t'.BacksStore s (g.clearRate s.rules).toNat d)
      (fun _ t' => t'.Backed (g.clearRate s.rules).toNat ∅) := by
  have hfail : ∀ t', t.Raises t' → t'.Backed (g.clearRate s.rules).toNat ∅ :=
    fun t' ht => Backing.mono (ht.backed _ _ hb) (Set.empty_subset _)
  have hstart := hfail t (refl_of _ t)
  cases g with
  | gasSStore =>
    refine sat_operands hd (fun x y t' hx hy ht => .ite (fun hlegacy => ?_) fun hnet => ?_)
      fun _ => hstart
    · -- there is nothing to take back, so nothing has to be backed
      have hrate : (clearRate s.rules gasSStore).toNat = 0 := by
        rw [clearRate, if_pos hlegacy]
        rfl
      rw [hrate] at hb hfail ⊢
      refine (raises_legacySStore y _ t').mono (fun _ t'' h => ⟨x, y, hx, hy, ?_⟩)
        (fun _ t'' h => hfail t'' (trans_of GasSt.Raises ht h))
      exact fun hadd => ⟨(hfail t'' (trans_of GasSt.Raises ht h) hadd).1, .of_rate_zero _ _⟩
    · have hrate : clearRate s.rules gasSStore = netCostsEIP1283.clearRefund := if_neg hnet
      rw [hrate] at hb ⊢
      exact sat_netSStore_operands hx hy hd hb ht
  | gasSStoreEIP2200 =>
    refine (law_quiet s n 2).sentry.raises.sat_bind (refl_of _ t) (fun _ t₁ h₁ => ?_)
      (fun _ => hfail)
    refine sat_operands (hd.trans h₁.slots) (fun x y t' hx hy ht => ?_) fun _ => hfail t₁ h₁
    exact sat_netSStore_operands hx hy hd hb (trans_of GasSt.Raises h₁ ht)
  | makeGasSStoreFunc r =>
    refine (law_quiet s n 2).sentry.raises.sat_bind (refl_of _ t) (fun _ t₁ h₁ => ?_)
      (fun _ => hfail)
    refine sat_operands (hd.trans h₁.slots) (fun x y t' hx hy ht => ?_) fun _ => hfail t₁ h₁
    refine ((law_quiet s n 2).warmSlot _ _).raises.sat_bind (trans_of GasSt.Raises h₁ ht)
      (fun _ t₂ h₂ => .bind ?_) (fun _ => hfail)
    exact (sat_netSStore_operands (p := netCostsEIP2929 r) hx hy hd hb h₂).mono
      (fun _ _ h => h) (fun _ _ h => h)
  | _ => cases hk

end Stores

/-! ## Runs -/

/-- What the table's `SSTORE` refunds for a cleared slot. -/
def Env.clearRate (env : Env) : ℕ :=
  (((env.jumpTable OpCode.SSTORE).dynamicGas.map (GasFn.clearRate env.rules)).getD 0).toNat

/-- **The counter backs the cleared slots** of the EVM's state. -/
def Evm.Backed (env : Env) (e : Evm) : Prop :=
  Backing env.clearRate e.statedb.refund e.statedb.cleared e.trace

section Runs

variable {env : Env} {e e' : Evm}

theorem Evm.Backed.of_noneCleared (h : e.Backed env) (hc : NoneCleared e.statedb e'.statedb)
    (ht : Grows (fun v => v.isRefund = false) e.trace e'.trace) : e'.Backed env := by
  unfold Backed
  rw [hc.refund]
  exact (Backing.mono h hc.cleared).grows ht

theorem Evm.Backed.quiet (h : e.Backed env) (hq : e.Quiet e') : e'.Backed env :=
  h.of_noneCleared (hq.warm.mono fun _ => Op.isPlain_of_isWarm).noneCleared
    (hq.trace.mono fun _ hv => Event.not_isRefund (.inl hv))

variable {o : Opening} {g : GasFn} {t : Frame}

theorem Opening.Finishes.noneCleared {d d' : StateDB} (h : o.Finishes d d') :
    NoneCleared d d' := by
  cases o with
  | create addr value =>
    obtain rfl | ⟨code, rfl⟩ := h
    · exact .refl _
    · exact .setCode d addr code
  | call | code | static =>
    obtain rfl := h
    exact .refl _

/-- What is done to open a frame clears nothing. -/
theorem Opens.noneCleared {caller : Address} {base : StateDB} {child : Frame}
    (h : Opens env caller o e base child) : NoneCleared e.statedb child.evm.statedb :=
  ((NoneCleared.of_le h.reads.le).trans (o.calls_prepare env caller base).noneCleared).trans
    (.of_le h.statedb.le)

/-- **Closing a frame.** What is kept is backed as it is; what is taken
back is backed as it was before. -/
theorem Evm.Backed.closes {caller : Address} {base : StateDB} {child f : Frame} {b : Status}
    {kept : Bool} (h : e.Backed env) (ho : Opens env caller o e base child)
    (hr : Runs env b child f) (hk : kept = true → b = .running) (hc : Closes o base kept e f.evm e')
    (hwf : e.statedb.accessList.WF) (hok : RefundsOk f.evm.trace)
    (hf : b = .running → f.evm.Backed env) : e'.Backed env := by
  have hst := hc.statedb
  cases kept with
  | true =>
    exact (hf (hk rfl)).of_noneCleared (Opening.Finishes.noneCleared hst)
      (hc.grows.mono fun _ => Event.not_isRefund)
  | false =>
    have hnone : NoneCleared e.statedb e'.statedb := .of_le (hc.le_caller ho hr hwf)
    intro hadd
    obtain ⟨es, hes, -⟩ := ((ho.grows.mono (Q := fun _ => True) fun _ _ => trivial).trans
      hr.trace).trans (hc.grows.mono fun _ _ => trivial)
    obtain ⟨-, hbacks⟩ := h fun v hv => hadd v (hes ▸ List.mem_append_right es hv)
    refine ⟨hok.grows (hc.grows.mono fun _ => Event.not_isRefund) hadd, ?_⟩
    rw [hnone.refund]
    exact hbacks.mono le_rfl hnone.cleared

omit [Keccak] in
theorem GasFn.clearRate_of_kind (hk : g.kind ≠ .sstore) (rules : Rules) :
    g.clearRate rules = 0 := by
  cases g with
  | gasSStore | gasSStoreEIP2200 | makeGasSStoreFunc => exact absurd rfl hk
  | _ => rfl

omit [Keccak] in
theorem Env.clearRate_eq (hg : (env.jumpTable OpCode.SSTORE).dynamicGas = some g) :
    env.clearRate = (g.clearRate env.rules).toNat := by
  rw [Env.clearRate, hg]
  rfl

/-- **A store** keeps the cleared slots backed. -/
theorem Evm.Backed.sstore {n cost : UInt64} {st : GasSt} {x y : Word} {ws : List Word} {d : StateDB}
    (h : t.evm.Backed env) (hg : (env.jumpTable OpCode.SSTORE).dynamicGas = some g)
    (hst : t.regs.stack = x :: y :: ws) (hgas : g.gas (t.gasScope env) n t.gasSt = .ok cost st)
    (hd : st.statedb.setState t.contract.self x y = some d) :
    ((t.putGasSt st).withDb d).evm.Backed env := by
  have hslots : SameSlots t.evm.statedb st.statedb :=
    (Frame.GasEnds.of_ok hgas).refunding.calls.sameSlots
  have hcleared : d.cleared ⊆ t.evm.statedb.clearedBy (t.contract.self, slotKey x) y := by
    rw [← hslots.clearedBy_eq]
    exact cleared_setState hd
  unfold Evm.Backed at h ⊢
  rw [Env.clearRate_eq hg] at h ⊢
  show Backing _ d.refund d.cleared st.trace
  rw [setState_refund hd]
  by_cases hk : g.kind = .sstore
  · obtain ⟨x', y', hx, hy, hb⟩ := (GasFn.sat_sstore (s := t.gasScope env) (t := t.gasSt) hk n
      (.refl _) h).of_ok hgas
    have hstack : (t.gasScope env).stack = x :: y :: ws := hst
    rw [hstack] at hx hy
    cases hx
    cases hy
    exact Backing.mono hb hcleared
  · -- an operation that is not a store refunds nothing for a cleared slot
    have hok := ((GasFn.keeps_raises hk (t.gasScope env) n t.gasSt).of_ok hgas).backed _ _ h
    rw [GasFn.clearRate_of_kind hk] at hok ⊢
    exact fun hadd => ⟨(hok hadd).1, .of_rate_zero _ _⟩

/-- A gas function after which the frame does not go on. -/
theorem Evm.Backed.gasEnds {n : UInt64} {st : GasSt} (h : t.evm.Backed env)
    (hg : g.kind = .sstore → (env.jumpTable OpCode.SSTORE).dynamicGas = some g)
    (hgas : t.GasEnds env g n st) : RefundsOk st.trace := by
  by_cases hk : g.kind = .sstore
  · unfold Evm.Backed at h
    rw [Env.clearRate_eq (hg hk)] at h
    have hsat := GasFn.sat_sstore (s := t.gasScope env) (t := t.gasSt) hk n (.refl _) h
    obtain ⟨_, hgas⟩ | ⟨_, hgas⟩ := hgas
    · obtain ⟨_, _, _, _, hb⟩ := hsat.of_ok hgas
      exact Backing.refundsOk hb
    · exact Backing.refundsOk (hsat.of_error hgas)
  · have hraises := GasFn.keeps_raises hk (t.gasScope env) n t.gasSt
    obtain ⟨_, hgas⟩ | ⟨_, hgas⟩ := hgas
    · exact Backing.refundsOk ((hraises.of_ok hgas).backed _ _ h)
    · exact Backing.refundsOk ((hraises.of_error hgas).backed _ _ h)

/-- **The counter never goes below zero along a run**, and as long as the
run goes on it backs the cleared slots. -/
theorem Runs.backed {b : Status} {s : Frame} (h : Runs env b s t)
    (hwf : s.evm.statedb.accessList.WF) (hs : s.evm.Backed env) :
    RefundsOk t.evm.trace ∧ (b = .running → t.evm.Backed env) := by
  have hgoes : ∀ {b : Status} {t : Frame}, t.evm.Backed env →
      RefundsOk t.evm.trace ∧ (b = .running → t.evm.Backed env) :=
    fun h => ⟨Backing.refundsOk h, fun _ => h⟩
  induction h with
  | refl s => exact hgoes hs
  | quiet _ hq ih => exact hgoes (((ih hwf hs).2 rfl).quiet hq.evm)
  | stop _ _ ih => exact hgoes ((ih hwf hs).2 rfl)
  | @write _ t d _ f x y _ _ hf _ hd ih =>
    exact hgoes (((ih hwf hs).2 rfl).of_noneCleared (WriteFn.calls_apply hf hd).noneCleared
      ((t.wrote_grows f d).mono fun _ hv => Event.not_isRefund (.inr hv)))
  | sstore _ hg hst hgas _ hd ih => exact hgoes (((ih hwf hs).2 rfl).sstore hg hst hgas hd)
  | selfdestruct _ hk hgas _ ih =>
    have hraises := (GasFn.keeps_raises (by rw [hk]; decide) _ _ _).of_ok hgas
    have hb := hraises.backed _ _ ((ih hwf hs).2 rfl)
    refine hgoes ?_
    unfold Evm.Backed
    rw [show (Frame.putGasSt _ _).evm.statedb.cleared = _ from hraises.slots.cleared_eq]
    exact hb
  | gasFailed _ hb hg hgas hq ih =>
    have hok := ((ih hwf hs).2 rfl).gasEnds hg hgas
    exact ⟨hok.grows (hq.evm.trace.mono fun _ hv => Event.not_isRefund (.inl hv)),
      fun h => absurd h hb⟩
  | jump dest _ _ ih => exact hgoes (((ih hwf hs).2 rfl).of_noneCleared (.refl _)
      (.cons (show Event.isRefund _ = false from rfl) _))
  | claim _ _ ih =>
    exact hgoes (((ih hwf hs).2 rfl).of_noneCleared (Op.noneCleared (o := .setNonce _ _) rfl rfl)
      (.refl _))
  | frame h _ ho hr _ hk hc ih ihc =>
    have ht := (ih hwf hs).2 rfl
    have hwf' := h.wf hwf
    obtain ⟨hok, hf⟩ := ihc (ho.wf hwf')
      (ht.of_noneCleared ho.noneCleared (ho.grows.mono fun _ hv => Event.not_isRefund (.inr hv)))
    exact hgoes (ht.closes ho hr hk hc hwf' hok hf)
  | crash h _ ho hr hag ih ihc =>
    have ht := (ih hwf hs).2 rfl
    have hwf' := h.wf hwf
    obtain ⟨hok, -⟩ := ihc (ho.wf hwf')
      (ht.of_noneCleared ho.noneCleared (ho.grows.mono fun _ hv => Event.not_isRefund (.inr hv)))
    exact ⟨hag.trace ▸ hok, by simp⟩

end Runs

/-- **The refund counter never goes below zero** in a message that starts
with no slot cleared, whatever the bytecode and however it ends, as long
as no `AddRefund` carries the counter past its range. -/
theorem Evm.subRefund_le_refund (env : Env) (fuel : Nat) (caller : Address) (m : Method)
    {d : StateDB} (hs : Reachable d)
    (hclear : ∀ a k, (d.getCommittedState a k).1 ≠ 0 → (d.getState a k).1 ≠ 0) :
    Sat (m.exec env fuel caller) { statedb := d }
      (fun _ e' => (∀ v ∈ e'.trace, v.AddOk) → ∀ v ∈ e'.trace, v.SubOk)
      (fun _ e' => (∀ v ∈ e'.trace, v.AddOk) → ∀ v ∈ e'.trace, v.SubOk) := by
  have hempty : d.cleared = ∅ := by
    ext ⟨a, h⟩
    refine ⟨?_, fun hp => hp.elim⟩
    rintro ⟨⟨k, rfl⟩, hcommitted, hcurrent⟩
    have hset := hclear a k
    rw [getCommittedState_eq, getState_eq] at hset
    exact hset hcommitted hcurrent
  have hstart : (outside { statedb := d } caller).evm.Backed env := by
    show Backing _ d.refund d.cleared []
    rw [hempty]
    exact fun _ => ⟨by simp, .empty _ _⟩
  refine (m.exec_runs env fuel caller rfl rfl).mono (fun _ e' h => ?_) (fun _ e' h => ?_)
  all_goals exact (h.backed hs.wf hstart).1

omit [Keccak]

/-- A contract clears a slot and sets it again: what is taken back was
added before. -/
theorem Evm.subRefund_le_refund_restored :
    letI := Keccak.digests
    let code : Bytes := [0x60, 0x00, 0x60, 0x00, 0x55, 0x60, 0x01, 0x60, 0x00, 0x55]
    let tx : StorageTx := { StorageTx.single 0x1000
      { codeHash := Hash.bytes (keccak256Hash code) } code with
        accountStorage := fun _ _ => some 5 }
    let env : Env := { rules := { isEIP158 := true, isByzantium := true, isIstanbul := true } }
    ∃ r e', (Method.call 0x1000 [] 100000 0).exec env 20 1 { statedb := newStateDB tx } = .ok r e'
      ∧ Event.subRefund 15000 15000 ∈ e'.trace ∧ ∀ v ∈ e'.trace, v.SubOk := by
  let _ := Keccak.digests
  intro code tx env
  have hfresh : ∀ a k, ((newStateDB tx).getCommittedState a k).1 ≠ 0 →
      ((newStateDB tx).getState a k).1 ≠ 0 := fun _ _ h => h
  have hrun : ∃ r e', (Method.call 0x1000 [] 100000 0).exec env 20 1 { statedb := newStateDB tx }
        = .ok r e'
      ∧ Event.subRefund 15000 15000 ∈ e'.trace ∧ ∀ v ∈ e'.trace, v.AddOk :=
    exists_of_sat (by decide +kernel)
  obtain ⟨r, e', hok, hmem, hadd⟩ := hrun
  exact ⟨r, e', hok, hmem,
    (subRefund_le_refund env 20 1 (.call 0x1000 [] 100000 0) (.new tx) hfresh).of_ok hok hadd⟩

/-- A slot of the store is overridden with zero, and the contract sets
it: 15000 is taken back from a counter at zero. -/
theorem Evm.subRefund_of_overridden_slot :
    letI := Keccak.digests
    let code : Bytes := [0x60, 0x01, 0x60, 0x00, 0x55]
    let tx : StorageTx := { StorageTx.single 0x1000
      { codeHash := Hash.bytes (keccak256Hash code) } code with
        accountStorage := fun _ _ => some 5 }
    let account : OverrideAccount := { stateDiff := some [(0, 0)], nodup := by simp }
    let env : Env := { rules := { isEIP158 := true, isByzantium := true, isIstanbul := true } }
    ∃ d, StateOverride.apply (some ⟨[(0x1000, account)], by simp⟩) (newStateDB tx) = .ok () d
      ∧ d.refund = 0
      ∧ ∃ r e', (Method.call 0x1000 [] 100000 0).exec env 20 1 { statedb := d } = .ok r e'
        ∧ Event.subRefund 0 15000 ∈ e'.trace :=
  letI := Keccak.digests
  ⟨_, rfl, rfl, exists_of_sat (by decide +kernel)⟩
