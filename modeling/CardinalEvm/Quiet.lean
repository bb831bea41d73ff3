import CardinalEvm.Journal
import CardinalEvm.Interpreter
import CardinalEvm.GasLaws

/-!
# What leaves the state as it is

Most of what a run does to the state is to read it, and from Berlin on
to warm addresses and slots up. `Warm s t` says that calls of these two
kinds lead from `s` to `t`; every object then shows what it showed
before.

The gas functions are warm except for the refund counter: those of
`SSTORE` and `SELFDESTRUCT` change it, and no other does
(`GasFn.keeps_quiet`). The execution functions of a frame that only read
are warm as well (`ReadFn.keeps_warm`).
-/

variable [Keccak]

namespace StateDB

/-- Getters, and the calls that add to the access list. -/
def Op.isWarm : Op → Bool
  | .addAddressToAccessList _ | .addSlotToAccessList _ _ => true
  | o => o.isRead

/-- The calls that change the refund counter. -/
def Op.isRefund : Op → Bool
  | .addRefund _ | .subRefund _ => true
  | _ => false

/-- Every call but `SetCode`, which only a creation makes. -/
def Op.keepsCode : Op → Bool
  | .setCode _ _ => false
  | _ => true

/-- Calls that set neither code nor storage nor the refund counter. -/
def Op.isPlain : Op → Bool
  | .setCode _ _ | .setState _ _ _ | .setStorage _ _ | .addRefund _ | .subRefund _ => false
  | _ => true

/-- **Calls that `P` allows** lead from one state to another. -/
def Calls (P : Op → Prop) : StateDB → StateDB → Prop :=
  Relation.ReflTransGen (fun s t => ∃ o, P o ∧ o.apply s = some t)

/-- Reads. -/
abbrev Reads : StateDB → StateDB → Prop := Calls (fun o => o.isRead)

/-- Reads and additions to the access list. -/
abbrev Warm : StateDB → StateDB → Prop := Calls (fun o => o.isWarm)

namespace Calls

variable {P Q : Op → Prop} {s t : StateDB}

instance : IsPreorder StateDB (Calls P) where
  refl _ := .refl
  trans _ _ _ := .trans

theorem refl (s : StateDB) : Calls P s s := Relation.ReflTransGen.refl

theorem of_op (o : Op) (ho : P o) (h : o.apply s = some t) : Calls P s t := .single ⟨o, ho, h⟩

theorem op {u : StateDB} (h : Calls P s t) (o : Op) (ho : P o) (h' : o.apply t = some u) :
    Calls P s u :=
  h.tail ⟨o, ho, h'⟩

theorem mono (h : Calls P s t) (hPQ : ∀ o, P o → Q o) : Calls Q s t :=
  Relation.ReflTransGen.mono (fun _ _ ⟨o, ho, h⟩ => ⟨o, hPQ o ho, h⟩) _ _ h

/-- What every allowed call keeps, they keep together. -/
theorem induct {I : StateDB → Prop} (h : Calls P s t)
    (step : ∀ o s t, P o → o.apply s = some t → I s → I t) (hs : I s) : I t := by
  induction h with
  | refl => exact hs
  | tail _ hstep ih =>
    obtain ⟨o, ho, hap⟩ := hstep
    exact step o _ _ ho hap ih

end Calls

/-- **The objects of some addresses show what they showed**, and so do
transient storage and the refund counter. -/
structure Untouched (A : Set Address) (s t : StateDB) : Prop where
  tx : t.tx = s.tx
  view : ∀ a ∈ A, t.view a = s.view a
  transient : ∀ a k, t.getTransientState a k = s.getTransientState a k
  refund : t.refund = s.refund

namespace Untouched

variable {A : Set Address} {s t u : StateDB}

theorem refl (A : Set Address) (s : StateDB) : Untouched A s s :=
  ⟨rfl, fun _ _ => rfl, fun _ _ => rfl, rfl⟩

theorem trans (h : Untouched A s t) (h' : Untouched A t u) : Untouched A s u where
  tx := h'.tx.trans h.tx
  view a ha := (h'.view a ha).trans (h.view a ha)
  transient a k := (h'.transient a k).trans (h.transient a k)
  refund := h'.refund.trans h.refund

theorem of_le (h : Le s t) : Untouched A s t := ⟨h.tx, fun a _ => h.view a, h.transient, h.refund⟩

theorem sameReadsAt (h : Untouched A s t) {a : Address} (ha : a ∈ A) : SameReadsAt s t a :=
  .of_view h.tx (h.view a ha)

/-- A change of the access list and the journal alone. -/
theorem of_eq {al : AccessList} {es : List JournalEntry} :
    Untouched A s { s with accessList := al, journal := es } :=
  ⟨rfl, fun _ _ => rfl, fun _ _ => rfl, rfl⟩

end Untouched

variable {o : Op} {s t : StateDB}

theorem Op.target_of_isWarm (ho : o.isWarm) : o.target = none := by
  cases o <;> first | rfl | cases ho

/-- A warm call leaves every object as it was. -/
theorem Op.untouched (ho : o.isWarm) (h : o.apply s = some t) (A : Set Address) :
    Untouched A s t := by
  cases Op.step h with
  | loads h => exact .of_le h.le
  | change a c r hc _ =>
    rw [Op.target_of_isWarm ho] at hc
    cases hc
  | address a =>
    obtain ⟨al, es, heq, -⟩ := addAddressToAccessList_eq s a
    rw [heq]
    exact .of_eq
  | slot a k h =>
    obtain ⟨al, es, rfl, -⟩ := addSlotToAccessList_eq h
    exact .of_eq
  | createAccount | addRefund | subRefund | transient => cases ho

theorem Calls.untouched (h : Warm s t) (A : Set Address) : Untouched A s t :=
  h.induct (I := Untouched A s) (fun _ _ _ ho hap ih => ih.trans (Op.untouched ho hap A))
    (.refl A s)

/-- A getter fills in, and no more. -/
theorem Op.le_of_isRead (ho : o.isRead) (h : o.apply s = some t) :
    Le s t := by
  cases o with
  | getBalance a => exact Option.some.inj h ▸ (loads_getBalance s a).le
  | getNonce a => exact Option.some.inj h ▸ (loads_getNonce s a).le
  | getCodeHash a => exact Option.some.inj h ▸ (loads_getCodeHash s a).le
  | getCode a => exact Option.some.inj h ▸ (loads_getCode s a).le
  | getCodeSize a => exact Option.some.inj h ▸ (loads_getCodeSize s a).le
  | getCommittedState a k => exact Option.some.inj h ▸ (loads_getCommittedState s a k).le
  | getState a k => exact Option.some.inj h ▸ (loads_getState s a k).le
  | hasSuicided a => exact Option.some.inj h ▸ (loads_hasSuicided s a).le
  | exist a => exact Option.some.inj h ▸ (loads_exist s a).le
  | empty a => exact Option.some.inj h ▸ (loads_empty s a).le
  | _ => cases ho

theorem Calls.le (h : Reads s t) : Le s t :=
  h.induct (I := Le s) (fun _ _ _ ho hap ih => ih.trans (Op.le_of_isRead ho hap)) (.refl s)

theorem Calls.warm (h : Reads s t) : Warm s t :=
  h.mono fun o ho => by cases o <;> first | exact ho | rfl

section Kinds

omit [Keccak]

variable {o : Op}

theorem Op.isPlain_of_isWarm (h : o.isWarm) : o.isPlain := by
  cases o <;> first | rfl | cases h

theorem Op.keepsCode_of_isPlain (h : o.isPlain) : o.keepsCode := by
  cases o <;> first | rfl | cases h

theorem Op.keepsCode_of_refunding (h : o.isWarm ∨ o.isRefund) : o.keepsCode := by
  cases o with
  | setCode => simp [isWarm, isRead, isRefund] at h
  | _ => rfl

end Kinds

theorem Run.trans {u : StateDB} (h : Run s t) (h' : Run t u) : Run s u := by
  induction h' with
  | refl => exact h
  | op o _ ho ih => exact .op o (ih h) ho
  | nested _ h₂ hr ih _ => exact .nested (ih h) h₂ hr

instance : IsPreorder StateDB Run where
  refl := .refl
  trans _ _ _ := .trans

theorem Run.single (o : Op) (h : o.apply s = some t) : Run s t :=
  .op o (.refl s) h

theorem Calls.run {P : Op → Prop} (h : Calls P s t) : Run s t :=
  h.induct (I := Run s) (fun o _ _ _ hap ih => .op o ih hap) (.refl s)

end StateDB

open StateDB

/-! ## The trace -/

/-- Events about the gas of a contract, and about the turns of the loop
that spend it. -/
def Event.isGas : Event → Bool
  | .useGas _ _ | .addGas _ _ | .called _ _ | .executed => true
  | _ => false

/-- Events about the refund counter. -/
def Event.isRefund : Event → Bool
  | .addRefund _ _ | .subRefund _ _ => true
  | _ => false

/-- Events about accounts: that they were made, destructed, or taken
back. -/
def Event.isRecord : Event → Bool
  | .created _ _ _ | .reverted _ | .selfdestruct _ _ _ => true
  | _ => false

/-- **The trace grew by events of one kind** only. -/
def Grows (P : Event → Prop) (t t' : List Event) : Prop := ∃ es, t' = es ++ t ∧ ∀ e ∈ es, P e

namespace Grows

omit [Keccak]

variable {P Q : Event → Prop} {t t' t'' : List Event}

theorem refl (t : List Event) : Grows P t t := ⟨[], rfl, by simp⟩

theorem trans (h : Grows P t t') (h' : Grows P t' t'') : Grows P t t'' := by
  obtain ⟨es, rfl, hes⟩ := h
  obtain ⟨es', rfl, hes'⟩ := h'
  refine ⟨es' ++ es, by rw [List.append_assoc], fun e he => ?_⟩
  exact (List.mem_append.mp he).elim (hes' e) (hes e)

theorem cons {e : Event} (he : P e) (t : List Event) : Grows P t (e :: t) :=
  ⟨[e], rfl, by simpa using he⟩

theorem mono (h : Grows P t t') (hPQ : ∀ e, P e → Q e) : Grows Q t t' := by
  obtain ⟨es, rfl, hes⟩ := h
  exact ⟨es, rfl, fun e he => hPQ e (hes e he)⟩

/-- What holds of every event before and of every new one holds of every
event after. -/
theorem forall_mem (h : Grows P t t') (hPQ : ∀ e, P e → Q e) (ht : ∀ e ∈ t, Q e) :
    ∀ e ∈ t', Q e := by
  obtain ⟨es, rfl, hes⟩ := h
  exact fun e he => (List.mem_append.mp he).elim (fun he => hPQ e (hes e he)) (ht e)

end Grows

/-! ## The gas functions -/

/-- **A gas function called what `P` allows**, and left events that `Q`
allows. -/
structure GasSt.Calls (P : Op → Prop) (Q : Event → Prop) (t t' : GasSt) : Prop where
  calls : StateDB.Calls P t.statedb t'.statedb
  trace : Grows Q t.trace t'.trace

instance {P : Op → Prop} {Q : Event → Prop} : IsPreorder GasSt (GasSt.Calls P Q) where
  refl _ := ⟨.refl _, .refl _⟩
  trans _ _ _ h h' := ⟨h.calls.trans h'.calls, h.trace.trans h'.trace⟩

/-- A gas function that reads and warms up. -/
abbrev GasSt.Quiet : GasSt → GasSt → Prop := GasSt.Calls (fun o => o.isWarm) (fun e => e.isGas)

/-- A gas function that may change the refund counter as well. -/
abbrev GasSt.Refunding : GasSt → GasSt → Prop :=
  GasSt.Calls (fun o => o.isWarm ∨ o.isRefund) (fun e => e.isGas ∨ e.isRefund)

namespace GasM

/-- Code that can fail but changes nothing. -/
theorem keeps_map {α : Type} {e : GasStop} (f : GasSt → Option α) :
    Keeps GasSt.Quiet (attempt e fun t => (f t).map fun a => (a, t)) := by
  refine fun t => sat_attempt (fun a t' h => ?_) (fun _ => refl_of _ t)
  obtain ⟨_, -, h⟩ := Option.map_eq_some_iff.mp h
  obtain rfl : t = t' := congrArg Prod.snd h
  exact refl_of _ t

/-- Calling a getter is warm. -/
theorem keeps_onDb {α : Type} {f : StateDB → α × StateDB} (o : Op) (ho : o.isWarm)
    (h : ∀ d, o.apply d = some (f d).2) : Keeps GasSt.Quiet (onDb f) :=
  fun t => ⟨.of_op o ho (h t.statedb), .refl _⟩

theorem keeps_addSlot (a : Address) (k : Hash) : Keeps GasSt.Quiet (addSlot a k) := fun t => by
  refine sat_attempt (fun _ t' h => ?_) (fun _ => refl_of _ t)
  obtain ⟨d, hd, h⟩ := Option.map_eq_some_iff.mp h
  obtain rfl := (congrArg Prod.snd h).symm
  exact ⟨.of_op (.addSlotToAccessList a k) rfl hd, .refl _⟩

theorem keeps_useGas (amount : UInt64) : Keeps GasSt.Quiet (useGas amount) := fun t => by
  unfold useGas
  rw [sat_modifyGet]
  split_ifs
  · exact refl_of _ t
  · exact ⟨.refl _, .cons (show Event.isGas _ from rfl) _⟩

theorem keeps_memoryGasCost (s : GasScope) (n : UInt64) :
    Keeps GasSt.Quiet (memoryGasCost s n) :=
  .ite (.pure _) (.ite (.throw _) (.ite (fun _ => ⟨.refl _, .refl _⟩) (.pure _)))

end GasM

open GasM

omit [Keccak] in
theorem Op.isWarm_of_isRead {o : Op} (h : o.isRead) : o.isWarm := by
  cases o <;> first | exact h | rfl

/-- **Gas functions other than those of `SSTORE` and `SELFDESTRUCT`**
read and warm up, and do nothing else to the state. -/
theorem law_quiet (s : GasScope) (n : UInt64) (depth : ℕ) :
    GasLaw s n depth (fun k => k ≠ .sstore ∧ k ≠ .selfdestruct) fun _ _ => Keeps GasSt.Quiet where
  pure := .pure
  throw _ := .throw _
  canary := .throw _
  bind := .bind
  after := .bind
  get := .get
  back _ := keeps_map _
  checked _ := keeps_map _
  memory := keeps_memoryGasCost s n
  read o ho := keeps_onDb o (Op.isWarm_of_isRead ho)
  slotInAccessList _ _ := keeps_map _
  addAddress a _ := ⟨.of_op (.addAddressToAccessList a) rfl rfl, .refl _⟩
  addSlot := keeps_addSlot
  addRefund hK := (hK.elim (fun h => h.1 rfl) fun h => h.2 rfl).elim
  subRefund hK := absurd rfl hK.1
  useGas _ := keeps_useGas
  returnGas _ _ _ := ⟨.refl _, .cons (show Event.isGas _ from rfl) _⟩
  callGasTemp _ _ _ := ⟨.refl _, .refl _⟩

theorem GasFn.keeps_quiet {g : GasFn} (hs : g.kind ≠ .sstore) (hd : g.kind ≠ .selfdestruct)
    (s : GasScope) (n : UInt64) : Keeps GasSt.Quiet (g.gas s n) :=
  (law_quiet s n _).gas ⟨hs, hd⟩ le_rfl

theorem GasSt.Quiet.refunding {t t' : GasSt} (h : GasSt.Quiet t t') : GasSt.Refunding t t' :=
  ⟨h.calls.mono fun _ => .inl, h.trace.mono fun _ => .inl⟩

/-- **Every gas function** reads, warms up and changes the refund
counter. -/
theorem GasFn.keeps_refunding (g : GasFn) (s : GasScope) (n : UInt64) :
    Keeps GasSt.Refunding (g.gas s n) := by
  have hlaw : GasLaw s n g.reads (fun _ => True) fun _ _ => Keeps GasSt.Refunding :=
    (law_quiet s n g.reads).mono (fun _ _ => GasSt.Quiet.refunding)
      (fun _ amount _ => ⟨.of_op (.addRefund amount) (.inr rfl) rfl, .cons (.inr rfl) _⟩)
      (fun _ amount _ => ⟨.of_op (.subRefund amount) (.inr rfl) rfl, .cons (.inr rfl) _⟩)
      (fun _ _ => ⟨nofun, nofun⟩)
  exact hlaw.gas trivial le_rfl

/-! ## The execution functions that read -/

/-- Calls that `P` allows were made, and the registers changed. -/
def RegsDb.Calls (P : Op → Prop) (s t : RegsDb) : Prop := StateDB.Calls P s.statedb t.statedb

instance {P : Op → Prop} : IsPreorder RegsDb (RegsDb.Calls P) where
  refl s := .refl s.statedb
  trans _ _ _ h h' := Relation.ReflTransGen.trans h h'

namespace RegsDb

variable {P : Op → Prop}

theorem keeps_onRegs {α : Type} (m : EStateM Fault Regs α) :
    Keeps (RegsDb.Calls P) (onRegs m) := by
  intro s
  unfold onRegs
  rw [sat_zoom]
  exact .of_forall (fun _ _ => .refl _) (fun _ _ => .refl _)

theorem keeps_onDb {α : Type} {f : StateDB → α × StateDB} (o : Op) (ho : P o)
    (h : ∀ d, o.apply d = some (f d).2) : Keeps (RegsDb.Calls P) (onDb f) :=
  fun t => .of_op o ho (h t.statedb)

end RegsDb

open RegsDb in
/-- **The execution functions that read** only read. -/
theorem ReadFn.keeps_warm (s : Scope) (f : ReadFn) :
    Keeps (RegsDb.Calls (fun o => o.isWarm)) (f.exec s) := by
  cases f with
  | opBalance =>
    exact .bind (keeps_onRegs _) fun _ =>
      .bind (keeps_onDb (.getBalance _) rfl fun _ => rfl) fun _ => keeps_onRegs _
  | opSelfBalance =>
    exact .bind (keeps_onDb (.getBalance _) rfl fun _ => rfl) fun _ => keeps_onRegs _
  | opExtCodeSize =>
    exact .bind (keeps_onRegs _) fun _ =>
      .bind (keeps_onDb (.getCodeSize _) rfl fun _ => rfl) fun _ => keeps_onRegs _
  | opExtCodeCopy =>
    exact .bind (keeps_onRegs _) fun _ =>
      .bind (keeps_onDb (.getCode _) rfl fun _ => rfl) fun _ => keeps_onRegs _
  | opExtCodeHash =>
    exact .bind (keeps_onRegs _) fun _ =>
      .bind (keeps_onDb (.empty _) rfl fun _ => rfl) fun _ => .ite (keeps_onRegs _)
        (.bind (keeps_onDb (.getCodeHash _) rfl fun _ => rfl) fun _ => keeps_onRegs _)
  | opSload =>
    exact .bind (keeps_onRegs _) fun _ =>
      .bind (keeps_onDb (.getState _ _) rfl fun _ => rfl) fun _ => keeps_onRegs _
  | opTload => exact .bind (keeps_onRegs _) fun _ => .bind .get fun _ => keeps_onRegs _

/-! ## Frames -/

/-- **The EVM did nothing but read, warm up and account for gas.** -/
structure Evm.Quiet (e e' : Evm) : Prop where
  warm : Warm e.statedb e'.statedb
  depth : e'.depth = e.depth
  readOnly : e'.readOnly = e.readOnly
  jumpdests : e'.jumpdests = e.jumpdests
  trace : Grows (fun v => v.isGas) e.trace e'.trace

instance : IsPreorder Evm Evm.Quiet where
  refl _ := ⟨.refl _, rfl, rfl, rfl, .refl _⟩
  trans _ _ _ h h' := ⟨h.warm.trans h'.warm, h'.depth.trans h.depth,
    h'.readOnly.trans h.readOnly, h'.jumpdests.trans h.jumpdests, h.trace.trans h'.trace⟩

/-- **The EVM did nothing but read.** -/
structure Evm.Reads (e e' : Evm) : Prop where
  reads : StateDB.Reads e.statedb e'.statedb
  rest : e' = { e with statedb := e'.statedb }

instance : IsPreorder Evm Evm.Reads where
  refl _ := ⟨.refl _, rfl⟩
  trans _ _ _ h h' := ⟨h.reads.trans h'.reads, by rw [h'.rest, h.rest]⟩

theorem Evm.Reads.quiet {e e' : Evm} (h : e.Reads e') : e.Quiet e' := by
  obtain ⟨hr, hrest⟩ := h
  rw [hrest]
  exact ⟨hr.warm, rfl, rfl, rfl, .refl _⟩

/-- **A frame did nothing** but be quiet, and work on its registers and its
gas. -/
structure Frame.Quiet (s t : Frame) : Prop where
  evm : s.evm.Quiet t.evm
  self : t.contract.self = s.contract.self
  code : t.contract.code = s.contract.code
  codeHash : t.contract.codeHash = s.contract.codeHash
  analysis : t.contract.analysis = s.contract.analysis

instance : IsPreorder Frame Frame.Quiet where
  refl s := ⟨refl_of Evm.Quiet s.evm, rfl, rfl, rfl, rfl⟩
  trans _ _ _ h h' := ⟨trans_of Evm.Quiet h.evm h'.evm, h'.self.trans h.self,
    h'.code.trans h.code, h'.codeHash.trans h.codeHash, h'.analysis.trans h.analysis⟩

namespace Frame

theorem Quiet.of_evm {s : Frame} {e : Evm} {r : Regs} (h : s.evm.Quiet e) :
    s.Quiet { s with evm := e, regs := r } :=
  ⟨h, rfl, rfl, rfl, rfl⟩

theorem keeps_onRegs {α : Type} (m : EStateM Fault Regs α) : Keeps Quiet (onRegs m) := by
  intro s
  unfold onRegs
  rw [sat_zoom]
  exact .of_forall (fun _ _ => .of_evm (refl_of _ _)) (fun _ _ => .of_evm (refl_of _ _))

theorem keeps_onRegsDb {α : Type} {m : EStateM Fault RegsDb α}
    (h : Keeps (RegsDb.Calls (fun o => o.isWarm)) m) : Keeps Quiet (onRegsDb m) := by
  intro s
  unfold onRegsDb
  rw [sat_zoom]
  have hq : ∀ t : RegsDb, RegsDb.Calls (fun o => o.isWarm) ⟨s.regs, s.evm.statedb⟩ t →
      s.Quiet { s with regs := t.regs, evm := { s.evm with statedb := t.statedb } } :=
    fun t h => .of_evm ⟨h, rfl, rfl, rfl, .refl _⟩
  exact (h _).mono (fun _ t => hq t) (fun _ t => hq t)

theorem keeps_setReturnData (b : Bytes) : Keeps Quiet (setReturnData b) :=
  fun _ => .of_evm ⟨.refl _, rfl, rfl, rfl, .refl _⟩

theorem keeps_returnGas (amount : UInt64) : Keeps Quiet (returnGas amount) :=
  fun _ => ⟨⟨.refl _, rfl, rfl, rfl, .cons (show Event.isGas _ from rfl) _⟩, rfl, rfl, rfl, rfl⟩

theorem keeps_useGas (amount : UInt64) : Keeps Quiet (useGas amount) := by
  intro s
  unfold useGas
  rw [sat_modifyGet]
  split_ifs
  · exact refl_of _ s
  · exact ⟨⟨.refl _, rfl, rfl, rfl, .cons (show Event.isGas _ from rfl) _⟩, rfl, rfl, rfl, rfl⟩

theorem sat_recordCall (f : ExecFn) (before : UInt64) (s : Frame) :
    Sat (recordCall f before) s (fun _ t => s.Quiet t) (fun _ _ => False) := by
  unfold recordCall
  split
  · exact .of_evm ⟨.refl _, rfl, rfl, rfl, .cons (show Event.isGas _ from rfl) _⟩
  · exact refl_of _ s

theorem sat_recordExecuted (err : Option VmErr) (s : Frame) :
    Sat (recordExecuted err) s (fun _ t => s.Quiet t) (fun _ _ => False) := by
  cases err with
  | none => exact .of_evm ⟨.refl _, rfl, rfl, rfl, .cons (show Event.isGas _ from rfl) _⟩
  | some _ => exact refl_of _ s

/-- What a quiet gas function changed is written back quietly. -/
theorem Quiet.putGasSt {s : Frame} {t : GasSt} (h : s.gasSt.Quiet t) : s.Quiet (s.putGasSt t) :=
  ⟨⟨h.calls, rfl, rfl, rfl, h.trace⟩, rfl, rfl, rfl, rfl⟩

end Frame
