import CardinalEvm.Quiet

/-!
# Call trees

A run, with what its registers hold left out. A frame does quiet things,
writes to the state, jumps, and opens further frames; a frame that is
opened either leaves what it did or has it reverted. `Runs env b s t`
says that such steps lead from `s` to `t`, with `b` saying how far the
frame has got.

The interpreter's runs are runs of this kind (`Evm.run_refines`, in
`CardinalEvm.Refinement`), whatever the bytecode. A property of all runs
is then an induction over `Runs`: one case for each thing a frame can do
to what the frames share, and none for the hundred and more instructions
that only work on the frame's own registers.

The steps keep what the properties need. A write says that the frame may
write; a store carries the run of its gas function, which changes the
refund counter by what it finds in the slot; a frame's code comes with
where it was read.
-/

variable [Keccak]

open StateDB

/-- How far a frame has got. -/
inductive Status where
  /-- It goes on, or it has ended without an error. -/
  | running
  /-- It has ended with an error. -/
  | failed
  /-- It has panicked, or used up the number of steps it was given. -/
  | crashed
  deriving DecidableEq

/-! ## Opening a frame -/

/-- **The calls and creations**, by what they do to the state before any
code runs. `CallCode` and `DelegateCall` do nothing. -/
inductive Opening where
  | call (addr : Address) (value : Int)
  | code
  | static (addr : Address)
  | create (addr : Address) (value : Int)

namespace Opening

/-- What is done to the state between the snapshot and the code. -/
def prepare (env : Env) (caller : Address) : Opening → StateDB → StateDB
  | call addr value, d =>
    let d := if (d.exist addr).1 then (d.exist addr).2 else (d.exist addr).2.createAccount addr
    (d.subBalance caller value).addBalance addr value
  | code, d => d
  | static addr, d => d.addBalance addr 0
  | create addr value, d =>
    let d := d.createAccount addr
    let d := if env.rules.isEIP158 then d.setNonce addr 1 else d
    (d.subBalance caller value).addBalance addr value

/-- The accounts that are made for it, as they are recorded. -/
def births : Opening → StateDB → List Event
  | call addr _, d => if (d.exist addr).1 then [] else [.created addr d.snapshot false]
  | create addr _, d => [.created addr d.snapshot true]
  | _, _ => []

/-- What is known of the snapshot: the caller has the value that is moved
and, from EIP-158 on, a call without value makes no account, except for
a precompiled contract. -/
def Checked (env : Env) (caller : Address) : Opening → StateDB → Prop
  | call addr value, d =>
      (value ≠ 0 → value ≤ (d.getBalance caller).1)
      ∧ ((d.exist addr).1 = false → env.rules.isEIP158 = true → value = 0 →
        (env.precompile addr).isSome)
  | create _ value, d => value ≤ (d.getBalance caller).1
  | _, _ => True

/-- What a frame can open, by whether it is read-only and by its depth.
The value code moves is a word of its stack, and so not negative; that of
a message from outside is what the sender says. -/
def Allowed (readOnly : Bool) (depth : Nat) : Opening → Prop
  | call _ value => (readOnly = true → value = 0) ∧ (depth ≠ 0 → 0 ≤ value)
  | create _ value => readOnly = false ∧ (depth ≠ 0 → 0 ≤ value)
  | _ => True

/-- The value that is moved. -/
def value : Opening → ℤ
  | call _ value | create _ value => value
  | _ => 0

/-- What is done to the state after the code has run without an error:
a creation stores what the code returned. -/
def Finishes : Opening → StateDB → StateDB → Prop
  | create addr _, d, d' => d' = d ∨ ∃ code, d' = d.setCode addr code
  | _, d, d' => d' = d

theorem Finishes.refl (o : Opening) (d : StateDB) : o.Finishes d d := by
  cases o with
  | create => exact .inl rfl
  | call | code | static => exact rfl

/-- Whether the frame it opens is read-only. -/
def isStatic : Opening → Bool
  | static _ => true
  | _ => false

end Opening

/-- **Where a contract's code and hash come from**: there is no code, or
both were read from one account, or the code is the init code of a
creation. -/
inductive Loaded (d : StateDB) (code : Bytes) (hash : Hash) : Prop
  | none : code = [] → Loaded d code hash
  | account {d₁ d₂ : StateDB} (a : Address) : Reads d d₁ → Reads d d₂ →
    code = (d₁.getCode a).1 → hash = (d₂.getCodeHash a).1 → Loaded d code hash
  | init : hash = 0 ∨ hash = keccak256Hash code → Loaded d code hash

/-- **A frame is opened**: `base` is the state at the snapshot. -/
structure Opens (env : Env) (caller : Address) (o : Opening) (e : Evm) (base : StateDB)
    (child : Frame) : Prop where
  reads : Reads e.statedb base
  checked : o.Checked env caller base
  statedb : Reads (o.prepare env caller base) child.evm.statedb
  loaded : Loaded (o.prepare env caller base) child.contract.code child.contract.codeHash
  analysis : child.contract.analysis = none
  readOnly : child.evm.readOnly = (o.isStatic || e.readOnly)
  depth : child.evm.depth = e.depth + 1
  jumpdests : child.evm.jumpdests = e.jumpdests ∨ child.evm.jumpdests = fun _ => none
  trace : child.evm.trace = o.births base ++ e.trace

/-- **A frame is closed**: what it did is kept, or taken back. -/
structure Closes (o : Opening) (base : StateDB) (kept : Bool) (e f e' : Evm) : Prop where
  depth : e'.depth = e.depth
  readOnly : e'.readOnly = e.readOnly
  jumpdests : e'.jumpdests = f.jumpdests
  trace : Grows (fun v => v.isGas) (if kept then f.trace else .reverted base.snapshot :: f.trace)
    e'.trace
  statedb : if kept then o.Finishes f.statedb e'.statedb
    else f.statedb.revertToSnapshot base.snapshot = some e'.statedb

/-- Two EVMs agree on what outlives a frame. -/
structure Evm.Agrees (f e : Evm) : Prop where
  statedb : e.statedb = f.statedb
  jumpdests : e.jumpdests = f.jumpdests
  trace : e.trace = f.trace

/-! ## The steps of a frame -/

/-- The state an execution function that writes leaves, with its two
operands. -/
def WriteFn.apply (self : Address) (x y : Word) (d : StateDB) : WriteFn → Option StateDB
  | opSstore => d.setState self x y
  | opTstore => some (d.setTransientState self x y)
  | opSelfdestruct =>
    let (balance, d) := d.getBalance self
    some ((d.addBalance (Word.bytes20 x) balance).suicide self).2
  | opSelfdestruct6780 =>
    let (balance, d) := d.getBalance self
    some (((d.subBalance self balance).addBalance (Word.bytes20 x) balance).selfDestruct6780 self)

namespace Frame

/-- Replaces the state. -/
@[simps] def withDb (s : Frame) (d : StateDB) : Frame :=
  { s with evm := { s.evm with statedb := d } }

/-- What a write leaves. -/
@[simps evm_statedb] def wrote (s : Frame) (f : WriteFn) (d : StateDB) : Frame :=
  { s with evm := { s.evm with
    statedb := d
    trace := f.events s.contract.self s.evm.statedb d ++ s.evm.trace } }

/-- What `validJumpdest` leaves. -/
def jumped (s : Frame) (dest : Word) : Frame :=
  let r := s.contract.validJumpdest s.evm.jumpdests dest
  { s with
    contract := r.2.1
    evm := { s.evm with
      jumpdests := r.2.2
      trace := .jumpdest s.contract.code dest r.1 :: s.evm.trace } }

omit [Keccak] in
/-- **What `validJumpdest` answers**, and what it leaves. -/
theorem sat_validJumpdest {s : Frame} {dest : Word} {Q : Bool → Frame → Prop}
    {E : Fault → Frame → Prop}
    (hQ : ∀ b, (s.contract.validJumpdest s.evm.jumpdests dest).1 = some b → Q b (s.jumped dest))
    (hE : E .bitmap (s.jumped dest)) : Sat (validJumpdest dest) s Q E := by
  unfold Sat validJumpdest
  dsimp only
  cases h : (s.contract.validJumpdest s.evm.jumpdests dest).1 with
  | some b =>
    have hanswer := hQ b h
    rw [jumped, h] at hanswer
    exact hanswer
  | none =>
    rw [jumped, h] at hE
    exact hE

/-- A gas function ended in `st`, with a cost or without one. -/
def GasEnds (env : Env) (s : Frame) (g : GasFn) (n : UInt64) (st : GasSt) : Prop :=
  (∃ cost, g.gas (s.gasScope env) n s.gasSt = .ok cost st)
    ∨ ∃ stop, g.gas (s.gasScope env) n s.gasSt = .error stop st

end Frame

/-- The first byte of code that can never run, a delegation designator's
among it. -/
def Contract.Designator (c : Contract) : Prop := c.code.head? = some 0xEF

/-- **What a frame can do to what the frames share.** -/
inductive Runs (env : Env) : Status → Frame → Frame → Prop
  | refl (s : Frame) : Runs env .running s s
  | quiet {s t u : Frame} : Runs env .running s t → t.Quiet u → Runs env .running s u
  /-- A frame can end, fail or panic at any point. -/
  | stop {s t : Frame} (b : Status) : Runs env .running s t → Runs env b s t
  /-- A write other than a store. -/
  | write {s t : Frame} {d : StateDB} {op : UInt8} (f : WriteFn) (x y : Word) :
    Runs env .running s t → (env.jumpTable op).execute = .write f → f ≠ .opSstore →
    t.evm.readOnly = false → f.apply t.contract.self x y t.evm.statedb = some d →
    Runs env .running s (t.wrote f d)
  /-- A store: its gas function, and the write. -/
  | sstore {s t : Frame} {g : GasFn} {n cost : UInt64} {st : GasSt} {x y : Word}
      {ws : List Word} {d : StateDB} : Runs env .running s t →
    (env.jumpTable OpCode.SSTORE).dynamicGas = some g → t.regs.stack = x :: y :: ws →
    g.gas (t.gasScope env) n t.gasSt = .ok cost st → t.evm.readOnly = false →
    st.statedb.setState t.contract.self x y = some d →
    Runs env .running s ((t.putGasSt st).withDb d)
  /-- The gas function of a self-destruction. -/
  | selfdestruct {s t : Frame} {g : GasFn} {n cost : UInt64} {st : GasSt} :
    Runs env .running s t → g.kind = .selfdestruct →
    g.gas (t.gasScope env) n t.gasSt = .ok cost st → t.evm.readOnly = false →
    Runs env .running s (t.putGasSt st)
  /-- A gas function after which the frame does not go on. -/
  | gasFailed {s t u : Frame} {g : GasFn} {n : UInt64} {st : GasSt} {b : Status} :
    Runs env .running s t → b ≠ .running →
    (g.kind = .sstore → (env.jumpTable OpCode.SSTORE).dynamicGas = some g) →
    t.GasEnds env g n st → (t.putGasSt st).Quiet u → Runs env b s u
  | jump {s t : Frame} (dest : Word) : Runs env .running s t → ¬ t.contract.Designator →
    Runs env .running s (t.jumped dest)
  /-- A creation counts the caller's nonce up, whatever becomes of it. -/
  | claim {s t : Frame} : Runs env .running s t → t.evm.readOnly = false →
    Runs env .running s (t.withDb (t.evm.statedb.setNonce t.contract.self
      ((t.evm.statedb.getNonce t.contract.self).1 + 1)))
  /-- A call or creation. -/
  | frame {s t child f : Frame} {o : Opening} {base : StateDB} {b : Status} {kept : Bool}
      {e : Evm} : Runs env .running s t → o.Allowed t.evm.readOnly t.evm.depth →
    Opens env t.contract.self o t.evm base child → Runs env b child f → b ≠ .crashed →
    (kept = true → b = .running) → Closes o base kept t.evm f.evm e →
    Runs env .running s { t with evm := e }
  /-- A call or creation in which something panicked. -/
  | crash {s t child f : Frame} {o : Opening} {base : StateDB} {b : Status} {e : Evm} :
    Runs env .running s t → o.Allowed t.evm.readOnly t.evm.depth →
    Opens env t.contract.self o t.evm base child → Runs env b child f → f.evm.Agrees e →
    Runs env .crashed s { t with evm := e }

namespace Runs

variable {env : Env} {b : Status} {s t u : Frame}

theorem trans (h : Runs env .running s t) (h' : Runs env b t u) : Runs env b s u := by
  induction h' with
  | refl => exact h
  | quiet _ hq ih => exact .quiet (ih h) hq
  | stop b _ ih => exact .stop b (ih h)
  | write f x y _ hop hf hro hd ih => exact .write f x y (ih h) hop hf hro hd
  | sstore _ hg hst hgas hro hd ih => exact .sstore (ih h) hg hst hgas hro hd
  | selfdestruct _ hk hgas hro ih => exact .selfdestruct (ih h) hk hgas hro
  | gasFailed _ hb hk hgas hq ih => exact .gasFailed (ih h) hb hk hgas hq
  | jump dest _ hc ih => exact .jump dest (ih h) hc
  | claim _ hro ih => exact .claim (ih h) hro
  | frame _ ha ho hr hb hk hc ih _ => exact .frame (ih h) ha ho hr hb hk hc
  | crash _ ha ho hr hc ih _ => exact .crash (ih h) ha ho hr hc

theorem of_quiet (h : s.Quiet t) : Runs env .running s t := .quiet (.refl s) h

/-- What is quiet can also come after a failure. -/
theorem then_quiet (h : Runs env b s t) (hb : b ≠ .crashed) (hq : t.Quiet u) :
    Runs env b s u := by
  cases h with
  | stop _ h => exact .stop b (h.quiet hq)
  | gasFailed h hb hk hgas hq' => exact .gasFailed h hb hk hgas (trans_of Frame.Quiet hq' hq)
  | crash => exact absurd rfl hb
  | refl => exact .of_quiet hq
  | quiet h hq' => exact (h.quiet hq').quiet hq
  | write f x y h hop hf hro hd => exact (Runs.write f x y h hop hf hro hd).quiet hq
  | sstore h hg hst hgas hro hd => exact (Runs.sstore h hg hst hgas hro hd).quiet hq
  | selfdestruct h hk hgas hro => exact (Runs.selfdestruct h hk hgas hro).quiet hq
  | jump dest h hc => exact (Runs.jump dest h hc).quiet hq
  | claim h hro => exact (Runs.claim h hro).quiet hq
  | frame h ha ho hr hb' hk hc => exact (Runs.frame h ha ho hr hb' hk hc).quiet hq

end Runs

/-! ## What every run keeps -/

omit [Keccak] in
/-- Looking at a jump destination stashes an analysis, and no more. -/
theorem Contract.validJumpdest_contract (c : Contract) (m : GoMap Hash Bitvec) (dest : Word) :
    ∃ analysis, (c.validJumpdest m dest).2.1 = { c with analysis := analysis } := by
  unfold validJumpdest isCode
  repeat' split
  all_goals exact ⟨_, rfl⟩

variable {env : Env} {o : Opening} {e f e' : Evm} {base : StateDB}

/-- A gas function's calls are calls of the state. -/
theorem Frame.GasEnds.refunding {s : Frame} {g : GasFn} {n : UInt64} {st : GasSt}
    (h : s.GasEnds env g n st) : s.gasSt.Refunding st := by
  have hk := g.keeps_refunding (s.gasScope env) n s.gasSt
  obtain ⟨_, h⟩ | ⟨_, h⟩ := h
  · exact hk.of_ok h
  · exact hk.of_error h

theorem Frame.GasEnds.of_ok {s : Frame} {g : GasFn} {n cost : UInt64} {st : GasSt}
    (h : g.gas (s.gasScope env) n s.gasSt = .ok cost st) : s.GasEnds env g n st :=
  .inl ⟨cost, h⟩

section StateRun

variable {d d' : StateDB}

/-- A write other than a store makes plain calls of the state. -/
theorem WriteFn.calls_apply {f : WriteFn} {self : Address} {x y : Word} (hf : f ≠ .opSstore)
    (h : f.apply self x y d = some d') : Calls (fun o => o.isPlain) d d' := by
  have hbalance : Calls (fun o => o.isPlain) d (d.getBalance self).2 :=
    .of_op (.getBalance self) rfl rfl
  cases f with
  | opSstore => exact absurd rfl hf
  | opTstore => exact .of_op (.setTransientState self x y) rfl h
  | opSelfdestruct =>
    cases h
    exact (hbalance.op (.addBalance (Word.bytes20 x) _) rfl rfl).op (.suicide self) rfl rfl
  | opSelfdestruct6780 =>
    cases h
    exact ((hbalance.op (.subBalance self _) rfl rfl).op
      (.addBalance (Word.bytes20 x) _) rfl rfl).op (.selfDestruct6780 self) rfl rfl

/-- A transfer, after anything else. -/
theorem StateDB.Calls.transfer (h : Calls (fun o => o.isPlain) d d') (a b : Address)
    (value : Int) :
    Calls (fun o => o.isPlain) d ((d'.subBalance a value).addBalance b value) :=
  (h.op (.subBalance a value) rfl rfl).op (.addBalance b value) rfl rfl

/-- So does what comes before the code of a frame. -/
theorem Opening.calls_prepare (o : Opening) (env : Env) (caller : Address) (d : StateDB) :
    Calls (fun o => o.isPlain) d (o.prepare env caller d) := by
  cases o with
  | code => exact .refl d
  | static addr => exact .of_op (.addBalance addr 0) rfl rfl
  | call addr value =>
    have hexist : Calls (fun o => o.isPlain) d (d.exist addr).2 := .of_op (.exist addr) rfl rfl
    unfold prepare
    dsimp only
    split_ifs
    · exact hexist.transfer caller addr value
    · exact Calls.transfer (hexist.op (.createAccount addr) rfl rfl) caller addr value
  | create addr value =>
    have hcreate : Calls (fun o => o.isPlain) d (d.createAccount addr) :=
      .of_op (.createAccount addr) rfl rfl
    unfold prepare
    dsimp only
    split_ifs
    · exact Calls.transfer (hcreate.op (.setNonce addr 1) rfl rfl) caller addr value
    · exact hcreate.transfer caller addr value

theorem Opening.Finishes.run {o : Opening} (h : o.Finishes d d') : Run d d' := by
  cases o with
  | create addr value =>
    obtain rfl | ⟨code, rfl⟩ := h
    · exact .refl _
    · exact .single (.setCode addr code) rfl
  | call | code | static =>
    obtain rfl := h
    exact .refl _

end StateRun

theorem Opens.run {caller : Address} {child : Frame} (h : Opens env caller o e base child) :
    Run base child.evm.statedb :=
  (o.calls_prepare env caller base).run.trans h.statedb.run

/-- The access list of a new frame is well formed if its caller's is. -/
theorem Opens.wf {caller : Address} {child : Frame} (h : Opens env caller o e base child)
    (hwf : e.statedb.accessList.WF) : child.evm.statedb.accessList.WF :=
  ((h.reads.run.trans h.run).extends hwf).2

theorem Opens.grows {caller : Address} {child : Frame} (h : Opens env caller o e base child) :
    Grows (fun v => v.isRecord) e.trace child.evm.trace := by
  refine ⟨_, h.trace, fun v hv => ?_⟩
  cases o with
  | call addr value =>
    replace hv : v ∈ if _ then [] else _ := hv
    split_ifs at hv
    · cases hv
    · obtain rfl := List.mem_singleton.mp hv
      rfl
  | create addr value =>
    obtain rfl := List.mem_singleton.mp hv
    rfl
  | code | static => cases hv

theorem Closes.grows {kept : Bool} (h : Closes o base kept e f e') :
    Grows (fun v => v.isGas ∨ v.isRecord) f.trace e'.trace := by
  have ht := h.trace.mono (Q := fun v => v.isGas ∨ v.isRecord) fun _ => .inl
  cases kept with
  | true => exact ht
  | false => exact (Grows.cons (.inr rfl) _).trans ht

omit [Keccak] in
theorem Frame.wrote_grows (s : Frame) (f : WriteFn) (d : StateDB) :
    Grows (fun v => v.isRecord) s.evm.trace (s.wrote f d).evm.trace := by
  refine ⟨_, rfl, fun v hv => ?_⟩
  cases f with
  | opSelfdestruct | opSelfdestruct6780 =>
    obtain rfl := List.mem_singleton.mp hv
    rfl
  | opSstore | opTstore => cases hv

theorem Closes.run {kept : Bool} (h : Closes o base kept e f e') (hf : Run base f.statedb) :
    Run base e'.statedb := by
  have hst := h.statedb
  cases kept with
  | true => exact hf.trans (Opening.Finishes.run hst)
  | false => exact .nested (.refl base) hf hst

/-- A frame that is taken back leaves the state as it was at the
snapshot. -/
theorem Closes.le (h : Closes o base false e f e') (hwf : base.accessList.WF)
    (hf : Run base f.statedb) :
    Le base e'.statedb := by
  obtain ⟨u, hu, hle, -⟩ := revertToSnapshot_of_extends (hf.extends hwf).1
  have hst : f.statedb.revertToSnapshot base.snapshot = some e'.statedb := h.statedb
  obtain rfl : u = e'.statedb := Option.some.inj (hu.symm.trans hst)
  exact hle

namespace Runs

variable {env : Env} {b : Status} {s t : Frame}

/-- **A run of a frame is a run of the state**: calls of its methods and
properly nested reverts. -/
theorem stateRun (h : Runs env b s t) : Run s.evm.statedb t.evm.statedb := by
  induction h with
  | refl s => exact .refl _
  | quiet _ hq ih => exact ih.trans hq.evm.warm.run
  | stop _ _ ih => exact ih
  | write f x y _ _ hf _ hd ih => exact ih.trans (WriteFn.calls_apply hf hd).run
  | sstore _ _ _ hgas _ hd ih =>
    exact (ih.trans (Frame.GasEnds.of_ok hgas).refunding.calls.run).trans
      (.single (.setState _ _ _) hd)
  | selfdestruct _ _ hgas _ ih =>
    exact ih.trans (Frame.GasEnds.of_ok hgas).refunding.calls.run
  | gasFailed _ _ _ hgas hq ih => exact (ih.trans hgas.refunding.calls.run).trans hq.evm.warm.run
  | jump _ _ _ ih => exact ih
  | claim _ _ ih => exact ih.trans (.single (.setNonce _ _) rfl)
  | frame _ _ ho _ _ _ hc ih ihc =>
    exact (ih.trans ho.reads.run).trans (hc.run (ho.run.trans ihc))
  | crash _ _ ho _ hc ih ihc =>
    exact ((ih.trans ho.reads.run).trans (ho.run.trans ihc)).trans (hc.statedb ▸ .refl _)

theorem wf (h : Runs env b s t) (hwf : s.evm.statedb.accessList.WF) :
    t.evm.statedb.accessList.WF :=
  (h.stateRun.extends hwf).2

/-- The depth and the read-only flag are what they were, unless
something panicked. -/
theorem flags (h : Runs env b s t) (hb : b ≠ .crashed) :
    t.evm.depth = s.evm.depth ∧ t.evm.readOnly = s.evm.readOnly := by
  induction h with
  | refl s => exact ⟨rfl, rfl⟩
  | quiet _ hq ih =>
    exact ⟨hq.evm.depth.trans (ih hb).1, hq.evm.readOnly.trans (ih hb).2⟩
  | gasFailed _ _ _ _ hq ih =>
    exact ⟨hq.evm.depth.trans (ih (by decide)).1, hq.evm.readOnly.trans (ih (by decide)).2⟩
  | frame _ _ _ _ _ _ hc ih _ => exact ⟨hc.depth.trans (ih hb).1, hc.readOnly.trans (ih hb).2⟩
  | crash => exact absurd rfl hb
  | stop _ _ ih => exact ih (by decide)
  | write _ _ _ _ _ _ _ _ ih | sstore _ _ _ _ _ _ ih | selfdestruct _ _ _ _ ih | jump _ _ _ ih
  | claim _ _ ih => exact ih hb

/-- Events are only ever added. -/
theorem trace (h : Runs env b s t) : Grows (fun _ => True) s.evm.trace t.evm.trace := by
  have hany : ∀ {P : Event → Prop} {t t' : List Event}, Grows P t t' → Grows (fun _ => True) t t' :=
    fun h => h.mono fun _ _ => trivial
  induction h with
  | refl s => exact .refl _
  | quiet _ hq ih => exact ih.trans (hany hq.evm.trace)
  | stop _ _ ih | claim _ _ ih => exact ih
  | @write _ t d _ f _ _ _ _ _ _ _ ih => exact ih.trans (hany (t.wrote_grows f d))
  | sstore _ _ _ hg _ _ ih | selfdestruct _ _ hg _ ih =>
    exact ih.trans (hany (Frame.GasEnds.of_ok hg).refunding.trace)
  | gasFailed _ _ _ hg hq ih =>
    exact (ih.trans (hany hg.refunding.trace)).trans (hany hq.evm.trace)
  | jump dest _ _ ih => exact ih.trans (.cons trivial _)
  | frame _ _ ho _ _ _ hc ih ihc =>
    exact ((ih.trans (hany ho.grows)).trans ihc).trans (hany hc.grows)
  | crash _ _ ho _ hag ih ihc =>
    rw [← hag.trace] at ihc
    exact (ih.trans (hany ho.grows)).trans ihc

/-- A frame runs the code it was given, at the address it was given. -/
theorem contract_eq (h : Runs env b s t) :
    t.contract.self = s.contract.self ∧ t.contract.code = s.contract.code
      ∧ t.contract.codeHash = s.contract.codeHash := by
  induction h with
  | refl s => exact ⟨rfl, rfl, rfl⟩
  | quiet _ hq ih | gasFailed _ _ _ _ hq ih =>
    exact ⟨hq.self.trans ih.1, hq.code.trans ih.2.1, hq.codeHash.trans ih.2.2⟩
  | jump dest _ _ ih =>
    rename_i t _ _
    obtain ⟨_, hc⟩ := t.contract.validJumpdest_contract t.evm.jumpdests dest
    unfold Frame.jumped
    dsimp only
    rw [hc]
    exact ih
  | stop _ _ ih | write _ _ _ _ _ _ _ _ ih | sstore _ _ _ _ _ _ ih | selfdestruct _ _ _ _ ih
  | claim _ _ ih => exact ih
  | frame _ _ _ _ _ _ _ ih _ | crash _ _ _ _ _ ih _ => exact ih

end Runs

/-- **A frame that is taken back** leaves the state its caller had. -/
theorem Closes.le_caller {caller : Address} {child f : Frame} {b : Status}
    (h : Closes o base false e f.evm e') (ho : Opens env caller o e base child)
    (hr : Runs env b child f) (hwf : e.statedb.accessList.WF) : Le e.statedb e'.statedb :=
  ho.reads.le.trans
    (h.le (by rwa [ho.reads.le.accessList]) (ho.run.trans hr.stateRun))
