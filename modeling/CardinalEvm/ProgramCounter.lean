import CardinalEvm.Decoding
import CardinalEvm.JumpAnalysis
import CardinalEvm.StackSafety

/-!
# The program counter

Three things move the program counter: the loop adds one to it, a push
adds the number of bytes it pushes, and a jump puts it one before its
destination – for a destination of 0 that wraps around, and the loop
takes it back. Together they keep it at the boundaries of the code, as
long as the bitmap a jump consults is that of the code; past the end of
the code there is only `STOP`, which ends the frame – unless the chain
disabled it: then its place in the table has a function that looks for the
opcode in the code, and panics.

`Frame.iterations` are the frames at the top of each turn of the loop.
-/

open JumpTable Frame OpCode

/-- How many bytes of the code an execution function pushes. -/
def ExecFn.pushSize : ExecFn → ℕ
  | scope f => f.pushSize.getD 0
  | _ => 0

/-- **An operation that takes up its bytes**: it pushes as many as the
decoding has for its opcode, and `STOP` stops. -/
structure Operation.Decoded (op : UInt8) (o : Operation) : Prop where
  pushSize : o.execute = .scope .opUndefined ∨ o.execute.pushSize = pushBytes op
  stop : op = STOP → o.execute.halts

instance (op : UInt8) (o : Operation) : Decidable (o.Decoded op) :=
  decidable_of_iff ((o.execute = .scope .opUndefined ∨ o.execute.pushSize = pushBytes op)
      ∧ (op = STOP → o.execute.halts))
    ⟨fun h => ⟨h.1, h.2⟩, fun h => ⟨h.pushSize, h.stop⟩⟩

theorem law_decoded : Law Operation.Decoded where
  undefined _ := ⟨.inl rfl, fun _ => rfl⟩
  entry := by decide +kernel
  constantGas _ _ _ h := ⟨h.pushSize, h.stop⟩
  dynamicGas _ _ _ h := ⟨h.pushSize, h.stop⟩

theorem Env.decoded_jumpTable (env : Env) : All Operation.Decoded env.jumpTable :=
  law_decoded.jumpTable env

/-- **Nobody disabled `STOP`**, neither the chain nor an interpreter
before. -/
structure Env.HasStop (env : Env) : Prop where
  chain : STOP ∉ env.disableOpcodes
  shared : .disable STOP ∉ env.tableEdits

/-- Such a table has the `STOP` of Frontier, whatever its fork. -/
theorem Env.HasStop.jumpTable_stop {env : Env} (h : env.HasStop) :
    env.jumpTable STOP = Operation.simple (.scope .opStop) 0 0 0 := by
  have hite : ∀ {b : Bool} {jt jt' : JumpTable}, jt STOP = .simple (.scope .opStop) 0 0 0 →
      jt' STOP = .simple (.scope .opStop) 0 0 0 →
      (if b then jt else jt') STOP = .simple (.scope .opStop) 0 0 0 := by
    intro b jt jt' h h'
    cases b with
    | true => exact h
    | false => exact h'
  have hset : env.rules.instructionSet STOP = .simple (.scope .opStop) 0 0 0 :=
    hite rfl <| hite rfl <| hite rfl <| hite rfl <| hite rfl <| hite rfl <| hite rfl <|
      hite rfl <| hite rfl <| hite rfl <| hite rfl <| hite rfl <| hite rfl rfl
  have hedits : .disable STOP ∉ env.tableEdits ++ env.ownEdits := by
    have hrandom : STOP ≠ RANDOM := by decide
    have hchain := h.chain
    rw [List.mem_append, not_or]
    refine ⟨h.shared, ?_⟩
    unfold Env.ownEdits
    split_ifs <;> simp [hrandom, hchain]
  unfold Env.jumpTable
  generalize env.tableEdits ++ env.ownEdits = edits at hedits
  generalize env.rules.instructionSet = jt at hset
  have hedited : edits.foldl TableEdit.apply jt STOP = Operation.simple (.scope .opStop) 0 0 0 := by
    induction edits generalizing jt with
    | nil => exact hset
    | cons e edits ih =>
      refine ih (fun hmem => hedits (List.mem_cons_of_mem _ hmem)) _ ?_
      cases e with
      | disable op =>
        have hne : STOP ≠ op := fun heq => hedits (heq ▸ List.mem_cons_self)
        exact (if_neg hne).trans hset
      | difficulty => exact hset
  generalize edits.foldl TableEdit.apply jt = jt at hedited
  induction env.extraEips generalizing jt with
  | nil => exact hedited
  | cons e eips ih =>
    refine ih _ ?_
    cases e <;> exact hedited

/-! ## Jumps -/

section Jumps

variable {c : Contract} {m : GoMap Hash Bitvec}

instance (c : Contract) : Decidable c.Analysed :=
  decidable_of_iff (c.analysis = none ∨ c.analysis = codeBitmap c.code) <| by
    obtain ⟨bits, hbits, -⟩ := codeBitmap_length c.code
    unfold Contract.Analysed
    cases c.analysis with
    | none => simp
    | some analysis => simp [hbits, eq_comm]

/-- **The bitmap that is consulted is stashed** in the contract. -/
theorem Contract.analysis_isCode {pos : ℕ} {b : Bool} (h : (c.isCode m pos).1 = some b) :
    ∃ bits, (c.isCode m pos).2.1.analysis = some bits ∧ bits.codeSegment pos = some b := by
  unfold isCode at h ⊢
  split at h
  · rename_i bits han
    exact ⟨bits, han, h⟩
  · split_ifs at h ⊢ with hzero
    · split at h
      · exact ⟨_, rfl, h⟩
      · split at h
        · exact ⟨_, rfl, h⟩
        · cases h
    · split at h
      · exact ⟨_, rfl, h⟩
      · cases h

/-- **A valid jump destination is a boundary**, if the bitmap is that of
the code. -/
theorem Contract.boundary_of_validJumpdest {dest : Word}
    (h : (c.validJumpdest m dest).1 = some true)
    (ha : (c.validJumpdest m dest).2.1.Analysed) :
    Boundary c.code (Word.uint64 dest).toNat := by
  obtain ⟨analysis, hcontract⟩ := c.validJumpdest_contract m dest
  have hcode : (c.validJumpdest m dest).2.1.code = c.code := by rw [hcontract]
  unfold Contract.Analysed at ha
  rw [hcode] at ha
  unfold validJumpdest Word.uint64WithOverflow at h ha
  by_cases h64 : Word.isUint64 dest
  · rw [if_pos h64] at h ha
    dsimp only at h ha
    split_ifs at h ha with hlen hop
    · cases h
    · cases h
    · obtain ⟨bits, hbits, hseg⟩ := analysis_isCode h
      exact (codeSegment_codeBitmap (ha bits hbits) (Nat.not_le.mp hlen)).mp hseg
  · rw [if_neg h64] at h
    cases h

end Jumps

/-! ## One turn -/

section Turn

variable [Keccak] {env : Env} {run : Runner} {s t : Frame}

/-- **A frame at a boundary of a code**, once the loop has moved on. -/
structure AtBoundary (code : Bytes) (r : Regs) (c : Contract) : Prop where
  code_eq : c.code = code
  boundary : c.Analysed → Boundary code (r.pc + 1).toNat

omit [Keccak] in
theorem Frame.Prepared.pc_eq [Keccak] {o : Operation} (h : Prepared env o s t) :
    t.regs.pc = s.regs.pc ∧ t.contract.code = s.contract.code := by
  cases h with
  | constant => exact ⟨rfl, rfl⟩
  | dynamic => exact ⟨rfl, rfl⟩

/-- **What a turn that goes on does to the registers and the contract** is
what its execution function does once it is paid for. -/
theorem Frame.sat_step_of_exec {P : Regs → Contract → Prop}
    (h : ∀ t, Prepared env (env.jumpTable (s.contract.getOp s.regs.pc)) s t →
      Sat ((env.jumpTable (s.contract.getOp s.regs.pc)).execute.exec env run) t
        (fun out u => out.2 = none → P u.regs u.contract) (fun _ _ => True)) :
    Sat (step env run) s (fun out u => out.2 = none → P u.regs u.contract) (fun _ _ => True) := by
  refine .bind ((sat_prepare s).next fun failed t hprep => ?_)
  cases failed with
  | some err => exact nofun
  | none =>
    refine (h t (hprep rfl)).next fun out u hu => ?_
    refine (regs_recordCall _ _ u).next fun _ v hv => .bind ?_
    refine (regs_recordExecuted out.2 v).mono (fun _ w hw => ?_)
    show out.2 = none → P w.regs w.contract
    rwa [hw.1, hw.2, hv.1, hv.2]

omit [Keccak] in
/-- A jump goes on at a boundary, or at the next byte. -/
theorem JumpFn.sat_exec_boundary (f : JumpFn)
    (hnext : Boundary t.contract.code (t.regs.pc + 1).toNat) :
    Sat (f.exec env) t (fun out u => out.2 = none → AtBoundary t.contract.code u.regs u.contract)
      (fun _ _ => True) := by
  -- the flag and the operands leave the program counter and the contract alone
  have hpop : ∀ {u : Frame}, t.contract = u.contract ∧ t.regs.pc = u.regs.pc →
      Sat (onRegs Regs.pop) u (fun _ v => t.contract = v.contract ∧ t.regs.pc = v.regs.pc)
        (fun _ _ => True) := fun h =>
    sat_zoom.mpr (Regs.sat_pop (fun _ _ _ => h) fun _ => trivial)
  have hjump : ∀ {u : Frame} (pos : Word), t.contract = u.contract ∧ t.regs.pc = u.regs.pc →
      Sat (jumpTo pos) u
        (fun out v => out.2 = none → AtBoundary t.contract.code v.regs v.contract)
        (fun _ _ => True) := by
    intro u pos h
    rw [h.1]
    obtain ⟨analysis, hcontract⟩ := u.contract.validJumpdest_contract u.evm.jumpdests pos
    refine .bind (sat_validJumpdest (fun b hb => ?_) trivial)
    refine .ite (fun htrue => ?_) (fun _ => nofun)
    refine .bind (sat_zoom.mpr (sat_modify.mpr fun _ => ⟨?_, fun ha => ?_⟩))
    · show (u.contract.validJumpdest u.evm.jumpdests pos).2.1.code = _
      rw [hcontract]
    · rw [UInt64.sub_add_cancel]
      exact Contract.boundary_of_validJumpdest (htrue ▸ hb) ha
  have haborted : Sat (aborted env) t
      (fun _ v => t.contract = v.contract ∧ t.regs.pc = v.regs.pc) (fun _ _ => True) := ⟨rfl, rfl⟩
  cases f with
  | opJump =>
    refine haborted.next fun _ u hu => .ite (fun _ => nofun) fun _ => ?_
    exact (hpop hu).next fun pos v hv => hjump pos hv
  | opJumpi =>
    refine haborted.next fun _ u hu => .ite (fun _ => nofun) fun _ => ?_
    refine (hpop hu).next fun pos v hv => .bind ?_
    refine (hpop hv).mono (fun cond w hw => .ite (fun _ => hjump pos hw) fun _ _ => ?_)
    exact ⟨by rw [← hw.1], fun _ => hw.2 ▸ hnext⟩

/-- **An execution function goes on at a boundary.** -/
theorem ExecFn.sat_exec_boundary {op : UInt8} {f : ExecFn}
    (hf : f = .scope .opUndefined ∨ f.pushSize = pushBytes op)
    (hpc : Boundary t.contract.code t.regs.pc.toNat)
    (hop : t.contract.code[t.regs.pc.toNat]? = some op)
    (hlen : t.contract.code.length < 2 ^ 63) :
    Sat (f.exec env run) t
      (fun out u => out.2 = none → AtBoundary t.contract.code u.regs u.contract)
      (fun _ _ => True) := by
  by_cases hu : f = .scope .opUndefined
  · rw [hu]
    exact (returns_of_halts rfl t).mono (fun _ _ h hnone => absurd hnone h)
  have hnext := hpc.next hop
  rw [← hf.resolve_left hu] at hnext
  have hlt : t.regs.pc.toNat < t.contract.code.length := (List.getElem?_eq_some_iff.mp hop).1
  -- whatever pushes nothing goes on at the next byte
  have hone : f.pushSize = 0 → Boundary t.contract.code (t.regs.pc + 1).toNat := by
    intro h0
    rw [h0] at hnext
    rwa [UInt64.toNat_add, UInt64.toNat_one, Nat.mod_eq_of_lt (by omega)]
  have hworks : f.pushSize = 0 → f.goesOn → Sat (f.exec env run) t
      (fun out u => out.2 = none → AtBoundary t.contract.code u.regs u.contract)
      (fun _ _ => True) := fun h0 hgoes =>
    (ExecFn.works_exec hgoes t).mono
      (fun _ u h _ => ⟨h.code, fun _ => h.regs.pc ▸ hone h0⟩) (fun _ _ _ => trivial)
  cases f with
  | scope f =>
    cases hsize : f.pushSize with
    | none => exact hworks (by rw [pushSize, hsize]; rfl) (by rw [goesOn, hsize]; rfl)
    | some size =>
      refine .bind (sat_zoom.mpr ((ScopeFn.sat_exec_push _ hsize t.regs).mono (fun _ r h _ => ?_)))
      rw [h.2]
      refine ⟨rfl, fun _ => ?_⟩
      have hle : size ≤ 32 := by
        have heq := hf.resolve_left hu
        rw [pushSize, hsize] at heq
        exact heq.trans_le (pushBytes_le op)
      have hpc' : (t.regs.pc + UInt64.ofNat size + 1).toNat = t.regs.pc.toNat + 1 + size := by
        rw [UInt64.toNat_add, UInt64.toNat_add, UInt64.toNat_ofNat', UInt64.toNat_one]
        omega
      rw [pushSize, hsize] at hnext
      exact hpc' ▸ hnext
  | opRevert | read | write | call => exact hworks rfl rfl
  | jump f => exact f.sat_exec_boundary (hone rfl)

/-- **A turn goes on at a boundary**, if it began at one. -/
theorem Frame.sat_step_boundary (hpc : Boundary s.contract.code s.regs.pc.toNat)
    (hlen : s.contract.code.length < 2 ^ 63) :
    Sat (step env run) s
      (fun out u => out.2 = none → AtBoundary s.contract.code u.regs u.contract)
      (fun _ _ => True) := by
  refine sat_step_of_exec fun t hprep => ?_
  have hdecoded := env.decoded_jumpTable (s.contract.getOp s.regs.pc)
  obtain ⟨hpc', hcode⟩ := hprep.pc_eq
  by_cases hlt : s.regs.pc.toNat < s.contract.code.length
  · have hop : s.contract.code[s.regs.pc.toNat]? = some (s.contract.getOp s.regs.pc) := by
      rw [Contract.getOp, List.getD_eq_getElem?_getD, List.getElem?_eq_getElem hlt]
      rfl
    rw [← hcode] at hpc hop hlen ⊢
    exact ExecFn.sat_exec_boundary hdecoded.pushSize (hpc'.symm ▸ hpc) (hpc'.symm ▸ hop) hlen
  · have hstop : s.contract.getOp s.regs.pc = STOP := by
      rw [Contract.getOp, List.getD_eq_getElem?_getD,
        List.getElem?_eq_none (Nat.not_lt.mp hlt)]
      rfl
    exact (ExecFn.returns_of_halts (hdecoded.stop hstop) _).mono
      (fun _ _ h hnone => absurd hnone h) (fun _ _ _ => trivial)

/-- **A turn at `STOP`** ends the frame. -/
theorem Frame.step_stop (hstop : env.HasStop) (hop : s.contract.getOp s.regs.pc = STOP)
    (hheight : s.height ≤ Params.stackLimit) (run : Runner) :
    ∃ u, step env run s = .ok ([], some .stopToken) u := by
  have hsat : Sat (step env run) s (fun out _ => out = ([], some .stopToken))
      (fun _ _ => False) := by
    refine .bind (sat_get.mpr (.bind ?_))
    rw [hop, hstop.jumpTable_stop]
    have hprep : Sat (prepare env (Operation.simple (.scope .opStop) 0 0 0)) s
        (fun failed _ => failed = none) (fun _ _ => False) := by
      refine .bind (sat_get.mpr (.ite (fun hlt => absurd hlt (Nat.not_lt_zero _)) fun _ => ?_))
      refine .ite (fun hlt => absurd hheight (Nat.not_le.mpr hlt)) fun _ => .bind ?_
      exact sat_useGas (fun _ => rfl) fun hlt => absurd hlt UInt64.not_lt_zero
    refine hprep.mono ?_ fun _ _ h => h
    rintro _ t rfl
    exact rfl
  obtain ⟨_, u, hu, rfl⟩ := exists_of_sat hsat
  exact ⟨u, hu⟩

end Turn

/-! ## Pushes -/

/-- The big-endian value of the `n` bytes after a position, with zeros
for those past the end of the code. -/
def immediate (code : Bytes) (pc n : ℕ) : Word :=
  BitVec.ofNat 256 (beNat ((List.range n).map fun i => code.getD (pc + 1 + i) 0))

theorem ScopeFn.pushed_eq_immediate {code : Bytes} {pc : UInt64}
    (hpc : (pc + 1).toNat = pc.toNat + 1) {f : ScopeFn} {n : ℕ} (hf : f.pushSize = some n) :
    f.pushed code pc = immediate code pc.toNat n := by
  cases f with
  | opPush1 =>
    cases hf
    show BitVec.ofNat 256 ((code[(pc + 1).toNat]?).getD 0).toNat
      = BitVec.ofNat 256 (0 * 256 + (code.getD (pc.toNat + 1) 0).toNat)
    rw [hpc, Nat.zero_mul, Nat.zero_add, List.getD_eq_getElem?_getD]
  | makePush size =>
    cases hf
    rw [pushed, hpc, rightPadBytes_take_drop]
    rfl
  | _ => cases hf

section Pushes

variable [Keccak] {env : Env} {run : Runner} {s : Frame}

/-- **A push that is executed** puts the bytes after it on the stack. -/
theorem Frame.sat_step_push (hlt : s.regs.pc.toNat < 2 ^ 63)
    (hop : pushBytes (s.contract.getOp s.regs.pc) ≠ 0) :
    Sat (step env run) s (fun out u => out.2 = none → u.regs.stack
        = immediate s.contract.code s.regs.pc.toNat (pushBytes (s.contract.getOp s.regs.pc))
          :: s.regs.stack)
      (fun _ _ => True) := by
  refine sat_step_of_exec (P := fun r _ => r.stack = _) fun t hprep => ?_
  have hdecoded := env.decoded_jumpTable (s.contract.getOp s.regs.pc)
  obtain ⟨hpc, hcode⟩ := hprep.pc_eq
  have hnext : (s.regs.pc + 1).toNat = s.regs.pc.toNat + 1 := by
    rw [UInt64.toNat_add, UInt64.toNat_one]
    omega
  obtain hu | hsize := hdecoded.pushSize
  · rw [hu]
    exact (ExecFn.returns_of_halts rfl _).mono (fun _ _ h hnone => absurd hnone h)
  · rw [← hsize] at hop ⊢
    cases hf : (env.jumpTable (s.contract.getOp s.regs.pc)).execute with
    | scope f =>
      rw [hf] at hop
      cases hn : f.pushSize with
      | none => exact absurd (by rw [ExecFn.pushSize, hn]; rfl) hop
      | some n =>
        refine .bind (sat_zoom.mpr ((ScopeFn.sat_exec_push _ hn _).mono (fun _ r h _ => ?_)))
        rw [h.2]
        show f.pushed t.contract.code t.regs.pc :: t.regs.stack = _
        rw [hprep.stack_eq, hcode, hpc, ScopeFn.pushed_eq_immediate hnext hn]
        rw [ExecFn.pushSize, hn]
        rfl
    | _ =>
      rw [hf] at hop
      exact absurd rfl hop

end Pushes

/-! ## The loop -/

section Loop

variable [Keccak] {env : Env}

/-- A frame whose program counter the loop has moved on. -/
def Frame.advanced (s : Frame) : Frame := { s with regs := { s.regs with pc := s.regs.pc + 1 } }

/-- **The iterations of the loop**: the frame at the top of each turn. -/
def Frame.iterations (env : Env) : ℕ → Frame → List Frame
  | 0, _ => []
  | fuel + 1, s => s :: match step env (Evm.runWith (loop env fuel)) s with
    | .ok (_, none) t => iterations env fuel t.advanced
    | _ => []

/-- The turns after the first one. -/
theorem Frame.mem_iterations_succ {fuel : ℕ} {s t : Frame} :
    t ∈ iterations env (fuel + 1) s ↔ t = s ∨ ∃ res u,
      step env (Evm.runWith (loop env fuel)) s = .ok (res, none) u
        ∧ t ∈ iterations env fuel u.advanced := by
  rw [iterations, List.mem_cons]
  refine or_congr_right ?_
  split
  · rename_i res u h
    exact ⟨fun ht => ⟨res, u, h, ht⟩, fun ⟨res', u', h', ht⟩ => by
      rw [h] at h'
      cases h'
      exact ht⟩
  · rename_i h
    exact ⟨fun ht => absurd ht List.not_mem_nil, fun ⟨res, u, h', _⟩ => absurd h' (h res u)⟩

/-- **The loop passes through its iterations.** -/
theorem Frame.loop_eq_of_mem_iterations {fuel : ℕ} {s t : Frame}
    (h : t ∈ iterations env fuel s) : ∃ n, loop env fuel s = loop env (n + 1) t := by
  induction fuel generalizing s with
  | zero => exact absurd h List.not_mem_nil
  | succ fuel ih =>
    obtain rfl | ⟨res, u, hstep, ht⟩ := mem_iterations_succ.mp h
    · exact ⟨fuel, rfl⟩
    · obtain ⟨n, hn⟩ := ih ht
      refine ⟨n, ?_⟩
      rw [← hn]
      show EStateM.bind (step env (Evm.runWith (loop env fuel))) _ s = _
      unfold EStateM.bind
      rw [hstep]
      rfl

/-- Every turn begins at a boundary of the code the frame began with. -/
theorem Frame.boundary_of_mem_iterations {fuel : ℕ} {s t : Frame}
    (hlen : s.contract.code.length < 2 ^ 63)
    (hpc : Boundary s.contract.code s.regs.pc.toNat)
    (ha : ∀ t ∈ iterations env fuel s, t.contract.Analysed) (ht : t ∈ iterations env fuel s) :
    t.contract.code = s.contract.code ∧ Boundary s.contract.code t.regs.pc.toNat := by
  induction fuel generalizing s with
  | zero => exact absurd ht List.not_mem_nil
  | succ fuel ih =>
    obtain rfl | ⟨res, u, hstep, ht⟩ := mem_iterations_succ.mp ht
    · exact ⟨rfl, hpc⟩
    · have hu := (sat_step_boundary hpc hlen).of_ok hstep rfl
      have hsub : ∀ v ∈ iterations env fuel u.advanced, v.contract.Analysed := fun v hv =>
        ha v (mem_iterations_succ.mpr (.inr ⟨res, u, hstep, hv⟩))
      -- the analysis of the frame that goes on is that of the first of the turns that follow
      have hfirst : u.contract.Analysed := by
        cases fuel with
        | zero => exact absurd ht List.not_mem_nil
        | succ fuel => exact hsub u.advanced List.mem_cons_self
      have hcode : u.advanced.contract.code = s.contract.code := hu.code_eq
      have := ih (s := u.advanced) (hcode ▸ hlen) (hcode ▸ hu.boundary hfirst) hsub ht
      rwa [hcode] at this

/-- Every turn begins with a stack that is at most as high as it may
be. -/
theorem Frame.height_of_mem_iterations {fuel : ℕ} {s t : Frame} (hs : Reaches env s)
    (ht : t ∈ iterations env fuel s) : t.height ≤ Params.stackLimit := by
  induction fuel generalizing s with
  | zero => exact absurd ht List.not_mem_nil
  | succ fuel ih =>
    obtain rfl | ⟨res, u, hstep, ht⟩ := mem_iterations_succ.mp ht
    · exact hs.height_le
    · exact ih (.step fuel hs hstep) ht

/-- **The program counter stays on the instructions.** In a frame whose
jumps consult the bitmap of its own code – `isCode` stashes the one it
consults – every turn of the loop begins at a boundary of the code, or at
or past its end, where `STOP` is executed and ends the frame, if nobody
disabled it; and a `PUSH` that is executed pushes the bytes that follow
it, big-endian, with zeros for those past the end. The loop goes on from
each of its turns as if it began there, and no code is longer than a slice
can be. -/
theorem Frame.pc_discipline (hstop : env.HasStop) (fuel : ℕ) (e : Evm) (c : Contract)
    (hlen : c.code.length < 2 ^ 63)
    (ha : ∀ t ∈ iterations env fuel { evm := e, contract := c }, t.contract.Analysed) :
    ∀ t ∈ iterations env fuel { evm := e, contract := c },
      (∃ n, loop env fuel { evm := e, contract := c } = loop env (n + 1) t)
      ∧ (t.regs.pc.toNat < c.code.length ∧ Boundary c.code t.regs.pc.toNat
        ∨ c.code.length ≤ t.regs.pc.toNat ∧ t.contract.getOp t.regs.pc = STOP
          ∧ ∀ run, ∃ u, step env run t = .ok ([], some .stopToken) u)
      ∧ ∀ n, 0 < n → pushBytes (t.contract.getOp t.regs.pc) = n → ∀ run res u,
        step env run t = .ok (res, none) u →
        u.regs.stack = immediate c.code t.regs.pc.toNat n :: t.regs.stack := by
  intro t ht
  obtain ⟨hcode, hpc⟩ := boundary_of_mem_iterations hlen .start ha ht
  replace hcode : t.contract.code = c.code := hcode
  by_cases hlt : t.regs.pc.toNat < c.code.length
  · refine ⟨loop_eq_of_mem_iterations ht, .inl ⟨hlt, hpc⟩, fun n hn hop run res u hstep => ?_⟩
    subst hop
    rw [← hcode]
    exact (sat_step_push (by omega) hn.ne').of_ok hstep rfl
  · have hop : t.contract.getOp t.regs.pc = STOP := by
      rw [Contract.getOp, List.getD_eq_getElem?_getD,
        List.getElem?_eq_none (hcode ▸ Nat.not_lt.mp hlt)]
      rfl
    have hend := step_stop hstop hop (height_of_mem_iterations (.start e c) ht)
    refine ⟨loop_eq_of_mem_iterations ht, .inr ⟨Nat.not_lt.mp hlt, hop, hend⟩, fun n hn hpush => ?_⟩
    rw [hop] at hpush
    exact absurd (hpush.symm.trans (by decide)) hn.ne'

omit [Keccak]

/-- A jump over a push of the byte `JUMPDEST`, and a push that runs past
the end of the code. -/
theorem Frame.pc_discipline_jump :
    letI := Keccak.digests
    let code : Bytes := [0x60, 0x05, 0x56, 0x60, 0x5b, 0x5b, 0x61, 0x01]
    let c : Contract :=
      { callerAddress := 0x3000, self := 0x1000, code := code, gas := 100, value := 0 }
    let s : Frame := { evm := { statedb := StateDB.newStateDB StorageTx.empty }, contract := c }
    (iterations {} 6 s).map (·.regs.pc) = [0, 2, 5, 6, 9]
      ∧ ∀ t ∈ iterations {} 6 s,
        (∃ n, loop {} 6 s = loop {} (n + 1) t)
        ∧ (t.regs.pc.toNat < c.code.length ∧ Boundary c.code t.regs.pc.toNat
          ∨ c.code.length ≤ t.regs.pc.toNat ∧ t.contract.getOp t.regs.pc = STOP
            ∧ ∀ run, ∃ u, step {} run t = .ok ([], some .stopToken) u)
        ∧ ∀ n, 0 < n → pushBytes (t.contract.getOp t.regs.pc) = n → ∀ run res u,
          step {} run t = .ok (res, none) u →
          u.regs.stack = immediate c.code t.regs.pc.toNat n :: t.regs.stack := by
  let _ := Keccak.digests
  have hstop : Env.HasStop {} := ⟨List.not_mem_nil, List.not_mem_nil⟩
  exact ⟨by decide +kernel, pc_discipline hstop 6 _ _ (by decide) (by decide +kernel)⟩

/-- **A chain without `STOP`**: a frame whose code is a `JUMPDEST` gets
past its end, and the loop panics there. -/
theorem Frame.loop_panics_of_disabled_stop :
    letI := Keccak.digests
    let env : Env := { disableOpcodes := [STOP] }
    let c : Contract :=
      { callerAddress := 0x3000, self := 0x1000, code := [0x5b], gas := 100, value := 0 }
    let s : Frame := { evm := { statedb := StateDB.newStateDB StorageTx.empty }, contract := c }
    (iterations env 2 s).map (·.regs.pc) = [0, 1]
      ∧ (∀ t ∈ iterations env 2 s, t.contract.Analysed)
      ∧ ∃ f t, loop env 2 s = .error f t ∧ f = .slice :=
  letI := Keccak.digests
  ⟨by decide +kernel, by decide +kernel, exists_error_of_sat (by decide +kernel)⟩

end Loop
