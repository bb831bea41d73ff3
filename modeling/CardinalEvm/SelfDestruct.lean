import CardinalEvm.Refinement

/-!
# Self-destruction in the message of the creation

From Cancun on, `SELFDESTRUCT` marks an account only if it was created
in the same message. The code asks the account's object, which
`CreateAccount` flags as created.

The record of a run says which accounts a message has made and not taken
back (`live`). Along a run the flag of an account is set if and only if
the account is among them, if it was not set at the start of the message
(`Evm.Tracks`): the flag comes with the object, and a revert that takes
the object back takes it out of `live` as well. It is not that at the
start of every message, because `Finalise` leaves it.
-/

variable [Keccak]

open StateDB

/-! ## What a message has created -/

/-- The accounts a message has made and not taken back: the address, the
length of the journal below its entry, and whether a creation made it. -/
def live : List Event → List (Address × ℕ × Bool)
  | [] => []
  | .created a n byCreation :: es => (a, n, byCreation) :: live es
  | .reverted n :: es => (live es).filter (fun b => b.2.1 < n)
  | _ :: es => live es

/-- Events that make no account and take none back. -/
def Event.keepsLive : Event → Bool
  | .created _ _ _ | .reverted _ => false
  | _ => true

/-- Events that make or take back what comes after the first `n` entries
of the journal. -/
def Event.Above (n : ℕ) : Event → Prop
  | .created _ m _ | .reverted m => n ≤ m
  | _ => True

section Live

omit [Keccak]

theorem live_cons_of_keepsLive {v : Event} (hv : v.keepsLive) (es : List Event) :
    live (v :: es) = live es := by
  cases v with
  | created | reverted => cases hv
  | _ => rfl

theorem live_grows {P : Event → Prop} {t t' : List Event} (h : Grows P t t')
    (hP : ∀ v, P v → v.keepsLive) : live t' = live t := by
  obtain ⟨es, rfl, hes⟩ := h
  induction es with
  | nil => rfl
  | cons v es ih =>
    rw [List.cons_append, live_cons_of_keepsLive (hP v (hes v List.mem_cons_self))]
    exact ih fun w hw => hes w (List.mem_cons_of_mem _ hw)

/-- What was made before the first `n` entries is not touched. -/
theorem live_above {n : ℕ} {t t' : List Event} (h : Grows (fun v => v.Above n) t t') :
    (live t').filter (fun b => b.2.1 < n) = (live t).filter (fun b => b.2.1 < n) := by
  obtain ⟨es, rfl, hes⟩ := h
  induction es with
  | nil => rfl
  | cons v es ih =>
    have hv := hes v List.mem_cons_self
    rw [← ih fun w hw => hes w (List.mem_cons_of_mem _ hw), List.cons_append]
    cases v with
    | created a m byCreation =>
      replace hv : n ≤ m := hv
      show ((a, m, byCreation) :: live (es ++ t)).filter _ = _
      rw [List.filter_cons_of_neg (by simpa using hv)]
    | reverted m =>
      replace hv : n ≤ m := hv
      show ((live (es ++ t)).filter _).filter _ = _
      rw [List.filter_filter]
      refine List.filter_congr fun b _ => ?_
      rw [Bool.and_eq_left_iff_imp]
      simp only [decide_eq_true_eq]
      omega
    | _ => rfl

theorem mem_of_mem_live {t : List Event} {a : Address} {n : ℕ} {k : Bool}
    (h : (a, n, k) ∈ live t) : .created a n k ∈ t := by
  induction t with
  | nil => cases h
  | cons v t ih =>
    cases v with
    | created a' n' k' =>
      obtain heq | h := List.mem_cons.mp h
      · cases heq
        exact List.mem_cons_self
      · exact List.mem_cons_of_mem _ (ih h)
    | reverted m => exact List.mem_cons_of_mem _ (ih (List.mem_filter.mp h).1)
    | _ => exact List.mem_cons_of_mem _ (ih h)

end Live

/-! ## The flags of an account -/

/-- Whether an object is flagged as created, suicided and deleted. -/
def StateObject.flags (o : StateObject) : Bool × Bool × Bool := (o.created, o.suicided, o.deleted)

namespace StateDB

/-- The flags of an account. -/
def flags (s : StateDB) (a : Address) : Bool × Bool × Bool := (s.getAccount a).flags

/-- Calls that leave the flags of every account alone. -/
def Op.keepsFlags : Op → Bool
  | .createAccount _ | .suicide _ | .selfDestruct6780 _ => false
  | _ => true

variable {s t : StateDB} {a : Address}

theorem flags_of_view (h : t.view a = s.view a) : t.flags a = s.flags a := by
  have hflags : (t.view a).flags = (s.view a).flags := by rw [h]
  exact hflags

theorem flags_of_le (h : Le s t) (a : Address) : t.flags a = s.flags a := flags_of_view (h.view a)

theorem Op.flags_eq {o : Op} (ho : o.keepsFlags) (h : o.apply s = some t) (a : Address) :
    t.flags a = s.flags a := by
  obtain hview | ⟨c, r, hc, hr, ht⟩ | ⟨rfl, -⟩ := (Op.step h).account a
  · exact flags_of_view hview
  · unfold flags
    rw [ht]
    cases c with
    | suicide => cases o <;> cases hc <;> cases ho
    | subBalance x | addBalance x =>
      cases hr
      first | unfold StateObject.subBalance | unfold StateObject.addBalance
      cases (s.getAccount a).balanceDelta <;> rfl
    | setState k v =>
      obtain ⟨m, -, rfl⟩ := Option.map_eq_some_iff.mp hr
      rfl
    | setBalance | setNonce | setCode | setStorage =>
      cases hr
      rfl
  · cases ho

omit [Keccak] in
theorem Op.keepsFlags_of_isWarm {o : Op} (h : o.isWarm) : o.keepsFlags := by
  cases o <;> first | rfl | cases h

omit [Keccak] in
theorem Op.keepsFlags_of_refunding {o : Op} (h : o.isWarm ∨ o.isRefund) : o.keepsFlags := by
  cases o <;> first | rfl | (rcases h with h | h <;> cases h)

theorem Calls.flags_eq (h : Calls (fun o => o.keepsFlags) s t) (a : Address) :
    t.flags a = s.flags a :=
  h.induct (I := fun u => u.flags a = s.flags a)
    (fun _ _ _ ho hu hI => (Op.flags_eq ho hu a).trans hI) rfl

section Flags

omit [Keccak]

/-- The flags of a new account. -/
theorem flags_createAccount (s : StateDB) (a b : Address) :
    (s.createAccount b).flags a = if a = b then (true, false, false) else s.flags a := by
  rw [createAccount_replaced]
  by_cases hab : a = b
  · rw [if_pos hab, hab]
    exact congrArg StateObject.flags (getAccount_setAccount s b _)
  · rw [if_neg hab]
    exact congrArg StateObject.flags (getAccount_setAccount_of_ne hab s _)

theorem length_createAccount (s : StateDB) (a : Address) :
    (s.createAccount a).journal.length = s.journal.length + 1 := by
  rw [createAccount_replaced]
  rfl

/-- `SelfDestruct6780` marks an account that is flagged as created, if it
is not deleted, and leaves the others. -/
theorem flags_selfDestruct6780 (s : StateDB) (a b : Address) :
    (s.selfDestruct6780 b).flags a
      = if a = b ∧ (s.flags a).1 ∧ (s.flags a).2.2 = false then (true, true, false)
        else s.flags a := by
  by_cases hab : a = b
  · subst hab
    have hchange : ∀ r, (s.change a r).getAccount a = r.1 := fun r => getAccount_setAccount s a r.1
    unfold flags StateObject.flags selfDestruct6780 StateDB.suicide StateObject.suicide
    cases hc : (s.getAccount a).created <;> cases hs : (s.getAccount a).suicided <;>
      cases hd : (s.getAccount a).deleted <;> simp [hchange, hc, hs, hd]
  · rw [if_neg (by simp [hab])]
    unfold selfDestruct6780 StateDB.suicide flags
    split_ifs
    · cases (s.getAccount b).suicide <;> exact congrArg _ (getAccount_setAccount_of_ne hab s _)
    · exact congrArg _ (getAccount_setAccount_of_ne hab s _)

end Flags

end StateDB

/-! ## The table -/

section Table

omit [Keccak]

open JumpTable Operation

/-- A table without the old `SELFDESTRUCT`. -/
def JumpTable.Is6780 (jt : JumpTable) : Prop :=
  (jt OpCode.SELFDESTRUCT).execute ≠ .write .opSelfdestruct

theorem JumpTable.Is6780.enableEIP {jt : JumpTable} (h : jt.Is6780) (e : Eip) :
    (jt.enableEIP e).Is6780 := by
  cases e with
  | eip6780 => exact nofun
  | _ => exact h

theorem TableEdit.is6780_apply {jt : JumpTable} (h : jt.Is6780) (e : TableEdit) :
    (e.apply jt).Is6780 := by
  cases e with
  | difficulty => exact h
  | disable op =>
    show (if OpCode.SELFDESTRUCT = op then undefined else jt OpCode.SELFDESTRUCT).execute ≠ _
    split_ifs
    · exact nofun
    · exact h

/-- **From Cancun on no instruction is the old `SELFDESTRUCT`.** -/
theorem Env.execute_ne_opSelfdestruct {env : Env} (hc : env.rules.isCancun) (op : UInt8) :
    (env.jumpTable op).execute ≠ .write .opSelfdestruct := by
  have hset : env.rules.instructionSet.Is6780 := by
    unfold Rules.instructionSet
    rw [if_pos hc]
    split_ifs <;> exact nofun
  have htable : env.jumpTable.Is6780 := by
    refine List.foldlRecOn env.extraEips _ ?_ (fun jt h e _ => h.enableEIP e)
    exact List.foldlRecOn _ _ hset (fun jt h e _ => e.is6780_apply h)
  intro h
  have hkind := (env.fits_jumpTable op).execute.resolve_left (by rw [h]; exact nofun)
  rw [h, opKind] at hkind
  have hop : op = OpCode.SELFDESTRUCT := by
    split_ifs at hkind <;> first | assumption | cases hkind
  exact htable (hop ▸ h)

end Table

/-! ## Runs -/

/-- **The flag of an account is right**: it is flagged as created if and
only if the message has made it, and it is suicided or deleted only
accordingly. -/
structure Evm.Tracks (a : Address) (e : Evm) : Prop where
  created : (e.statedb.flags a).1 = true ↔ ∃ b ∈ live e.trace, b.1 = a
  suicided : (e.statedb.flags a).2.1 = true → (e.statedb.flags a).1 = true
  deleted : (e.statedb.flags a).1 = true → (e.statedb.flags a).2.2 = false
  below : ∀ b ∈ live e.trace, b.2.1 < e.statedb.journal.length

/-- **Every `SELFDESTRUCT` of an account marked it** if and only if the
message had made it. -/
def Lawful (a : Address) : List Event → Prop
  | [] => True
  | v :: es => (∀ balance marked, v = .selfdestruct a balance marked →
      (marked = true ↔ ∃ b ∈ live es, b.1 = a)) ∧ Lawful a es

/-- Events other than a `SELFDESTRUCT`. -/
def Event.isOther : Event → Bool
  | .selfdestruct _ _ _ => false
  | _ => true

section Events

omit [Keccak]

variable {v : Event}

theorem Event.keepsLive_of_isGas (h : v.isGas) : v.keepsLive := by
  cases v <;> first | rfl | cases h

theorem Event.keepsLive_of_refunding (h : v.isGas ∨ v.isRefund) : v.keepsLive := by
  cases v <;> first | rfl | (rcases h with h | h <;> cases h)

theorem Event.isOther_of_refunding (h : v.isGas ∨ v.isRefund) : v.isOther := by
  cases v <;> first | rfl | (rcases h with h | h <;> cases h)

theorem Event.above_of_keepsLive (h : v.keepsLive) (n : ℕ) : v.Above n := by
  cases v with
  | created | reverted => cases h
  | _ => trivial

theorem Event.Above.mono {m n : ℕ} (h : v.Above n) (hmn : m ≤ n) : v.Above m := by
  cases v with
  | created | reverted => exact hmn.trans h
  | _ => trivial

theorem Lawful.grows {a : Address} {P : Event → Prop} {t t' : List Event} (h : Lawful a t)
    (hg : Grows P t t') (hP : ∀ v, P v → v.isOther) : Lawful a t' := by
  obtain ⟨es, rfl, hes⟩ := hg
  induction es with
  | nil => exact h
  | cons v es ih =>
    refine ⟨?_, ih fun w hw => hes w (List.mem_cons_of_mem _ hw)⟩
    rintro balance marked rfl
    cases hP _ (hes _ List.mem_cons_self)

theorem Evm.Tracks.of_same {a : Address} {e e' : Evm} (h : e.Tracks a)
    (hf : e'.statedb.flags a = e.statedb.flags a) (hl : live e'.trace = live e.trace)
    (hj : e.statedb.journal.length ≤ e'.statedb.journal.length) : e'.Tracks a where
  created := by rw [hf, hl]; exact h.created
  suicided := by rw [hf]; exact h.suicided
  deleted := by rw [hf]; exact h.deleted
  below b hb := (h.below b (hl ▸ hb)).trans_le hj

end Events

section Runs

variable {env : Env} {b : Status} {s t : Frame} {a : Address}

variable {d base : StateDB} {caller : Address} {o : Opening} {e e' : Evm} {child : Frame}

theorem StateDB.Run.length_le {d' : StateDB} (h : Run d d') (hwf : d.accessList.WF) :
    d.journal.length ≤ d'.journal.length :=
  (h.extends hwf).1.length_le

theorem Opens.above (h : Opens env caller o e base child) :
    Grows (fun v => v.Above base.journal.length ∧ v.isOther) e.trace child.evm.trace := by
  refine ⟨_, h.trace, fun v hv => ?_⟩
  cases o with
  | call addr value =>
    replace hv : v ∈ if _ then [] else _ := hv
    split_ifs at hv
    · cases hv
    · obtain rfl := List.mem_singleton.mp hv
      exact ⟨le_rfl, rfl⟩
  | create addr value =>
    obtain rfl := List.mem_singleton.mp hv
    exact ⟨le_rfl, rfl⟩
  | code | static => cases hv

theorem Closes.above {kept : Bool} {f : Evm} (h : Closes o base kept e f e') :
    Grows (fun v => v.Above base.journal.length ∧ v.isOther) f.trace e'.trace := by
  have ht := h.trace.mono (Q := fun v => v.Above base.journal.length ∧ v.isOther) fun _ hv =>
    ⟨Event.above_of_keepsLive (Event.keepsLive_of_isGas hv) _, Event.isOther_of_refunding (.inl hv)⟩
  cases kept with
  | true => exact ht
  | false =>
    have hrev : (Event.reverted base.snapshot).Above base.journal.length := le_rfl
    exact (Grows.cons ⟨hrev, rfl⟩ _).trans ht

/-- A frame makes and takes back accounts only above where it starts. -/
theorem Runs.above (h : Runs env b s t) (hwf : s.evm.statedb.accessList.WF) :
    Grows (fun v => v.Above s.evm.statedb.journal.length) s.evm.trace t.evm.trace := by
  have hlive : ∀ {n : ℕ} {P : Event → Prop} {t t' : List Event}, Grows P t t' →
      (∀ v, P v → v.keepsLive) → Grows (fun v => v.Above n) t t' :=
    fun h hP => h.mono fun v hv => Event.above_of_keepsLive (hP v hv) _
  induction h with
  | refl s => exact .refl _
  | quiet _ hq ih => exact (ih hwf).trans (hlive hq.evm.trace fun _ => Event.keepsLive_of_isGas)
  | stop _ _ ih | claim _ _ ih => exact ih hwf
  | @write _ t d _ f _ _ _ _ _ _ _ ih =>
    refine (ih hwf).trans ⟨_, rfl, fun v hv => ?_⟩
    cases f with
    | opSstore | opTstore => cases hv
    | opSelfdestruct | opSelfdestruct6780 =>
      obtain rfl := List.mem_singleton.mp hv
      trivial
  | sstore _ _ _ hg _ _ ih | selfdestruct _ _ hg _ ih =>
    exact (ih hwf).trans (hlive (Frame.GasEnds.of_ok hg).refunding.trace
      fun _ => Event.keepsLive_of_refunding)
  | gasFailed _ _ _ hg hq ih =>
    exact ((ih hwf).trans (hlive hg.refunding.trace fun _ => Event.keepsLive_of_refunding)).trans
      (hlive hq.evm.trace fun _ => Event.keepsLive_of_isGas)
  | jump dest _ _ ih => exact (ih hwf).trans (.cons trivial _)
  | frame h _ ho _ _ _ hc ih ihc =>
    have hwf' := h.wf hwf
    have hbase := (h.stateRun.trans ho.reads.run).length_le hwf
    have hchild := ((h.stateRun.trans ho.reads.run).trans ho.run).length_le hwf
    exact (((ih hwf).trans (ho.above.mono fun _ hv => hv.1.mono hbase)).trans
      ((ihc (ho.wf hwf')).mono fun _ hv => hv.mono hchild)).trans
      (hc.above.mono fun _ hv => hv.1.mono hbase)
  | crash h _ ho _ hag ih ihc =>
    have hwf' := h.wf hwf
    have hbase := (h.stateRun.trans ho.reads.run).length_le hwf
    have hchild := ((h.stateRun.trans ho.reads.run).trans ho.run).length_le hwf
    have hrun := ihc (ho.wf hwf')
    rw [← hag.trace] at hrun
    exact ((ih hwf).trans (ho.above.mono fun _ hv => hv.1.mono hbase)).trans
      (hrun.mono fun _ hv => hv.mono hchild)

theorem StateDB.flags_transfer (d : StateDB) (a b c : Address) (value : Int) :
    ((d.subBalance b value).addBalance c value).flags a = d.flags a :=
  (Op.flags_eq (o := .addBalance c value) rfl rfl a).trans
    (Op.flags_eq (o := .subBalance b value) rfl rfl a)

/-- What opening a frame does to the flags, and what is recorded of it:
nothing, or one account that is made. -/
theorem Opening.prepare_cases (o : Opening) (env : Env) (caller : Address) (hwf : d.accessList.WF)
    (a : Address) :
    o.births d = [] ∧ (o.prepare env caller d).flags a = d.flags a
      ∨ ∃ addr k, o.births d = [.created addr d.snapshot k]
        ∧ (o.prepare env caller d).flags a
          = (if a = addr then (true, false, false) else d.flags a)
        ∧ d.journal.length < (o.prepare env caller d).journal.length := by
  have hlt : ∀ {d₁ d₂ : StateDB} (addr : Address), Run d d₁ → Run (d₁.createAccount addr) d₂ →
      d.journal.length < d₂.journal.length := by
    intro d₁ d₂ addr h₁ h₂
    have hwf₁ := (h₁.extends hwf).2
    have hcreate : Run d₁ (d₁.createAccount addr) := .single (.createAccount addr) rfl
    calc d.journal.length ≤ d₁.journal.length := h₁.length_le hwf
      _ < (d₁.createAccount addr).journal.length := by
        rw [length_createAccount]
        exact Nat.lt_succ_self _
      _ ≤ d₂.journal.length := h₂.length_le (hcreate.extends hwf₁).2
  have htransfer : ∀ (d₁ : StateDB) (addr : Address) (value : Int),
      Run d₁ ((d₁.subBalance caller value).addBalance addr value) :=
    fun d₁ addr value => (Calls.transfer (.refl d₁) caller addr value).run
  cases o with
  | code => exact .inl ⟨rfl, rfl⟩
  | static addr => exact .inl ⟨rfl, Op.flags_eq (o := .addBalance addr 0) rfl rfl a⟩
  | call addr value =>
    have hexist : (d.exist addr).2.flags a = d.flags a := Op.flags_eq (o := .exist addr) rfl rfl a
    have hrun : Run d (d.exist addr).2 := .single (.exist addr) rfl
    unfold births prepare
    dsimp only
    split_ifs with he
    · exact .inl ⟨rfl, (flags_transfer _ a caller addr value).trans hexist⟩
    · refine .inr ⟨addr, false, rfl, ?_, hlt addr hrun (htransfer _ addr value)⟩
      rw [flags_transfer, flags_createAccount, hexist]
  | create addr value =>
    refine .inr ⟨addr, true, rfl, ?_⟩
    unfold prepare
    dsimp only
    by_cases h158 : env.rules.isEIP158 = true
    · rw [if_pos h158]
      have hnonce : Run (d.createAccount addr) ((d.createAccount addr).setNonce addr 1) :=
        .single (.setNonce addr 1) rfl
      refine ⟨?_, hlt addr (.refl d) (hnonce.trans (htransfer _ addr value))⟩
      rw [flags_transfer, Op.flags_eq (o := .setNonce addr 1) rfl rfl a, flags_createAccount]
    · rw [if_neg h158]
      refine ⟨?_, hlt addr (.refl d) (htransfer _ addr value)⟩
      rw [flags_transfer, flags_createAccount]

omit [Keccak] in
/-- An account is made. -/
theorem Evm.Tracks.born {addr : Address} {n : ℕ} {k : Bool} (h : e.Tracks a)
    (hf : e'.statedb.flags a = if a = addr then (true, false, false) else e.statedb.flags a)
    (ht : e'.trace = .created addr n k :: e.trace) (hn : n < e'.statedb.journal.length)
    (hj : e.statedb.journal.length ≤ e'.statedb.journal.length) : e'.Tracks a := by
  have hlive : live e'.trace = (addr, n, k) :: live e.trace := by
    rw [ht]
    rfl
  have hbelow : ∀ b ∈ live e'.trace, b.2.1 < e'.statedb.journal.length := by
    rw [hlive]
    intro b hb
    obtain rfl | hb := List.mem_cons.mp hb
    · exact hn
    · exact (h.below b hb).trans_le hj
  by_cases ha : a = addr
  · rw [if_pos ha] at hf
    refine ⟨?_, by simp [hf], by simp [hf], hbelow⟩
    rw [hf, hlive]
    exact ⟨fun _ => ⟨_, List.mem_cons_self, ha.symm⟩, fun _ => rfl⟩
  · rw [if_neg ha] at hf
    refine ⟨?_, by rw [hf]; exact h.suicided, by rw [hf]; exact h.deleted, hbelow⟩
    rw [hf, hlive, h.created]
    simp [Ne.symm ha]

/-- Opening a frame may make an account. -/
theorem Evm.Tracks.opens (h : e.Tracks a) (ho : Opens env caller o e base child)
    (hwf : e.statedb.accessList.WF) : child.evm.Tracks a := by
  have hwf' := (ho.reads.run.extends hwf).2
  have hbase : base.flags a = e.statedb.flags a := flags_of_le ho.reads.le a
  have hchild := flags_of_le ho.statedb.le a
  have hlen := (ho.reads.run.trans ho.run).length_le hwf
  have hwfp := (((o.calls_prepare env caller base).run).extends hwf').2
  have htrace := ho.trace
  obtain ⟨hbirths, hflags⟩ | ⟨addr, k, hbirths, hflags, hlt⟩ := o.prepare_cases env caller hwf' a
  · rw [hbirths, List.nil_append] at htrace
    exact h.of_same ((hchild.trans hflags).trans hbase) (by rw [htrace]) hlen
  · rw [hbirths] at htrace
    refine h.born ?_ htrace (hlt.trans_le (ho.statedb.run.length_le hwfp)) hlen
    rw [hchild, hflags, hbase]

theorem Opening.Finishes.flags_eq {d' : StateDB} (h : o.Finishes d d') (a : Address) :
    d'.flags a = d.flags a := by
  cases o with
  | create addr value =>
    obtain rfl | ⟨code, rfl⟩ := h
    · rfl
    · exact Op.flags_eq (o := .setCode addr code) rfl rfl a
  | call | code | static =>
    obtain rfl := h
    rfl

/-- Closing a frame keeps the accounts it made, or takes them back. -/
theorem Evm.Tracks.closes {f : Frame} {kept : Bool} (h : e.Tracks a)
    (ho : Opens env caller o e base child) (hr : Runs env b child f)
    (hc : Closes o base kept e f.evm e') (hwf : e.statedb.accessList.WF) (hf : f.evm.Tracks a) :
    e'.Tracks a := by
  have hst := hc.statedb
  have hwf' := (ho.reads.run.extends hwf).2
  have hrun : Run base f.evm.statedb := ho.run.trans hr.stateRun
  have hwff := (hrun.extends hwf').2
  have hgas := hc.trace
  cases kept with
  | true =>
    have hfin := Opening.Finishes.run hst
    exact hf.of_same (Opening.Finishes.flags_eq hst a)
      (live_grows hgas fun _ => Event.keepsLive_of_isGas) (hfin.length_le hwff)
  | false =>
    have hle := hc.le hwf' hrun
    refine h.of_same ((flags_of_le hle a).trans (flags_of_le ho.reads.le a)) ?_
      ((ho.reads.run.trans (hc.run hrun)).length_le hwf)
    -- what the frame made comes after the snapshot, what was there before it
    have habove : Grows (fun v => v.Above base.journal.length) e.trace f.evm.trace :=
      (ho.above.mono fun _ hv => hv.1).trans ((hr.above (ho.run.extends hwf').2).mono
        fun _ hv => hv.mono (ho.run.length_le hwf'))
    have hbelow : (live e.trace).filter (fun b => b.2.1 < base.journal.length) = live e.trace :=
      List.filter_eq_self.mpr fun b hb =>
        decide_eq_true ((h.below b hb).trans_le (ho.reads.run.length_le hwf))
    rw [live_grows hgas fun _ => Event.keepsLive_of_isGas]
    exact (live_above habove).trans hbelow

/-- A write other than a store: an account that is marked was made. -/
theorem Evm.Tracks.wrote {t : Frame} {f : WriteFn} {x y : Word} (h : t.evm.Tracks a)
    (hl : Lawful a t.evm.trace) (hf : f ≠ .opSelfdestruct) (hs : f ≠ .opSstore)
    (hd : f.apply t.contract.self x y t.evm.statedb = some d) (hwf : t.evm.statedb.accessList.WF) :
    (t.wrote f d).evm.Tracks a ∧ Lawful a (t.wrote f d).evm.trace := by
  have hlen := (WriteFn.calls_apply hs hd).run.length_le hwf
  cases f with
  | opSstore => exact absurd rfl hs
  | opSelfdestruct => exact absurd rfl hf
  | opTstore =>
    exact ⟨h.of_same (Op.flags_eq (o := .setTransientState t.contract.self x y) rfl hd a) rfl hlen,
      hl⟩
  | opSelfdestruct6780 =>
    set self := t.contract.self
    have hflags : ∀ c, d.flags c
        = if c = self ∧ (t.evm.statedb.flags c).1 ∧ (t.evm.statedb.flags c).2.2 = false
          then (true, true, false) else t.evm.statedb.flags c := by
      intro c
      have hbalance : (t.evm.statedb.getBalance self).2.flags c = t.evm.statedb.flags c :=
        Op.flags_eq (o := .getBalance self) rfl rfl c
      have hd' : d = (((t.evm.statedb.getBalance self).2.subBalance self _).addBalance
        (Word.bytes20 x) _).selfDestruct6780 self := (Option.some.inj hd).symm
      rw [hd', flags_selfDestruct6780, flags_transfer, hbalance]
    -- the flags change only by the mark, which an account that was made gets
    have hmark : d.flags a = t.evm.statedb.flags a
        ∨ a = self ∧ (t.evm.statedb.flags a).1 = true ∧ d.flags a = (true, true, false) := by
      rw [hflags a]
      split_ifs with hc
      · exact .inr ⟨hc.1, hc.2.1, rfl⟩
      · exact .inl rfl
    refine ⟨?_, ?_, hl⟩
    · obtain heq | ⟨-, hcreated, heq⟩ := hmark
      · exact h.of_same heq rfl hlen
      · refine ⟨?_, by simp [heq], by simp [heq], fun b hb => (h.below b hb).trans_le hlen⟩
        show (d.flags a).1 = true ↔ ∃ b ∈ live t.evm.trace, b.1 = a
        rw [heq, ← h.created, hcreated]
    · intro balance marked hv
      injection hv with hself _ hmarked
      replace hself : self = a := hself
      replace hmarked : (d.flags self).2.1 = marked := hmarked
      show marked = true ↔ ∃ b ∈ live t.evm.trace, b.1 = a
      rw [← hmarked, hself, hflags a, ← h.created]
      by_cases hc : (t.evm.statedb.flags a).1 = true
      · rw [if_pos ⟨hself.symm, hc, h.deleted hc⟩]
        exact ⟨fun _ => hc, fun _ => rfl⟩
      · rw [if_neg fun hc' => hc hc'.2.1]
        exact ⟨h.suicided, fun hc' => absurd hc' hc⟩

/-- Calls that leave the flags alone. -/
theorem Evm.Tracks.calls (h : e.Tracks a) (hl : Lawful a e.trace)
    (hc : Calls (fun o => o.keepsFlags) e.statedb e'.statedb)
    (ht : Grows (fun v => v.isGas ∨ v.isRefund) e.trace e'.trace) (hwf : e.statedb.accessList.WF) :
    e'.Tracks a ∧ Lawful a e'.trace :=
  ⟨h.of_same (hc.flags_eq a) (live_grows ht fun _ => Event.keepsLive_of_refunding)
    (hc.run.length_le hwf), hl.grows ht fun _ => Event.isOther_of_refunding⟩

theorem Evm.Tracks.quiet (h : e.Tracks a) (hl : Lawful a e.trace) (hq : e.Quiet e')
    (hwf : e.statedb.accessList.WF) : e'.Tracks a ∧ Lawful a e'.trace :=
  h.calls hl (hq.warm.mono fun _ => Op.keepsFlags_of_isWarm) (hq.trace.mono fun _ => .inl) hwf

theorem Evm.Tracks.gasEnds {t : Frame} {g : GasFn} {n : UInt64} {st : GasSt}
    (h : t.evm.Tracks a) (hl : Lawful a t.evm.trace) (hgas : t.GasEnds env g n st)
    (hwf : t.evm.statedb.accessList.WF) :
    (t.putGasSt st).evm.Tracks a ∧ Lawful a (t.putGasSt st).evm.trace :=
  h.calls hl (hgas.refunding.calls.mono fun _ => Op.keepsFlags_of_refunding)
    hgas.refunding.trace hwf

/-- **The flag of an account is right along a run**, and so is what every
`SELFDESTRUCT` does. -/
theorem Runs.tracks (hcancun : env.rules.isCancun) (h : Runs env b s t)
    (hwf : s.evm.statedb.accessList.WF) (hs : s.evm.Tracks a) (hl : Lawful a s.evm.trace) :
    t.evm.Tracks a ∧ Lawful a t.evm.trace := by
  induction h with
  | refl s => exact ⟨hs, hl⟩
  | quiet h hq ih =>
    obtain ⟨ht, hl⟩ := ih hwf hs hl
    exact ht.quiet hl hq.evm (h.wf hwf)
  | stop _ _ ih => exact ih hwf hs hl
  | write f x y h hop hf _ hd ih =>
    obtain ⟨ht, hl⟩ := ih hwf hs hl
    refine ht.wrote hl (fun heq => ?_) hf hd (h.wf hwf)
    rw [heq] at hop
    exact Env.execute_ne_opSelfdestruct hcancun _ hop
  | sstore h _ _ hgas _ hd ih =>
    obtain ⟨ht, hl⟩ := ih hwf hs hl
    have hgas := (Frame.GasEnds.of_ok hgas).refunding
    exact ht.calls hl ((hgas.calls.mono fun _ => Op.keepsFlags_of_refunding).op
      (.setState _ _ _) rfl hd) hgas.trace (h.wf hwf)
  | selfdestruct h _ hgas _ ih =>
    obtain ⟨ht, hl⟩ := ih hwf hs hl
    exact ht.gasEnds hl (.of_ok hgas) (h.wf hwf)
  | gasFailed h _ _ hgas hq ih =>
    obtain ⟨ht, hl⟩ := ih hwf hs hl
    have hwf' := h.wf hwf
    obtain ⟨ht, hl⟩ := ht.gasEnds hl hgas hwf'
    exact ht.quiet hl hq.evm (hgas.refunding.calls.run.extends hwf').2
  | jump dest _ _ ih =>
    obtain ⟨ht, hl⟩ := ih hwf hs hl
    exact ⟨ht.of_same rfl rfl le_rfl, nofun, hl⟩
  | claim h _ ih =>
    obtain ⟨ht, hl⟩ := ih hwf hs hl
    exact ht.calls hl (.of_op (.setNonce _ _) rfl rfl) (.refl _) (h.wf hwf)
  | frame h _ ho hr _ _ hc ih ihc =>
    obtain ⟨ht, hl⟩ := ih hwf hs hl
    have hwf' := h.wf hwf
    obtain ⟨hf, hlf⟩ := ihc (ho.wf hwf') (ht.opens ho hwf')
      (hl.grows ho.above fun _ hv => hv.2)
    exact ⟨ht.closes ho hr hc hwf' hf, hlf.grows hc.above fun _ hv => hv.2⟩
  | crash h _ ho _ hag ih ihc =>
    obtain ⟨ht, hl⟩ := ih hwf hs hl
    have hwf' := h.wf hwf
    obtain ⟨hf, hlf⟩ := ihc (ho.wf hwf') (ht.opens ho hwf')
      (hl.grows ho.above fun _ hv => hv.2)
    exact ⟨hf.of_same (by rw [hag.statedb]) (by rw [hag.trace]) (by rw [hag.statedb]),
      hag.trace ▸ hlf⟩

end Runs

/-! ## Sessions -/

theorem StateDB.Run.reachable {d d' : StateDB} (h : Run d d') (hd : Reachable d) :
    Reachable d' := by
  induction h with
  | refl => exact hd
  | op o _ ho ih => exact .op o (ih hd) trivial ho
  | nested _ _ hr ih ih' => exact .revert _ (ih' (ih hd)) hr

namespace Evm

/-- **The states between the messages of a session**, each of which is
followed by `Finalise`. -/
inductive Session : StateDB → Prop
  | start {d : StateDB} : Reachable d → Session d
  | message {d : StateDB} {env : Env} {fuel : Nat} {caller : Address} {m : Method} {e : Evm} :
    Session d → m.exec env fuel caller { statedb := d } = .ok () e → Session e.statedb.finalise

theorem Session.reachable {d : StateDB} (h : Session d) : Reachable d := by
  induction h with
  | start hd => exact hd
  | @message d env fuel caller m e _ he ih =>
    have hruns := (m.exec_runs env fuel caller (e := { statedb := d }) rfl rfl).of_ok he
    exact (hruns.stateRun.reachable ih).finalise

/-- **EIP-6780** in the record of a message: a `SELFDESTRUCT` of an
account marks it if and only if a creation of the message made it and
was not taken back. -/
def Eip6780 (a : Address) (trace : List Event) : Prop :=
  ∀ pre post balance marked, trace = post ++ .selfdestruct a balance marked :: pre →
    (marked = true ↔ ∃ n, (a, n, true) ∈ live pre)

omit [Keccak] in
theorem eip6780_of_lawful {a : Address} {trace : List Event} (h : Lawful a trace)
    (hcall : ∀ n, .created a n false ∉ trace) : Eip6780 a trace := by
  rintro pre post balance marked rfl
  have hlaw : marked = true ↔ ∃ b ∈ live pre, b.1 = a := by
    induction post with
    | nil => exact h.1 balance marked rfl
    | cons v post ih => exact ih h.2 fun n hn => hcall n (List.mem_cons_of_mem _ hn)
  rw [hlaw]
  constructor
  · rintro ⟨⟨a', n, k⟩, hb, rfl⟩
    cases k with
    | true => exact ⟨n, hb⟩
    | false =>
      exact absurd (List.mem_append_right post (List.mem_cons_of_mem _ (mem_of_mem_live hb)))
        (hcall n)
  · rintro ⟨n, hb⟩
    exact ⟨_, hb, rfl⟩

/-- **A `SELFDESTRUCT` follows EIP-6780** in every message of a session
under Cancun rules, if the account was neither created nor destroyed in
an earlier message and no call of this one makes it. -/
theorem selfdestruct_eip6780 {env : Env} (hcancun : env.rules.isCancun) (fuel : Nat)
    (caller : Address) (m : Method) {d : StateDB} (hd : Session d) {a : Address}
    (ha : (d.getAccount a).created = false ∧ (d.getAccount a).suicided = false) :
    Sat (m.exec env fuel caller) { statedb := d }
      (fun _ e => (∀ n, .created a n false ∉ e.trace) → Eip6780 a e.trace)
      (fun _ e => (∀ n, .created a n false ∉ e.trace) → Eip6780 a e.trace) := by
  have htracks : (outside { statedb := d } caller).evm.Tracks a := by
    have hflags : (d.flags a).1 = false ∧ (d.flags a).2.1 = false := ha
    show Tracks a { statedb := d }
    refine ⟨?_, ?_, ?_, by simp [live]⟩
    · simp [live, hflags.1]
    · simp [hflags.2]
    · simp [hflags.1]
  have hwf := hd.reachable.wf
  refine (m.exec_runs env fuel caller rfl rfl).mono (fun _ e h hcall => ?_) (fun _ e h hcall => ?_)
  all_goals exact eip6780_of_lawful (h.tracks hcancun hwf htracks trivial).2 hcall

end Evm

/-- Keccak-256 on what the account 0x1000 makes the address of its first
contract from, on some bytecode, and on the inputs of the table. -/
@[reducible] def Keccak.creation : Keccak where
  keccak256Hash b :=
    ([(0xd6 :: 0x94 :: toBytes 20 0x1000 ++ [0x80],
        0xe69f4edd73d1b39c7c2013209410c9031b8d168b22bb86acbd32b0af2c62a4a8),
      ([0x60, 0x00, 0xff],
        0x396daaf3a7871f857cc9b5878c6bb66c394a6d109706095617db9f4e4c22edcd)].lookup b).getD
      (Keccak.digests.keccak256Hash b)

/-- The rules from Cancun on. -/
def Rules.cancun : Rules where
  isHomestead := true
  isEIP150 := true
  isEIP155 := true
  isEIP158 := true
  isByzantium := true
  isConstantinople := true
  isPetersburg := true
  isIstanbul := true
  isBerlin := true
  isLondon := true
  isMerge := true
  isShanghai := true
  isCancun := true

namespace Evm

omit [Keccak]

/-- A contract that destroys itself in its init code. -/
theorem selfdestruct_eip6780_init :
    letI := Keccak.creation
    let a : Address := 0x9410c9031b8d168b22bb86acbd32b0af2c62a4a8
    ∃ r e, (Method.create [0x60, 0x00, 0xff] 100000 0).exec { rules := .cancun } 10 0x1000
        { statedb := newStateDB .empty } = .ok r e
      ∧ .selfdestruct a 0 true ∈ e.trace ∧ Eip6780 a e.trace := by
  let _ := Keccak.creation
  intro a
  have hc : Rules.cancun.isCancun = true := rfl
  have hrun : ∃ r e, (Method.create [0x60, 0x00, 0xff] 100000 0).exec { rules := .cancun } 10
        0x1000 { statedb := newStateDB .empty } = .ok r e
      ∧ .selfdestruct a 0 true ∈ e.trace
      ∧ ∀ v ∈ e.trace, v.keepsLive = true ∨ v = .created a 2 true :=
    exists_of_sat (by decide +kernel)
  obtain ⟨r, e, hok, hmem, hborn⟩ := hrun
  refine ⟨r, e, hok, hmem, (selfdestruct_eip6780 hc 10 0x1000
    (.create [0x60, 0x00, 0xff] 100000 0) (.start (.new .empty)) ⟨rfl, rfl⟩).of_ok hok ?_⟩
  intro n hn
  obtain h | h := hborn _ hn <;> cases h

/-- A contract that destroys itself when it is called is created in one
message and called in the next. -/
theorem selfdestruct_after_finalise :
    letI := Keccak.creation
    let a : Address := 0x9410c9031b8d168b22bb86acbd32b0af2c62a4a8
    let init : Bytes := [0x62, 0x60, 0x00, 0xff, 0x60, 0x00, 0x52, 0x60, 0x03, 0x60, 0x1d, 0xf3]
    ∃ r e, (Method.create init 100000 0).exec { rules := .cancun } 10 0x1000
        { statedb := newStateDB .empty } = .ok r e
      ∧ Session e.statedb.finalise
      ∧ ∃ r' e', (Method.call a [] 100000 0).exec { rules := .cancun } 10 0x1000
          { statedb := e.statedb.finalise } = .ok r' e'
        ∧ .selfdestruct a 0 true ∈ e'.trace ∧ ¬ Eip6780 a e'.trace := by
  let _ := Keccak.creation
  intro a init
  have hrun : ∃ r e, (Method.create init 100000 0).exec { rules := .cancun } 10 0x1000
        { statedb := newStateDB .empty } = .ok r e
      ∧ Sat ((Method.call a [] 100000 0).exec { rules := .cancun } 10 0x1000)
        { statedb := e.statedb.finalise }
        (fun _ e' => .selfdestruct a 0 true ∈ e'.trace ∧ ∀ v ∈ e'.trace, v.keepsLive)
        (fun _ _ => False) :=
    exists_of_sat (by decide +kernel)
  obtain ⟨r, e, hok, hsat⟩ := hrun
  obtain ⟨r', e', hok', hmem, hkeeps⟩ := exists_of_sat hsat
  refine ⟨r, e, hok, .message (.start (.new .empty)) hok, r', e', hok', hmem, fun hlaw => ?_⟩
  obtain ⟨post, pre, htrace⟩ := List.append_of_mem hmem
  obtain ⟨n, hn⟩ := (hlaw pre post 0 true htrace).mp rfl
  have hborn : .created a n true ∈ e'.trace :=
    htrace ▸ List.mem_append_right post (List.mem_cons_of_mem _ (mem_of_mem_live hn))
  cases hkeeps _ hborn

end Evm
