import CardinalEvm.CodeBitmap
import CardinalEvm.CodeHash
import CardinalEvm.Memo
import CardinalEvm.Refinement

/-!
# The cache of jump analyses

The bitmaps of a call tree are kept in one map, under the code hash that
the state reports for the account the code came from. The map is a table
of results keyed by a digest (`Memo.Sound`), and it answers rightly as
long as the hash reported is the hash of the code.

The state does not always report that. An account that was loaded goes
by the code hash of its record, and `SetCode` on such an account – a
state override, for instance – replaces the code and not the record. Two
accounts with different code can then go by one hash, and the second
is given the bitmap of the first. `StateDB.Keyed` says of an account
that no hash it can go by is one of these; it is kept by everything a
run does, because what `CreateAccount` makes has no code hash at all,
and code is only ever set in a run where an account was just made.
-/

variable [Keccak]

open StateDB

/-! ## Hashes that stand for code -/

/-- **A hash stands for code**: it is the hash of the code, or it is no
key of the map, or the code is never analysed – because it is empty, or
because its first instruction is an invalid one. -/
def StandsFor (hash : Hash) (code : Bytes) : Prop :=
  hash = 0 ∨ hash = keccak256Hash code ∨ code = [] ∨ code.head? = some 0xEF

/-- The hash of a code entry is recomputed before it is reported, unless
it is zero. -/
theorem CodeEntry.rehash_standsFor (c : CodeEntry) : StandsFor c.rehash.hash c.code := by
  unfold rehash
  split_ifs with h
  · exact .inr (.inl rfl)
  · exact .inl (not_not.mp h)

namespace StateObject

/-- **An account goes by its own hash**, should it go by that of its
record. -/
def Keyed (tx : StorageTx) (a : Address) (o : StateObject) : Prop :=
  ∀ account, o.record tx a = some account →
    StandsFor (bytesToHash account.codeHash) (o.codeOf tx a)

/-- An account without a code hash on its record. -/
def Unkeyed (tx : StorageTx) (a : Address) (o : StateObject) : Prop :=
  ∀ account, o.record tx a = some account → bytesToHash account.codeHash = 0

variable {tx : StorageTx} {a : Address} {o o' : StateObject}

theorem Unkeyed.keyed (h : o.Unkeyed tx a) : o.Keyed tx a :=
  fun account hacc => .inl (h account hacc)

theorem Keyed.of_eq (h : o.Keyed tx a) (hrec : o'.record tx a = o.record tx a)
    (hcode : o'.codeOf tx a = o.codeOf tx a) : o'.Keyed tx a := by
  intro account hacc
  rw [hcode]
  exact h account (hrec ▸ hacc)

omit [Keccak] in
theorem Unkeyed.of_eq (h : o.Unkeyed tx a) (hrec : o'.record tx a = o.record tx a) :
    o'.Unkeyed tx a :=
  fun account hacc => h account (hrec ▸ hacc)

theorem record_congr (hl : o'.loaded tx a = o.loaded tx a) : o'.record tx a = o.record tx a :=
  congrArg account hl

omit [Keccak] in
theorem record_of_eq (ha : o'.account = o.account) (hd : o'.deleted = o.deleted) :
    o'.record tx a = o.record tx a := by
  unfold record
  rw [ha, hd]

theorem codeOf_of_eq (ha : o'.account = o.account) (hd : o'.deleted = o.deleted)
    (hc : o'.code = o.code) : o'.codeOf tx a = o.codeOf tx a := by
  unfold codeOf codeEntry
  rw [hd, hc, record_of_eq ha hd]

omit [Keccak] in
/-- What `CreateAccount` makes has no code hash. -/
theorem unkeyed_of_new (ho : o.account = some {}) : o.Unkeyed tx a := by
  intro account hacc
  have hrec : o.record tx a = some {} := by
    unfold record
    rw [ho]
    split_ifs <;> rfl
  obtain rfl := Option.some.inj (hrec.symm.trans hacc)
  rfl

/-- **The hash an account reports stands for the code it shows**, if it
goes by its own. -/
theorem Keyed.standsFor (h : o.Keyed tx a) : StandsFor (o.getCodeHash tx a).1 (o.codeOf tx a) := by
  rw [getCodeHash_fst]
  cases hacc : o.account with
  | some account =>
    refine h account ?_
    unfold record
    rw [hacc]
    split_ifs <;> rfl
  | none =>
    unfold codeOf
    cases o.deleted with
    | true => exact .inr (.inr (.inl rfl))
    | false => exact (o.codeEntry tx a).rehash_standsFor

end StateObject

namespace StateDB

/-- An account goes by its own hash. -/
def Keyed (s : StateDB) (a : Address) : Prop := (s.getAccount a).Keyed s.tx a

/-- An account has no code hash on its record. -/
def Unkeyed (s : StateDB) (a : Address) : Prop := (s.getAccount a).Unkeyed s.tx a

/-- **Accounts keep going by their own hashes** from one state to
another. -/
structure KeysKept (s t : StateDB) : Prop where
  keyed : ∀ a, s.Keyed a → t.Keyed a
  unkeyed : ∀ a, s.Unkeyed a → t.Unkeyed a

namespace KeysKept

variable {s t u : StateDB}

theorem refl (s : StateDB) : KeysKept s s := ⟨fun _ => id, fun _ => id⟩

theorem trans (h : KeysKept s t) (h' : KeysKept t u) : KeysKept s u :=
  ⟨fun a => h'.keyed a ∘ h.keyed a, fun a => h'.unkeyed a ∘ h.unkeyed a⟩

theorem of_le (h : Le s t) : KeysKept s t := by
  have hl : ∀ a, (t.getAccount a).loaded s.tx a = (s.getAccount a).loaded s.tx a := by
    intro a
    have := h.view a
    rwa [view, view, h.tx] at this
  refine ⟨fun a ha => ?_, fun a ha => ?_⟩
  · unfold Keyed
    rw [h.tx]
    exact StateObject.Keyed.of_eq ha (StateObject.record_congr (hl a))
      (StateObject.codeOf_congr (hl a))
  · unfold Unkeyed
    rw [h.tx]
    exact StateObject.Unkeyed.of_eq ha (StateObject.record_congr (hl a))

/-- A change of one object. -/
theorem setAccount {a : Address} {o : StateObject} {es : List JournalEntry}
    (hk : s.Keyed a → o.Keyed s.tx a) (hu : s.Unkeyed a → o.Unkeyed s.tx a) :
    KeysKept s { s.setAccount a o with journal := es } := by
  have hother : ∀ b, b ≠ a → (s.setAccount a o).getAccount b = s.getAccount b :=
    fun b hb => getAccount_setAccount_of_ne hb s o
  refine ⟨fun b hb => ?_, fun b hb => ?_⟩
  · show ((s.setAccount a o).getAccount b).Keyed s.tx b
    by_cases hba : b = a
    · subst hba
      rw [getAccount_setAccount]
      exact hk hb
    · rw [hother b hba]
      exact hb
  · show ((s.setAccount a o).getAccount b).Unkeyed s.tx b
    by_cases hba : b = a
    · subst hba
      rw [getAccount_setAccount]
      exact hu hb
    · rw [hother b hba]
      exact hb

end KeysKept

omit [Keccak] in
/-- What `CreateAccount` makes, as far as the code hash goes. -/
theorem createAccount_account (s : StateDB) (a : Address) :
    ∃ o es, s.createAccount a = { s.setAccount a o with journal := es }
      ∧ o.account = some {} := by
  unfold createAccount
  dsimp only
  split_ifs <;> exact ⟨_, _, rfl, rfl⟩

section Steps

variable {s t : StateDB}

theorem KeysKept.createAccount (s : StateDB) (a : Address) : KeysKept s (s.createAccount a) := by
  obtain ⟨o, es, heq, hacc⟩ := createAccount_account s a
  rw [heq]
  exact .setAccount (fun _ => (StateObject.unkeyed_of_new hacc).keyed)
    (fun _ => StateObject.unkeyed_of_new hacc)

omit [Keccak] in
theorem unkeyed_createAccount (s : StateDB) (a : Address) : (s.createAccount a).Unkeyed a := by
  obtain ⟨o, es, heq, hacc⟩ := createAccount_account s a
  rw [heq]
  show ((s.setAccount a o).getAccount a).Unkeyed s.tx a
  rw [getAccount_setAccount]
  exact StateObject.unkeyed_of_new hacc

/-- Setting the code of an account without a code hash. -/
theorem KeysKept.setCode {a : Address} (hu : s.Unkeyed a) (code : Bytes) :
    KeysKept s (s.setCode a code) :=
  have hu' : ((s.getAccount a).setCode code).1.Unkeyed s.tx a := hu
  .setAccount (fun _ => hu'.keyed) (fun _ => hu')

/-- **Every call but `SetCode`** lets accounts go by their own hashes. -/
theorem Op.keysKept {o : Op} (ho : o.keepsCode) (h : o.apply s = some t) : KeysKept s t := by
  cases Op.step h with
  | loads hl => exact .of_le hl.le
  | change a c r hc hr =>
    have hset : ∀ code, c ≠ .setCode code := by
      rintro code rfl
      cases o with
      | setCode => cases ho
      | _ => simp [Op.target] at hc
    obtain ⟨hacc, hcode, hdel, -⟩ := ObjectOp.run_frame hr hset
    have hrec : StateObject.record s.tx a _ = _ := StateObject.record_of_eq hacc hdel
    exact .setAccount (fun hk => hk.of_eq hrec (StateObject.codeOf_of_eq hacc hdel hcode))
      (fun hu => hu.of_eq hrec)
  | createAccount a => exact .createAccount s a
  | addRefund x | subRefund x | transient a k v => exact ⟨fun _ => id, fun _ => id⟩
  | address a =>
    obtain ⟨al, es, heq, -⟩ := addAddressToAccessList_eq s a
    rw [heq]
    exact ⟨fun _ => id, fun _ => id⟩
  | slot a k h =>
    obtain ⟨al, es, rfl, -⟩ := addSlotToAccessList_eq h
    exact ⟨fun _ => id, fun _ => id⟩

theorem Calls.keysKept {P : Op → Prop} (h : Calls P s t) (hP : ∀ o, P o → o.keepsCode) :
    KeysKept s t :=
  h.induct (I := KeysKept s) (fun o _ _ ho hap ih => ih.trans (Op.keysKept (hP o ho) hap))
    (.refl s)

end Steps

/-- **A state whose code and records agree** lets accounts go by their own
hashes. -/
theorem CodeInv.keyed {s : StateDB} (h : s.CodeInv) (htx : CodeStore s.tx) (a : Address) :
    s.Keyed a := by
  intro account hacc
  unfold StateObject.codeOf
  cases hd : (s.getAccount a).deleted with
  | true => exact .inr (.inr (.inl rfl))
  | false =>
    rw [(h.objects a).record hd] at hacc
    exact .inr (.inl (((h.objects a).codeEntry htx hd).stored account hacc).symm)

end StateDB

/-! ## Over a run -/

/-- Where a frame's code and hash come from, the hash stands for the
code. -/
theorem Loaded.standsFor {d : StateDB} {code : Bytes} {hash : Hash} (h : Loaded d code hash)
    (hd : ∀ a, d.Keyed a) : StandsFor hash code := by
  cases h with
  | none hcode => exact .inr (.inr (.inl hcode))
  | init hhash => exact hhash.elim .inl (fun h => .inr (.inl h))
  | @account d₁ d₂ a h₁ h₂ hcode hhash =>
    have hshown : code = (d₂.getAccount a).codeOf d₂.tx a := by
      rw [hcode, h₁.getCode_fst, ← h₂.getCode_fst]
      exact StateObject.getCode_fst d₂.tx a _
    rw [hshown, hhash]
    exact StateObject.Keyed.standsFor ((KeysKept.of_le h₂.le).keyed a (hd a))

/-- What comes before the code of a frame keeps the hashes, and a
creation leaves its account without one. -/
theorem Opening.keysKept_prepare (o : Opening) (env : Env) (caller : Address) (d : StateDB) :
    KeysKept d (o.prepare env caller d) :=
  (o.calls_prepare env caller d).keysKept fun _ => Op.keepsCode_of_isPlain

theorem Opening.unkeyed_prepare (env : Env) (caller addr : Address) (value : Int) (d : StateDB) :
    ((Opening.create addr value).prepare env caller d).Unkeyed addr := by
  have hafter : Calls (fun o => o.isPlain) (d.createAccount addr)
      ((Opening.create addr value).prepare env caller d) := by
    unfold prepare
    dsimp only
    split_ifs
    · exact Calls.transfer (.of_op (.setNonce addr 1) rfl rfl) caller addr value
    · exact Calls.transfer (.refl _) caller addr value
  exact (hafter.keysKept fun _ => Op.keepsCode_of_isPlain).unkeyed addr
    (unkeyed_createAccount d addr)

section Frames

variable {env : Env}

theorem Opens.keysKept {caller : Address} {o : Opening} {e : Evm} {base : StateDB} {child : Frame}
    (h : Opens env caller o e base child) : KeysKept e.statedb child.evm.statedb :=
  ((KeysKept.of_le h.reads.le).trans (o.keysKept_prepare env caller base)).trans
    (.of_le h.statedb.le)

/-- Closing a frame: the account of a creation was made in it, and has no
code hash since. -/
theorem Closes.keysKept {caller : Address} {o : Opening} {e e' : Evm} {base : StateDB}
    {child f : Frame} {b : Status} {kept : Bool} (ho : Opens env caller o e base child)
    (hr : Runs env b child f) (hc : Closes o base kept e f.evm e')
    (hwf : e.statedb.accessList.WF) (hk : KeysKept child.evm.statedb f.evm.statedb) :
    KeysKept e.statedb e'.statedb := by
  cases kept with
  | false => exact .of_le (hc.le_caller ho hr hwf)
  | true =>
    refine (ho.keysKept.trans hk).trans ?_
    have hst := hc.statedb
    cases o with
    | call | code | static =>
      rw [show e'.statedb = f.evm.statedb from hst]
      exact .refl _
    | create addr value =>
      obtain heq | ⟨code, heq⟩ : e'.statedb = f.evm.statedb
          ∨ ∃ code, e'.statedb = f.evm.statedb.setCode addr code := hst
      · rw [heq]
        exact .refl _
      · rw [heq]
        refine .setCode (hk.unkeyed addr ?_) code
        exact (KeysKept.of_le ho.statedb.le).unkeyed addr
          (Opening.unkeyed_prepare env caller addr value base)

/-- **A run lets accounts go by their own hashes**, however it ends. -/
theorem Runs.keysKept {b : Status} {s t : Frame} (h : Runs env b s t)
    (hwf : s.evm.statedb.accessList.WF) : KeysKept s.evm.statedb t.evm.statedb := by
  have hgas : ∀ {s : Frame} {g : GasFn} {n : UInt64} {st : GasSt}, s.GasEnds env g n st →
      KeysKept s.evm.statedb st.statedb :=
    fun h => h.refunding.calls.keysKept fun _ => Op.keepsCode_of_refunding
  induction h with
  | refl s => exact .refl _
  | quiet _ hq ih =>
    exact (ih hwf).trans (hq.evm.warm.keysKept fun _ h => Op.keepsCode_of_refunding (.inl h))
  | stop _ _ ih => exact ih hwf
  | write f x y _ _ hf _ hd ih =>
    exact (ih hwf).trans ((WriteFn.calls_apply hf hd).keysKept fun _ => Op.keepsCode_of_isPlain)
  | sstore _ _ _ hg _ hd ih =>
    exact ((ih hwf).trans (hgas (.of_ok hg))).trans (Op.keysKept (o := .setState _ _ _) rfl hd)
  | selfdestruct _ _ hg _ ih => exact (ih hwf).trans (hgas (.of_ok hg))
  | gasFailed _ _ _ hg hq ih =>
    exact ((ih hwf).trans (hgas hg)).trans
      (hq.evm.warm.keysKept fun _ h => Op.keepsCode_of_refunding (.inl h))
  | jump _ _ _ ih => exact ih hwf
  | claim _ _ ih => exact (ih hwf).trans (Op.keysKept (o := .setNonce _ _) rfl rfl)
  | frame h ha ho hr hb hk hc ih ihc =>
    have hwf' := h.wf hwf
    refine (ih hwf).trans (hc.keysKept ho hr hwf' (ihc ?_))
    exact ho.wf hwf'
  | crash h ha ho hr hag ih ihc =>
    have hwf' := h.wf hwf
    refine ((ih hwf).trans ho.keysKept).trans ?_
    rw [hag.statedb]
    exact ihc (ho.wf hwf')

end Frames

/-! ## The cache -/

/-- **A jump destination of a code**, by a fresh bitmap of it. -/
def IsJumpdest (code : Bytes) (dest : Word) : Prop :=
  dest.toNat < code.length ∧ code[dest.toNat]? = some JUMPDEST
    ∧ ∃ bits, codeBitmap code = some bits ∧ bits.codeSegment dest.toNat = some true

/-- **`validJumpdest` answered**, without indexing outside a bitmap, and
as a fresh bitmap of the contract's own code would have it. No code is
longer than a slice can be. -/
def Event.JumpSound : Event → Prop
  | .jumpdest code dest answer =>
    ∃ b, answer = some b ∧ (code.length < 2 ^ 63 → (b = true ↔ IsJumpdest code dest))
  | _ => True

/-- The codes that were looked up. -/
def jumpCodes (trace : List Event) : Set Bytes :=
  {code | ∃ dest answer, Event.jumpdest code dest answer ∈ trace}

section Contracts

variable {C : Set Bytes} (hinj : Set.InjOn keccak256Hash C) {c : Contract}
  {m : GoMap Hash Bitvec}

/-- A contract whose analysis, if it has one, is that of its code. -/
def Contract.Analysed (c : Contract) : Prop :=
  ∀ bits, c.analysis = some bits → codeBitmap c.code = some bits

include hinj in
/-- **`isCode` uses the bitmap of the contract's own code**, wherever it
finds it. -/
theorem Contract.isCode_sound (hC : c.code ∈ C) (hm : Memo.Sound keccak256Hash codeBitmap C m)
    (hc : c.codeHash = 0 ∨ c.codeHash = keccak256Hash c.code) (ha : c.Analysed) (pos : Nat) :
    (∃ bits, codeBitmap c.code = some bits ∧ (c.isCode m pos).1 = bits.codeSegment pos)
      ∧ (c.isCode m pos).2.1.Analysed
      ∧ Memo.Sound keccak256Hash codeBitmap C (c.isCode m pos).2.2 := by
  obtain ⟨bits, hbits, -⟩ := codeBitmap_length c.code
  -- the contract once it has the bitmap stashed
  have hstash : ∀ bits', codeBitmap c.code = some bits' →
      ({ c with analysis := some bits' } : Contract).Analysed := by
    intro bits' hb bits'' hb'
    cases hb'
    exact hb
  unfold isCode
  cases han : c.analysis with
  | some analysis => exact ⟨⟨analysis, ha _ han, rfl⟩, ha, hm⟩
  | none =>
    dsimp only
    split_ifs with hzero
    · have hkey : c.codeHash = keccak256Hash c.code := hc.resolve_left hzero
      cases hlook : m c.codeHash with
      | some analysis =>
        have hown : codeBitmap c.code = some analysis := hm.lookup hinj hC (hkey ▸ hlook)
        exact ⟨⟨analysis, hown, rfl⟩, hstash _ hown, hm⟩
      | none =>
        simp only [hbits]
        refine ⟨⟨bits, rfl, rfl⟩, hstash _ hbits, ?_⟩
        rw [hkey]
        exact hm.update hC hbits
    · simp only [hbits]
      exact ⟨⟨bits, rfl, rfl⟩, hstash _ hbits, hm⟩

include hinj in
/-- **`validJumpdest` answers for the contract's own code.** -/
theorem Contract.validJumpdest_sound (hC : c.code ∈ C)
    (hm : Memo.Sound keccak256Hash codeBitmap C m) (hc : StandsFor c.codeHash c.code)
    (hd : ¬ c.Designator) (ha : c.Analysed) (dest : Word) :
    (Event.jumpdest c.code dest (c.validJumpdest m dest).1).JumpSound
      ∧ (c.validJumpdest m dest).2.1.Analysed
      ∧ Memo.Sound keccak256Hash codeBitmap C (c.validJumpdest m dest).2.2 := by
  -- the answers that need no bitmap
  have hfalse : (c.code.length < 2 ^ 63 → ¬ IsJumpdest c.code dest) →
      (Event.jumpdest c.code dest (some false)).JumpSound := by
    intro h
    exact ⟨false, rfl, fun hl => iff_of_false Bool.false_ne_true (h hl)⟩
  unfold validJumpdest Word.uint64WithOverflow
  by_cases h64 : dest.toNat < 2 ^ 64
  · have hn : (Word.uint64 dest).toNat = dest.toNat := by
      rw [Word.uint64, UInt64.toNat_ofNat', Nat.mod_eq_of_lt h64]
    rw [if_pos (by simpa [Word.isUint64] using h64)]
    dsimp only
    rw [hn]
    split_ifs with hlen hop
    · exact ⟨hfalse fun _ hj => absurd hj.1 (Nat.not_lt.mpr hlen), ha, hm⟩
    · refine ⟨hfalse fun _ hj => hop ?_, ha, hm⟩
      rw [List.getD_eq_getElem?_getD, hj.2.1]
      rfl
    · have hne : c.code ≠ [] := by
        rintro h
        rw [h] at hlen
        exact hlen (Nat.zero_le _)
      have hkey : c.codeHash = 0 ∨ c.codeHash = keccak256Hash c.code := by
        obtain h | h | h | h := hc
        · exact .inl h
        · exact .inr h
        · exact absurd h hne
        · exact absurd h hd
      obtain ⟨⟨bits, hbits, hans⟩, hrest⟩ := isCode_sound hinj hC hm hkey ha dest.toNat
      refine ⟨?_, hrest⟩
      rw [hans]
      -- the bitmap has a bit for the position
      have hlt : dest.toNat < c.code.length := Nat.not_le.mp hlen
      obtain ⟨bits', hbits', hl⟩ := codeBitmap_length c.code
      obtain rfl := Option.some.inj (hbits.symm.trans hbits')
      obtain ⟨b, hb⟩ := Option.isSome_iff_exists.mp
        (bits.codeSegment_isSome dest.toNat (by omega))
      refine ⟨b, hb, fun _ => ⟨fun htrue => ⟨hlt, ?_, bits, hbits, htrue ▸ hb⟩, fun hj => ?_⟩⟩
      · have hop' : c.code.getD dest.toNat 0 = JUMPDEST := not_not.mp hop
        rwa [List.getD_eq_getElem?_getD, List.getElem?_eq_getElem hlt, Option.getD_some,
          ← Option.some_inj, ← List.getElem?_eq_getElem hlt] at hop'
      · obtain ⟨-, -, bits'', hbits'', hseg⟩ := hj
        obtain rfl := Option.some.inj (hbits.symm.trans hbits'')
        exact Option.some.inj (hb.symm.trans hseg)
  · rw [if_neg (by simpa [Word.isUint64] using h64)]
    refine ⟨hfalse fun hl hj => ?_, ha, hm⟩
    have := hj.1
    omega

end Contracts

/-! ## Over a run -/

/-- **A frame whose cache is sound**, for the codes in `C`. -/
structure Frame.Cached (C : Set Bytes) (s : Frame) : Prop where
  jumpdests : Memo.Sound keccak256Hash codeBitmap C s.evm.jumpdests
  sound : ∀ v ∈ s.evm.trace, v.JumpSound
  contract : StandsFor s.contract.codeHash s.contract.code
  analysed : s.contract.Analysed

omit [Keccak] in
theorem Grows.jumpCodes_subset {P : Event → Prop} {t t' : List Event} (h : Grows P t t') :
    jumpCodes t ⊆ jumpCodes t' := by
  obtain ⟨es, rfl, -⟩ := h
  rintro code ⟨dest, answer, hmem⟩
  exact ⟨dest, answer, List.mem_append_right es hmem⟩

omit [Keccak] in
theorem Event.jumpSound_of_kind {v : Event} (h : (v.isGas ∨ v.isRefund) ∨ v.isRecord) :
    v.JumpSound := by
  cases v with
  | jumpdest => rcases h with (h | h) | h <;> exact absurd h Bool.false_ne_true
  | _ => exact trivial

namespace Frame.Cached

variable {env : Env} {C : Set Bytes} {s t : Frame}

/-- A step that leaves the map and the contract alone, and records no
jump. -/
theorem next {P : Event → Prop} (h : s.Cached C) (hP : ∀ v, P v → v.JumpSound)
    (hj : t.evm.jumpdests = s.evm.jumpdests) (htr : Grows P s.evm.trace t.evm.trace)
    (hcode : t.contract.code = s.contract.code) (hhash : t.contract.codeHash = s.contract.codeHash)
    (ha : t.contract.analysis = s.contract.analysis) : t.Cached C where
  jumpdests := hj ▸ h.jumpdests
  sound := htr.forall_mem hP h.sound
  contract := by
    rw [hcode, hhash]
    exact h.contract
  analysed bits hbits := by
    rw [hcode]
    exact h.analysed bits (ha ▸ hbits)

theorem quiet (h : s.Cached C) (hq : s.Quiet t) : t.Cached C :=
  h.next (fun _ hv => Event.jumpSound_of_kind (.inl (.inl hv))) hq.evm.jumpdests hq.evm.trace
    hq.code hq.codeHash hq.analysis

theorem putGasSt {g : GasFn} {n : UInt64} {st : GasSt} (h : s.Cached C)
    (hg : s.GasEnds env g n st) : (s.putGasSt st).Cached C :=
  h.next (fun _ hv => Event.jumpSound_of_kind (.inl hv)) rfl hg.refunding.trace rfl rfl rfl

/-- A frame starts with a sound cache if the one that opens it has one. -/
theorem opens {caller : Address} {o : Opening} {base : StateDB} {child : Frame}
    (h : s.Cached C) (hkeyed : ∀ a, s.evm.statedb.Keyed a)
    (ho : Opens env caller o s.evm base child) : child.Cached C where
  jumpdests := by
    obtain hj | hj := ho.jumpdests
    · rw [hj]
      exact h.jumpdests
    · rw [hj]
      exact Memo.sound_empty _ _ _
  sound := ho.grows.forall_mem (fun _ hv => Event.jumpSound_of_kind (.inr hv)) h.sound
  contract := by
    refine ho.loaded.standsFor fun a => ?_
    exact ((KeysKept.of_le ho.reads.le).trans (o.keysKept_prepare env caller base)).keyed a
      (hkeyed a)
  analysed bits hbits := by
    rw [ho.analysis] at hbits
    cases hbits

/-- What a frame leaves behind for the one that opened it. -/
theorem closes {e : Evm} {f : Frame} {P : Event → Prop} (h : s.Cached C) (hf : f.Cached C)
    (hP : ∀ v, P v → v.JumpSound) (hj : e.jumpdests = f.evm.jumpdests)
    (htr : Grows P f.evm.trace e.trace) : ({ s with evm := e } : Frame).Cached C :=
  ⟨hj ▸ hf.jumpdests, htr.forall_mem hP hf.sound, h.contract, h.analysed⟩

end Frame.Cached

section Runs

variable {env : Env} {b : Status} {s t : Frame}

/-- **The cache stays sound along a run**, if the hash tells the codes of
the run apart. -/
theorem Runs.cached {C : Set Bytes} (hinj : Set.InjOn keccak256Hash C) (h : Runs env b s t)
    (hwf : s.evm.statedb.accessList.WF) (hkeyed : ∀ a, s.evm.statedb.Keyed a)
    (hC : jumpCodes t.evm.trace ⊆ C) (hs : s.Cached C) : t.Cached C := by
  induction h with
  | refl s => exact hs
  | quiet _ hq ih => exact (ih hwf hkeyed (hq.evm.trace.jumpCodes_subset.trans hC) hs).quiet hq
  | stop _ _ ih => exact ih hwf hkeyed hC hs
  | claim _ _ ih =>
    have h := ih hwf hkeyed hC hs
    exact ⟨h.jumpdests, h.sound, h.contract, h.analysed⟩
  | @write _ t d _ f _ _ _ _ _ _ _ ih =>
    have hgrows := t.wrote_grows f d
    exact (ih hwf hkeyed (hgrows.jumpCodes_subset.trans hC) hs).next
      (fun _ hv => Event.jumpSound_of_kind (.inr hv)) rfl hgrows rfl rfl rfl
  | sstore _ _ _ hg _ _ ih =>
    have hg := Frame.GasEnds.of_ok hg
    have h := (ih hwf hkeyed (hg.refunding.trace.jumpCodes_subset.trans hC) hs).putGasSt hg
    exact ⟨h.jumpdests, h.sound, h.contract, h.analysed⟩
  | selfdestruct _ _ hg _ ih =>
    have hg := Frame.GasEnds.of_ok hg
    exact (ih hwf hkeyed (hg.refunding.trace.jumpCodes_subset.trans hC) hs).putGasSt hg
  | gasFailed _ _ _ hg hq ih =>
    have hC' := hq.evm.trace.jumpCodes_subset.trans hC
    exact ((ih hwf hkeyed (hg.refunding.trace.jumpCodes_subset.trans hC') hs).putGasSt hg).quiet hq
  | @jump s t dest _ hd ih =>
    have hcons := Grows.cons (P := fun _ => True)
      (e := .jumpdest t.contract.code dest (t.contract.validJumpdest t.evm.jumpdests dest).1)
      trivial t.evm.trace
    have ht := ih hwf hkeyed (hcons.jumpCodes_subset.trans hC) hs
    have hmem : t.contract.code ∈ C := hC ⟨dest, _, List.mem_cons_self⟩
    obtain ⟨hsound, ha, hm⟩ :=
      Contract.validJumpdest_sound hinj hmem ht.jumpdests ht.contract hd ht.analysed dest
    obtain ⟨analysis, hcontract⟩ := t.contract.validJumpdest_contract t.evm.jumpdests dest
    refine ⟨hm, fun v hv => ?_, ?_, ha⟩
    · obtain rfl | hv := List.mem_cons.mp hv
      · exact hsound
      · exact ht.sound v hv
    · unfold Frame.jumped
      dsimp only
      rw [hcontract]
      exact ht.contract
  | frame h _ ho hr _ _ hc ih ihc =>
    have hwf' := h.wf hwf
    have hf := hc.grows.jumpCodes_subset.trans hC
    have ht := ih hwf hkeyed
      ((ho.grows.jumpCodes_subset.trans hr.trace.jumpCodes_subset).trans hf) hs
    have hkeyed' := fun a => (h.keysKept hwf).keyed a (hkeyed a)
    have hchild := ihc (ho.wf hwf')
      (fun a => ho.keysKept.keyed a (hkeyed' a)) hf (ht.opens hkeyed' ho)
    refine ht.closes hchild (fun v hv => Event.jumpSound_of_kind ?_) hc.jumpdests hc.grows
    exact hv.imp .inl id
  | crash h _ ho hr hag ih ihc =>
    have hwf' := h.wf hwf
    have hf := (show jumpCodes _ ⊆ _ from hag.trace ▸ hC)
    have ht := ih hwf hkeyed
      ((ho.grows.jumpCodes_subset.trans hr.trace.jumpCodes_subset).trans hf) hs
    have hkeyed' := fun a => (h.keysKept hwf).keyed a (hkeyed a)
    have hchild := ihc (ho.wf hwf')
      (fun a => ho.keysKept.keyed a (hkeyed' a)) hf (ht.opens hkeyed' ho)
    exact ht.closes hchild (fun _ hv => Event.jumpSound_of_kind (.inl (.inl hv))) hag.jumpdests
      (hag.trace ▸ .refl _)

end Runs

/-- **The cache of jump analyses is sound** in every message to a fresh
EVM, whatever the bytecode and however it ends, if the accounts of the
state go by their own hashes and the hash tells the codes of the run
apart. -/
theorem Evm.jumpdests_sound (env : Env) (fuel : Nat) (caller : Address) (m : Method)
    {d : StateDB} (hs : Reachable d) (hkeyed : ∀ a, d.Keyed a) :
    Sat (m.exec env fuel caller) { statedb := d }
      (fun _ e' => Set.InjOn keccak256Hash (jumpCodes e'.trace) → ∀ v ∈ e'.trace, v.JumpSound)
      (fun _ e' => Set.InjOn keccak256Hash (jumpCodes e'.trace) → ∀ v ∈ e'.trace, v.JumpSound) := by
  have hstart : ∀ C, (outside { statedb := d } caller).Cached C := fun C =>
    ⟨Memo.sound_empty _ _ C, by simp [outside], .inr (.inr (.inl rfl)),
      by simp [outside, Contract.Analysed]⟩
  refine (m.exec_runs env fuel caller rfl rfl).mono (fun _ e' h hinj => ?_) (fun _ e' h hinj => ?_)
  all_goals exact (h.cached hinj hs.wf hkeyed subset_rfl (hstart _)).sound

omit [Keccak]

/-- A contract that jumps to its last byte. -/
theorem Evm.jumpdests_sound_jump :
    letI := Keccak.digests
    let code : Bytes := [0x60, 0x03, 0x56, 0x5b]
    let tx : StorageTx := .single 0x1000 { codeHash := Hash.bytes (keccak256Hash code) } code
    ∃ r e', (Method.call 0x1000 [] 100 0).exec {} 5 1 { statedb := newStateDB tx } = .ok r e'
      ∧ e'.trace.filter (fun v => !v.isGas) = [.jumpdest code 3 (some true)]
      ∧ IsJumpdest code 3 := by
  let _ := Keccak.digests
  intro code tx
  refine Exists.imp (fun r => Exists.imp (fun e' h => ⟨h.1, h.2, ?_⟩))
    (exists_of_sat (by decide +kernel))
  obtain ⟨hrun, htrace⟩ := h
  have hmem : ∀ v, v ∈ e'.trace ∧ v.isGas = false ↔ v = .jumpdest code 3 (some true) := by
    intro v
    rw [← List.mem_singleton (a := v), ← htrace, List.mem_filter, Bool.not_eq_true']
  have hcodes : ∀ x ∈ jumpCodes e'.trace, x = code := by
    rintro x ⟨dest, answer, hx⟩
    exact (Event.jumpdest.inj ((hmem _).mp ⟨hx, rfl⟩)).1
  have hkeyed := (codeInv_newStateDB tx).keyed (codeStore_single rfl)
  obtain ⟨b, hb, hiff⟩ :=
    (jumpdests_sound {} 5 1 (.call 0x1000 [] 100 0) (.new tx) hkeyed).of_ok hrun
    (fun x hx y hy _ => (hcodes x hx).trans (hcodes y hy).symm) _ ((hmem _).mpr rfl).1
  exact (hiff (by decide)).mp (Option.some.inj hb).symm

/-- The code of two accounts without code is overridden, and the first
calls the second after a jump of its own. The second is given the bitmap
of the first, and its jump to a `JUMPDEST` is refused. -/
theorem Evm.jumpdest_of_other_code :
    letI := Keccak.digests
    let first : Bytes := [0x60, 0x03, 0x56, 0x5b, 0x60, 0x00, 0x60, 0x00, 0x60, 0x00, 0x60, 0x00,
      0x60, 0x00, 0x61, 0x20, 0x00, 0x61, 0xff, 0xff, 0xf1]
    let second : Bytes := [0x60, 0x05, 0x56, 0x00, 0x00, 0x5b]
    let eoa : Account := { nonce := 1, codeHash := Hash.bytes emptyCode }
    let tx : StorageTx := { StorageTx.empty with accountData := fun _ => some eoa }
    let d := ((newStateDB tx).setCode 0x1000 first).setCode 0x2000 second
    Reachable d
      ∧ (∃ r e', (Method.call 0x1000 [] 100000 0).exec {} 20 1 { statedb := d } = .ok r e'
        ∧ .jumpdest second 5 (some false) ∈ e'.trace)
      ∧ IsJumpdest second 5 :=
  letI := Keccak.digests
  ⟨.op (.setCode 0x2000 _) (.op (.setCode 0x1000 _) (.new _) trivial rfl) trivial rfl,
    exists_of_sat (by decide +kernel), by decide, rfl, _, rfl, rfl⟩
