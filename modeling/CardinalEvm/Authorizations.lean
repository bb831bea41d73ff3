import CardinalEvm.CallRefinement
import CardinalEvm.StateTransition

/-!
# Authorizations

An authorization of EIP-7702 lets an account delegate to the code of
another. It is skipped if it is for another chain, has no valid
signature, has a nonce other than the account's, or the account has code
that is no delegation. `applyAuthorization` checks all of this, but not
as `ParseDelegation` does: it compares the first three bytes of the code,
without asking whether there are three, and whether there are as many as
in a delegation. Nor does it ask whether the nonce can be counted up.

What it does to the account is right where the account is there to do it
to: an account that was destroyed in an earlier message has no code, and
setting some does not change that. The refund is for accounts that
exist, and `Exist` may change its mind once the account is loaded.
-/

variable [Keccak]

/-! ## What an authorization should do -/

/-- The code of an account that delegates: none if it delegates to the
zero address. -/
def delegationCode (target : Address) : Bytes :=
  if target = 0 then [] else [0xef, 0x01, 0x00] ++ target.bytes

/-- **An authorization that has to be rejected.** -/
def Authorization.Rejected (chainID : Option ℤ) (d : StateDB) (auth : Authorization) : Prop :=
  (auth.chainID ≠ 0 ∧ chainID ≠ some (auth.chainID.toNat : ℤ)) ∨ auth.authority = none ∨
    ∃ a, auth.authority = some a ∧ ((d.getNonce a).1 ≠ auth.nonce ∨ auth.nonce.toNat = 2 ^ 64 - 1 ∨
      ((d.getCode a).1 ≠ [] ∧ parseDelegation (d.getCode a).1 = none))

namespace StateDB

/-- **What belongs to no account** is as it was, apart from whether one
address is on the access list. -/
structure SameAround (x : Option Address) (s t : StateDB) : Prop where
  getTransientState : ∀ b k, t.getTransientState b k = s.getTransientState b k
  addressInAccessList : ∀ b, some b ≠ x → t.addressInAccessList b = s.addressInAccessList b
  slotInAccessList : ∀ b k, some b ≠ x → t.slotInAccessList b k = s.slotInAccessList b k
  slots : ∀ b k, (t.slotInAccessList b k).map Prod.snd = (s.slotInAccessList b k).map Prod.snd

/-- **An account that has delegated**, with what this does to the
state. -/
structure Delegated (a target : Address) (s t : StateDB) : Prop where
  getCode : (t.getCode a).1 = delegationCode target
  getNonce : (t.getNonce a).1.toNat = (s.getNonce a).1.toNat + 1
  refund : t.refund = s.refund + if (s.exist a).1 then 12500 else 0
  getBalance : (t.getBalance a).1 = (s.getBalance a).1
  getState : ∀ k, (t.getState a k).1 = (s.getState a k).1
  getCommittedState : ∀ k, (t.getCommittedState a k).1 = (s.getCommittedState a k).1
  hasSuicided : (t.hasSuicided a).1 = (s.hasSuicided a).1
  others : ∀ b, b ≠ a → SameReadsAt s t b

end StateDB

open StateDB

/-- **What processing an authorization should do**: it does not panic, and
either rejects the authorization, or carries it out, and nothing else. -/
def AuthorizationLaw (env : Env) (auth : Authorization) (e : Evm) : Prop :=
  ∃ err e', Evm.applyAuthorization env auth e = .ok err e' ∧
    SameAround auth.authority e.statedb e'.statedb ∧
    (auth.Rejected env.chainID e.statedb → err ≠ none ∧ e'.statedb.refund = e.statedb.refund ∧
      ∀ b, SameReadsAt e.statedb e'.statedb b) ∧
    (¬ auth.Rejected env.chainID e.statedb → ∀ a, auth.authority = some a →
      err = none ∧ Delegated a auth.address e.statedb e'.statedb)

/-! ## What warming an address does -/

namespace StateDB

section Around

omit [Keccak]

variable {s t u : StateDB} {x : Option Address}

theorem SameAround.trans (h : SameAround x s t) (h' : SameAround x t u) : SameAround x s u where
  getTransientState b k := (h'.getTransientState b k).trans (h.getTransientState b k)
  addressInAccessList b hb := (h'.addressInAccessList b hb).trans (h.addressInAccessList b hb)
  slotInAccessList b k hb := (h'.slotInAccessList b k hb).trans (h.slotInAccessList b k hb)
  slots b k := (h'.slots b k).trans (h.slots b k)

/-- States with the same transient storage and the same access list. -/
theorem SameAround.of_eq (htransient : ∀ b k, t.getTransientState b k = s.getTransientState b k)
    (hal : t.accessList = s.accessList) (halcalc : t.alcalc = s.alcalc) : SameAround x s t := by
  have hslot : ∀ b k, t.slotInAccessList b k = s.slotInAccessList b k := fun b k => by
    rw [StateDB.slotInAccessList, StateDB.slotInAccessList, hal, halcalc]
  refine ⟨htransient, fun b _ => ?_, fun b k _ => hslot b k, fun b k => by rw [hslot]⟩
  rw [StateDB.addressInAccessList, StateDB.addressInAccessList, hal, halcalc]

theorem SameAround.refl (x : Option Address) (s : StateDB) : SameAround x s s :=
  .of_eq (fun _ _ => rfl) rfl rfl

/-- **Warming an address** changes nothing else: it has no slots on the
list yet. -/
theorem sameAround_addAddressToAccessList (s : StateDB) (a : Address) :
    SameAround (some a) s (s.addAddressToAccessList a) := by
  unfold addAddressToAccessList AccessList.addAddress
  cases hidx : s.accessList.addresses a with
  | some idx => exact .refl _ _
  | none =>
    have hother : ∀ b, b ≠ a → Function.update s.accessList.addresses a (some (-1)) b
        = s.accessList.addresses b := fun b hb => Function.update_of_ne hb _ _
    have hcontains : ∀ b k, b ≠ a → AccessList.contains
        ⟨Function.update s.accessList.addresses a (some (-1)), s.accessList.slots⟩ b k
          = s.accessList.contains b k := fun b k hb => by
      simp only [AccessList.contains, AccessList.slotsAt, hother b hb]
    refine ⟨fun _ _ => rfl, fun b hb => ?_, fun b k hb => ?_, fun b k => ?_⟩
    · have hb' : b ≠ a := fun h => hb (congrArg some h)
      simp [StateDB.addressInAccessList, AccessList.containsAddress, hother b hb']
    · have hb' : b ≠ a := fun h => hb (congrArg some h)
      simp [StateDB.slotInAccessList, hcontains b k hb']
    · by_cases hb : b = a
      · subst hb
        cases halcalc : s.alcalc <;>
          simp [StateDB.slotInAccessList, AccessList.contains, hidx, halcalc]
      · simp [StateDB.slotInAccessList, hcontains b k hb]

end Around

theorem Le.sameAround {s t : StateDB} (h : Le s t) (x : Option Address) : SameAround x s t :=
  .of_eq h.transient h.accessList h.alcalc

/-- No account is touched by it. -/
theorem view_addAddressToAccessList (s : StateDB) (a b : Address) :
    (s.addAddressToAccessList a).view b = s.view b := by
  obtain ⟨al, es, h, -⟩ := addAddressToAccessList_eq s a
  rw [h]
  rfl

/-! ## What delegating does to the account -/

/-- Whether the account exists once its code and its nonce are read. -/
def existsLoaded (d : StateDB) (a : Address) : Bool := (((d.getCode a).2.getNonce a).2.exist a).1

/-- **A state after an authorization was carried out**, from one that has
loaded what was read of the authority. -/
def Enrolled (auth : Authorization) (a : Address) (s t : StateDB) : Prop :=
  ∃ u, Le (s.addAddressToAccessList a) u ∧
    t = ((if s.existsLoaded a then u.addRefund 12500 else u).setCode a
      (delegationCode auth.address)).setNonce a (auth.nonce + 1)

section Writes

variable (v : StateDB) (a : Address) (code : Bytes) (n : UInt64)

theorem getAccount_setCode_setNonce :
    ((v.setCode a code).setNonce a n).getAccount a
      = { v.getAccount a with code := some ⟨code, keccak256Hash code⟩, nonce := some n } := by
  have hcode : (v.setCode a code).getAccount a
      = { v.getAccount a with code := some ⟨code, keccak256Hash code⟩ } :=
    getAccount_setAccount v a _
  have hnonce : ((v.setCode a code).setNonce a n).getAccount a
      = { (v.setCode a code).getAccount a with nonce := some n } :=
    getAccount_setAccount (v.setCode a code) a _
  rw [hnonce, hcode]

theorem getCode_setCode_setNonce :
    (((v.setCode a code).setNonce a n).getCode a).1
      = if (v.getAccount a).deleted then [] else code := by
  show (StateObject.getCode v.tx a _).1 = _
  rw [StateObject.getCode_fst, getAccount_setCode_setNonce]
  rfl

theorem getNonce_setCode_setNonce : (((v.setCode a code).setNonce a n).getNonce a).1 = n := by
  show (StateObject.getNonce v.tx a _).1 = n
  rw [StateObject.getNonce_fst, getAccount_setCode_setNonce]
  rfl

theorem view_setCode_setNonce_of_ne {b : Address} (h : b ≠ a) :
    ((v.setCode a code).setNonce a n).view b = v.view b :=
  (view_setAccount_of_ne h (v.setCode a code) _).trans (view_setAccount_of_ne h v _)

theorem getBalance_setCode_setNonce :
    (((v.setCode a code).setNonce a n).getBalance a).1 = (v.getBalance a).1 := by
  rw [getBalance_fst, getBalance_fst, getAccount_setCode_setNonce]
  rfl

theorem getState_setCode_setNonce (k : Hash) :
    (((v.setCode a code).setNonce a n).getState a k).1 = (v.getState a k).1 := by
  show (StateObject.getState v.tx a _ _).1 = (StateObject.getState v.tx a _ _).1
  rw [StateObject.getState_fst, StateObject.getState_fst, getAccount_setCode_setNonce]
  rfl

theorem getCommittedState_setCode_setNonce (k : Hash) :
    (((v.setCode a code).setNonce a n).getCommittedState a k).1 = (v.getCommittedState a k).1 := by
  show (StateObject.getCommittedState v.tx a _ _).1 = (StateObject.getCommittedState v.tx a _ _).1
  rw [StateObject.getCommittedState_eq, StateObject.getCommittedState_eq,
    getAccount_setCode_setNonce]
  rfl

theorem hasSuicided_setCode_setNonce :
    (((v.setCode a code).setNonce a n).hasSuicided a).1 = (v.hasSuicided a).1 := by
  show (((v.setCode a code).setNonce a n).getAccount a).suicided = _
  rw [getAccount_setCode_setNonce]
  rfl

end Writes

section Enrolment

variable {auth : Authorization} {a : Address} {s t : StateDB}

/-- The state an authority is written to shows what it showed before,
and has the refund. -/
theorem Enrolled.written (h : Enrolled auth a s t) :
    ∃ v : StateDB, v.tx = s.tx ∧ (∀ b, v.view b = s.view b)
      ∧ v.refund = (s.refund + if s.existsLoaded a then 12500 else 0) ∧ SameAround (some a) s v
      ∧ t = (v.setCode a (delegationCode auth.address)).setNonce a (auth.nonce + 1) := by
  obtain ⟨u, hle, rfl⟩ := h
  obtain ⟨al, es, hal, -⟩ := addAddressToAccessList_eq s a
  have htx : u.tx = s.tx := hle.tx.trans (by rw [hal])
  have hview : ∀ b, u.view b = s.view b := fun b =>
    (hle.view b).trans (view_addAddressToAccessList s a b)
  have hrefund : u.refund = s.refund := hle.refund.trans (by rw [hal])
  have haround : SameAround (some a) s u :=
    (sameAround_addAddressToAccessList s a).trans (hle.sameAround _)
  refine ⟨_, ?_, ?_, ?_, ?_, rfl⟩
  all_goals split_ifs
  · exact htx
  · exact htx
  · exact hview
  · exact hview
  · exact congrArg (· + 12500) hrefund
  · rw [hrefund, UInt64.add_zero]
  · exact haround.trans (.of_eq (fun _ _ => rfl) rfl rfl)
  · exact haround

theorem Enrolled.sameAround (h : Enrolled auth a s t) : SameAround (some a) s t := by
  obtain ⟨v, -, -, -, haround, rfl⟩ := h.written
  exact haround.trans (.of_eq (fun _ _ => rfl) rfl rfl)

theorem Enrolled.refund (h : Enrolled auth a s t) :
    t.refund = s.refund + if s.existsLoaded a then 12500 else 0 := by
  obtain ⟨v, -, -, hrefund, -, rfl⟩ := h.written
  exact hrefund

theorem Enrolled.getCode (h : Enrolled auth a s t) :
    (t.getCode a).1 = if (s.getAccount a).deleted then [] else delegationCode auth.address := by
  obtain ⟨v, -, hview, -, -, rfl⟩ := h.written
  have hdeleted : (v.view a).deleted = (s.view a).deleted := by rw [hview a]
  change (v.getAccount a).deleted = (s.getAccount a).deleted at hdeleted
  rw [getCode_setCode_setNonce, hdeleted]

/-- **An authority that is there to write to**, with a nonce that can be
counted up, delegates. -/
theorem Enrolled.delegated (h : Enrolled auth a s t) (hnonce : (s.getNonce a).1 = auth.nonce)
    (hmax : auth.nonce.toNat ≠ 2 ^ 64 - 1) (hexist : (s.exist a).1 = s.existsLoaded a)
    (hdeleted : (s.getAccount a).deleted = true → auth.address = 0) :
    Delegated a auth.address s t := by
  have hcode := h.getCode
  have hrefund := h.refund
  obtain ⟨v, htx, hview, -, -, rfl⟩ := h.written
  have hreads : SameReadsAt s v a := .of_view htx (hview a)
  refine ⟨?_, ?_, ?_, ?_, fun k => ?_, fun k => ?_, ?_, fun b hb => ?_⟩
  · rw [hcode]
    split_ifs with hd
    · rw [hdeleted hd]
      rfl
    · rfl
  · rw [getNonce_setCode_setNonce, hnonce]
    have hlt := auth.nonce.toNat_lt
    rw [UInt64.toNat_add]
    exact Nat.mod_eq_of_lt (show auth.nonce.toNat + 1 < 2 ^ 64 by omega)
  · rw [hrefund, hexist]
  · exact (getBalance_setCode_setNonce ..).trans hreads.getBalance
  · exact (getState_setCode_setNonce ..).trans (hreads.getState k)
  · exact (getCommittedState_setCode_setNonce ..).trans (hreads.getCommittedState k)
  · exact (hasSuicided_setCode_setNonce ..).trans hreads.hasSuicided
  · exact .of_view htx ((view_setCode_setNonce_of_ne _ _ _ _ hb).trans (hview b))

end Enrolment

end StateDB

/-! ## Processing one authorization -/

/-- The code at the authority is none, or begins like a delegation. -/
def delegationLike (code : Bytes) : Bool := code.isEmpty || code.take 3 == [0xef, 0x01, 0x00]

/-- The authorization is for this chain. -/
def Authorization.ForChain (chainID : Option ℤ) (auth : Authorization) : Prop :=
  auth.chainID = 0 ∨ chainID = some (auth.chainID.toNat : ℤ)

/-- What `applyAuthorization` accepts. -/
def Authorization.Accepted (auth : Authorization) (a : Address) (d : StateDB) : Prop :=
  delegationLike (d.getCode a).1 = true ∧ (d.getNonce a).1 = auth.nonce

namespace Evm

variable {env : Env} {auth : Authorization} {e : Evm} {a : Address}

omit [Keccak] in
theorem authorizedChain_of_forChain (h : auth.ForChain env.chainID) :
    authorizedChain env auth e = .ok true e := by
  unfold authorizedChain
  split_ifs with h0
  · rfl
  · have hid : env.chainID = some (auth.chainID.toNat : ℤ) := h.resolve_left h0
    rw [hid]
    simp [pure, EStateM.pure]

omit [Keccak] in
theorem authorizedChain_of_other {id : ℤ} (h : ¬ auth.ForChain env.chainID)
    (hid : env.chainID = some id) : authorizedChain env auth e = .ok false e := by
  obtain ⟨h0, hother⟩ := not_or.mp h
  have hne : (auth.chainID.toNat : ℤ) ≠ id := fun heq => hother (by rw [hid, heq])
  unfold authorizedChain
  rw [if_neg h0, hid]
  simp [pure, EStateM.pure, hne]

omit [Keccak] in
theorem sat_hasOtherCode (code : Bytes) :
    Sat (hasOtherCode code) e
      (fun other e' => e' = e ∧ code.length ≠ 1 ∧ code.length ≠ 2 ∧ other = !delegationLike code)
      (fun _ _ => code.length = 1 ∨ code.length = 2) := by
  unfold hasOtherCode delegationLike
  refine .ite (fun hnil => ?_) fun hcons => .ite (fun hshort => ?_) fun hlong => ?_
  · obtain rfl := List.isEmpty_iff.mp hnil
    exact ⟨rfl, by decide, by decide, rfl⟩
  · have hpos : code.length ≠ 0 := fun h => hcons (List.isEmpty_iff_length_eq_zero.mpr h)
    show code.length = 1 ∨ code.length = 2
    omega
  · refine ⟨rfl, by omega, by omega, ?_⟩
    rw [Bool.eq_false_iff.mpr hcons, Bool.false_or]
    by_cases hlike : code.take 3 = [0xef, 0x01, 0x00] <;> simp [hlike]

/-- What is written of an authority. -/
theorem sat_delegate (a : Address) (auth : Authorization) {E : Fault → Evm → Prop} :
    Sat (delegate a auth) e (fun _ e' => e'.statedb =
      ((if (e.statedb.exist a).1 then (e.statedb.exist a).2.addRefund 12500
        else (e.statedb.exist a).2).setCode a (delegationCode auth.address)).setNonce a
          (auth.nonce + 1)) E := by
  refine .bind (sat_onDb.mpr (.bind (.ite (fun hex => ?_) fun hex => ?_)))
  · rw [if_pos hex]
    rfl
  · rw [if_neg hex]
    rfl

/-- **What processing an authorization for this chain does**: it panics on
code of one or two bytes, and otherwise carries the authorization out if
it accepts it, and only warms the authority if not. -/
theorem sat_applyAuthorization (hchain : auth.ForChain env.chainID)
    (ha : auth.authority = some a) :
    Sat (applyAuthorization env auth) e
      (fun err e' => (e.statedb.getCode a).1.length ≠ 1 ∧ (e.statedb.getCode a).1.length ≠ 2
        ∧ (auth.Accepted a e.statedb → err = none ∧ Enrolled auth a e.statedb e'.statedb)
        ∧ (¬ auth.Accepted a e.statedb → err ≠ none
          ∧ Le (e.statedb.addAddressToAccessList a) e'.statedb))
      (fun _ _ => (e.statedb.getCode a).1.length = 1 ∨ (e.statedb.getCode a).1.length = 2) := by
  obtain ⟨al, es, hal, -⟩ := addAddressToAccessList_eq e.statedb a
  have hgetCode : ((e.statedb.addAddressToAccessList a).getCode a).1 = (e.statedb.getCode a).1 := by
    rw [hal]
    rfl
  have hgetNonce : (((e.statedb.addAddressToAccessList a).getCode a).2.getNonce a).1
      = (e.statedb.getNonce a).1 := by
    rw [hal]
    exact (loads_getCode e.statedb a).le.sameReads.getNonce a
  have hexist : ((((e.statedb.addAddressToAccessList a).getCode a).2.getNonce a).2.exist a).1
      = e.statedb.existsLoaded a := by
    rw [hal]
    rfl
  have hcode := (loads_getCode (e.statedb.addAddressToAccessList a) a).le
  have hnonce := hcode.trans (loads_getNonce _ a).le
  refine .bind (.returns (authorizedChain_of_forChain hchain) ?_)
  rw [ha]
  refine .bind (sat_setDb.mpr (.bind (sat_onDb.mpr (.bind ((sat_hasOtherCode _).mono ?_ ?_)))))
  · rintro other e' ⟨rfl, hone, htwo, rfl⟩
    rw [hgetCode] at hone htwo ⊢
    refine .ite (fun hother => ?_) fun hlike => ?_
    · refine ⟨hone, htwo, fun hacc => ?_, fun _ => ⟨Option.some_ne_none _, hcode⟩⟩
      rw [hacc.1] at hother
      exact absurd hother Bool.false_ne_true
    · have hlike' : delegationLike (e.statedb.getCode a).1 = true := by simpa using hlike
      refine .bind (sat_onDb.mpr (.ite (fun hne => ?_) fun heq => ?_))
      · refine ⟨hone, htwo, fun hacc => absurd (hgetNonce.trans hacc.2) hne, fun _ => ?_⟩
        exact ⟨Option.some_ne_none _, hnonce⟩
      · have hacc : auth.Accepted a e.statedb :=
          ⟨hlike', hgetNonce.symm.trans (not_not.mp heq)⟩
        refine (sat_delegate a auth).next fun _ e' he' => ?_
        refine ⟨hone, htwo, fun _ => ⟨rfl, ?_⟩, fun h => absurd hacc h⟩
        refine ⟨_, hnonce.trans (loads_exist _ a).le, ?_⟩
        rw [he', ← hexist]
  · intro _ _ h
    rw [hgetCode] at h
    exact h

end Evm

/-! ## The law -/

/-- **When an authorization is processed as it should be.** There is a
chain id to compare, and for one for this chain the code at the authority
is not of one or two bytes. Where the authorization is accepted, code that
begins like a delegation has the length of one, the nonce can be counted
up, a deleted authority is asked for no code, and `Exist` is not changed
by loading the account. -/
def Authorization.Sound (chainID : Option ℤ) (d : StateDB) (auth : Authorization) : Prop :=
  (auth.chainID ≠ 0 → chainID ≠ none) ∧
    (auth.ForChain chainID → ∀ a, auth.authority = some a →
      (d.getCode a).1.length ≠ 1 ∧ (d.getCode a).1.length ≠ 2 ∧
      (auth.Accepted a d → ((d.getCode a).1 = [] ∨ (d.getCode a).1.length = 23) ∧
        auth.nonce.toNat ≠ 2 ^ 64 - 1 ∧ ((d.getAccount a).deleted = true → auth.address = 0) ∧
        (d.exist a).1 = d.existsLoaded a))

section Law

variable {env : Env} {auth : Authorization} {e : Evm} {a : Address}

omit [Keccak] in
theorem delegationCode_ne_nil {target : Address} (h : target ≠ 0) : delegationCode target ≠ [] := by
  unfold delegationCode
  rw [if_neg h]
  exact List.cons_ne_nil _ _

omit [Keccak] in
/-- Code that begins like a delegation is one if it has its length. -/
theorem parseDelegation_eq_none_iff {code : Bytes} (hlike : delegationLike code = true)
    (hne : code ≠ []) : parseDelegation code = none ↔ code.length ≠ 23 := by
  have htake : code.take 3 = [0xef, 0x01, 0x00] := by
    simpa [delegationLike, hne] using hlike
  unfold parseDelegation
  simp [htake]

/-- An accepted authorization is one to reject only for the length of the
code and the size of the nonce. -/
theorem Authorization.rejected_iff_of_accepted {chainID : Option ℤ} {d : StateDB}
    (hchain : auth.ForChain chainID) (ha : auth.authority = some a) (hacc : auth.Accepted a d) :
    auth.Rejected chainID d ↔ auth.nonce.toNat = 2 ^ 64 - 1
      ∨ ((d.getCode a).1 ≠ [] ∧ (d.getCode a).1.length ≠ 23) := by
  constructor
  · rintro (⟨h0, hid⟩ | hnone | ⟨b, hb, h⟩)
    · exact absurd (hchain.resolve_left h0) hid
    · exact absurd (ha.symm.trans hnone) (Option.some_ne_none a)
    · obtain rfl : a = b := Option.some.inj (ha.symm.trans hb)
      obtain hnonce | hmax | ⟨hne, hparse⟩ := h
      · exact absurd hacc.2 hnonce
      · exact .inl hmax
      · exact .inr ⟨hne, (parseDelegation_eq_none_iff hacc.1 hne).mp hparse⟩
  · rintro (hmax | ⟨hne, hlen⟩)
    · exact .inr (.inr ⟨a, ha, .inr (.inl hmax)⟩)
    · exact .inr
        (.inr ⟨a, ha, .inr (.inr ⟨hne, (parseDelegation_eq_none_iff hacc.1 hne).mpr hlen⟩)⟩)

/-- A rejected one is to be rejected. -/
theorem Authorization.rejected_of_not_accepted (chainID : Option ℤ) {d : StateDB}
    (ha : auth.authority = some a) (hacc : ¬ auth.Accepted a d) : auth.Rejected chainID d := by
  refine .inr (.inr ⟨a, ha, ?_⟩)
  by_cases hnonce : (d.getNonce a).1 = auth.nonce
  · have hlike : delegationLike (d.getCode a).1 ≠ true := fun h => hacc ⟨h, hnonce⟩
    obtain ⟨hne, htake⟩ : (d.getCode a).1 ≠ [] ∧ (d.getCode a).1.take 3 ≠ [0xef, 0x01, 0x00] := by
      simpa [delegationLike] using hlike
    exact .inr (.inr ⟨hne, by simp [parseDelegation, htake]⟩)
  · exact .inl hnonce

/-- An authorization that stops before the authority is looked at. -/
theorem authorizationLaw_of_stopped {err : Evm.AuthErr}
    (hstop : Evm.applyAuthorization env auth e = .ok (some err) e)
    (hrej : auth.Rejected env.chainID e.statedb) : AuthorizationLaw env auth e :=
  ⟨some err, e, hstop, .refl _ _,
    fun _ => ⟨Option.some_ne_none _, rfl, fun _ => .of_view rfl rfl⟩, fun h => absurd hrej h⟩

/-- One that is for this chain, of a known authority. -/
theorem authorizationLaw_iff_of_authority (hchain : auth.ForChain env.chainID)
    (ha : auth.authority = some a) :
    AuthorizationLaw env auth e ↔
      (e.statedb.getCode a).1.length ≠ 1 ∧ (e.statedb.getCode a).1.length ≠ 2 ∧
      (auth.Accepted a e.statedb →
        ((e.statedb.getCode a).1 = [] ∨ (e.statedb.getCode a).1.length = 23) ∧
        auth.nonce.toNat ≠ 2 ^ 64 - 1 ∧
        ((e.statedb.getAccount a).deleted = true → auth.address = 0) ∧
        (e.statedb.exist a).1 = e.statedb.existsLoaded a) := by
  have hsat := Evm.sat_applyAuthorization (e := e) hchain ha
  constructor
  · rintro ⟨err, e', hok, -, hrej, hdel⟩
    obtain ⟨hone, htwo, hyes, -⟩ := hsat.of_ok hok
    refine ⟨hone, htwo, fun hacc => ?_⟩
    obtain ⟨rfl, henrolled⟩ := hyes hacc
    have hnot : ¬ auth.Rejected env.chainID e.statedb := fun h => (hrej h).1 rfl
    obtain ⟨hmax, hlen⟩ := not_or.mp
      (mt (Authorization.rejected_iff_of_accepted hchain ha hacc).mpr hnot)
    obtain ⟨-, hd⟩ := hdel hnot a ha
    refine ⟨?_, hmax, fun hdeleted => ?_, ?_⟩
    · by_contra hcon
      exact hlen (not_or.mp hcon)
    · by_contra h0
      have hcode := henrolled.getCode
      rw [hd.getCode, if_pos hdeleted] at hcode
      exact delegationCode_ne_nil h0 hcode
    · have hrefund := hd.refund.symm.trans henrolled.refund
      revert hrefund
      cases (e.statedb.exist a).1 <;> cases e.statedb.existsLoaded a <;> simp
  · rintro ⟨hone, htwo, hsound⟩
    obtain ⟨err, e', hok, -, -, hyes, hno⟩ := exists_of_sat
      (hsat.mono (fun _ _ h => h) fun _ _ h => h.elim hone htwo)
    refine ⟨err, e', hok, ?_⟩
    by_cases hacc : auth.Accepted a e.statedb
    · obtain ⟨rfl, henrolled⟩ := hyes hacc
      obtain ⟨hlen, hmax, hdeleted, hexist⟩ := hsound hacc
      have hnot : ¬ auth.Rejected env.chainID e.statedb := by
        rw [Authorization.rejected_iff_of_accepted hchain ha hacc]
        rintro (h | ⟨hne, h⟩)
        · exact hmax h
        · exact hlen.elim hne h
      rw [ha]
      refine ⟨henrolled.sameAround, fun h => absurd h hnot, fun _ b hb => ⟨rfl, ?_⟩⟩
      obtain rfl : a = b := Option.some.inj hb
      exact henrolled.delegated hacc.2 hmax hexist hdeleted
    · obtain ⟨herr, hle⟩ := hno hacc
      have hrej := Authorization.rejected_of_not_accepted env.chainID ha hacc
      obtain ⟨al, es, hal, -⟩ := addAddressToAccessList_eq e.statedb a
      rw [ha]
      refine ⟨(sameAround_addAddressToAccessList _ a).trans (hle.sameAround _),
        fun _ => ⟨herr, ?_, fun b => ?_⟩, fun h => absurd hrej h⟩
      · exact hle.refund.trans (by rw [hal])
      · exact .of_view (hle.tx.trans (by rw [hal]))
          ((hle.view b).trans (view_addAddressToAccessList _ a b))

/-- **One authorization** is processed as it should be exactly if it is
sound in the state it meets. -/
theorem authorizationLaw_iff :
    AuthorizationLaw env auth e ↔ auth.Sound env.chainID e.statedb := by
  by_cases hchain : auth.ForChain env.chainID
  · have hid : auth.chainID ≠ 0 → env.chainID ≠ none := fun h0 => by
      rw [hchain.resolve_left h0]
      exact Option.some_ne_none _
    cases ha : auth.authority with
    | none =>
      have hstop : Evm.applyAuthorization env auth e = .ok (some .invalidSignature) e := by
        simp only [Evm.applyAuthorization, bind, EStateM.bind,
          Evm.authorizedChain_of_forChain hchain, ha]
        rfl
      refine iff_of_true (authorizationLaw_of_stopped hstop (.inr (.inl ha))) ⟨hid, fun _ a h => ?_⟩
      exact absurd (ha.symm.trans h).symm (Option.some_ne_none a)
    | some a =>
      rw [authorizationLaw_iff_of_authority hchain ha]
      refine ⟨fun h => ⟨hid, fun _ b hb => ?_⟩, fun h => h.2 hchain a ha⟩
      obtain rfl : a = b := Option.some.inj (ha.symm.trans hb)
      exact h
  · obtain ⟨h0, hother⟩ := not_or.mp hchain
    cases hid : env.chainID with
    | none =>
      refine iff_of_false ?_ fun h => h.1 h0 rfl
      rintro ⟨err, e', hok, -⟩
      have hnil : Evm.authorizedChain env auth e = .error .nil e := by
        rw [Evm.authorizedChain, if_neg h0, hid]
        rfl
      simp only [Evm.applyAuthorization, bind, EStateM.bind, hnil] at hok
      cases hok
    | some id =>
      rw [← hid]
      have hstop : Evm.applyAuthorization env auth e = .ok (some .wrongChainID) e := by
        simp only [Evm.applyAuthorization, bind, EStateM.bind,
          Evm.authorizedChain_of_other hchain hid]
        rfl
      exact iff_of_true (authorizationLaw_of_stopped hstop (.inl ⟨h0, hother⟩))
        ⟨fun _ => by rw [hid]; exact Option.some_ne_none _, fun h => absurd h hchain⟩

/-! ### Lists of authorizations -/

/-- **Every authorization of a list**, in the state the ones before it
leave. -/
def EachAuthorization (env : Env) (P : Authorization → Evm → Prop) :
    List Authorization → Evm → Prop
  | [], _ => True
  | auth :: auths, e =>
    P auth e ∧ ∀ err e', Evm.applyAuthorization env auth e = .ok err e' →
      EachAuthorization env P auths e'

/-- The loop gets to the end of the list if no authorization panics. -/
theorem applyAuthorizations_returns {auths : List Authorization}
    (h : EachAuthorization env (AuthorizationLaw env) auths e) :
    ∃ e', Evm.applyAuthorizations env auths e = .ok () e' := by
  induction auths generalizing e with
  | nil => exact ⟨e, rfl⟩
  | cons auth auths ih =>
    obtain ⟨⟨err, e₁, hok, -⟩, hrest⟩ := h
    obtain ⟨e', he'⟩ := ih (hrest err e₁ hok)
    refine ⟨e', ?_⟩
    simp only [Evm.applyAuthorizations, bind, EStateM.bind, hok]
    exact he'

/-- **Authorizations are processed as they should be** – the loop over
them returns, and each is rejected or carried out, and nothing else –
exactly if each is sound in the state it meets. -/
theorem applyAuthorizations_law_iff (env : Env) (auths : List Authorization) (e : Evm) :
    ((∃ e', Evm.applyAuthorizations env auths e = .ok () e')
        ∧ EachAuthorization env (AuthorizationLaw env) auths e)
      ↔ EachAuthorization env (fun auth e => auth.Sound env.chainID e.statedb) auths e := by
  have hlaw : AuthorizationLaw env = fun auth e => auth.Sound env.chainID e.statedb := by
    funext auth e
    exact propext authorizationLaw_iff
  rw [← hlaw]
  exact ⟨fun h => h.2, fun h => ⟨applyAuthorizations_returns h, h⟩⟩

omit [Keccak] in
/-- An authority whose code was overridden with a single byte: the first
three bytes of it are out of range. -/
theorem applyAuthorization_short_code :
    letI := Keccak.digests
    let env : Env := { rules := { isPrague := true }, chainID := some 1 }
    let auth : Authorization := { chainID := 1, authority := some 0x1000, address := 0x2000 }
    let e : Evm := { statedb := (StateDB.newStateDB StorageTx.empty).setCode 0x1000 [0x00] }
    (Evm.applyAuthorizations env [auth]).run' e = none ∧ ¬ AuthorizationLaw env auth e := by
  let _ := Keccak.digests
  intro env auth e
  refine ⟨by decide +kernel, fun h => ?_⟩
  have hsound := (authorizationLaw_iff.mp h).2 (.inr rfl) 0x1000 rfl
  exact hsound.1 (by decide +kernel)

end Law
