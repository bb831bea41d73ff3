import CardinalEvm.DoCall
import CardinalEvm.Solvency

/-!
# Submitting transactions

`SendRawTransaction` checks a signed transaction against the latest state
and hands it to an emitter. It remembers the hashes it has seen in a cache
and refuses what is in it as already known. A transaction enters the cache
before it is checked, so one that was refused – because its sender could
not pay at the time, say – is refused from then on
(`Submission.unblocked_iff`).
-/

/-! ## Transactions -/

/-- The types of transactions, with what blob transactions have more. -/
inductive TxKind where
  | legacy | accessList | dynamicFee | blob (feeCap : ℕ) (gas : UInt64) | setCode
  deriving DecidableEq

/-- **A signed transaction**, decoded. Its price is its fee cap, in all
types, and in the first two its tip cap as well. It is in memory with its
data. -/
structure SignedTx where
  hash : Hash
  kind : TxKind := .legacy
  nonce : UInt64 := 0
  gas : UInt64
  gasFeeCap : ℕ := 0
  gasTipCap : ℕ := 0
  recipient : Option Address := none
  value : ℤ := 0
  data : Bytes := []
  accessList : TxAccessList := {}
  authList : AuthList := {}
  /-- Whom the signature recovers to, by the rules for signatures at a
  block – nobody if it is invalid. For a transaction that was decoded this
  is what its signer says (`Types.Transaction.submitted`). -/
  sender : ChainConfig → Header → Option Address
  data_fits : data.length < 2 ^ 48 := by decide

namespace SignedTx

variable (tx : SignedTx)

/-- `Transaction.Cost`. -/
def cost : ℤ :=
  let total : ℤ := tx.gasFeeCap * tx.gas.toNat
  let total := match tx.kind with
    | .blob feeCap gas => total + feeCap * gas.toNat
    | _ => total
  total + tx.value

/-- `Transaction.AsMessage`, with the price that is paid at the base
fee. -/
def asMessage (sender : Address) (baseFee : Option ℕ) (checkNonce : Bool) : Message where
  sender := sender
  recipient := tx.recipient
  nonce := tx.nonce
  value := tx.value
  gas := tx.gas
  gasPrice := match baseFee with
    | some baseFee => min (tx.gasTipCap + baseFee) tx.gasFeeCap
    | none => tx.gasFeeCap
  gasFeeCap := some tx.gasFeeCap
  gasTipCap := some tx.gasTipCap
  data := tx.data
  accessList := tx.accessList
  authList := tx.authList
  checkNonce := checkNonce

end SignedTx

/-! ## The checks -/

/-- **Why a submission is refused.** -/
inductive SendErr where
  | undecodable
  | alreadyKnown
  | emptyAuthList
  | setCodeTxCreate
  /-- The state cannot be opened. -/
  | view
  | cancelled
  /-- "This api is not configured for accepting transactions". -/
  | notConfigured
  | invalidSignature
  | nonceTooLow
  | gasLimit
  | gasLimitTooHigh
  | negativeValue
  | insufficientFunds
  | gasUintOverflow
  | intrinsicGas
  /-- The emitter returned an error. -/
  | emitter
  deriving DecidableEq

/-- A check. -/
def refuseIf (p : Prop) [Decidable p] (e : SendErr) : Except SendErr Unit :=
  if p then .error e else .ok ()

theorem refuseIf_bind {p : Prop} [Decidable p] {e : SendErr} {k : Except SendErr Unit} :
    (do refuseIf p e; k) = .ok () ↔ ¬ p ∧ k = .ok () := by
  unfold refuseIf
  split_ifs with hp
  · exact ⟨nofun, fun h => absurd hp h.1⟩
  · exact ⟨fun h => ⟨hp, h⟩, fun h => h.2⟩

namespace SignedTx

variable (tx : SignedTx)

/-- `big.Int.SetInt64(int64(header.Time))`. -/
def signedTime (header : Header) : ℤ := header.time.toInt64.toInt

/-- The intrinsic gas as it is calculated for a submission. -/
def submittedGas (chaincfg : ChainConfig) (header : Header) : Except TxErr UInt64 :=
  intrinsicGas tx.data tx.accessList tx.authList tx.recipient.isNone true
    (chaincfg.isIstanbul header.number) (chaincfg.isShanghai (signedTime header) header.number)

/-- **The checks of a submission** against a state: the part of
`SendRawTransaction` between the signature and the emitter. -/
def checkState (chaincfg : ChainConfig) (header : Header) (d : StateDB) (sender : Address) :
    Except SendErr Unit := do
  let (n, d) := d.getNonce sender
  refuseIf (tx.nonce < n) .nonceTooLow
  refuseIf (header.gasLimit < tx.gas) .gasLimit
  refuseIf (chaincfg.isOsaka header.time.toNat header.number ∧ Params.maxTxGas < tx.gas)
    .gasLimitTooHigh
  refuseIf (tx.value < 0) .negativeValue
  refuseIf ((d.getBalance sender).1 < tx.cost) .insufficientFunds
  match tx.submittedGas chaincfg header with
  | .error _ => .error .gasUintOverflow
  | .ok gas => refuseIf (tx.gas < gas) .intrinsicGas

end SignedTx

/-- **What a submission finds**: whether its context is done, the state
that is the latest, and the emitter – nothing, or its answer. -/
structure Node where
  cancelled : Bool := false
  chain : Option (ChainConfig × Header × StateDB)
  emitter : Option Bool := some true

namespace SignedTx

variable (tx : SignedTx)

/-- The checks of a transaction that sets code. -/
def checkSetCode : Except SendErr Unit :=
  if tx.kind = .setCode then do
    refuseIf (tx.authList.auths.length = 0) .emptyAuthList
    refuseIf (tx.recipient = none) .setCodeTxCreate
  else .ok ()

/-- **A submission of a transaction that is not known**, up to its
emission. -/
def submit (node : Node) : Except SendErr Unit := do
  tx.checkSetCode
  match node.chain with
  | none => .error .view
  | some (chaincfg, header, d) =>
    refuseIf node.cancelled .cancelled
    match node.emitter with
    | none => .error .notConfigured
    | some accepts =>
      match tx.sender chaincfg header with
      | none => .error .invalidSignature
      | some sender =>
        tx.checkState chaincfg header d sender
        refuseIf (accepts = false) .emitter

variable {tx}

/-- What is emitted was checked for its sender. -/
theorem exists_of_submit {node : Node} (h : tx.submit node = .ok ()) :
    ∃ chaincfg header d sender, node.chain = some (chaincfg, header, d) ∧
      tx.sender chaincfg header = some sender ∧
      tx.checkState chaincfg header d sender = .ok () := by
  obtain ⟨⟨⟩, -, h⟩ := exceptBind_eq_ok.mp h
  rcases hchain : node.chain with _ | ⟨chaincfg, header, d⟩
  · rw [hchain] at h
    cases h
  rw [hchain] at h
  replace h := (refuseIf_bind.mp h).2
  cases hemitter : node.emitter with
  | none =>
    rw [hemitter] at h
    cases h
  | some accepts =>
    rw [hemitter] at h
    cases hsender : tx.sender chaincfg header with
    | none =>
      simp only [hsender] at h
      cases h
    | some sender =>
      simp only [hsender] at h
      obtain ⟨⟨⟩, hcheck, -⟩ := exceptBind_eq_ok.mp h
      exact ⟨_, _, _, _, rfl, hsender, hcheck⟩

end SignedTx

/-! ## The cache -/

/-- **The cache of the library**, as far as it is used: `lru.New` with the
size 8192, and `ContainsOrAdd`, which says whether a key is in the cache
and otherwise puts it there. -/
structure SentCache where
  Cache : Type
  new : Cache
  containsOrAdd : Hash → StateM Cache Bool

namespace SentCache

/-- A new cache after these keys were given to it. -/
def after (lru : SentCache) (keys : List Hash) : lru.Cache :=
  keys.foldl (fun cache key => (lru.containsOrAdd key cache).2) lru.new

/-- **What the library promises**: as long as fewer keys were given to the
cache than it has room for, `ContainsOrAdd` says whether a key is one of
them. -/
def Remembers (lru : SentCache) : Prop :=
  ∀ keys key, keys.toFinset.card < 8192 →
    (lru.containsOrAdd key (lru.after keys)).1 = decide (key ∈ keys)

/-- A cache that forgets nothing. -/
def unbounded : SentCache := ⟨List Hash, [], fun key keys => (decide (key ∈ keys), key :: keys)⟩

theorem remembers_unbounded : unbounded.Remembers := by
  have hafter : ∀ keys : List Hash, unbounded.after keys = keys.reverse :=
    fun keys => List.reverse_eq_iff.mp List.reverse_foldl
  intro keys key _
  rw [hafter]
  exact decide_eq_decide.mpr List.mem_reverse

end SentCache

section Cached

variable (lru : SentCache)

/-- **`SendRawTransaction`** of something that may decode. -/
def sendRawTransaction (node : Node) (input : Option SignedTx) :
    StateM lru.Cache (Except SendErr Unit) := do
  match input with
  | none => return .error .undecodable
  | some tx =>
    if ← lru.containsOrAdd tx.hash then return .error .alreadyKnown
    return tx.submit node

/-- The cache is asked first, and a transaction that it does not know is
in it from then on. -/
theorem sendRawTransaction_some (node : Node) (tx : SignedTx) (cache : lru.Cache) :
    sendRawTransaction lru node (some tx) cache
      = (if (lru.containsOrAdd tx.hash cache).1 then .error .alreadyKnown else tx.submit node,
        (lru.containsOrAdd tx.hash cache).2) := by
  show (if (lru.containsOrAdd tx.hash cache).1 then
      pure (.error .alreadyKnown) else pure (tx.submit node) :
        StateM lru.Cache (Except SendErr Unit)) (lru.containsOrAdd tx.hash cache).2 = _
  split_ifs <;> rfl

/-! ## Histories -/

/-- A submission, and what it finds. -/
structure Submission where
  node : Node
  input : Option SignedTx

namespace Submission

/-- The hash of a submission that decodes. -/
def hash (s : Submission) : Option Hash := s.input.map SignedTx.hash

/-- The hashes of a history. -/
def hashes (subs : List Submission) : List Hash := subs.filterMap hash

/-- The cache after a history. -/
def cacheAfter (subs : List Submission) : lru.Cache :=
  subs.foldl (fun cache s => (sendRawTransaction lru s.node s.input cache).2) lru.new

/-- **How a submission ends after a history**: `ok` if the transaction was
emitted. -/
def outcome (pre : List Submission) (s : Submission) : Except SendErr Unit :=
  (sendRawTransaction lru s.node s.input (cacheAfter lru pre)).1

/-- **Submissions that were refused do not block later ones**: no
transaction is emitted twice, and one that is refused as already known was
emitted before. -/
structure Unblocked (subs : List Submission) : Prop where
  once : ∀ pre s mid s' post, subs = pre ++ s :: (mid ++ s' :: post) →
    outcome lru pre s = .ok () → outcome lru (pre ++ s :: mid) s' = .ok () → s.hash ≠ s'.hash
  known : ∀ pre s post, subs = pre ++ s :: post → outcome lru pre s = .error .alreadyKnown →
    ∃ pre' s' mid, pre = pre' ++ s' :: mid ∧ s'.hash = s.hash ∧ outcome lru pre' s' = .ok ()

variable {lru} {subs : List Submission} {h : Hash}

theorem mem_hashes :
    h ∈ hashes subs ↔ ∃ s ∈ subs, s.hash = some h := List.mem_filterMap

/-- **Each submission that decodes gives its hash to the cache**, whatever
becomes of it. -/
theorem cacheAfter_eq_after (subs : List Submission) :
    cacheAfter lru subs = lru.after (hashes subs) := by
  induction subs using List.reverseRecOn with
  | nil => rfl
  | append_singleton subs s ih =>
    have hcache : cacheAfter lru (subs ++ [s])
        = (sendRawTransaction lru s.node s.input (cacheAfter lru subs)).2 := by
      unfold cacheAfter
      rw [List.foldl_append]
      rfl
    have hhashes : hashes (subs ++ [s]) = hashes subs ++ s.hash.toList := by
      unfold hashes
      rw [List.filterMap_append]
      cases hs : s.hash <;> simp [hs]
    rw [hcache, ih, hhashes]
    cases hs : s.input with
    | none =>
      rw [hash, hs, Option.map_none, Option.toList_none, List.append_nil]
      rfl
    | some tx =>
      rw [sendRawTransaction_some, hash, hs, SentCache.after, SentCache.after, List.foldl_append]
      rfl

/-- What is refused as already known was submitted before. -/
theorem outcome_of_mem (hlru : lru.Remembers) {pre : List Submission}
    (hfew : (hashes pre).toFinset.card < 8192) {s : Submission} {tx : SignedTx}
    (hs : s.input = some tx) :
    outcome lru pre s
      = if tx.hash ∈ hashes pre then .error .alreadyKnown else tx.submit s.node := by
  rw [outcome, hs, sendRawTransaction_some, cacheAfter_eq_after, hlru _ _ hfew]
  simp only [decide_eq_true_eq]

/-- The first submission of a hash in a history. -/
theorem exists_first (hmem : h ∈ hashes subs) :
    ∃ pre s post, subs = pre ++ s :: post ∧ s.hash = some h ∧ h ∉ hashes pre := by
  induction subs with
  | nil => cases hmem
  | cons s subs ih =>
    by_cases hs : s.hash = some h
    · exact ⟨[], s, subs, rfl, hs, List.not_mem_nil⟩
    · have htail : h ∈ hashes subs := by
        obtain ⟨s', hs', heq⟩ := mem_hashes.mp hmem
        obtain rfl | hs' := List.mem_cons.mp hs'
        · exact absurd heq hs
        · exact mem_hashes.mpr ⟨s', hs', heq⟩
      obtain ⟨pre, s', post, rfl, hs', hpre⟩ := ih htail
      refine ⟨s :: pre, s', post, rfl, hs', fun hin => ?_⟩
      obtain ⟨s'', hs'', heq⟩ := mem_hashes.mp hin
      obtain rfl | hs'' := List.mem_cons.mp hs''
      · exact hs heq
      · exact hpre (mem_hashes.mpr ⟨s'', hs'', heq⟩)

/-- There is one first submission of a hash. -/
theorem first_unique {pre pre' post post' : List Submission} {s s' : Submission}
    (heq : pre ++ s :: post = pre' ++ s' :: post') (hs : s.hash = some h) (hs' : s'.hash = some h)
    (hpre : h ∉ hashes pre) (hpre' : h ∉ hashes pre') : pre = pre' ∧ s = s' := by
  have hhead : ∀ {t : Submission} {ts}, t.hash = some h → h ∈ hashes (t :: ts) :=
    fun ht => mem_hashes.mpr ⟨_, List.mem_cons_self, ht⟩
  have htail : ∀ {t : Submission} {ts}, h ∉ hashes (t :: ts) → h ∉ hashes ts := by
    intro t ts hnot hin
    obtain ⟨u, hu, hh⟩ := mem_hashes.mp hin
    exact hnot (mem_hashes.mpr ⟨u, List.mem_cons_of_mem _ hu, hh⟩)
  induction pre generalizing pre' with
  | nil =>
    cases pre' with
    | nil => exact ⟨rfl, (List.cons.inj heq).1⟩
    | cons t pre' =>
      obtain ⟨rfl, -⟩ := List.cons.inj heq
      exact absurd (hhead hs) hpre'
  | cons t pre ih =>
    cases pre' with
    | nil =>
      obtain ⟨rfl, -⟩ := List.cons.inj heq
      exact absurd (hhead hs') hpre
    | cons t' pre' =>
      obtain ⟨rfl, hrest⟩ := List.cons.inj heq
      obtain ⟨rfl, hss⟩ := ih hrest (htail hpre) (htail hpre')
      exact ⟨rfl, hss⟩

/-- Only the cache knows what is already known. -/
theorem submit_ne_alreadyKnown (tx : SignedTx) (node : Node) :
    tx.submit node ≠ .error .alreadyKnown := by
  have hbind : ∀ {m k : Except SendErr Unit}, m ≠ .error .alreadyKnown →
      k ≠ .error .alreadyKnown → (do m; k) ≠ .error .alreadyKnown := by
    intro m k hm hk
    cases m with
    | ok _ => exact hk
    | error e => exact hm
  have hrefuse : ∀ (p : Prop) [Decidable p] {e : SendErr}, e ≠ .alreadyKnown →
      refuseIf p e ≠ .error .alreadyKnown := by
    intro p _ e he h
    unfold refuseIf at h
    split_ifs at h
    exact he (Except.error.inj h)
  have hset : tx.checkSetCode ≠ .error .alreadyKnown := by
    unfold SignedTx.checkSetCode
    split_ifs
    · exact hbind (hrefuse _ nofun) (hrefuse _ nofun)
    · nofun
  refine hbind hset ?_
  split
  · nofun
  · refine hbind (hrefuse _ nofun) ?_
    split
    · nofun
    · split
      · nofun
      · refine hbind ?_ (hrefuse _ nofun)
        refine hbind (hrefuse _ nofun) (hbind (hrefuse _ nofun) (hbind (hrefuse _ nofun)
          (hbind (hrefuse _ nofun) (hbind (hrefuse _ nofun) ?_))))
        split
        · nofun
        · exact hrefuse _ nofun

/-- **Refused submissions do not block later ones** exactly if, whenever a
transaction is submitted more than once, its first submission passes the
checks it is subject to at the time. -/
theorem unblocked_iff (hlru : lru.Remembers) (subs : List Submission)
    (hfew : (hashes subs).toFinset.card < 8192) :
    Unblocked lru subs ↔ ∀ pre s mid s' post tx tx', subs = pre ++ s :: (mid ++ s' :: post) →
      s.input = some tx → s'.input = some tx' → tx.hash = tx'.hash → tx.hash ∉ hashes pre →
      tx.submit s.node = .ok () := by
  have hpre : ∀ {pre post}, subs = pre ++ post → (hashes pre).toFinset.card < 8192 := by
    rintro pre post rfl
    refine (Finset.card_le_card fun h hh => ?_).trans_lt hfew
    rw [List.mem_toFinset, mem_hashes] at hh ⊢
    obtain ⟨s, hs, heq⟩ := hh
    exact ⟨s, List.mem_append_left _ hs, heq⟩
  have hhash : ∀ {s : Submission} {tx : SignedTx}, s.input = some tx → s.hash = some tx.hash := by
    intro s tx hs
    rw [hash, hs]
    rfl
  -- what was emitted had not been submitted before
  have hfirst : ∀ {pre post : List Submission} {s : Submission}, subs = pre ++ s :: post →
      outcome lru pre s = .ok () →
      ∃ tx, s.input = some tx ∧ tx.hash ∉ hashes pre ∧ tx.submit s.node = .ok () := by
    intro pre post s hsubs hok
    cases hs : s.input with
    | none =>
      rw [outcome, hs] at hok
      cases hok
    | some tx =>
      rw [outcome_of_mem hlru (hpre hsubs) hs] at hok
      split_ifs at hok with hin
      exact ⟨tx, rfl, hin, hok⟩
  constructor
  · intro h pre s mid s' post tx tx' hsubs hs hs' heq hnew
    have hsubs' : subs = (pre ++ s :: mid) ++ s' :: post := by simp [hsubs]
    have hknown : outcome lru (pre ++ s :: mid) s' = .error .alreadyKnown := by
      rw [outcome_of_mem hlru (hpre hsubs') hs',
        if_pos (heq ▸ mem_hashes.mpr ⟨s, by simp, hhash hs⟩)]
    obtain ⟨pre', s'', mid', happ, hsame, hok⟩ := h.known _ s' post hsubs' hknown
    have hsubs'' : subs = pre' ++ s'' :: (mid' ++ s' :: post) := by
      rw [hsubs', happ, List.append_assoc, List.cons_append]
    obtain ⟨tx'', hs'', hnew', hsubmit⟩ := hfirst hsubs'' hok
    have htx : tx''.hash = tx.hash := by
      rw [hhash hs'', hhash hs', ← heq] at hsame
      exact Option.some.inj hsame
    obtain ⟨rfl, rfl⟩ := first_unique happ (hhash hs) (htx ▸ hhash hs'') hnew (htx ▸ hnew')
    obtain rfl := Option.some.inj (hs.symm.trans hs'')
    exact hsubmit
  · intro h
    refine ⟨?_, ?_⟩
    · intro pre s mid s' post hsubs hok hok' heq
      have hsubs' : subs = (pre ++ s :: mid) ++ s' :: post := by simp [hsubs]
      obtain ⟨tx', hs', hnew, -⟩ := hfirst hsubs' hok'
      exact hnew (mem_hashes.mpr ⟨s, by simp, heq.trans (hhash hs')⟩)
    · intro pre s post hsubs hknown
      cases hs : s.input with
      | none =>
        rw [outcome, hs] at hknown
        cases hknown
      | some tx =>
        rw [outcome_of_mem hlru (hpre hsubs) hs] at hknown
        split_ifs at hknown with hin
        · obtain ⟨pre', s', mid, rfl, hs', hnew⟩ := exists_first hin
          obtain ⟨tx', htx', hhash'⟩ := Option.map_eq_some_iff.mp hs'
          rw [List.append_assoc, List.cons_append] at hsubs
          have hok := h _ _ _ _ _ _ _ hsubs htx' hs hhash' (hhash' ▸ hnew)
          refine ⟨pre', s', mid, rfl, hs'.trans (hhash hs).symm, ?_⟩
          rw [outcome_of_mem hlru (hpre hsubs) htx', if_neg (hhash' ▸ hnew)]
          exact hok
        · exact absurd hknown (submit_ne_alreadyKnown tx s.node)

section Resubmitted

/-- A call at a price of 7, signed by a key of `0x3000`. -/
def call : SignedTx where
  hash := 1
  gas := 21000
  gasFeeCap := 7
  gasTipCap := 7
  recipient := some 0x1000
  accessList := default
  authList := default
  sender _ _ := some 0x3000

/-- It is submitted while its sender owns a balance. -/
def ofBalance (balance : ℕ) : Submission where
  node :=
    { chain := some ((View.london false).chaincfg,
        { baseFee := some 7, gasLimit := 30000 }, StateDB.newStateDB (.sender balance)) }
  input := some call

/-- **A sender who was funded too late**: the first submission is refused
for lack of funds. Once the sender is funded the same transaction passes
every check, but its second submission is refused as already known,
although it was never emitted. -/
theorem not_unblocked :
    let lru := SentCache.unbounded
    let subs := [ofBalance 0, ofBalance 1000000]
    lru.Remembers
      ∧ (hashes subs).toFinset.card < 8192
      ∧ outcome lru [] (ofBalance 0) = .error .insufficientFunds
      ∧ call.submit (ofBalance 1000000).node = .ok ()
      ∧ outcome lru [ofBalance 0] (ofBalance 1000000) = .error .alreadyKnown
      ∧ ¬ Unblocked lru subs := by
  intro lru subs
  have hfirst : outcome lru [] (ofBalance 0) = .error .insufficientFunds := by decide +kernel
  have hsecond : outcome lru [ofBalance 0] (ofBalance 1000000) = .error .alreadyKnown := by
    decide +kernel
  refine ⟨SentCache.remembers_unbounded, by decide, hfirst, by decide +kernel, hsecond,
    fun h => ?_⟩
  obtain ⟨pre, s, mid, happ, -, hok⟩ := h.known [ofBalance 0] _ [] rfl hsecond
  cases pre with
  | nil =>
    obtain ⟨rfl, -⟩ := List.cons.inj happ
    cases hfirst.symm.trans hok
  | cons s' pre => exact absurd (List.cons.inj happ).2 (by simp)

/-- A sender who was funded from the start. -/
theorem unblocked_iff_funded :
    let lru := SentCache.unbounded
    let subs := [ofBalance 1000000, ofBalance 0]
    lru.Remembers ∧ (hashes subs).toFinset.card < 8192 ∧ Unblocked lru subs := by
  have hlru := SentCache.remembers_unbounded
  refine ⟨hlru, by decide, (unblocked_iff hlru _ (by decide)).mpr ?_⟩
  intro pre s mid s' post tx tx' hsubs hs hs' heq hnew
  cases pre with
  | nil =>
    obtain ⟨rfl, -⟩ := List.cons.inj hsubs
    cases hs
    decide +kernel
  | cons s'' pre =>
    obtain ⟨rfl, hrest⟩ := List.cons.inj hsubs
    cases pre with
    | nil | cons _ pre => exact absurd (List.cons.inj hrest).2 (by simp)

end Resubmitted

end Submission

end Cached
