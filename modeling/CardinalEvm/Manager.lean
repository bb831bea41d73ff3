import CardinalEvm.Construction
import CardinalEvm.FakeExponential

/-!
# Views

`EVMManager.View` opens the state of one block and hands a callback what
its signature asks for: an EVM, or a function that makes EVMs, or both.
The two are made by two pieces of code that differ, and both read and
write the variables `gasPrice` and `vmcfg` of `View` – once one of them has
settled the gas price, every EVM that is made later in the view has it.

A state, a configuration and a price are values here: the callers of
`View` neither write through the pointers they pass nor through those they
get.
-/

/-! ## Headers and chain configurations -/

/-- The fields of `types.Header` that are read. A header is decoded from
RLP, whose numbers have no sign. -/
structure Header where
  coinbase : Address := 0
  difficulty : ℕ := 0
  number : ℕ := 0
  gasLimit : UInt64 := 0
  time : UInt64 := 0
  mixDigest : Hash := 0
  baseFee : Option ℕ := none
  excessBlobGas : Option UInt64 := none
  /-- The address that the seal in `Extra` recovers to, on the chains
  whose engine keeps one there. -/
  sealer : Address := 0

/-- The base fee as a number to calculate with. -/
def Header.fee (header : Header) : Option ℤ := header.baseFee.map Nat.cast

/-- `params.Engine`. -/
inductive Engine where
  | ethash | beacon | clique | bor | unknown
  deriving DecidableEq

/-- `engine.Author`. -/
def Engine.author (header : Header) : Engine → Address
  | ethash | beacon | unknown => header.coinbase
  | clique | bor => header.sealer

/-- `params.BlobConfig`. -/
structure BlobConfig where
  activationTime : UInt64 := 0
  target : ℤ := 0
  max : ℤ := 0
  updateFraction : UInt64

/-- The fields of `params.ChainConfig` that are read. -/
structure ChainConfig where
  chainID : Option ℤ := none
  homesteadBlock : Option ℤ := none
  daoForkBlock : Option ℤ := none
  daoForkSupport : Bool := false
  eip150Block : Option ℤ := none
  eip155Block : Option ℤ := none
  eip158Block : Option ℤ := none
  byzantiumBlock : Option ℤ := none
  constantinopleBlock : Option ℤ := none
  petersburgBlock : Option ℤ := none
  istanbulBlock : Option ℤ := none
  muirGlacierBlock : Option ℤ := none
  berlinBlock : Option ℤ := none
  londonBlock : Option ℤ := none
  shanghaiBlock : Option ℤ := none
  cancunBlock : Option ℤ := none
  napoliBlock : Option ℤ := none
  pip30Block : Option ℤ := none
  pragueBlock : Option ℤ := none
  osakaBlock : Option ℤ := none
  shanghaiTime : Option ℤ := none
  cancunTime : Option ℤ := none
  pragueTime : Option ℤ := none
  osakaTime : Option ℤ := none
  disableOpcodes : List ℤ := []
  engine : Engine := .ethash
  blobSchedule : List BlobConfig := []

/-- `isBlockForked`, and `isTimestampForked`, which does the same. -/
def isForked (s : Option ℤ) (head : ℤ) : Bool := s.any (· ≤ head)

/-- A fork that is scheduled by time if a time is set, and else by
block. -/
def isForkedAt (s : Option ℤ) (block : Option ℤ) (time num : ℤ) : Bool :=
  if s.isSome then isForked s time else isForked block num

namespace ChainConfig

variable (c : ChainConfig)

def isHomestead (num : ℤ) : Bool := isForked c.homesteadBlock num

def isIstanbul (num : ℤ) : Bool := isForked c.istanbulBlock num

def isPetersburg (num : ℤ) : Bool :=
  isForked c.petersburgBlock num
    || c.petersburgBlock.isNone && isForked c.constantinopleBlock num

def isLondon (num : ℤ) : Bool := isForked c.londonBlock num

def isShanghai (time num : ℤ) : Bool := isForkedAt c.shanghaiTime c.shanghaiBlock time num

def isCancun (time num : ℤ) : Bool := isForkedAt c.cancunTime c.cancunBlock time num

def isPrague (time num : ℤ) : Bool := isForkedAt c.pragueTime c.pragueBlock time num

def isOsaka (time num : ℤ) : Bool := isForkedAt c.osakaTime c.osakaBlock time num

/-- `ChainConfig.Rules`. -/
def rules (num : ℤ) (isMerge : Bool) (timestamp : ℤ) : Rules where
  isHomestead := c.isHomestead num
  isEIP150 := isForked c.eip150Block num
  isEIP155 := isForked c.eip155Block num
  isEIP158 := isForked c.eip158Block num
  isByzantium := isForked c.byzantiumBlock num
  isConstantinople := isForked c.constantinopleBlock num
  isPetersburg := c.isPetersburg num
  isIstanbul := c.isIstanbul num
  isBerlin := isForked c.berlinBlock num
  isLondon := c.isLondon num
  isMerge := isMerge
  isShanghai := c.isShanghai timestamp num
  isCancun := c.isCancun timestamp num
  isNapoli := isForked c.napoliBlock num
  isPip30 := isForked c.pip30Block num
  isPrague := c.isPrague timestamp num
  isOsaka := c.isOsaka timestamp num

end ChainConfig

/-! ## `NewEVM` -/

/-- The fields of `vm.Config` that are read. -/
structure Config where
  noBaseFee : Bool := false
  extraEips : List ℤ := []
  deriving DecidableEq

/-- `vm.BlockContext`, with the default transfer functions. -/
structure BlockContext where
  getHash : UInt64 → Hash
  coinbase : Address
  gasLimit : UInt64
  blockNumber : ℤ
  time : ℤ
  difficulty : ℤ
  baseFee : Option ℤ
  blobBaseFee : Option ℤ
  random : Option Hash := none

/-- `vm.TxContext`. -/
structure TxContext where
  origin : Address
  gasPrice : Option ℤ
  blobHashes : List Hash
  deriving DecidableEq

/-- **An EVM as `NewEVM` makes it**: what it runs with and the state it
runs on. -/
structure EvmSetup where
  context : BlockContext
  txContext : TxContext
  statedb : StateDB
  chainConfig : ChainConfig
  chainRules : Rules
  config : Config

/-- `NewEVM`. -/
def newEVM (blockCtx : BlockContext) (txCtx : TxContext) (statedb : StateDB)
    (chainConfig : ChainConfig) (config : Config) : EvmSetup where
  context := blockCtx
  txContext := txCtx
  statedb := statedb
  chainConfig := chainConfig
  chainRules := chainConfig.rules blockCtx.blockNumber blockCtx.random.isSome blockCtx.time
  config := config

/-- **What else a run depends on**: the tables as they were found, the
extra EIPs that got enabled, the implementations of the precompiled
contracts, and the abort flag of the EVM. -/
structure Host where
  extraEips : List Eip := []
  tableEdits : List TableEdit := []
  difficultyDisabled : Bool := false
  precompiled : Precompile → Precompiled := fun _ => ⟨fun _ => 0, fun _ => ([], none)⟩
  abort : ℕ → Bool := fun _ => false

namespace EvmSetup

/-- What the interpreter of the EVM is made for. -/
def construction (e : EvmSetup) : Construction where
  rules := e.chainRules
  disableOpcodes := e.chainConfig.disableOpcodes
  extraEips := e.config.extraEips

/-- The environment its code runs in. -/
def env (host : Host) (e : EvmSetup) : Env :=
  { e.construction.env host.extraEips host.tableEdits host.difficultyDisabled with
    chainID := e.chainConfig.chainID
    coinbase := e.context.coinbase
    gasLimit := e.context.gasLimit
    blockNumber := e.context.blockNumber
    time := e.context.time
    difficulty := e.context.difficulty
    baseFee := e.context.baseFee
    blobBaseFee := e.context.blobBaseFee
    random := e.context.random
    getHash := e.context.getHash
    origin := e.txContext.origin
    gasPrice := e.txContext.gasPrice
    blobHashes := e.txContext.blobHashes
    precompiled := host.precompiled
    abort := host.abort }

end EvmSetup

/-- **`CalcBlobFee`**, with a constant update fraction. -/
def calcBlobFee (excessBlobGas : Option UInt64) : Option ℤ :=
  (excessBlobGas.bind fun excess => fakeExponential Params.blobTxMinBlobGasprice excess.toNat
    Params.blobTxBlobGaspriceUpdateFraction).map Int.ofNat

/-! ## The two ways to an EVM -/

/-- **What a view is on**: the manager's configurations, the block, and
the inputs other than a price and a configuration. -/
structure View where
  chaincfg : ChainConfig := {}
  /-- `mgr.vmcfg`. -/
  defaultCfg : Config := {}
  header : Header := {}
  /-- `tx.NumberToHash`. -/
  numberToHash : UInt64 → Hash := fun _ => 0
  sender : Address := 0
  blobHashes : List Hash := []

/-- **The variables of `View` that both ways write.** -/
structure Captured where
  gasPrice : Option ℤ := none
  vmcfg : Option Config := none

/-- The arguments of a call of the function that makes EVMs. -/
structure BuildArgs where
  sdb : StateDB
  cvmcfg : Option Config := none
  sender : Address := 0
  gp : Option ℤ := none

namespace View

variable (v : View)

/-- The literal both ways begin with. -/
def blockCtx : BlockContext where
  getHash := v.numberToHash
  coinbase := v.chaincfg.engine.author v.header
  gasLimit := v.header.gasLimit
  blockNumber := v.header.number
  time := v.header.time.toNat
  difficulty := v.header.difficulty
  baseFee := v.header.fee
  blobBaseFee := calcBlobFee v.header.excessBlobGas

/-- **The `*EVM` argument** of a callback. -/
def evm (statedb : StateDB) : StateM Captured EvmSetup := do
  modify fun c => { c with gasPrice := c.gasPrice <|> v.header.fee }
  modify fun c => { c with vmcfg := c.vmcfg <|> some v.defaultCfg }
  let c ← get
  return newEVM v.blockCtx ⟨v.sender, c.gasPrice, v.blobHashes⟩ statedb v.chaincfg
    (c.vmcfg.getD v.defaultCfg)

/-- **A call of the function argument** of a callback. -/
def evmFn (a : BuildArgs) : StateM Captured EvmSetup := do
  let blockCtx := if v.header.difficulty = 0 then
      { v.blockCtx with random := some v.header.mixDigest }
    else v.blockCtx
  modify fun c => { c with gasPrice := c.gasPrice <|> a.gp <|> v.header.fee }
  modify fun c => { c with vmcfg := c.vmcfg <|> some v.defaultCfg }
  let c ← get
  let cvmcfg := a.cvmcfg <|> c.vmcfg
  return newEVM blockCtx ⟨a.sender, c.gasPrice, v.blobHashes⟩ a.sdb v.chaincfg
    (cvmcfg.getD v.defaultCfg)

/-- The EVMs of a sequence of calls. -/
def evmFns : List BuildArgs → StateM Captured (List EvmSetup)
  | [] => return []
  | a :: as => return (← v.evmFn a) :: (← evmFns as)

/-- **A view whose callback takes an EVM or not, and makes these calls**:
the EVM it was given, made before the callback runs, and those it
made. -/
def built (statedb : Option StateDB) (calls : List BuildArgs) :
    StateM Captured (Option EvmSetup × List EvmSetup) := do
  let evm ← statedb.mapM v.evm
  return (evm, ← v.evmFns calls)

/-! ## Independence -/

/-- The block context of an EVM on the header: with the mix digest as
randomness if the difficulty is zero. -/
def headerCtx : BlockContext :=
  { v.blockCtx with
    random := if v.header.difficulty = 0 then some v.header.mixDigest else none }

/-- The price a call asks for: the one passed in it, or the base fee. -/
def askedPrice (a : BuildArgs) : Option ℤ := a.gp <|> v.header.fee

/-- **The EVM of a call is the one it asks for**: its contexts are made
of the call's own arguments and the header. -/
structure AsAsked (a : BuildArgs) (e : EvmSetup) : Prop where
  context : e.context = v.headerCtx
  txContext : e.txContext = ⟨a.sender, v.askedPrice a, v.blobHashes⟩

/-- **The EVMs of a view are independent**: in a view without a price or a
configuration among its inputs, each call of the function gives the EVM it
asks for, and the EVM the callback is given is on the same block and rules
as those. -/
structure Independent (statedb : Option StateDB) (calls : List BuildArgs) : Prop where
  made : List.Forall₂ v.AsAsked calls (v.built statedb calls {}).1.2
  given : ∀ e ∈ (v.built statedb calls {}).1.1, e.context = v.headerCtx
    ∧ e.chainRules = v.chaincfg.rules v.header.number v.headerCtx.random.isSome
        v.header.time.toNat

/-- A price that was settled is the price of all later calls. -/
def Settled (p q : Option ℤ) : Prop := p.isSome → q = p

instance (p q : Option ℤ) : Decidable (Settled p q) :=
  inferInstanceAs (Decidable (_ → _))

variable (a : BuildArgs) (c : Captured)

theorem evmFn_gasPrice :
    (v.evmFn a c).2.gasPrice = (c.gasPrice <|> v.askedPrice a) := rfl

theorem evmFn_context :
    (v.evmFn a c).1.context = v.headerCtx := by
  show (if v.header.difficulty = 0 then _ else v.blockCtx) = _
  unfold headerCtx
  split_ifs <;> rfl

theorem evmFn_chainRules :
    (v.evmFn a c).1.chainRules = v.chaincfg.rules v.header.number v.headerCtx.random.isSome
      v.header.time.toNat :=
  congrArg (fun ctx : BlockContext =>
    v.chaincfg.rules ctx.blockNumber ctx.random.isSome ctx.time) (v.evmFn_context a c)

theorem evmFn_txContext :
    (v.evmFn a c).1.txContext
      = ⟨a.sender, c.gasPrice <|> v.askedPrice a, v.blobHashes⟩ := rfl

/-- A call gets the EVM it asks for unless another price was settled. -/
theorem asAsked_evmFn_iff :
    v.AsAsked a (v.evmFn a c).1 ↔ Settled c.gasPrice (v.askedPrice a) := by
  have hprice : (c.gasPrice <|> v.askedPrice a) = v.askedPrice a
      ↔ Settled c.gasPrice (v.askedPrice a) := by
    cases c.gasPrice with
    | none => simp [Settled]
    | some p => simpa [Settled] using eq_comm
  rw [← hprice]
  constructor
  · intro h
    exact congrArg TxContext.gasPrice h.txContext
  · intro h
    exact ⟨v.evmFn_context a c, by rw [evmFn_txContext, h]⟩

/-- The first of two prices that is there is settled for the rest exactly
if each of them is. -/
theorem pairwise_settled_cons (g p : Option ℤ) (ps : List (Option ℤ)) :
    (g :: p :: ps).Pairwise Settled
      ↔ Settled g p ∧ ((g <|> p) :: ps).Pairwise Settled := by
  cases g with
  | none => simp [Settled]
  | some x =>
    simp only [List.pairwise_cons, List.mem_cons, forall_eq_or_imp]
    constructor
    · rintro ⟨⟨hp, hg⟩, -, hps⟩
      exact ⟨hp, hg, hps⟩
    · rintro ⟨hp, hg, hps⟩
      have h : p = some x := hp rfl
      exact ⟨⟨hp, hg⟩, h ▸ hg, hps⟩

/-- **The calls of a sequence get the EVMs they ask for** exactly if no
call asks for another price than one settled before it. -/
theorem asAsked_evmFns_iff (calls : List BuildArgs) (c : Captured) :
    List.Forall₂ v.AsAsked calls (v.evmFns calls c).1
      ↔ (c.gasPrice :: calls.map v.askedPrice).Pairwise Settled := by
  induction calls generalizing c with
  | nil => exact iff_of_true .nil (List.pairwise_singleton _ _)
  | cons a as ih =>
    show List.Forall₂ v.AsAsked (a :: as)
      ((v.evmFn a c).1 :: (v.evmFns as (v.evmFn a c).2).1) ↔ _
    rw [List.forall₂_cons, asAsked_evmFn_iff, ih, evmFn_gasPrice, List.map_cons,
      pairwise_settled_cons]

/-- The price that is settled when the callback starts. -/
def givenPrice (statedb : Option StateDB) : Option ℤ :=
  if statedb.isSome then v.header.fee else none

theorem built_made (statedb : Option StateDB) (calls : List BuildArgs) :
    ∃ c : Captured, (v.built statedb calls {}).1.2 = (v.evmFns calls c).1
      ∧ c.gasPrice = v.givenPrice statedb := by
  cases statedb with
  | none => exact ⟨{}, rfl, rfl⟩
  | some d => exact ⟨(v.evm d {}).2, rfl, rfl⟩

/-- The EVM the callback is given has no randomness. -/
theorem evm_given_iff (d : StateDB) (c : Captured) :
    ((v.evm d c).1.context = v.headerCtx
      ∧ (v.evm d c).1.chainRules = v.chaincfg.rules v.header.number
          v.headerCtx.random.isSome v.header.time.toNat)
      ↔ v.header.difficulty ≠ 0 := by
  have hctx : (v.evm d c).1.context = v.blockCtx := rfl
  constructor
  · rintro ⟨h, -⟩ hzero
    have hrandom := congrArg BlockContext.random (hctx.symm.trans h)
    simp [headerCtx, hzero, blockCtx] at hrandom
  · intro hne
    have h : v.headerCtx = v.blockCtx := by
      unfold headerCtx
      rw [if_neg hne]
      rfl
    rw [h]
    exact ⟨rfl, rfl⟩

/-- **Independence of the EVMs of a view.** It holds exactly if the
callback takes no EVM on a header of difficulty zero, and every call asks
for the same price as those made before it, the EVM that was given
included, once there is one. -/
theorem independent_iff (statedb : Option StateDB) (calls : List BuildArgs) :
    v.Independent statedb calls
      ↔ (statedb.isSome → v.header.difficulty ≠ 0)
        ∧ (v.givenPrice statedb :: calls.map v.askedPrice).Pairwise Settled := by
  obtain ⟨c, hmade, hc⟩ := v.built_made statedb calls
  have hgiven : (∀ e ∈ (v.built statedb calls {}).1.1, e.context = v.headerCtx
      ∧ e.chainRules = v.chaincfg.rules v.header.number v.headerCtx.random.isSome
          v.header.time.toNat) ↔ (statedb.isSome → v.header.difficulty ≠ 0) := by
    cases statedb with
    | none => exact iff_of_true (fun e he => nomatch he) (fun h => nomatch h)
    | some d =>
      rw [← v.evm_given_iff d {}]
      constructor
      · intro h _
        exact h _ rfl
      · rintro h e ⟨⟩
        exact h rfl
  rw [← hgiven, ← hc, ← asAsked_evmFns_iff, ← hmade]
  exact ⟨fun h => ⟨h.given, h.made⟩, fun h => ⟨h.2, h.1⟩⟩

/-- Of two calls with prices 1 and 2 the second gets an EVM with price 1.
And on a header of difficulty zero, whose mix digest is its randomness, a
callback is given an EVM without randomness. -/
theorem not_independent :
    ¬ ({} : View).Independent none
        [{ sdb := .newStateDB .empty, gp := some 1 }, { sdb := .newStateDB .empty, gp := some 2 }]
      ∧ ¬ ({} : View).Independent (some (.newStateDB .empty)) [] := by
  constructor
  · intro h
    have hprices := (asAsked_evmFns_iff _ _ {}).mp h.made
    revert hprices
    decide
  · intro h
    exact (evm_given_iff _ _ {}).mp (h.given _ rfl) rfl

end View
