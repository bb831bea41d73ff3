import CardinalEvm.JumpTable

/-!
# Making interpreters

`NewEVMInterpreter`, with what its calls share. The fourteen instruction
tables are variables of the package. An interpreter takes the address of
the one for its rules, writes `DIFFICULTY` over `RANDOM` and the opcodes
its chain disables into it, and makes a copy only if there are extra EIPs
to enable. So what one construction writes is in the table of every
interpreter of the same fork that has no copy of its own, those that
were made before and those that will be.

The loop over the extra EIPs removes the ones it does not know from the
slice it is ranging over. The removal moves the rest of the array down
by one, under the loop's feet.
-/

open Operation OpCode JumpTable

/-! ## The tables of the package -/

/-- The forks that have a table. -/
inductive Fork where
  | frontier | homestead | tangerineWhistle | spuriousDragon | byzantium | constantinople
  | istanbul | berlin | london | merge | shanghai | cancun | prague | osaka
  deriving DecidableEq

/-- The table of a fork, as it is when the program starts. -/
def Fork.table : Fork → JumpTable
  | frontier => newFrontierInstructionSet
  | homestead => newHomesteadInstructionSet
  | tangerineWhistle => newTangerineWhistleInstructionSet
  | spuriousDragon => newSpuriousDragonInstructionSet
  | byzantium => newByzantiumInstructionSet
  | constantinople => newConstantinopleInstructionSet
  | istanbul => newIstanbulInstructionSet
  | berlin => newBerlinInstructionSet
  | london => newLondonInstructionSet
  | merge => newMergeInstructionSet
  | shanghai => newShanghaiInstructionSet
  | cancun => newCancunInstructionSet
  | prague => newPragueInstructionSet
  | osaka => newOsakaInstructionSet

/-- The fork whose table is taken for the rules. -/
def Rules.fork (rules : Rules) : Fork :=
  if rules.isOsaka then .osaka
  else if rules.isPrague then .prague
  else if rules.isCancun then .cancun
  else if rules.isShanghai then .shanghai
  else if rules.isMerge then .merge
  else if rules.isLondon then .london
  else if rules.isBerlin then .berlin
  else if rules.isIstanbul then .istanbul
  else if rules.isConstantinople then .constantinople
  else if rules.isByzantium then .byzantium
  else if rules.isEIP158 then .spuriousDragon
  else if rules.isEIP150 then .tangerineWhistle
  else if rules.isHomestead then .homestead
  else .frontier

theorem Rules.table_fork (rules : Rules) : rules.fork.table = rules.instructionSet := by
  unfold fork instructionSet
  simp only [apply_ite Fork.table]
  rfl

/-- The instruction tables of the package. -/
abbrev Tables := Fork → JumpTable

/-- **The table of an interpreter**: the address of one of the package's,
or a copy of its own. -/
inductive TableRef where
  | shared (fork : Fork)
  | own (table : JumpTable)

/-- What an interpreter finds in its table. -/
def TableRef.read (tables : Tables) : TableRef → JumpTable
  | shared fork => tables fork
  | own table => table

/-! ## A construction -/

/-- **What an interpreter is made for**: the rules, the `DisableOpcodes`
of the chain, and the `ExtraEips` of the configuration. -/
structure Construction where
  rules : Rules := {}
  disableOpcodes : List ℤ := []
  extraEips : List ℤ := []

/-- `activators`. -/
def Eip.ofNumber : ℤ → Option Eip
  | 4844 => some eip4844
  | 7516 => some eip7516
  | 1153 => some eip1153
  | 6780 => some eip6780
  | 5656 => some eip5656
  | 3855 => some eip3855
  | 3860 => some eip3860
  | 3529 => some eip3529
  | 3198 => some eip3198
  | 2929 => some eip2929
  | 2200 => some eip2200
  | 1884 => some eip1884
  | 1344 => some eip1344
  | 7939 => some eip7939
  | _ => none

/-- An index into a table. -/
def opIndex (op : ℤ) : Option UInt8 :=
  if 0 ≤ op ∧ op < 256 then some (UInt8.ofNat op.toNat) else none

namespace Construction

/-- Whether `RANDOM` becomes `DIFFICULTY`. -/
def restoresDifficulty (k : Construction) : Bool := k.rules.isShanghai && !k.rules.isMerge

/-- The loop over `DisableOpcodes`, which panics at a number that is no
opcode. -/
def disable (ops : List ℤ) (jt : JumpTable) : Option JumpTable :=
  ops.foldlM (fun jt op => (opIndex op).map fun op => jt.set op undefined) jt

/-- `append(eips[:i], eips[i+1:]...)` on the first `len` elements of an
array, which panics if there is no `i`-th. -/
def removeAt (eips : List ℤ) (len i : ℕ) : Option (List ℤ × ℕ) :=
  if len < i + 1 then none
  else some (eips.take i ++ (eips.drop (i + 1)).take (len - (i + 1)) ++ eips.drop (len - 1),
    len - 1)

/-- One turn of the loop over `ExtraEips`: the table, the array, and how
much of the array is still the slice. -/
def enableExtra : JumpTable × List ℤ × ℕ → ℕ → Option (JumpTable × List ℤ × ℕ)
  | (jt, eips, len), i =>
    match Eip.ofNumber (eips.getD i 0) with
    | some e => some (jt.enableEIP e, eips, len)
    | none => (removeAt eips len i).map fun r => (jt, r)

/-- The loop over `ExtraEips`. The range has the length the slice had
before the loop, and reads the array as it goes. -/
def enableExtras (eips : List ℤ) (jt : JumpTable) : Option JumpTable :=
  ((List.range eips.length).foldlM enableExtra (jt, eips, eips.length)).map Prod.fst

/-- **`NewEVMInterpreter`** without a table in the configuration: the new
interpreter's table and those of the package, or a panic. -/
def newEVMInterpreter (k : Construction) (tables : Tables) : Option (TableRef × Tables) := do
  let fork := k.rules.fork
  let jt := tables fork
  let jt := if k.restoresDifficulty then jt.set RANDOM (tables .frontier DIFFICULTY) else jt
  let jt ← disable k.disableOpcodes jt
  let tables := Function.update tables fork jt
  if k.extraEips.isEmpty then some (.shared fork, tables)
  else (enableExtras k.extraEips jt).map fun jt => (.own jt, tables)

/-- A sequence of constructions: the interpreters' tables, and those of
the package afterwards. -/
def constructAll : List Construction → Tables → Option (List TableRef × Tables)
  | [], tables => some ([], tables)
  | k :: ks, tables => do
    let (ref, tables) ← k.newEVMInterpreter tables
    let (refs, tables) ← constructAll ks tables
    some (ref :: refs, tables)

/-- **The table a construction asks for**: that of its fork – with
`DIFFICULTY` in place of `RANDOM` on a chain that has not merged – with the
disabled opcodes undefined and the extra EIPs enabled, those it knows. -/
def table (k : Construction) : JumpTable :=
  let jt := k.rules.instructionSet
  let jt :=
    if k.restoresDifficulty then jt.set RANDOM (newFrontierInstructionSet DIFFICULTY) else jt
  let jt := (k.disableOpcodes.filterMap opIndex).foldl (fun jt op => jt.set op undefined) jt
  (k.extraEips.filterMap Eip.ofNumber).foldl JumpTable.enableEIP jt

/-- **Constructions are isolated**: none of them panics, and at the end of
the sequence every interpreter has the table it was made for. -/
def Isolated (ks : List Construction) : Prop :=
  ∃ refs tables, constructAll ks Fork.table = some (refs, tables)
    ∧ refs.map (TableRef.read tables) = ks.map table

/-! ## The two loops -/

/-- Disabled opcodes are undefined, and the others as they were. -/
theorem foldl_set_undefined (ops : List UInt8) (jt : JumpTable) (op : UInt8) :
    ops.foldl (fun jt op => jt.set op undefined) jt op
      = if op ∈ ops then undefined else jt op := by
  induction ops generalizing jt with
  | nil => rfl
  | cons x ops ih =>
    rw [List.foldl_cons, ih]
    show (if op ∈ ops then undefined else if op = x then undefined else jt op) = _
    simp only [List.mem_cons]
    split_ifs <;> tauto

theorem disable_eq_some {ops : List ℤ} (h : ∀ op ∈ ops, (opIndex op).isSome) (jt : JumpTable) :
    disable ops jt
      = some ((ops.filterMap opIndex).foldl (fun jt op => jt.set op undefined) jt) := by
  induction ops generalizing jt with
  | nil => rfl
  | cons x ops ih =>
    obtain ⟨op, hop⟩ := Option.isSome_iff_exists.mp (h x List.mem_cons_self)
    rw [List.filterMap_cons_some hop, List.foldl_cons,
      ← ih (fun op hmem => h op (List.mem_cons_of_mem _ hmem))]
    unfold disable
    rw [List.foldlM_cons, hop]
    rfl

/-- If every extra EIP is known, the loop enables them one after the
other. -/
theorem enableExtras_eq_some {eips : List ℤ} (h : ∀ x ∈ eips, (Eip.ofNumber x).isSome)
    (jt : JumpTable) :
    enableExtras eips jt = some ((eips.filterMap Eip.ofNumber).foldl JumpTable.enableEIP jt) := by
  have hturns : ∀ m ≤ eips.length, (List.range m).foldlM enableExtra (jt, eips, eips.length)
      = some (((eips.take m).filterMap Eip.ofNumber).foldl JumpTable.enableEIP jt, eips,
        eips.length) := by
    intro m hm
    induction m with
    | zero => rfl
    | succ m ih =>
      have hlt : m < eips.length := hm
      obtain ⟨e, he⟩ := Option.isSome_iff_exists.mp (h _ (List.getElem_mem hlt))
      have hget : eips.getD m 0 = eips[m] := by
        rw [List.getD_eq_getElem?_getD, List.getElem?_eq_getElem hlt]
        rfl
      rw [List.range_succ, List.foldlM_append, ih (Nat.le_of_lt hlt),
        List.take_add_one, List.getElem?_eq_getElem hlt, List.filterMap_append, List.foldl_append]
      simp only [Option.bind_eq_bind, Option.bind_some, List.foldlM_cons, List.foldlM_nil,
        enableExtra, hget, he, Option.toList_some, List.filterMap_cons_some he,
        List.filterMap_nil, List.foldl_cons, List.foldl_nil]
      rfl
  unfold enableExtras
  rw [hturns _ le_rfl, List.take_length]
  rfl

variable {jt : JumpTable} {tables : Tables} {k : Construction}

/-- Whatever the extra EIPs are, the loop enables some of them. -/
theorem exists_foldl_of_enableExtras {eips : List ℤ} {jt' : JumpTable}
    (h : enableExtras eips jt = some jt') :
    ∃ es : List Eip, jt' = es.foldl JumpTable.enableEIP jt := by
  have hturn : ∀ st i st', enableExtra st i = some st' →
      (∃ es : List Eip, st.1 = es.foldl JumpTable.enableEIP jt) →
      ∃ es : List Eip, st'.1 = es.foldl JumpTable.enableEIP jt := by
    rintro ⟨jt₁, arr, len⟩ i st' hst ⟨es, rfl⟩
    dsimp only [enableExtra] at hst
    cases he : Eip.ofNumber (arr.getD i 0) with
    | some e =>
      rw [he] at hst
      cases hst
      exact ⟨es ++ [e], by rw [List.foldl_append]; rfl⟩
    | none =>
      rw [he] at hst
      obtain ⟨r, -, rfl⟩ := Option.map_eq_some_iff.mp hst
      exact ⟨es, rfl⟩
  have hloop : ∀ (l : List ℕ) st st', l.foldlM enableExtra st = some st' →
      (∃ es : List Eip, st.1 = es.foldl JumpTable.enableEIP jt) →
      ∃ es : List Eip, st'.1 = es.foldl JumpTable.enableEIP jt := by
    intro l
    induction l with
    | nil =>
      intro st st' hst hes
      rwa [← Option.some.inj hst]
    | cons i l ih =>
      intro st st' hst hes
      rw [List.foldlM_cons] at hst
      obtain ⟨st₁, h₁, h₂⟩ := Option.bind_eq_some_iff.mp hst
      exact ih st₁ st' h₂ (hturn st i st₁ h₁ hes)
  obtain ⟨st, hst, rfl⟩ := Option.map_eq_some_iff.mp h
  exact hloop _ _ st hst ⟨[], rfl⟩

/-! ## Constructions that agree -/

section Agreement

variable {D : Fork → List UInt8} {M : Fork → Bool}

/-- **A construction as the others for its fork make it**: it disables the
same opcodes and restores `DIFFICULTY` if they do, which is then not
disabled in the table it comes from, and the opcodes and EIPs it asks for
exist. -/
structure Agrees (D : Fork → List UInt8) (M : Fork → Bool) (k : Construction) : Prop where
  opcodes : ∀ op ∈ k.disableOpcodes, (opIndex op).isSome
  disabled : ∀ op, op ∈ k.disableOpcodes.filterMap opIndex ↔ op ∈ D k.rules.fork
  difficulty : k.restoresDifficulty = M k.rules.fork
  restored : M k.rules.fork → DIFFICULTY ∈ D .frontier → DIFFICULTY ∈ D k.rules.fork
  eips : ∀ x ∈ k.extraEips, (Eip.ofNumber x).isSome

/-- The table such constructions leave of a fork. -/
def agreed (D : Fork → List UInt8) (M : Fork → Bool) (f : Fork) : JumpTable := fun op =>
  if op ∈ D f then undefined
  else if M f then f.table.set RANDOM (newFrontierInstructionSet DIFFICULTY) op else f.table op

/-- The tables of the package, in the course of such constructions. -/
def InAgreement (D : Fork → List UInt8) (M : Fork → Bool) (tables : Tables) : Prop :=
  ∀ f, tables f = f.table ∨ tables f = agreed D M f

variable {tables : Tables} {k : Construction}

/-- What is found for `DIFFICULTY` is what it was, unless it is to be
disabled. -/
theorem InAgreement.difficulty (h : InAgreement D M tables) (hD : DIFFICULTY ∉ D .frontier) :
    tables .frontier DIFFICULTY = newFrontierInstructionSet DIFFICULTY := by
  obtain h | h := h .frontier
  · rw [h]
    rfl
  · rw [h, agreed, if_neg hD]
    split_ifs <;> rfl

/-- **What a construction leaves** of the table of its fork. -/
theorem Agrees.foldl_eq (hk : k.Agrees D M) (h : InAgreement D M tables) :
    (k.disableOpcodes.filterMap opIndex).foldl (fun jt op => jt.set op undefined)
      (if k.restoresDifficulty then
        (tables k.rules.fork).set RANDOM (tables .frontier DIFFICULTY) else tables k.rules.fork)
      = agreed D M k.rules.fork := by
  funext op
  rw [foldl_set_undefined, agreed, hk.difficulty]
  simp only [hk.disabled]
  split_ifs with hD hM
  · rfl
  · show (if op = RANDOM then _ else _) = if op = RANDOM then _ else _
    split_ifs with hop
    · exact h.difficulty fun hmem => hD (by rw [hop]; exact hk.restored hM hmem)
    · obtain h | h := h k.rules.fork
      · rw [h]
      · rw [h, agreed, if_neg hD, if_pos hM]
        exact if_neg hop
  · obtain h | h := h k.rules.fork
    · rw [h]
    · rw [h, agreed, if_neg hD, if_neg hM]

/-- The table a construction asks for, by the one they agree on. -/
theorem Agrees.table_eq (hk : k.Agrees D M) :
    k.table = (k.extraEips.filterMap Eip.ofNumber).foldl JumpTable.enableEIP
      (agreed D M k.rules.fork) := by
  rw [← hk.foldl_eq fun f => .inl rfl, Rules.table_fork]
  rfl

/-- **One construction.** -/
theorem Agrees.newEVMInterpreter (hk : k.Agrees D M) (h : InAgreement D M tables) :
    ∃ ref, k.newEVMInterpreter tables
        = some (ref, Function.update tables k.rules.fork (agreed D M k.rules.fork))
      ∧ ∀ tables', tables' k.rules.fork = agreed D M k.rules.fork → ref.read tables' = k.table := by
  unfold Construction.newEVMInterpreter
  simp only [disable_eq_some hk.opcodes, hk.foldl_eq h, Option.bind_eq_bind, Option.bind_some]
  by_cases hnil : k.extraEips.isEmpty = true
  · rw [if_pos hnil]
    refine ⟨_, rfl, fun tables' h' => ?_⟩
    rw [hk.table_eq, List.isEmpty_iff.mp hnil]
    exact h'
  · rw [if_neg hnil, enableExtras_eq_some hk.eips]
    exact ⟨_, rfl, fun _ _ => hk.table_eq.symm⟩

/-- A sequence of constructions, from any tables they may find. -/
theorem exists_constructAll {ks : List Construction} (hks : ∀ k ∈ ks, k.Agrees D M)
    (h : InAgreement D M tables) :
    ∃ refs tables', constructAll ks tables = some (refs, tables')
      ∧ refs.map (TableRef.read tables') = ks.map table
      ∧ ∀ f, tables f = agreed D M f → tables' f = agreed D M f := by
  induction ks generalizing tables with
  | nil => exact ⟨[], tables, rfl, rfl, fun _ => id⟩
  | cons k ks ih =>
    obtain ⟨ref, href, hread⟩ := (hks k List.mem_cons_self).newEVMInterpreter h
    have hupdate : ∀ f, tables f = agreed D M f ∨ f = k.rules.fork →
        Function.update tables k.rules.fork (agreed D M k.rules.fork) f = agreed D M f := by
      intro f hf
      by_cases hfork : f = k.rules.fork
      · rw [hfork, Function.update_self]
      · rw [Function.update_of_ne hfork]
        exact hf.resolve_right hfork
    have h' : InAgreement D M
        (Function.update tables k.rules.fork (agreed D M k.rules.fork)) := by
      intro f
      by_cases hfork : f = k.rules.fork
      · exact .inr (hupdate f (.inr hfork))
      · rw [Function.update_of_ne hfork]
        exact h f
    obtain ⟨refs, tables', hall, hreads, hstay⟩ :=
      ih (fun k hk => hks k (List.mem_cons_of_mem _ hk)) h'
    refine ⟨ref :: refs, tables', ?_, ?_, fun f hf => hstay f (hupdate f (.inl hf))⟩
    · simp only [constructAll, href, hall, Option.bind_eq_bind, Option.bind_some]
    · rw [List.map_cons, List.map_cons, hreads, hread tables' (hstay _ (hupdate _ (.inr rfl)))]

/-- **Constructions that agree are isolated**: if those for one fork
disable the same opcodes and agree on whether the chain has merged, no
`DIFFICULTY` that is to be restored is disabled in the table of Frontier,
and all opcodes and EIPs they name exist, then none panics and every
interpreter has the table it was made for, then and ever after. -/
theorem isolated_of_agrees (D : Fork → List UInt8) (M : Fork → Bool) (ks : List Construction)
    (h : ∀ k ∈ ks, k.Agrees D M) : Isolated ks := by
  have hstart : InAgreement D M Fork.table := fun f => .inl rfl
  obtain ⟨refs, tables, hall, hread, -⟩ := exists_constructAll h hstart
  exact ⟨refs, tables, hall, hread⟩

end Agreement

/-- The chain disables `ADD` in one configuration and not in the next; the
chain has not merged in one and has in the next; an EIP follows one that
does not exist; there are two EIPs that do not exist. -/
theorem not_isolated :
    ¬ Isolated [{ disableOpcodes := [1] }, {}]
      ∧ ¬ Isolated [{ rules := { isShanghai := true } },
        { rules := { isShanghai := true, isMerge := true } }]
      ∧ ¬ Isolated [{ extraEips := [9999, 1344, 2929] }]
      ∧ ¬ Isolated [{ extraEips := [9999, 9999] }] := by
  -- two tables that differ in one entry
  have hne : ∀ {ks refs tables} (i : ℕ) (op : UInt8),
      constructAll ks Fork.table = some (refs, tables) →
      (refs[i]?.map fun ref => ref.read tables op) ≠ (ks[i]?.map fun k => k.table op) →
      ¬ Isolated ks := by
    rintro ks refs tables i op hall hop ⟨refs', tables', hall', hread⟩
    obtain ⟨rfl, rfl⟩ := Prod.mk.inj (Option.some.inj (hall.symm.trans hall'))
    have hi := congrArg (fun l => l[i]?.map fun jt => jt op) hread
    simp only [List.getElem?_map, Option.map_map] at hi
    exact hop hi
  refine ⟨hne 1 ADD rfl (by decide +kernel), hne 1 RANDOM rfl (by decide +kernel),
    hne 0 CHAINID rfl (by decide +kernel), ?_⟩
  rintro ⟨refs, tables, hall, -⟩
  cases hall

/-- Three interpreters, two of them for one fork that has no `ADD`, one
with an EIP of its own, and one for a fork without `MUL`. -/
theorem isolated_of_agrees_three :
    Isolated [{ disableOpcodes := [1] }, { disableOpcodes := [1], extraEips := [1344] },
      { rules := { isLondon := true }, disableOpcodes := [2, 2] }] := by
  refine isolated_of_agrees (fun f => if f = .london then [2] else [1]) (fun _ => false) _
    fun k hk => ?_
  simp only [List.mem_cons, List.not_mem_nil, or_false] at hk
  obtain rfl | rfl | rfl := hk
  · exact ⟨by decide, fun _ => Iff.rfl, rfl, by decide, by decide⟩
  · exact ⟨by decide, fun _ => Iff.rfl, rfl, by decide, by decide⟩
  · refine ⟨by decide, fun op => ?_, rfl, by decide, by decide⟩
    show op ∈ [2, 2] ↔ op ∈ [2]
    simp

/-! ## The tables of running interpreters -/

/-- Tables that earlier constructions wrote to. -/
def Written (tables : Tables) : Prop :=
  ∀ f, ∃ edits : List TableEdit, tables f = edits.foldl TableEdit.apply f.table

/-- What is found for `DIFFICULTY` is what it was, or undefined. -/
theorem Written.difficulty (h : Written tables) :
    tables .frontier DIFFICULTY = newFrontierInstructionSet DIFFICULTY
      ∨ tables .frontier DIFFICULTY = undefined := by
  obtain ⟨edits, heq⟩ := h .frontier
  rw [heq]
  refine List.foldlRecOn edits _ (motive := fun jt : JumpTable =>
    jt DIFFICULTY = newFrontierInstructionSet DIFFICULTY ∨ jt DIFFICULTY = undefined)
    (.inl rfl) fun jt hjt e _ => ?_
  cases e with
  | disable op =>
    show (if DIFFICULTY = op then undefined else jt DIFFICULTY) = _
      ∨ (if DIFFICULTY = op then undefined else jt DIFFICULTY) = _
    split_ifs
    · exact .inr rfl
    · exact hjt
  | difficulty => exact .inl rfl

theorem eq_foldl_of_disable {ops : List ℤ} {jt' : JumpTable} (h : disable ops jt = some jt') :
    jt' = ((ops.filterMap opIndex).map TableEdit.disable).foldl TableEdit.apply jt := by
  induction ops generalizing jt with
  | nil => exact (Option.some.inj h).symm
  | cons x ops ih =>
    unfold disable at h
    rw [List.foldlM_cons] at h
    obtain ⟨jt₁, h₁, h₂⟩ := Option.bind_eq_some_iff.mp h
    obtain ⟨op, hop, rfl⟩ := Option.map_eq_some_iff.mp h₁
    rw [List.filterMap_cons_some hop]
    exact ih h₂

/-- The environment of an interpreter, as far as its table goes. -/
def env (k : Construction) (extraEips : List Eip) (edits : List TableEdit)
    (difficultyDisabled : Bool) : Env where
  rules := k.rules
  disableOpcodes := k.disableOpcodes.filterMap opIndex
  extraEips := extraEips
  tableEdits := edits
  difficultyDisabled := difficultyDisabled

/-- What a construction writes is what its environment says it does. -/
theorem Written.exists_ownEdits
    (h : Written tables)
    (hjt : disable k.disableOpcodes (if k.restoresDifficulty then
      (tables k.rules.fork).set RANDOM (tables .frontier DIFFICULTY) else tables k.rules.fork)
        = some jt) :
    ∃ edits b, jt = (edits ++ (k.env [] edits b).ownEdits).foldl TableEdit.apply
      k.rules.instructionSet := by
  obtain ⟨edits, hedits⟩ := h k.rules.fork
  rw [Rules.table_fork] at hedits
  rw [eq_foldl_of_disable hjt]
  unfold Env.ownEdits env
  by_cases hrestores : k.restoresDifficulty = true
  · have hrestores' : (k.rules.isShanghai && !k.rules.isMerge) = true := hrestores
    simp only [hrestores', if_true, hrestores]
    obtain hd | hd := h.difficulty
    · refine ⟨edits, false, ?_⟩
      rw [List.foldl_append, ← hedits, hd]
      rfl
    · refine ⟨edits, true, ?_⟩
      rw [List.foldl_append, ← hedits, hd]
      rfl
  · have hrestores' : ¬ (k.rules.isShanghai && !k.rules.isMerge) = true := hrestores
    refine ⟨edits, false, ?_⟩
    rw [if_neg hrestores, if_neg hrestores', List.foldl_append, ← hedits]
    rfl

/-- **A new interpreter's table is one of those that are proved about**, and
what it wrote is one of the writes they may have had before. -/
theorem Written.newEVMInterpreter {tables' : Tables} {ref : TableRef} (h : Written tables)
    (hnew : k.newEVMInterpreter tables = some (ref, tables')) :
    Written tables' ∧ ∃ es edits b, ref.read tables' = (k.env es edits b).jumpTable := by
  obtain ⟨jt, hjt, hnew⟩ := Option.bind_eq_some_iff.mp hnew
  obtain ⟨edits, b, heq⟩ := h.exists_ownEdits hjt
  have hwritten : Written (Function.update tables k.rules.fork jt) := by
    intro f
    by_cases hf : f = k.rules.fork
    · rw [hf, Function.update_self, Rules.table_fork]
      exact ⟨_, heq⟩
    · rw [Function.update_of_ne hf]
      exact h f
  split_ifs at hnew
  · cases hnew
    refine ⟨hwritten, [], edits, b, ?_⟩
    rw [TableRef.read, Function.update_self]
    exact heq
  · obtain ⟨jt', hjt', hpair⟩ := Option.map_eq_some_iff.mp hnew
    cases hpair
    obtain ⟨es, rfl⟩ := exists_foldl_of_enableExtras hjt'
    refine ⟨hwritten, es, edits, b, ?_⟩
    rw [heq]
    rfl

/-- **So is that of every interpreter of a process**, when it is made. -/
theorem exists_env_of_constructAll {ks : List Construction} {refs : List TableRef}
    {tables' : Tables} {ref : TableRef} (h : constructAll ks Fork.table = some (refs, tables))
    (hnew : k.newEVMInterpreter tables = some (ref, tables')) :
    ∃ es edits b, ref.read tables' = (k.env es edits b).jumpTable := by
  have hall : ∀ (ks : List Construction) {tables refs tables'}, Written tables →
      constructAll ks tables = some (refs, tables') → Written tables' := by
    intro ks
    induction ks with
    | nil =>
      intro tables refs tables' hw hks
      obtain ⟨-, rfl⟩ := Prod.mk.inj (Option.some.inj hks)
      exact hw
    | cons k ks ih =>
      intro tables refs tables' hw hks
      obtain ⟨⟨ref, tables₁⟩, h₁, hks⟩ := Option.bind_eq_some_iff.mp hks
      obtain ⟨⟨refs₁, tables₂⟩, h₂, hks⟩ := Option.bind_eq_some_iff.mp hks
      obtain ⟨-, rfl⟩ := Prod.mk.inj (Option.some.inj hks)
      exact ih (hw.newEVMInterpreter h₁).1 h₂
  exact ((hall ks (fun f => ⟨[], rfl⟩) h).newEVMInterpreter hnew).2

/-- An interpreter after one of a chain without `ADD`. -/
theorem exists_env_of_constructAll_second : ∃ refs tables ref tables',
    constructAll [{ disableOpcodes := [1] }] Fork.table = some (refs, tables)
      ∧ newEVMInterpreter {} tables = some (ref, tables')
      ∧ ∃ es edits b, ref.read tables' = (env {} es edits b).jumpTable := by
  have h : constructAll [{ disableOpcodes := [1] }] Fork.table = some _ := rfl
  exact ⟨_, _, _, _, h, rfl, exists_env_of_constructAll h rfl⟩

end Construction
