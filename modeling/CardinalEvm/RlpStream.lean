import CardinalEvm.Rlp

/-!
# The decoding stream

`rlp.Stream` reads a byte string value by value. Its state is what is
left of the input, the sizes left of the lists it stands in – the
innermost first – and, once `Kind` has looked at a header, the kind and
size of the value ahead. Sizes are `uint64` and wrap: `List` subtracts
the size of an inner list from that of the outer one without a check,
and only `ListEnd` finds out whether the sizes were right.

What an operation does is told by `Took`: the bytes it consumed, which
it took off the innermost list and off the input's limit. An operation
is *sound* if the bytes it took are the encoding of what it returned, and
*complete* if it succeeds wherever such an encoding is `Ahead`.
-/

namespace Rlp

/-! ## The model -/

/-- `Kind`. -/
inductive Kind where
  | byte
  | string
  | list
  deriving DecidableEq, Repr

/-- **The errors of the decoder**: those of the package, `io.EOF` and
`io.ErrUnexpectedEOF`, and the `decodeError` with its message and the
path to the value it is about, innermost first. -/
inductive Err where
  | eol
  | expectedString
  | expectedList
  | canonInt
  | canonSize
  | elemTooLarge
  | valueTooLarge
  | moreThanOneValue
  | notInList
  | notAtEOL
  | uintOverflow
  | uint256Large
  | eof
  | unexpectedEOF
  | decode (msg : String) (ctx : List String)
  | outOfFuel
  deriving DecidableEq, Repr

/-- `wrapStreamError`. -/
def wrapStreamError : Err → Err
  | .canonInt => .decode "non-canonical integer (leading zero bytes)" []
  | .canonSize => .decode "non-canonical size information" []
  | .expectedList => .decode "expected input list" []
  | .expectedString => .decode "expected input string or byte" []
  | .uintOverflow => .decode "input string too long" []
  | .notAtEOL => .decode "input list has too many elements" []
  | e => e

/-- `addErrorContext`. -/
def addErrorContext (ctx : String) : Err → Err
  | .decode msg path => .decode msg (path ++ [ctx])
  | e => e

/-- **A stream.** The kind is `none` where the source has -1: the header
of the next value has not been read. -/
structure Stream where
  /-- What is left of the slice the stream reads. -/
  input : Bytes
  /-- The bytes that may still be read, if the input is limited. -/
  remaining : UInt64
  limited : Bool
  /-- What is left of each list the stream stands in. -/
  stack : List UInt64
  kind : Option Kind
  size : UInt64
  kinderr : Option Err
  byteval : UInt8

/-- An operation of the stream. -/
abbrev StreamM := EStateM Err Stream

/-- Takes a read off the innermost list. -/
def takeOff (n : UInt64) : List UInt64 → List UInt64
  | [] => []
  | limit :: outer => (limit - n) :: outer

namespace Stream

/-- `Reset`, on a slice. An empty one has no limit. -/
def ofBytes (b : Bytes) : Stream where
  input := b
  remaining := UInt64.ofNat b.length
  limited := 0 < b.length
  stack := []
  kind := none
  size := 0
  kinderr := none
  byteval := 0

/-- Rearms `Kind`. -/
def rearm (s : Stream) : Stream := { s with kind := none }

/-- What is left of the innermost list, and whether there is one. -/
def listLimit (s : Stream) : Option UInt64 := s.stack.head?

/-- Takes a read off the innermost list, if there is one. -/
def limitList (n : UInt64) : StreamM Unit := fun s =>
  match s.listLimit with
  | none => .ok () s
  | some limit =>
    if limit < n then .error .elemTooLarge s
    else .ok () { s with stack := takeOff n s.stack }

/-- Takes a read off the limit of the input, if it has one. -/
def limitInput (n : UInt64) : StreamM Unit := fun s =>
  if s.limited then
    if s.remaining < n then .error .valueTooLarge s
    else .ok () { s with remaining := s.remaining - n }
  else .ok () s

/-- `willRead`. -/
def willRead (n : UInt64) : StreamM Unit := do
  modify rearm
  limitList n
  limitInput n

/-- `readByte`. -/
def readByte : StreamM UInt8 := do
  willRead 1
  match (← get).input with
  | [] => throw .unexpectedEOF
  | x :: rest =>
    modify fun s => { s with input := rest }
    return x

/-- `readFull`, into a buffer of the given length. -/
def readFull (n : UInt64) : StreamM Bytes := do
  willRead n
  let input := (← get).input
  modify fun s => { s with input := input.drop n.toNat }
  if input.length < n.toNat then throw .unexpectedEOF
  return input.take n.toNat

/-- `readUint`. -/
def readUint (size : UInt8) : StreamM UInt64 := do
  if size = 0 then
    modify rearm
    return 0
  else if size = 1 then
    return (← readByte).toUInt64
  else
    let buffer ← readFull size.toUInt64
    if buffer.head? = some 0 then throw .canonSize
    return UInt64.ofNat (beNat buffer)

/-- A size read by `readUint`, as part of a header of the given kind. -/
def longKind (k : Kind) : EStateM.Result Err Stream UInt64 →
    (Kind × UInt64 × Option Err) × Stream
  | .ok size s => ((k, size, if size < 56 then some .canonSize else none), s)
  | .error e s => ((k, 0, some e), s)

/-- `readKind`. It returns an error beside the kind and the size. -/
def readKind (s : Stream) : (Kind × UInt64 × Option Err) × Stream :=
  match readByte s with
  | .error e s' =>
    let e := if s.stack = [] ∧ (e = .unexpectedEOF ∨ e = .valueTooLarge) then .eof else e
    ((.byte, 0, some e), s')
  | .ok b s' =>
    let s' := { s' with byteval := 0 }
    if b < 0x80 then ((.byte, 0, none), { s' with byteval := b })
    else if b < 0xB8 then ((.string, (b - 0x80).toUInt64, none), s')
    else if b < 0xC0 then longKind .string (readUint (b - 0xB7) s')
    else if b < 0xF8 then ((.list, (b - 0xC0).toUInt64, none), s')
    else longKind .list (readUint (b - 0xF7) s')

/-- `Kind`: the kind and the size of the next value. -/
def kindAhead : StreamM (Kind × UInt64) := fun s =>
  match s.kind with
  | some k => s.kinderr.elim (.ok (k, s.size) s) (.error · s)
  | none =>
    if s.listLimit = some 0 then .error .eol s else
      let ((k, size, err), s') := readKind s
      -- the list's limit is the one from before the header was read
      let err := err.or
        (if s.listLimit.any (· < size) then some .elemTooLarge
        else if s'.limited ∧ s'.remaining < size then some .valueTooLarge
        else none)
      let s' := { s' with kind := some k, size, kinderr := err }
      err.elim (.ok (k, size) s') (.error · s')

/-- `Bytes`. -/
def bytes : StreamM Bytes := do
  let (k, size) ← kindAhead
  match k with
  | .byte =>
    modify rearm
    return [(← get).byteval]
  | .string =>
    let b ← readFull size
    if size = 1 ∧ b.head?.any (· < 128) then throw .canonSize
    return b
  | .list => throw .expectedString

/-- `readUint` as `uint` calls it: a leading zero is one of the integer. -/
def readInteger (size : UInt8) : StreamM UInt64 := fun s =>
  match readUint size s with
  | .error .canonSize s' => .error .canonInt s'
  | r => r

/-- `uint`. -/
def uint (maxbits : Nat) : StreamM UInt64 := do
  let (k, size) ← kindAhead
  match k with
  | .byte =>
    let b := (← get).byteval
    if b = 0 then throw .canonInt
    modify rearm
    return b.toUInt64
  | .string =>
    if UInt64.ofNat (maxbits / 8) < size then throw .uintOverflow
    let v ← readInteger size.toUInt8
    if 0 < size ∧ v < 128 then throw .canonSize
    return v
  | .list => throw .expectedString

/-- The buffer of `decodeBigInt` and `ReadUint256`; a longer string than
the second can hold is an error there. -/
def digitString (maxBytes : Option UInt64) : StreamM Bytes := do
  let (k, size) ← kindAhead
  match k with
  | .list => throw .expectedString
  | .byte =>
    modify rearm
    return [(← get).byteval]
  | .string =>
    if size = 0 then
      modify rearm
      return []
    else
      if maxBytes.any (· < size) then throw .uint256Large
      let b ← readFull size
      if size = 1 ∧ b.head?.any (· < 128) then throw .canonSize
      return b

/-- The number in that buffer. -/
def integer (maxBytes : Option UInt64) : StreamM Nat := do
  let buffer ← digitString maxBytes
  if buffer.head? = some 0 then throw .canonInt
  return beNat buffer

/-- `decodeBigInt`. -/
def bigInt : StreamM Nat := integer none

/-- `ReadUint256`. -/
def uint256 : StreamM Nat := integer (some 32)

/-- `List`. The inner list is taken off the outer one without a check. -/
def list : StreamM UInt64 := do
  let (k, size) ← kindAhead
  if k ≠ .list then throw .expectedList
  modify fun s => { s with stack := size :: takeOff size s.stack, kind := none, size := 0 }
  return size

/-- `ListEnd`. -/
def listEnd : StreamM Unit := fun s =>
  match s.stack with
  | [] => .error .notInList s
  | limit :: outer =>
    if 0 < limit then .error .notAtEOL s
    else .ok () { s with stack := outer, kind := none, size := 0 }

end Stream

end Rlp
