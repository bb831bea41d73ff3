import CardinalEvm.RlpStream

/-!
# Decoding by type

`makeDecoder` builds a decoder from a Go type. The types the repository
encodes are the inductive type `Ty`, a struct being a list of named
fields, and a decoder is a function of the type. What a value of a type
is encoded as – `Ty.encode` – is stated beside it, in the terms of the
format and not of the encoder's buffer.

Three things of a Go type are kept: the `nil` tag, with which an empty
string stands for a nil pointer; the `optional` tag, with which the last
fields of a struct may be missing from the list; and whether a pointer
is nil. An optional field is a pointer here, as it is wherever the
repository has one. The tag may also stand on a field of another type,
whose zero value is then left out at the end of a struct: such fields
are not among the `Fields`.
-/

namespace Rlp

mutual

/-- **A Go type the package can encode.** -/
inductive Ty where
  /-- `uint8` to `uint64`. -/
  | uint (bits : Nat)
  /-- `big.Int`. -/
  | bigInt
  /-- `uint256.Int`. -/
  | uint256
  /-- `[]byte`. -/
  | bytes
  /-- `[n]byte`. -/
  | array (n : Nat)
  /-- A slice of anything but bytes, see `Ty.Wf`. -/
  | slice (elem : Ty)
  | struct (fields : Fields)
  /-- A pointer. -/
  | ptr (elem : Ty)
  /-- A pointer with the tag `nil`. -/
  | nilPtr (elem : Ty)

/-- The fields of a struct, in order. -/
inductive Fields where
  | nil
  | cons (name : String) (type : Ty) (rest : Fields)
  /-- A field with the tag `optional`, of a pointer type. -/
  | optional (name : String) (elem : Ty) (rest : Fields)

end

mutual

/-- **The values of a type.** A byte array is a bit vector, like the
addresses and hashes of the model. -/
def Ty.Val : Ty → Type
  | .uint bits => BitVec bits
  | .bigInt => Int
  | .uint256 => Word
  | .bytes => Bytes
  | .array n => BitVec (8 * n)
  | .slice elem => List elem.Val
  | .struct fields => fields.Vals
  | .ptr elem => Option elem.Val
  | .nilPtr elem => Option elem.Val

/-- The values of the fields of a struct. -/
def Fields.Vals : Fields → Type
  | .nil => Unit
  | .cons _ type rest => type.Val × rest.Vals
  | .optional _ elem rest => Option elem.Val × rest.Vals

end

/-- `DefaultNilValue`: the kind of the empty value that a nil pointer to
the type is encoded as. -/
def Ty.nilKind : Ty → Kind
  | .slice _ => .list
  | .struct _ => .list
  | .ptr _ => .list
  | .nilPtr _ => .list
  | _ => .string

/-- `isByte`. -/
def Ty.isByte : Ty → Bool
  | .uint bits => bits == 8
  | _ => false

/-- `zeroFields`, of fields that are all optional. -/
def Fields.zero : (fs : Fields) → Option fs.Vals
  | .nil => some ()
  | .cons .. => none
  | .optional _ _ rest => rest.zero.map (fun vs => (none, vs))

/-! ## The decoders -/

/-- The error of a decoder, with `wrapStreamError` around it. -/
def wrapped {α : Type} (m : StreamM α) : StreamM α := fun s =>
  match m s with
  | .ok a s' => .ok a s'
  | .error e s' => .error (wrapStreamError e) s'

/-- `decodeByteArray`. -/
def decodeByteArray (n : Nat) : StreamM (BitVec (8 * n)) := do
  let (k, size) ← Stream.kindAhead
  match k with
  | .byte =>
    if n = 0 then throw (.decode "input string too long" [])
    if 1 < n then throw (.decode "input string too short" [])
    modify Stream.rearm
    return BitVec.ofNat _ (← get).byteval.toNat
  | .string =>
    if UInt64.ofNat n < size then throw (.decode "input string too long" [])
    if size < UInt64.ofNat n then throw (.decode "input string too short" [])
    let b ← Stream.readFull (UInt64.ofNat n)
    if size = 1 ∧ b.head?.any (· < 128) then throw (wrapStreamError .canonSize)
    return BitVec.ofNat _ (beNat b)
  | .list => throw (wrapStreamError .expectedString)

section Combinators

variable {α β : Type}

/-- The loop of `decodeSliceElems`, from the element `i` on. -/
def sliceElems (dec : StreamM α) : Nat → Nat → StreamM (List α)
  | 0, _ => throw .outOfFuel
  | fuel + 1, i => fun s =>
    match dec s with
    | .error .eol s' => .ok [] s'
    | .error e s' => .error (addErrorContext ("[" ++ toString i ++ "]") e) s'
    | .ok a s' => ((a :: ·) <$> sliceElems dec fuel (i + 1)) s'

/-- `decodeSliceElems`. Every element takes a byte, so there are no more
of them than bytes. -/
def decodeSliceElems (dec : StreamM α) : StreamM (List α) := fun s =>
  sliceElems dec (s.input.length + 1) 0 s

/-- `decodeListSlice`. -/
def decodeListSlice (dec : StreamM α) : StreamM (List α) := do
  let size ← wrapped Stream.list
  if size = 0 then
    Stream.listEnd
    return []
  else
    let elems ← decodeSliceElems dec
    Stream.listEnd
    return elems

/-- The decoder of `makeStructDecoder`, around that of the fields. -/
def decodeStruct (fields : StreamM α) : StreamM α := do
  let _ ← wrapped Stream.list
  let a ← fields
  wrapped Stream.listEnd
  return a

/-- A field that must be there. -/
def requiredField (name : String) (dec : StreamM α) : StreamM α := fun s =>
  match dec s with
  | .error .eol s' => .error (.decode "too few elements" []) s'
  | .error e s' => .error (addErrorContext ("." ++ name) e) s'
  | .ok a s' => .ok a s'

/-- A field that may be missing, and the fields after it with it. -/
def optionalField (name : String) (dec : StreamM α) (zero : β) (rest : StreamM β) :
    StreamM (Option α × β) := fun s =>
  match dec s with
  | .error .eol s' => .ok (none, zero) s'
  | .error e s' => .error (addErrorContext ("." ++ name) e) s'
  | .ok a s' => ((some a, ·) <$> rest) s'

/-- `Kind.String`. -/
def Kind.name : Kind → String
  | .byte => "Byte"
  | .string => "String"
  | .list => "List"

/-- The decoder of `makeNilPtrDecoder`. -/
def decodeNilPtr (nilKind : Kind) (dec : StreamM α) : StreamM (Option α) := do
  let (k, size) ← wrapped Stream.kindAhead
  if k ≠ .byte ∧ size = 0 then
    if k ≠ nilKind then
      throw (.decode ("wrong kind of empty value (got " ++ k.name ++ ", want " ++
        nilKind.name ++ ")") [])
    modify Stream.rearm
    return none
  else
    some <$> dec

end Combinators

mutual

/-- **`makeDecoder`.** -/
def Ty.decode : (t : Ty) → StreamM t.Val
  | .uint bits => wrapped ((fun n => BitVec.ofNat bits n.toNat) <$> Stream.uint bits)
  | .bigInt => wrapped (Int.ofNat <$> Stream.bigInt)
  | .uint256 => wrapped (BitVec.ofNat 256 <$> Stream.uint256)
  | .bytes => wrapped Stream.bytes
  | .array n => decodeByteArray n
  | .slice elem => decodeListSlice elem.decode
  | .struct fields => decodeStruct fields.decode
  | .ptr elem => some <$> elem.decode
  | .nilPtr elem => decodeNilPtr elem.nilKind elem.decode

/-- The fields of a struct, one after the other. -/
def Fields.decode : (fs : Fields) → StreamM fs.Vals
  | .nil => pure ()
  | .cons name type rest => do
    let v ← requiredField name type.decode
    let vs ← rest.decode
    return (v, vs)
  | .optional name elem rest => fun s =>
    match rest.zero with
    | some zero => optionalField name elem.decode zero rest.decode s
    | none => .error (.decode "must be optional" []) s

end

/-- The body of `decodeInterface`, around the decoder of a list. -/
def interfaceValue (lists : StreamM (List Item)) : StreamM Item := do
  let (k, _) ← Stream.kindAhead
  if k = .list then Item.list <$> lists else Item.string <$> Stream.bytes

/-- `decodeInterface`, into an empty interface. Every list in a list
takes a byte, which bounds how deep they are nested. -/
def decodeInterface : Nat → StreamM Item
  | 0 => interfaceValue do
    let _ ← Stream.list
    throw .outOfFuel
  | fuel + 1 => interfaceValue (decodeListSlice (decodeInterface fuel))

/-- **`DecodeBytes`**, with the decoder of the value's type. -/
def decodeBytes {α : Type} (dec : StreamM α) (b : Bytes) : Except Err α :=
  match dec (Stream.ofBytes b) with
  | .error e _ => .error e
  | .ok a s => if s.input = [] then .ok a else .error .moreThanOneValue

/-- `DecodeBytes` into an empty interface. -/
def decodeItem (b : Bytes) : Except Err Item := decodeBytes (decodeInterface b.length) b

/-! ## What a value is encoded as -/

/-- The empty value of a kind. -/
def emptyValue : Kind → Bytes
  | .list => [0xC0]
  | _ => [0x80]

/-- All the pointers of the optional fields are nil. -/
def Fields.allNil : (fs : Fields) → fs.Vals → Bool
  | .nil, _ => true
  | .cons .., _ => false
  | .optional _ _ rest, (v, vs) => v.isNone && rest.allNil vs

mutual

/-- **The encoding of a value of a type.** -/
def Ty.encode : (t : Ty) → t.Val → Bytes
  | .uint _, (v : BitVec _) => Rlp.uint v.toNat
  | .bigInt, (v : Int) => Rlp.uint v.toNat
  | .uint256, (v : Word) => Rlp.uint v.toNat
  | .bytes, b => Rlp.string b
  | .array n, (v : BitVec _) => Rlp.string (toBytes n v.toNat)
  | .slice elem, vs => Rlp.list (List.flatMap elem.encode vs)
  | .struct fields, vs => Rlp.list (fields.encode vs)
  | .ptr elem, v => v.elim (emptyValue elem.nilKind) elem.encode
  | .nilPtr elem, v => v.elim (emptyValue elem.nilKind) elem.encode

/-- The encodings of the fields of a struct. The optional fields end with
the last one that is there. -/
def Fields.encode : (fs : Fields) → fs.Vals → Bytes
  | .nil, _ => []
  | .cons _ type rest, (v, vs) => type.encode v ++ rest.encode vs
  | .optional _ elem rest, (v, vs) =>
    if v.isNone && rest.allNil vs then []
    else v.elim (emptyValue elem.nilKind) elem.encode ++ rest.encode vs

end

mutual

/-- **The values that are written as they are read**: no integer is
negative, no pointer without the tag `nil` is nil, and no optional field
is there after one that is not. -/
def Ty.Ok : (t : Ty) → t.Val → Prop
  | .bigInt, (v : Int) => 0 ≤ v
  | .slice elem, (vs : List elem.Val) => ∀ v ∈ vs, elem.Ok v
  | .struct fields, vs => fields.Ok vs
  | .ptr elem, (v : Option elem.Val) => ∃ a, v = some a ∧ elem.Ok a
  | .nilPtr elem, (v : Option elem.Val) => ∀ a, v = some a → elem.Ok a
  | _, _ => True

/-- The fields of a struct that are written as they are read. -/
def Fields.Ok : (fs : Fields) → fs.Vals → Prop
  | .nil, _ => True
  | .cons _ type rest, (v, vs) => type.Ok v ∧ rest.Ok vs
  | .optional _ elem rest, (v, vs) =>
    (v = none → rest.allNil vs = true) ∧ (∀ a, v = some a → elem.Ok a) ∧ rest.Ok vs

end

/-- Only optional fields. -/
def Fields.AllOptional : Fields → Prop
  | .nil => True
  | .cons .. => False
  | .optional _ _ rest => rest.AllOptional

mutual

/-- **The types of the repository.** Integers have 8 to 64 bits and
arrays two bytes or more, a slice of bytes is `bytes` and no `slice`, the
tag `nil` is on pointers to arrays, and all fields after an optional one
are optional. -/
def Ty.Wf : Ty → Prop
  | .uint bits => bits = 8 ∨ bits = 16 ∨ bits = 32 ∨ bits = 64
  | .array n => 2 ≤ n ∧ n < 2 ^ 63
  | .slice elem => elem.isByte = false ∧ elem.Wf
  | .struct fields => fields.Wf
  | .ptr elem => elem.Wf
  | .nilPtr elem => ∃ n, elem = .array n ∧ 2 ≤ n ∧ n < 2 ^ 63
  | _ => True

/-- Fields of such types. -/
def Fields.Wf : Fields → Prop
  | .nil => True
  | .cons _ type rest => type.Wf ∧ rest.Wf
  | .optional _ elem rest => elem.Wf ∧ rest.AllOptional ∧ rest.Wf

end

end Rlp
