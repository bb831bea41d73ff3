import CardinalEvm.RlpDecode
import Mathlib.Data.List.DropRight
import Mathlib.Data.Nat.Digits.Defs

/-!
# The encoding buffer

The size of a list is known only once its elements are written, so
`encBuffer` keeps the headers of lists apart from the string data: each
has the position in the string data where it belongs, and while the list
is open, in the place of its size, the size all headers had when it was
opened. `makeBytes` puts the headers where they belong.

Writers are functions of a type, like decoders. Go's `int` is a natural
number here; lengths are below `2 ^ 63` wherever the results are used.
-/

namespace Rlp

/-- `putint`: the bytes of an integer, at least one. -/
def putint (i : UInt64) : Bytes :=
  if i.toNat < 2 ^ 8 then toBytes 1 i.toNat
  else if i.toNat < 2 ^ 16 then toBytes 2 i.toNat
  else if i.toNat < 2 ^ 24 then toBytes 3 i.toNat
  else if i.toNat < 2 ^ 32 then toBytes 4 i.toNat
  else if i.toNat < 2 ^ 40 then toBytes 5 i.toNat
  else if i.toNat < 2 ^ 48 then toBytes 6 i.toNat
  else if i.toNat < 2 ^ 56 then toBytes 7 i.toNat
  else toBytes 8 i.toNat

/-- The loop of `intsize`, which ends after eight rounds. -/
def intsizeFrom : Nat → UInt64 → Nat → Nat
  | 0, _, size => size
  | rounds + 1, i, size => if i >>> 8 = 0 then size else intsizeFrom rounds (i >>> 8) (size + 1)

/-- `intsize`. -/
def intsize (i : UInt64) : Nat := intsizeFrom 8 i 1

/-- `puthead`. -/
def puthead (smalltag largetag : UInt8) (size : UInt64) : Bytes :=
  if size < 56 then [smalltag + size.toUInt8]
  else (largetag + UInt8.ofNat (putint size).length) :: putint size

/-- `listhead`. -/
structure ListHead where
  /-- The position of the header in the string data. -/
  offset : Nat
  size : Nat

/-- `listhead.encode`. -/
def ListHead.encode (head : ListHead) : Bytes := puthead 0xC0 0xF7 (UInt64.ofNat head.size)

/-- **`encBuffer`.** -/
structure EncBuffer where
  str : Bytes
  lheads : List ListHead
  lhsize : Nat

/-- `ErrNegativeBigInt`. -/
inductive EncErr where
  | negativeBigInt
  deriving DecidableEq, Repr

/-- A writer. -/
abbrev EncM := EStateM EncErr EncBuffer

/-- The inner loop of `writeBigInt`, with the rounds that are left: the
bytes of a word go before those that are written, from the last one on,
while there is room. -/
def putWord : ℕ → ℕ × Bytes → ℕ → ℕ × Bytes
  | 0, p, _ => p
  | _ + 1, (0, out), _ => (0, out)
  | j + 1, (index + 1, out), d => putWord j (index, UInt8.ofNat d :: out) (d / 256)

/-- **The loop of `writeBigInt`** over the words of a number, which fills
a buffer from its end. -/
def putWords (length i : ℕ) : Bytes :=
  let p := (Nat.digits (2 ^ 64) i).foldl (putWord 8) (length, [])
  List.replicate p.1 0 ++ p.2

/-- **The array of `writeUint256`**, from the tag on. -/
def putLimbs (nBytes : ℕ) (z : Word) : Bytes :=
  let limb k := toBytes 8 (z.toNat / 2 ^ (64 * k) % 2 ^ 64)
  ((0 :: (limb 3 ++ limb 2 ++ limb 1 ++ limb 0)).set (32 - nBytes) (0x80 + UInt8.ofNat nBytes)).drop
    (32 - nBytes)

namespace EncBuffer

/-- The buffer of the pool, after `reset`. -/
def empty : EncBuffer := ⟨[], [], 0⟩

/-- `size`. -/
def size (buf : EncBuffer) : Nat := buf.str.length + buf.lhsize

/-- The loop of `copyTo`, from a position in the string data on. -/
def copyFrom (str : Bytes) : Nat → List ListHead → Bytes
  | strpos, [] => str.drop strpos
  | strpos, head :: heads =>
    (str.drop strpos).take (head.offset - strpos) ++ head.encode ++ copyFrom str head.offset heads

/-- `makeBytes`: the result has the length of `size`. -/
def makeBytes (buf : EncBuffer) : Bytes :=
  let out := copyFrom buf.str 0 buf.lheads
  (out ++ List.replicate (buf.size - out.length) 0).take buf.size

/-- Appends to the string data. -/
def append (b : Bytes) : EncM Unit := modify fun buf => { buf with str := buf.str ++ b }

/-- The buffer with a list opened. -/
def opened (buf : EncBuffer) : EncBuffer :=
  { buf with lheads := buf.lheads ++ [⟨buf.str.length, buf.lhsize⟩] }

/-- `list`: opens a list, and returns the index of its header. -/
def list : EncM Nat := fun buf => .ok buf.lheads.length buf.opened

/-- The buffer with a list closed. -/
def closed (index : Nat) (buf : EncBuffer) : EncBuffer :=
  match buf.lheads[index]? with
  | none => buf
  | some lh =>
    let size := buf.size - lh.offset - lh.size
    { buf with
      lheads := buf.lheads.set index { lh with size }
      lhsize := buf.lhsize + if size < 56 then 1 else 1 + intsize (UInt64.ofNat size) }

/-- `listEnd`. -/
def listEnd (index : Nat) : EncM Unit := modify (closed index)

/-- `encodeStringHeader`. -/
def encodeStringHeader (size : Nat) : EncM Unit :=
  if size < 56 then append [0x80 + UInt8.ofNat size]
  else
    let digits := putint (UInt64.ofNat size)
    append ((0xB7 + UInt8.ofNat digits.length) :: digits)

/-- `writeUint64`. -/
def writeUint64 (i : UInt64) : EncM Unit :=
  if i = 0 then append [0x80]
  else if i < 128 then append [i.toUInt8]
  else append ((0x80 + UInt8.ofNat (putint i).length) :: putint i)

/-- `writeBytes`. -/
def writeBytes (b : Bytes) : EncM Unit :=
  match b with
  | [x] => if x ≤ 0x7F then append [x] else do encodeStringHeader 1; append [x]
  | b => do encodeStringHeader b.length; append b

/-- `writeBigInt`, of a number that is not negative. -/
def writeBigInt (i : Nat) : EncM Unit :=
  if bitLen i ≤ 64 then writeUint64 (UInt64.ofNat i)
  else do
    let length := (bitLen i + 7) / 8
    encodeStringHeader length
    append (putWords length i)

/-- `writeUint256`. -/
def writeUint256 (z : Word) : EncM Unit :=
  if bitLen z.toNat ≤ 64 then writeUint64 (UInt64.ofNat z.toNat)
  else
    append (putLimbs ((bitLen z.toNat + 7) / 8) z)

/-- The writer of `makeByteArrayWriter`. -/
def writeByteArray (b : Bytes) : EncM Unit :=
  match b with
  | [] => append [0x80]
  | [x] => if x ≤ 0x7F then append [x] else append [0x81, x]
  | b => do encodeStringHeader b.length; append b

/-- A list around some writers. -/
def writeList (writers : List (EncM Unit)) : EncM Unit := do
  let offset ← list
  writers.forM id
  listEnd offset

/-- The writer of `makeSliceWriter`. -/
def writeSlice (writers : List (EncM Unit)) : EncM Unit :=
  match writers with
  | [] => append [0xC0]
  | writers => writeList writers

/-- The writer of a field, with whether it is optional and nil. -/
structure FieldWriter where
  missing : Bool
  write : EncM Unit

/-- The writer of `makeStructWriter`: it leaves out the optional fields
after the last one that is there. -/
def writeStruct (fields : List FieldWriter) : EncM Unit :=
  writeList ((fields.rdropWhile (·.missing)).map (·.write))

end EncBuffer

open EncBuffer

mutual

/-- **`makeWriter`.** -/
def Ty.write : (t : Ty) → t.Val → EncM Unit
  | .uint _, (v : BitVec _) => writeUint64 (UInt64.ofNat v.toNat)
  | .bigInt, (v : Int) => if v < 0 then throw .negativeBigInt else writeBigInt v.toNat
  | .uint256, (v : Word) => writeUint256 v
  | .bytes, b => writeBytes b
  | .array n, (v : BitVec _) => writeByteArray (toBytes n v.toNat)
  | .slice elem, vs => writeSlice (List.map elem.write vs)
  | .struct fields, vs => writeStruct (fields.writers vs)
  | .ptr elem, v => v.elim (append (emptyValue elem.nilKind)) elem.write
  | .nilPtr elem, v => v.elim (append (emptyValue elem.nilKind)) elem.write

/-- The writers of the fields of a struct. -/
def Fields.writers : (fs : Fields) → fs.Vals → List FieldWriter
  | .nil, _ => []
  | .cons _ type rest, (v, vs) => ⟨false, type.write v⟩ :: rest.writers vs
  | .optional _ elem rest, (v, vs) =>
    ⟨v.isNone, v.elim (append (emptyValue elem.nilKind)) elem.write⟩ :: rest.writers vs

end

mutual

/-- `writeInterface`, of a value that is not nil. -/
def Item.write : Item → EncM Unit
  | .string b => writeBytes b
  | .list items => writeSlice (Item.writeAll items)

/-- The writers of the elements of a list. -/
def Item.writeAll : List Item → List (EncM Unit)
  | [] => []
  | x :: items => x.write :: Item.writeAll items

end

/-- **`EncodeToBytes`**, with the writer of the value's type. -/
def encodeToBytes (write : EncM Unit) : Except EncErr Bytes :=
  match write EncBuffer.empty with
  | .ok _ buf => .ok buf.makeBytes
  | .error e _ => .error e

end Rlp
