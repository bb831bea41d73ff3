import Mathlib.Data.BitVec
import Mathlib.Logic.Function.Basic
import Mathlib.Data.Finset.Basic
import Mathlib.Tactic.Ring

/-!
# Addresses, hashes and the backing store

The types every part of the EVM shares. `common.Address` and
`types.Hash` are Go arrays of 20 and 32 bytes that are only ever
compared, hashed, and converted to and from big-endian numbers, so they
are bit vectors here, and a `uint256.Int` – a stack word – is the same
type as a hash. Byte strings are lists.

Two things the program calls are not part of its repository. Keccak-256
is the class `Keccak`, an arbitrary function from byte strings to
hashes. The store is the `StorageTx` a state is opened on: what
`tx.ZeroCopyGet` and `tx.Get` find under the three keys of
`schema.AccountData`, `schema.AccountCode` and `schema.AccountStorage`,
decoded. It is read-only and arbitrary, so whatever a raw key-value
store holds is one of these.
-/

/-- A byte string, Go's `[]byte` (with `nil` the empty string). -/
abbrev Bytes := List UInt8

/-- `common.Address`. -/
abbrev Address := BitVec 160

/-- `types.Hash`. -/
abbrev Hash := BitVec 256

/-- `uint256.Int`. -/
abbrev Word := BitVec 256

/-- A Go map: the value under each key that has one. -/
abbrev GoMap (κ ν : Type) := κ → Option ν

/-- The number a byte string denotes, big-endian. -/
def beNat (b : Bytes) : Nat := b.foldl (fun n x => n * 256 + x.toNat) 0

/-- The last `n` bytes of a number, big-endian. -/
def toBytes (n x : Nat) : Bytes :=
  (List.range n).reverse.map (fun i => UInt8.ofNat (x / 256 ^ i))

/-- `Hash.Bytes`. -/
def Hash.bytes (h : Hash) : Bytes := toBytes 32 h.toNat

/-- `Address.Bytes`. -/
def Address.bytes (a : Address) : Bytes := toBytes 20 a.toNat

/-- `types.BytesToHash`: the last 32 bytes, padded on the left. -/
def bytesToHash (b : Bytes) : Hash := BitVec.ofNat 256 (beNat b)

/-- `common.BytesToAddress`: the last 20 bytes, padded on the left. -/
def bytesToAddress (b : Bytes) : Address := BitVec.ofNat 160 (beNat b)

/-! ## Big-endian numbers -/

@[simp] theorem length_toBytes (n x : Nat) : (toBytes n x).length = n := by
  simp [toBytes]

theorem toBytes_succ (n x : Nat) :
    toBytes (n + 1) x = UInt8.ofNat (x / 256 ^ n) :: toBytes n x := by
  rw [toBytes, List.range_succ, List.reverse_append]
  rfl

theorem beNat_cons (x : UInt8) (b : Bytes) :
    beNat (x :: b) = x.toNat * 256 ^ b.length + beNat b := by
  -- the accumulator counts once for every byte that follows it
  have hacc : ∀ (l : Bytes) (n : Nat), l.foldl (fun n x => n * 256 + x.toNat) n
      = n * 256 ^ l.length + beNat l := by
    intro l
    induction l with
    | nil => intro n; simp [beNat]
    | cons y l ih =>
      intro n
      rw [beNat, List.foldl_cons, List.foldl_cons, ih, ih (0 * 256 + y.toNat),
        List.length_cons, pow_succ]
      ring
  rw [beNat, List.foldl_cons, hacc, Nat.zero_mul, Nat.zero_add]

theorem beNat_toBytes (n x : Nat) : beNat (toBytes n x) = x % 256 ^ n := by
  induction n with
  | zero => rw [pow_zero, Nat.mod_one]; rfl
  | succ n ih =>
    rw [toBytes_succ, beNat_cons, length_toBytes, ih, Nat.mod_pow_succ, Nat.add_comm,
      Nat.mul_comm]
    rfl

/-- Reading a hash's bytes gives it back. -/
@[simp] theorem bytesToHash_bytes (h : Hash) : bytesToHash h.bytes = h := by
  rw [bytesToHash, Hash.bytes, beNat_toBytes, show 256 ^ 32 = 2 ^ 256 by norm_num,
    Nat.mod_eq_of_lt h.isLt, BitVec.ofNat_toNat, BitVec.setWidth_eq]

/-- **Keccak-256**, of `golang.org/x/crypto/sha3`. -/
class Keccak where
  /-- `crypto.Keccak256Hash`. -/
  keccak256Hash : Bytes → Hash

export Keccak (keccak256Hash)

/-- The digests of a few short inputs, enough to evaluate the model on
concrete states: the empty string, the slots 0 and 1, the RLP list that
the address 1 creates a contract from at its last nonce, and some
bytecode. -/
def digestTable : List (Bytes × Hash) := [
  ([], 0xc5d2460186f7233c927e7db2dcc703c0e500b653ca82273b7bfad8045d85a470),
  (toBytes 32 0, 0x290decd9548b62a8d60345a988386fc84ba6bc95484008f6362f93160ef3e563),
  (toBytes 32 1, 0xb10e2d527612073b26eecdfd717e6a320cf44b4afac2b0732d9fcbe2b7fa0cf6),
  (0xde :: 0x94 :: toBytes 20 1 ++ 0x88 :: toBytes 8 0xffffffffffffffff,
    0x0ceaf396fa8e9b12db7d2205001567239734aeadea21023c2a7c0d9bb9ae4af9),
  ([0x00], 0xbc36789e7a1e281436464229828f817d6612f7b477d66591ff96a9e064bcc98a),
  ([0x5b], 0x9f50164828976b6baa479ea39c718c745bbc0d2521b67dfde8474cbdc9711057),
  ([0xfa], 0x1253499b3ef189942388771ba83b1ea017bef0a44f54c8caa528db65d2f1f435),
  ([0x60, 0x03, 0x56, 0x5b], 0x81f81b445ca92f2b3932f786cc9767da32ddebcb1e341484b8c41199e167b863),
  ([0x60, 0x05, 0x56, 0x00, 0x00, 0x5b],
    0xbb4b36b6785e8d23a94ace5c8e36f01a2161932a227416b8466a660f1618faeb),
  ([0x60, 0x03, 0x56, 0x5b, 0x60, 0x00, 0x60, 0x00, 0x60, 0x00, 0x60, 0x00, 0x60, 0x00,
    0x61, 0x20, 0x00, 0x61, 0xff, 0xff, 0xf1],
    0x5d6fa11a3860dd7c0eedf66de7127b987145ebe39684ca8bdfe01ed2bd31ce7a),
  ([0x60, 0x01, 0x60, 0x00, 0x55],
    0x7efcce47028dabcb0d42f3a7eda8820bf6f7f4e618398c2547d52f703cafb073),
  ([0x60, 0x00, 0x60, 0x00, 0x55, 0x60, 0x01, 0x60, 0x00, 0x55],
    0x2afd5916fd398647ada97039811004dea871ae930e63202fd3beb21a751f188c)]

/-- Keccak-256 on the inputs of the table. -/
@[reducible] def Keccak.digests : Keccak where
  keccak256Hash b := (digestTable.lookup b).getD 0

/-- `emptyCode`, the hash of the empty bytecode. -/
def emptyCode [Keccak] : Hash := keccak256Hash []

/-- The key under which a slot is stored, `crypto.Keccak256Hash` of its
32 bytes. -/
def slotKey [Keccak] (slot : Hash) : Hash := keccak256Hash slot.bytes

/-- **An account record.** The balance is `nil` in the record
`CreateAccount` makes, and the code hash is a byte string because the
record of a fresh account has none. -/
structure Account where
  nonce : UInt64 := 0
  balance : Option Int := none
  codeHash : Bytes := []
  deriving DecidableEq

/-- **The store a state is opened on**, a `storage.Transaction` and the
chain it belongs to. -/
structure StorageTx where
  /-- The record under `schema.AccountData`, where there is one and
  `FullAccount` decodes it. -/
  accountData : Address → Option Account
  /-- The bytes under `schema.AccountCode` of a code hash. -/
  accountCode : Bytes → Option Bytes
  /-- The value under `schema.AccountStorage` of an address and a hashed
  slot, its RLP string decoded. -/
  accountStorage : Address → Hash → Option Hash

/-- The store with nothing in it. -/
def StorageTx.empty : StorageTx := ⟨fun _ => none, fun _ => none, fun _ _ => none⟩

/-- The store with one account and its code. -/
def StorageTx.single (a : Address) (account : Account) (code : Bytes) : StorageTx where
  accountData b := if b = a then some account else none
  accountCode h := if h = account.codeHash then some code else none
  accountStorage _ _ := none
