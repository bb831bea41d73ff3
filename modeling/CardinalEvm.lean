import CardinalEvm.UndoLog
import CardinalEvm.Types
import CardinalEvm.AccessList
import CardinalEvm.StateDB
import CardinalEvm.Journal
import CardinalEvm.Balance
import CardinalEvm.CodeHash
import CardinalEvm.Effect
import CardinalEvm.Machine
import CardinalEvm.Instructions
import CardinalEvm.Analysis
import CardinalEvm.Gas
import CardinalEvm.JumpTable
import CardinalEvm.Interpreter
import CardinalEvm.GasLaws
import CardinalEvm.StackEffect
import CardinalEvm.Quiet
import CardinalEvm.CallTree
import CardinalEvm.Refinement
import CardinalEvm.FailedCalls
import CardinalEvm.StaticCalls
import CardinalEvm.CodeBitmap
import CardinalEvm.Memo
import CardinalEvm.JumpAnalysis
import CardinalEvm.Backing
import CardinalEvm.Refunds
import CardinalEvm.StateOverride
import CardinalEvm.Finalise
import CardinalEvm.Emptiness
import CardinalEvm.Caller
import CardinalEvm.Purity
import CardinalEvm.Heap
import CardinalEvm.HeapRefinement
import CardinalEvm.Isolation
import CardinalEvm.SelfDestruct
import CardinalEvm.Ledger
import CardinalEvm.Ether
import CardinalEvm.Faults
import CardinalEvm.StackSafety
import CardinalEvm.MemorySafety
import CardinalEvm.Registers
import CardinalEvm.GasAccounting
import CardinalEvm.CallGas
import CardinalEvm.Spending
import CardinalEvm.NetMetering
import CardinalEvm.MemoryGas
import CardinalEvm.Decoding
import CardinalEvm.ProgramCounter
import CardinalEvm.Construction
import CardinalEvm.Delegation
import CardinalEvm.Manager
import CardinalEvm.StateTransition
import CardinalEvm.Accounting
import CardinalEvm.DoCall
import CardinalEvm.Solvency
import CardinalEvm.Submission
import CardinalEvm.IntrinsicGas
import CardinalEvm.Admission
import CardinalEvm.Bisection
import CardinalEvm.EstimateGas
import CardinalEvm.SearchSoundness
import CardinalEvm.EstimateGasList
import CardinalEvm.Compatibility
import CardinalEvm.Rewind
import CardinalEvm.BlobFee
import CardinalEvm.Rlp
import CardinalEvm.RlpStream
import CardinalEvm.RlpReading
import CardinalEvm.RlpDecode
import CardinalEvm.RlpCodec
import CardinalEvm.RlpEncode
import CardinalEvm.RlpTypes
import CardinalEvm.BlockHeader
import CardinalEvm.RlpRaw
import CardinalEvm.RlpSchema
import CardinalEvm.Signer
import CardinalEvm.SignerSelection
import CardinalEvm.RawTransactions
import CardinalEvm.Authorizations
import CardinalEvm.Resumer
import CardinalEvm.ModExp
import CardinalEvm.RlpReaders
import CardinalEvm.TransactionSize
import CardinalEvm.RlpIterator
import CardinalEvm.RlpIntegers
import CardinalEvm.MathExp
