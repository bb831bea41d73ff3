/-!
# Protocol parameters and fork rules

The constants of `params/protocol_params.go` that the interpreter and
the gas functions use, and the record of forks in force.
-/

/-- `params.Rules`. The chain id is kept with the chain configuration. -/
structure Rules where
  isHomestead : Bool := false
  isEIP150 : Bool := false
  isEIP155 : Bool := false
  isEIP158 : Bool := false
  isByzantium : Bool := false
  isConstantinople : Bool := false
  isPetersburg : Bool := false
  isIstanbul : Bool := false
  isBerlin : Bool := false
  isLondon : Bool := false
  isMerge : Bool := false
  isShanghai : Bool := false
  isCancun : Bool := false
  isNapoli : Bool := false
  isPip30 : Bool := false
  isPrague : Bool := false
  isOsaka : Bool := false
  deriving DecidableEq

/-- The rules of a merged chain from Prague on. -/
def Rules.prague : Rules where
  isHomestead := true
  isEIP150 := true
  isEIP155 := true
  isEIP158 := true
  isByzantium := true
  isConstantinople := true
  isPetersburg := true
  isIstanbul := true
  isBerlin := true
  isLondon := true
  isMerge := true
  isShanghai := true
  isCancun := true
  isPrague := true

namespace Params

def callValueTransferGas : UInt64 := 9000
def callNewAccountGas : UInt64 := 25000
def txGas : UInt64 := 21000
def txGasContractCreation : UInt64 := 53000
def txDataZeroGas : UInt64 := 4
def quadCoeffDiv : UInt64 := 512
def logDataGas : UInt64 := 8
def callStipend : UInt64 := 2300
def keccak256Gas : UInt64 := 30
def keccak256WordGas : UInt64 := 6
def initCodeWordGas : UInt64 := 2

def sstoreSetGas : UInt64 := 20000
def sstoreResetGas : UInt64 := 5000
def sstoreClearGas : UInt64 := 5000
def sstoreRefundGas : UInt64 := 15000

def netSstoreNoopGas : UInt64 := 200
def netSstoreInitGas : UInt64 := 20000
def netSstoreCleanGas : UInt64 := 5000
def netSstoreDirtyGas : UInt64 := 200
def netSstoreClearRefund : UInt64 := 15000
def netSstoreResetRefund : UInt64 := 4800
def netSstoreResetClearRefund : UInt64 := 19800

def sstoreSentryGasEIP2200 : UInt64 := 2300
def sstoreSetGasEIP2200 : UInt64 := 20000
def sstoreResetGasEIP2200 : UInt64 := 5000
def sstoreClearsScheduleRefundEIP2200 : UInt64 := 15000

def coldAccountAccessCostEIP2929 : UInt64 := 2600
def coldSloadCostEIP2929 : UInt64 := 2100
def warmStorageReadCostEIP2929 : UInt64 := 100

def txDataNonZeroGasFrontier : UInt64 := 68
def txDataNonZeroGasEIP2028 : UInt64 := 16
def txTokenPerNonZeroByte : UInt64 := 4
def txCostFloorPerToken : UInt64 := 10
def txAccessListAddressGas : UInt64 := 2400
def txAccessListStorageKeyGas : UInt64 := 1900
def sstoreClearsScheduleRefundEIP3529 : UInt64 :=
  sstoreResetGasEIP2200 - coldSloadCostEIP2929 + txAccessListStorageKeyGas

def blobTxMinBlobGasprice : Nat := 1
def blobTxBlobGaspriceUpdateFraction : Nat := 2225652

def jumpdestGas : UInt64 := 1
def createDataGas : UInt64 := 200
def callCreateDepth : Nat := 1024
def expGas : UInt64 := 10
def logGas : UInt64 := 375
def copyGas : UInt64 := 3
def stackLimit : Nat := 1024
def logTopicGas : UInt64 := 375
def createGas : UInt64 := 32000
def create2Gas : UInt64 := 32000
def selfdestructRefundGas : UInt64 := 24000
def memoryGas : UInt64 := 3

def callGasFrontier : UInt64 := 40
def callGasEIP150 : UInt64 := 700
def balanceGasFrontier : UInt64 := 20
def balanceGasEIP150 : UInt64 := 400
def balanceGasEIP1884 : UInt64 := 700
def extcodeSizeGasFrontier : UInt64 := 20
def extcodeSizeGasEIP150 : UInt64 := 700
def sloadGasFrontier : UInt64 := 50
def sloadGasEIP150 : UInt64 := 200
def sloadGasEIP1884 : UInt64 := 800
def sloadGasEIP2200 : UInt64 := 800
def extcodeHashGasConstantinople : UInt64 := 400
def extcodeHashGasEIP1884 : UInt64 := 700
def selfdestructGasEIP150 : UInt64 := 5000
def expByteFrontier : UInt64 := 10
def expByteEIP158 : UInt64 := 50
def extcodeCopyBaseFrontier : UInt64 := 20
def extcodeCopyBaseEIP150 : UInt64 := 700
def createBySelfdestructGas : UInt64 := 25000

def maxCodeSize : Nat := 24576
def maxCodeSizePIP30 : Nat := 32768
def maxInitCodeSize : Nat := 2 * maxCodeSize

def maxTxGas : UInt64 := 16777216
def refundQuotient : UInt64 := 2
def refundQuotientEIP3529 : UInt64 := 5

-- `vm/gas.go`
def gasQuickStep : UInt64 := 2
def gasFastestStep : UInt64 := 3
def gasFastStep : UInt64 := 5
def gasMidStep : UInt64 := 8
def gasSlowStep : UInt64 := 10
def gasExtStep : UInt64 := 20

end Params
