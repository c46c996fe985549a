import CkbDilithium.Lib.Number
import CkbDilithium.Lib.Result
import CkbDilithium.Lib.Bytes

/-!
# Types of the SDK

The interfaces of `sdk/src/types.ts`, the constants of `sdk/src/constants.ts` and the errors the SDK
throws. Hash types, hex strings and quantities are strings, as they arrive unchecked from RPC
replies and the deployment file; string-literal unions whose members are only compared are
enumerations.
-/

namespace CkbDilithium.Sdk

open Js

/-! ### Errors -/

inductive WalletErrorCode where
  | amountBelowMinimumCapacity
  | insufficientTotalCapacity
  | insufficientCapacityForFee
  | changeBelowMinimumCapacity
  | indexerUnavailable
  | transactionConfirmationTimeout
  | balanceWaitTimeout
  | invalidKeyFile
  | invalidRecipientNetwork
  deriving DecidableEq

/-- What is thrown: a plain `Error`, a `WalletError` with its code and details, or an error of the
runtime (`BigInt` on a malformed string, `DataView` access out of range). -/
inductive JsError where
  | error (message : JsString)
  | walletError (code : WalletErrorCode) (message : JsString) (details : List (JsString × JsString))
  | syntaxError (message : JsString)
  | rangeError (message : JsString)
  deriving DecidableEq

/-- `error.message`. -/
def JsError.message : JsError → JsString
  | .error message => message
  | .walletError _ message _ => message
  | .syntaxError message => message
  | .rangeError message => message

abbrev Js := Except JsError

/-- `throw new Error(message)`. -/
def raise {α : Type} (message : JsString) : Js α := throw (.error message)

@[simp] theorem raise_ne_ok {α : Type} {message : JsString} {a : α} :
    raise message ≠ .ok a := by
  simp [raise]

@[simp] theorem ite_raise_eq_ok {α : Type} {p : Prop} [Decidable p] {x : Js α}
    {message : JsString} {b : α} :
    (if p then raise message else x) = .ok b ↔ ¬ p ∧ x = .ok b :=
  Result.ite_throw_eq_ok

/-! ### Values -/

/-- `Uint8Array | ArrayBuffer | ArrayLike<number>`. -/
inductive ByteLike where
  | uint8Array (bytes : Bytes)
  | arrayBuffer (bytes : Bytes)
  | arrayLike (numbers : List JsNumber)
  deriving DecidableEq

/-- `bigint | number | string`. -/
inductive Numeric where
  | bigint (value : Int)
  | number (value : JsNumber)
  | string (value : JsString)
  deriving DecidableEq

inductive DepType where
  | code
  | depGroup
  deriving DecidableEq

inductive Network where
  | mainnet
  | testnet
  | devnet
  deriving DecidableEq

structure LockScript where
  codeHash : JsString
  hashType : JsString
  args : JsString
  deriving DecidableEq

structure OutPoint where
  txHash : JsString
  index : JsString
  deriving DecidableEq

structure CellDep where
  outPoint : OutPoint
  depType : DepType
  deriving DecidableEq

/-- `type` is `none` for both `undefined` and `null`. -/
structure CellOutput where
  capacity : JsString
  lock : LockScript
  type : Option LockScript
  deriving DecidableEq

structure TransactionInput where
  previousOutput : OutPoint
  since : JsString
  deriving DecidableEq

structure RawTransaction where
  version : JsString
  cellDeps : List CellDep
  headerDeps : List JsString
  inputs : List TransactionInput
  outputs : List CellOutput
  outputsData : List JsString
  deriving DecidableEq

structure Transaction extends RawTransaction where
  witnesses : List JsString
  deriving DecidableEq

structure DilithiumScriptConfig where
  codeHash : JsString
  hashType : JsString
  cellDep : CellDep
  network : Network
  deriving DecidableEq

structure LiveCell where
  blockNumber : JsString
  outPoint : OutPoint
  output : CellOutput
  outputData : JsString
  txIndex : JsString
  deriving DecidableEq

structure DecodedCkbAddress where
  network : Network
  script : LockScript
  deriving DecidableEq

structure ParsedWitnessLock where
  publicKey : Bytes
  signature : Bytes
  deriving DecidableEq

structure BuildTransferOptions where
  cells : List LiveCell
  fromLock : LockScript
  toLock : LockScript
  amount : Numeric
  scriptConfig : DilithiumScriptConfig
  changeLock : Option LockScript
  feeRate : Option Numeric
  deriving DecidableEq

structure UnsignedTransferTransaction where
  rawTransaction : RawTransaction
  placeholderTransaction : Transaction
  fee : Int
  inputCapacity : Int
  outputCapacity : Int
  changeCapacity : Int
  selectedCells : List LiveCell
  txSize : Nat
  deriving DecidableEq

structure SealTransactionOptions where
  rawTransaction : RawTransaction
  publicKey : ByteLike
  secretKey : ByteLike
  witnessCount : Option Nat

structure SignedTransaction where
  transaction : Transaction
  txHash : JsString
  witnessLock : JsString
  deriving DecidableEq

structure BuildSignedTransferOptions extends BuildTransferOptions where
  publicKey : ByteLike
  secretKey : ByteLike

structure SignedTransferTransaction extends UnsignedTransferTransaction where
  transaction : Transaction
  txHash : JsString
  witnessLock : JsString
  deriving DecidableEq

/-! ### Constants -/

def lockArgsLen : Nat := 32
def publicKeyLen : Nat := 1952
def secretKeyLen : Nat := 4032
def signatureLen : Nat := 3309
def witnessLockBytes : Nat := 4 + publicKeyLen + 4 + signatureLen
def shannonsPerCkb : Int := 100000000
def defaultFeeRate : Int := 1000

end CkbDilithium.Sdk
