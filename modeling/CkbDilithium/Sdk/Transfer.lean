import CkbDilithium.Sdk.Serialize

/-!
# Building a transfer

`buildTransferTransaction` of `sdk/src/wallet.ts`. The cells are sorted by capacity and taken one by
one, foreign locks skipped, until the transfer can be funded: `tryTransfer` is the body of the loop
after a cell is taken, `selectCells` the loop.
-/

namespace CkbDilithium.Sdk

open Js

def scriptSizeBase : Int := 32 + 1

def cellOutputBase : Int := 8

/-! ### Helpers -/

def normalizeBigInt (value : Numeric) (label : JsString) : Js Int :=
  match value with
  | .bigint value => pure value
  | .number value =>
    if ¬ value.isSafeInteger then raise (label ++ lit " must be a safe integer when provided as a number")
    else pure value.toInt
  | .string value => if (lit "0x").isPrefixOf value then hexToBigInt value else bigIntOfString value

def sameLock (left right : LockScript) : Bool :=
  left.codeHash == right.codeHash && left.hashType == right.hashType && left.args == right.args

def minimumCellCapacity (lock : LockScript) (dataHex : JsString) (type : Option LockScript) : Js Int := do
  let lockArgs : Int := (← hexToBytes lock.args).length
  let lockBytes := scriptSizeBase + lockArgs
  let typeBytes ← match type with
    | some type => do pure (scriptSizeBase + ((← hexToBytes type.args).length : Int))
    | none => pure 0
  let dataBytes : Int := (← hexToBytes dataHex).length
  pure ((cellOutputBase + lockBytes + typeBytes + dataBytes) * shannonsPerCkb)

/-- `Array.from({ length }, (_, index) => ...)` with the lock in the first witness. -/
def witnessList (witnessCount : Nat) (lock : Bytes) : Js (List JsString) :=
  (List.range witnessCount).mapM fun index =>
    if index = 0 then encodeWitnessArgs (some lock) else encodeWitnessArgs none

def withPlaceholderWitnesses (rawTransaction : RawTransaction) (witnessCount : Nat) : Js Transaction := do
  pure { toRawTransaction := rawTransaction
         witnesses := ← witnessList witnessCount (List.replicate witnessLockBytes 0) }

def estimateTransactionSize (rawTransaction : RawTransaction) (witnessCount : Nat) : Js Nat := do
  let tx ← withPlaceholderWitnesses rawTransaction witnessCount
  pure (← serializeTransaction tx).length

/-- Division of bigints truncates. -/
def estimateTransactionFee (rawTransaction : RawTransaction) (feeRate : Int) (witnessCount : Nat) : Js Int := do
  let txSize ← estimateTransactionSize rawTransaction witnessCount
  pure ((txSize * feeRate + 999).tdiv 1000)

/-! ### Sorting -/

/-- `[...cells].sort(...)`, a stable sort. Every cell takes part in some comparison as soon as there
are two, so that one with a malformed capacity makes the sort throw. -/
def sortByCapacity (cells : List LiveCell) : Js (List LiveCell) :=
  if cells.length < 2 then pure cells
  else do
    let keyed ← cells.mapM fun cell => do pure ((← hexToBigInt cell.output.capacity), cell)
    pure ((keyed.insertionSort fun left right => left.1 ≤ right.1).map Prod.snd)

/-! ### Selection -/

/-- The transaction without a change output. -/
def tentativeTransaction (options : BuildTransferOptions) (selectedCells : List LiveCell)
    (tentativeOutputs : List CellOutput) : RawTransaction where
  version := lit "0x0"
  cellDeps := [options.scriptConfig.cellDep]
  headerDeps := []
  inputs := selectedCells.map fun selected => { previousOutput := selected.outPoint, since := lit "0x0" }
  outputs := tentativeOutputs
  outputsData := [lit "0x"]

/-- The outputs, their data and the capacity of the change output, which a positive change adds. -/
def finalizeOutputs (tentativeOutputs : List CellOutput) (outputsData : List JsString) (adjustedChange : Int)
    (changeLock : LockScript) : Js (List CellOutput × List JsString × Int) :=
  if adjustedChange > 0 then do
    let change : CellOutput :=
      { capacity := ← toHexQuantity (.bigint adjustedChange), lock := changeLock, type := none }
    pure (tentativeOutputs ++ [change], outputsData ++ [lit "0x"], adjustedChange)
  else pure (tentativeOutputs, outputsData, 0)

/-- One round of the loop after a cell is taken: `none` goes on with the next cell. -/
def tryTransfer (options : BuildTransferOptions) (amount feeRate : Int) (changeLock : LockScript)
    (selectedCells : List LiveCell) (inputCapacity : Int) : Js (Option UnsignedTransferTransaction) := do
  let tentativeOutputs : List CellOutput :=
    [{ capacity := ← toHexQuantity (.bigint amount), lock := options.toLock, type := none }]
  let rawTransaction := tentativeTransaction options selectedCells tentativeOutputs
  let fee ← estimateTransactionFee rawTransaction feeRate selectedCells.length
  let adjustedChange := inputCapacity - amount - fee
  if adjustedChange < 0 then pure none
  else
    let minimumChange ← minimumCellCapacity changeLock (lit "0x") none
    if adjustedChange > 0 ∧ adjustedChange < minimumChange then pure none
    else
      let (finalizedOutputs, finalizedOutputsData, changeOutputCapacity) ←
        finalizeOutputs tentativeOutputs rawTransaction.outputsData adjustedChange changeLock
      let finalizedRawTransaction :=
        { rawTransaction with outputs := finalizedOutputs, outputsData := finalizedOutputsData }
      let txSize ← estimateTransactionSize finalizedRawTransaction selectedCells.length
      pure (some {
        rawTransaction := finalizedRawTransaction
        placeholderTransaction := ← withPlaceholderWitnesses finalizedRawTransaction selectedCells.length
        fee, inputCapacity
        outputCapacity := amount + changeOutputCapacity
        changeCapacity := changeOutputCapacity
        selectedCells, txSize })

/-- The loop over the sorted cells. -/
def selectCells (options : BuildTransferOptions) (amount feeRate : Int) (changeLock : LockScript) :
    (cells selectedCells : List LiveCell) → (inputCapacity : Int) → Js (Option UnsignedTransferTransaction)
  | [], _, _ => pure none
  | cell :: cells, selectedCells, inputCapacity =>
    if ¬ sameLock cell.output.lock options.fromLock then
      selectCells options amount feeRate changeLock cells selectedCells inputCapacity
    else do
      let selectedCells := selectedCells ++ [cell]
      let inputCapacity := inputCapacity + (← hexToBigInt cell.output.capacity)
      match ← tryTransfer options amount feeRate changeLock selectedCells inputCapacity with
      | some best => pure (some best)
      | none => selectCells options amount feeRate changeLock cells selectedCells inputCapacity

def buildTransferTransaction (options : BuildTransferOptions) : Js UnsignedTransferTransaction := do
  let amount ← normalizeBigInt options.amount (lit "amount")
  let feeRate ← normalizeBigInt (options.feeRate.getD (.bigint defaultFeeRate)) (lit "feeRate")
  let changeLock := options.changeLock.getD options.fromLock
  let minimumRecipientCapacity ← minimumCellCapacity options.toLock (lit "0x") none
  if amount < minimumRecipientCapacity then
    raise (lit "amount is below the recipient minimum capacity of " ++
      toRadix 10 minimumRecipientCapacity.toNat ++ lit " shannons")
  else
    let sortedCells ← sortByCapacity options.cells
    match ← selectCells options amount feeRate changeLock sortedCells [] 0 with
    | some best => pure best
    | none => raise (lit "insufficient capacity to build transfer transaction")

end CkbDilithium.Sdk
