import CkbDilithium.Sdk.Transfer

/-!
# The transfer preflight

`validateTransferRequest` of `sdk/src/wallet.ts`: it checks the networks, the amount and the total
capacity, builds the transfer, and translates the errors of the builder by their texts.
-/

namespace CkbDilithium.Sdk

open Js

/-! ### Texts -/

/-- `value.toString()` of a bigint. -/
def bigIntToString (value : Int) : JsString :=
  if value < 0 then lit "-" ++ toRadix 10 value.natAbs else toRadix 10 value.toNat

/-- `text.includes(search)`. -/
def includes (text search : JsString) : Bool := decide (search <:+: text)

def networkName : Network → JsString
  | .mainnet => lit "mainnet"
  | .testnet => lit "testnet"
  | .devnet => lit "devnet"

/-- What the builder throws when no prefix of the own cells funds the transfer. -/
def insufficientCapacityMessage : JsString := lit "insufficient capacity to build transfer transaction"

/-! ### Errors -/

def invalidRecipientNetworkError (sender recipient : Network) : JsError :=
  .walletError .invalidRecipientNetwork
    (lit "recipient network " ++ networkName recipient ++ lit " does not match sender network " ++
      networkName sender)
    [(lit "senderNetwork", networkName sender), (lit "recipientNetwork", networkName recipient)]

def amountBelowMinimumError (message : JsString) (amount recipientMinimumCapacity : Int) : JsError :=
  .walletError .amountBelowMinimumCapacity message
    [(lit "amount", bigIntToString amount),
      (lit "recipientMinimumCapacity", bigIntToString recipientMinimumCapacity)]

def amountBelowMinimumMessage (recipientMinimumCapacity : Int) : JsString :=
  lit "amount is below the recipient minimum capacity of " ++ bigIntToString recipientMinimumCapacity ++
    lit " shannons"

def insufficientTotalError (totalCapacity amount : Int) : JsError :=
  .walletError .insufficientTotalCapacity
    (lit "wallet has " ++ bigIntToString totalCapacity ++ lit " shannons but transfer requires at least " ++
      bigIntToString amount ++ lit " shannons before fees")
    [(lit "totalCapacity", bigIntToString totalCapacity), (lit "amount", bigIntToString amount)]

def insufficientForFeeError (totalCapacity amount minimumChangeCapacity : Int) : JsError :=
  .walletError .insufficientCapacityForFee
    (lit "insufficient capacity to cover amount plus fee or create a valid change cell")
    [(lit "totalCapacity", bigIntToString totalCapacity), (lit "amount", bigIntToString amount),
      (lit "minimumChangeCapacity", bigIntToString minimumChangeCapacity)]

/-- The `catch` around the builder; everything it throws is an `Error`. -/
def translateBuildError (amount recipientMinimumCapacity minimumChangeCapacity totalCapacity : Int)
    (error : JsError) : JsError :=
  if includes error.message insufficientCapacityMessage then
    insufficientForFeeError totalCapacity amount minimumChangeCapacity
  else if includes error.message (lit "recipient minimum capacity") then
    amountBelowMinimumError error.message amount recipientMinimumCapacity
  else error

/-! ### The preflight -/

structure TransferPreflight where
  amount : Int
  recipientMinimumCapacity : Int
  minimumChangeCapacity : Int
  unsigned : UnsignedTransferTransaction
  deriving DecidableEq

def recipientMatchesNetwork (sender recipient : Network) : Bool :=
  if sender = .mainnet then recipient == .mainnet else recipient != .mainnet

/-- `cells.reduce((sum, cell) => sum + hexToBigInt(cell.output.capacity), sum)`. -/
def reduceCapacity (sum : Int) (cells : List LiveCell) : Js Int :=
  cells.foldlM (fun sum cell => do pure (sum + (← hexToBigInt cell.output.capacity))) sum

/-- The network check at the start; without a recipient network there is none. -/
def checkRecipientNetwork (sender : Network) : Option Network → Js Unit
  | none => pure ()
  | some recipient =>
    if ¬ recipientMatchesNetwork sender recipient then throw (invalidRecipientNetworkError sender recipient)
    else pure ()

/-- The `try` around the builder: what it returns, or its translated error. -/
def tryBuild (amount recipientMinimumCapacity minimumChangeCapacity totalCapacity : Int) :
    Js UnsignedTransferTransaction → Js TransferPreflight
  | .ok unsigned => pure { amount, recipientMinimumCapacity, minimumChangeCapacity, unsigned }
  | .error error =>
    throw (translateBuildError amount recipientMinimumCapacity minimumChangeCapacity totalCapacity error)

def validateTransferRequest (options : BuildTransferOptions) (recipientNetwork : Option Network) :
    Js TransferPreflight := do
  checkRecipientNetwork options.scriptConfig.network recipientNetwork
  let amount ← normalizeBigInt options.amount (lit "amount")
  let changeLock := options.changeLock.getD options.fromLock
  let recipientMinimumCapacity ← minimumCellCapacity options.toLock (lit "0x") none
  let minimumChangeCapacity ← minimumCellCapacity changeLock (lit "0x") none
  if amount < recipientMinimumCapacity then
    throw (amountBelowMinimumError (amountBelowMinimumMessage recipientMinimumCapacity) amount
      recipientMinimumCapacity)
  else
    let totalCapacity ← reduceCapacity 0
      (options.cells.filter fun cell => sameLock cell.output.lock options.fromLock)
    if totalCapacity < amount then throw (insufficientTotalError totalCapacity amount)
    else
      tryBuild amount recipientMinimumCapacity minimumChangeCapacity totalCapacity (buildTransferTransaction options)

end CkbDilithium.Sdk
