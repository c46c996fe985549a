import CkbDilithium.Sdk.Client
import CkbDilithium.Sdk.Preflight
import CkbDilithium.Sdk.Sign
import CkbDilithium.Sdk.Address

/-!
# Wallet operations over the network

Balances, out points and the two waiting loops of `sdk/src/wallet.ts`. `waitForBalance` and
`waitForTransactionConfirmation` poll in the same way: `pollRound` is one round of either loop, which asks,
returns when the answer is accepted, gives up when the time is over, and sleeps.
-/

namespace CkbDilithium.Sdk

open Js

/-! ### Values -/

structure BalanceSummary where
  lock : LockScript
  totalCapacity : Int
  liveCells : Nat
  deriving DecidableEq

structure OutPointInspection where
  outPoint : OutPoint
  status : OutPointStatus
  cell : Option ResolvedOutPointCell
  expectedLock : Option LockScript
  lockMatchesExpected : Option Bool
  deriving DecidableEq

structure BalanceSourceInspection where
  rpcTip : Option ChainTip
  indexerTip : Option ChainTip
  indexerReachable : Bool
  indexerLag : Option Int
  indexerError : Option JsString
  deriving DecidableEq

structure WalletState where
  address : JsString
  lock : LockScript
  totalCapacity : Int
  liveCells : Nat
  minimumCellCapacity : Int
  funded : Bool
  deriving DecidableEq

inductive WalletTransactionStatus where
  | unknown
  | pending
  | proposed
  | committed
  | rejected
  deriving DecidableEq

def transactionStatusName : WalletTransactionStatus → JsString
  | .unknown => lit "unknown"
  | .pending => lit "pending"
  | .proposed => lit "proposed"
  | .committed => lit "committed"
  | .rejected => lit "rejected"

/-! ### Addresses -/

def addressFromPublicKey (wasm : WasmExports) (publicKey : Bytes) (scriptConfig : DilithiumScriptConfig) :
    Js JsString := do
  let lock ← buildLockScript wasm scriptConfig.codeHash scriptConfig.hashType (.uint8Array publicKey)
  encodeCkbAddress lock scriptConfig.network

def parseAddressToLock (address : JsString) : Js LockScript := do
  pure (← decodeCkbAddress address).script

/-! ### Tips and statuses -/

def tipLag (rpcTip indexerTip : ChainTip) : Js Int := do
  let rpcBlock ← hexToBigInt rpcTip.blockNumber
  let indexerBlock ← hexToBigInt indexerTip.blockNumber
  pure (if rpcBlock > indexerBlock then rpcBlock - indexerBlock else 0)

/-- `null` counts as missing for `?.` and `??`. -/
def present : Option Json → Option Json
  | some .null => none
  | value => value

/-- `transaction.key?.status`. -/
def statusUnder (key : JsString) (transaction : Json) : Option Json :=
  present ((present (transaction.member? key)).bind fun value => value.member? (lit "status"))

def transactionStatus (transaction : Json) : WalletTransactionStatus :=
  match transaction with
  | .array _ | .object _ =>
    match (statusUnder (lit "tx_status") transaction).or (statusUnder (lit "txStatus") transaction) with
    | some (.string rawStatus) =>
      if rawStatus = lit "pending" then .pending
      else if rawStatus = lit "proposed" then .proposed
      else if rawStatus = lit "committed" then .committed
      else if rawStatus = lit "rejected" then .rejected
      else .unknown
    | _ => .pending
  | _ => .unknown

/-! ### Polling -/

/-- `elapsed >= timeoutMs`, which is false when the timeout is no number. -/
def timeIsOver (elapsed : Int) : JsNumber → Bool
  | .nan => false
  | .infinity negative => negative
  | .finite q => decide (q ≤ elapsed)

def defaultWaitTimeoutMs : JsNumber := .ofNat 120000

def defaultWaitIntervalMs : JsNumber := .ofNat 5000

/-- What a loop has found, with the number of its attempts and the time since its start. -/
structure Polled (α : Type) where
  found : α
  attempts : Nat
  elapsedMs : Int

section

variable (env : Environment)

/-- One round after `attempts` rounds before. -/
def pollRound {α : Type} (start : Int) (timeoutMs intervalMs : JsNumber) (ask : Wallet α) (accepts : α → Bool)
    (timeoutError : Polled α → JsError) (attempts : Nat) : Wallet (Nat ⊕ Polled α) := do
  let attempts := attempts + 1
  let found ← ask
  if accepts found then pure (.inr { found, attempts, elapsedMs := (← dateNow env) - start })
  else if timeIsOver ((← dateNow env) - start) timeoutMs then
    Action.lift (throw (timeoutError { found, attempts, elapsedMs := (← dateNow env) - start }))
  else do
    sleep intervalMs
    pure (.inl attempts)

/-- Ask until an answer is accepted or the time is over. -/
def poll {α : Type} (fuel : Nat) (start : Int) (timeoutMs intervalMs : JsNumber) (ask : Wallet α)
    (accepts : α → Bool) (timeoutError : Polled α → JsError) : Wallet (Polled α) :=
  Action.loop (pollRound env start timeoutMs intervalMs ask accepts timeoutError) fuel 0

end

/-! ### Balances -/

section

variable (env : Environment) (config : RpcConfig) (fuel : Nat)

def getBalanceSummary (lock : LockScript) : Wallet BalanceSummary := do
  let cells ← CkbRpcClient.getCells env config fuel lock (.ofNat 100)
  let totalCapacity ← Action.lift (reduceCapacity 0 cells)
  pure { lock, totalCapacity, liveCells := cells.length }

def inspectOutPoint (outPoint : OutPoint) (expectedLock : Option LockScript) : Wallet OutPointInspection := do
  let (status, cell) ← CkbRpcClient.getLiveCell env config outPoint true
  let lockMatchesExpected := match cell, expectedLock with
    | some cell, some expectedLock => some (sameLock cell.output.lock expectedLock)
    | _, _ => none
  pure { outPoint, status, cell, expectedLock, lockMatchesExpected }

def getBalanceSourceInspection : Wallet BalanceSourceInspection := do
  let rpcTip ← Action.catching (do pure (some (← CkbRpcClient.getTipHeader env config))) fun _ => pure none
  Action.catching
    (do
      let indexerTip ← CkbRpcClient.getIndexerTip env config
      let indexerLag ← match rpcTip with
        | some rpcTip => do pure (some (← Action.lift (tipLag rpcTip indexerTip)))
        | none => pure none
      pure { rpcTip, indexerTip := some indexerTip, indexerReachable := true, indexerLag, indexerError := none })
    fun error => pure {
      rpcTip, indexerTip := none, indexerReachable := false, indexerLag := none
      indexerError := some error.message }

variable (wasm : WasmExports) (publicKey : Bytes) (scriptConfig : DilithiumScriptConfig)

def getWalletState : Wallet WalletState := do
  let lock ← Action.lift (buildLockScript wasm scriptConfig.codeHash scriptConfig.hashType (.uint8Array publicKey))
  let address ← Action.lift (encodeCkbAddress lock scriptConfig.network)
  let balance ← getBalanceSummary env config fuel lock
  let minimum ← Action.lift (minimumCellCapacity lock (lit "0x") none)
  pure {
    address, lock
    totalCapacity := balance.totalCapacity
    liveCells := balance.liveCells
    minimumCellCapacity := minimum
    funded := balance.liveCells > 0 && balance.totalCapacity ≥ minimum }

/-! ### Waiting for a balance -/

structure WaitForBalanceOptions where
  minCapacity : Option Numeric
  timeoutMs : Option JsNumber
  intervalMs : Option JsNumber

/-- `options.minCapacity === undefined ? undefined : normalizeBigInt(options.minCapacity, "minCapacity")`. -/
def normalizeMinCapacity : Option Numeric → Js (Option Int)
  | none => pure none
  | some value => do pure (some (← normalizeBigInt value (lit "minCapacity")))

/-- `minCapacity ?? state.minimumCellCapacity`. -/
def balanceThreshold (minCapacity : Option Int) (state : WalletState) : Int :=
  minCapacity.getD state.minimumCellCapacity

/-- The numbers among the details are kept as their texts. -/
def balanceWaitTimeoutError (timeoutMs : JsNumber) (minCapacity : Option Int) (last : Polled WalletState) : JsError :=
  .walletError .balanceWaitTimeout
    (lit "timed out waiting for wallet funding after " ++ numberToString timeoutMs ++ lit "ms")
    [(lit "address", last.found.address), (lit "attempts", toRadix 10 last.attempts),
      (lit "elapsedMs", bigIntToString last.elapsedMs),
      (lit "minCapacity", bigIntToString (balanceThreshold minCapacity last.found)),
      (lit "observedCapacity", bigIntToString last.found.totalCapacity),
      (lit "liveCells", toRadix 10 last.found.liveCells)]

def balanceReached (minCapacity : Option Int) (state : WalletState) : Bool :=
  state.totalCapacity ≥ balanceThreshold minCapacity state && state.liveCells > 0

def waitForBalance (options : WaitForBalanceOptions) : Wallet (Polled WalletState) := do
  let start ← dateNow env
  let timeoutMs := options.timeoutMs.getD defaultWaitTimeoutMs
  let intervalMs := options.intervalMs.getD defaultWaitIntervalMs
  let minCapacity ← Action.lift (normalizeMinCapacity options.minCapacity)
  poll env fuel start timeoutMs intervalMs (getWalletState env config fuel wasm publicKey scriptConfig)
    (balanceReached minCapacity) (balanceWaitTimeoutError timeoutMs minCapacity)

/-! ### Waiting for a confirmation -/

structure WaitForTransactionConfirmationOptions where
  txHash : JsString
  timeoutMs : Option JsNumber
  intervalMs : Option JsNumber
  acceptedStatuses : Option (List WalletTransactionStatus)

def defaultAcceptedStatuses : List WalletTransactionStatus := [.committed, .proposed, .pending]

def confirmationTimeoutError (txHash : JsString) (timeoutMs : JsNumber) (last : Polled Json) : JsError :=
  .walletError .transactionConfirmationTimeout
    (lit "timed out waiting for transaction " ++ txHash ++ lit " after " ++ numberToString timeoutMs ++ lit "ms")
    [(lit "txHash", txHash), (lit "attempts", toRadix 10 last.attempts),
      (lit "elapsedMs", bigIntToString last.elapsedMs),
      (lit "lastStatus", transactionStatusName (transactionStatus last.found))]

/-- The result has the hash of `options` and the status of the transaction that is found. -/
def waitForTransactionConfirmation (options : WaitForTransactionConfirmationOptions) : Wallet (Polled Json) := do
  let start ← dateNow env
  let timeoutMs := options.timeoutMs.getD defaultWaitTimeoutMs
  let intervalMs := options.intervalMs.getD defaultWaitIntervalMs
  let accepted := options.acceptedStatuses.getD defaultAcceptedStatuses
  poll env fuel start timeoutMs intervalMs (CkbRpcClient.getTransaction env config options.txHash)
    (fun transaction => accepted.contains (transactionStatus transaction))
    (confirmationTimeoutError options.txHash timeoutMs)

end

end CkbDilithium.Sdk
