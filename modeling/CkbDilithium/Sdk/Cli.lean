import CkbDilithium.Sdk.CliInput

/-!
# The commands

`main` of `sdk/src/cli.ts` and its commands. What a command prints is a JSON value whose `undefined` members are left
out. `prepareTransfer` is the part of `runTransfer` that both the dry run and the broadcast go through;
`confirmTransfer` is its wait, which turns a timeout into a status.
-/

namespace CkbDilithium.Sdk.Cli

open Js

/-! ### Output -/

/-- The members that are not `undefined`. -/
def members (fields : List (JsString × Option Json)) : List (JsString × Json) :=
  fields.filterMap fun field => field.2.map fun value => (field.1, value)

def text (value : JsString) : Option Json := some (.string value)

def count (value : Nat) : Option Json := some (.number (.ofNat value))

def integer (value : Int) : Option Json := some (.number (.finite value))

def flag (value : Bool) : Option Json := some (.bool value)

def texts (values : List JsString) : Option Json := some (.array (values.map .string))

def lockJson (lock : LockScript) : Json :=
  .object (members [(lit "codeHash", text lock.codeHash), (lit "hashType", text lock.hashType),
    (lit "args", text lock.args)])

def outPointJson (outPoint : OutPoint) : Json :=
  .object (members [(lit "txHash", text outPoint.txHash), (lit "index", text outPoint.index)])

def printJson (value : Json) : Wallet Unit := consoleLog (value.stringify (lit "  "))

/-- A text with a blank is quoted. -/
def quote (value : JsString) : JsString := if includes value (lit " ") then quoteString value else value

def usage : JsString := lit (String.join [
  "Dilithium wallet CLI\n\nCommands:\n",
  "  keygen --out <file> [--network <devnet|testnet|mainnet>]\n",
  "  address --key-file <file> --network <devnet|testnet|mainnet>\n",
  "  balance --key-file <file> --network <devnet|testnet|mainnet> --rpc-url <url> [--indexer-url <url>] [--wait] ",
  "[--min-ckb <amount>] [--timeout-ms <ms>] [--interval-ms <ms>]\n",
  "  check-outpoint --key-file <file> --network <devnet|testnet|mainnet> --rpc-url <url> --tx-hash <0x...> ",
  "--index <n|0x...>\n",
  "  wait --key-file <file> --network <devnet|testnet|mainnet> --rpc-url <url> [--indexer-url <url>] ",
  "[--min-ckb <amount>] [--timeout-ms <ms>] [--interval-ms <ms>]\n",
  "  transfer --key-file <file> --network <devnet|testnet|mainnet> --rpc-url <url> [--indexer-url <url>] ",
  "--to <ckt...|ckb...> --amount-ckb <amount> [--fee-rate <shannons-per-kb>] [--wait] [--dry-run] ",
  "[--timeout-ms <ms>] [--interval-ms <ms>]\n"])

section

variable (env : Environment)

/-! ### Keys and addresses -/

/-- The content of the key file, two blanks for an indentation. -/
def keyFileContent (keypair : DilithiumKeypair) : JsString :=
  (Json.object [(lit "publicKey", .string (bytesToHex keypair.publicKey)),
    (lit "secretKey", .string (bytesToHex keypair.secretKey))]).stringify (lit "  ") ++ lit "\n"

def runKeygen (wasm : WasmModule) (args : List JsString) : Wallet Unit := do
  let outputPath ← Action.lift (requireOption args (lit "--out"))
  let network := optionalOption args (lit "--network")
  let keypair ← generateKeypair env wasm
  mkdir env (dirname outputPath)
  writeFile env outputPath (keyFileContent keypair)
  consoleLog (lit "Saved Dilithium keypair to " ++ outputPath)
  match network with
  | none => pure ()
  | some network =>
    if network = [] then pure ()
    else do
      consoleLog (lit "Next: dillithium-wallet address --key-file " ++ quote outputPath ++ lit " --network " ++ network)
      consoleLog (lit "Then: dillithium-wallet wait --key-file " ++ quote outputPath ++ lit " --network " ++ network ++
        lit " --rpc-url <rpc> --indexer-url <indexer>")

variable (wasm : WasmExports)

/-- The lock of a public key in a deployment. -/
def walletLock (config : DilithiumScriptConfig) (publicKey : Bytes) : Js LockScript :=
  buildLockScript wasm config.codeHash config.hashType (.uint8Array publicKey)

def runAddress (args : List JsString) : Wallet Unit := do
  let keyFile ← Action.lift (requireOption args (lit "--key-file"))
  let network ← Action.lift (do parseNetwork (← requireOption args (lit "--network")))
  let keypair ← readKeypair env keyFile
  let config ← loadScriptConfig env network
  let address ← Action.lift (addressFromPublicKey wasm keypair.publicKey config)
  let lock ← Action.lift (walletLock wasm config keypair.publicKey)
  printJson (.object (members [
    (lit "network", text (networkName network)), (lit "address", text address), (lit "lock", some (lockJson lock)),
    (lit "next", some (.object (members [
      (lit "fund", text (lit "Send test CKB from the faucet or another funded wallet to this address.")),
      (lit "wait", text (lit "dillithium-wallet wait --key-file " ++ keyFile ++ lit " --network " ++
        networkName network ++ lit " --rpc-url <rpc> --indexer-url <indexer>"))])))]))

/-! ### Balances -/

variable (fuel : Nat)

/-- The explanation of an empty listing. -/
def zeroBalanceExplanation (inspection : BalanceSourceInspection) : JsString :=
  if ¬ inspection.indexerReachable then
    lit ("The configured indexer endpoint could not answer indexer RPC calls. Balance discovery needs an " ++
      "indexer-backed endpoint, while raw RPC can only confirm specific known outpoints.")
  else match inspection.indexerLag with
    | some lag =>
      if lag > 0 then
        lit "The indexer appears to lag the node tip by " ++ bigIntToString lag ++
          lit (" block(s). Your balance query uses indexer get_cells, so recently funded cells may not appear yet " ++
            "even though RPC or an explorer can already see them.")
      else zeroBalanceReachable
    | none => zeroBalanceReachable
where
  zeroBalanceReachable : JsString :=
    lit ("The indexer is reachable, but it returned zero live cells for this lock. If explorer or raw RPC " ++
      "confirms a funded outpoint, compare the funding outpoint with this wallet using check-outpoint and verify " ++
      "the selected network and deployment config.")

def buildZeroBalanceDiagnostics (config : RpcConfig) (network : Network)
    (keyFile address : JsString) : Wallet Json := do
  let inspection ← getBalanceSourceInspection env config
  pure (.object (members [
    (lit "balanceSource", text (lit "indexer:get_cells")),
    (lit "rpcTipBlock", inspection.rpcTip.bind fun tip => text tip.blockNumber),
    (lit "indexerTipBlock", inspection.indexerTip.bind fun tip => text tip.blockNumber),
    (lit "indexerLagBlocks", inspection.indexerLag.bind fun lag => text (bigIntToString lag)),
    (lit "indexerReachable", flag inspection.indexerReachable),
    (lit "indexerError", inspection.indexerError.bind text),
    (lit "explanation", text (zeroBalanceExplanation inspection)),
    (lit "nextSteps", texts [
      lit "Retry: dillithium-wallet balance --key-file " ++ quote keyFile ++ lit " --network " ++ networkName network ++
        lit " --rpc-url <rpc> --indexer-url <indexer> --wait",
      lit "Try another --indexer-url if you have one.",
      lit "If you know the funding tx/output, run: dillithium-wallet check-outpoint --key-file " ++ quote keyFile ++
        lit " --network " ++ networkName network ++ lit " --rpc-url <rpc> --tx-hash <tx> --index <n>",
      lit "Verify deployment/scripts.json and the derived address " ++ address ++ lit " match the intended " ++
        networkName network ++ lit " deployment."])]))

/-- The options of `balance` and `wait`. -/
structure BalanceArgs where
  keyFile : JsString
  rpcUrl : JsString
  indexerUrl : JsString
  network : Network
  wait : Bool
  options : WaitForBalanceOptions

def parseBalanceArgs (args : List JsString) : Js BalanceArgs := do
  let keyFile ← requireOption args (lit "--key-file")
  let rpcUrl ← requireOption args (lit "--rpc-url")
  let indexerUrl := (optionalOption args (lit "--indexer-url")).getD rpcUrl
  let network ← parseNetwork (← requireOption args (lit "--network"))
  let wait := hasFlag args (lit "--wait")
  let minCapacity ← parseOptionalCkbAmount (optionalOption args (lit "--min-ckb"))
  let timeoutMs ← parseOptionalInteger (optionalOption args (lit "--timeout-ms")) (lit "timeoutMs")
  let intervalMs ← parseOptionalInteger (optionalOption args (lit "--interval-ms")) (lit "intervalMs")
  pure { keyFile, rpcUrl, indexerUrl, network, wait
         options := { minCapacity := minCapacity.map .bigint, timeoutMs, intervalMs } }

/-- The members `balance` and `wait` begin with. -/
def balanceFields (a : BalanceArgs) (state : WalletState) : List (JsString × Option Json) := [
  (lit "network", text (networkName a.network)), (lit "rpcUrl", text a.rpcUrl), (lit "indexerUrl", text a.indexerUrl),
  (lit "address", text state.address), (lit "lock", some (lockJson state.lock)),
  (lit "totalCapacity", text (bigIntToString state.totalCapacity)),
  (lit "totalCapacityCkb", text (formatCkb state.totalCapacity)), (lit "liveCells", count state.liveCells)]

/-- The client of `balance` and `wait`. -/
def BalanceArgs.client (a : BalanceArgs) : RpcConfig := ⟨a.rpcUrl, some a.indexerUrl⟩

/-- With `--wait`, the state a wait ends with. -/
def balanceState (a : BalanceArgs) (publicKey : Bytes) (config : DilithiumScriptConfig) : Wallet WalletState :=
  if a.wait then do pure (← waitForBalance env a.client fuel wasm publicKey config a.options).found
  else getWalletState env a.client fuel wasm publicKey config

/-- Diagnostics are made for an empty listing. -/
def balanceDiagnostics (a : BalanceArgs) (state : WalletState) : Wallet (Option Json) :=
  if state.liveCells = 0 then do
    pure (some (← buildZeroBalanceDiagnostics env a.client a.network a.keyFile state.address))
  else pure none

def runBalance (args : List JsString) : Wallet Unit := do
  let a ← Action.lift (parseBalanceArgs args)
  let keypair ← readKeypair env a.keyFile
  let config ← loadScriptConfig env a.network
  let state ← balanceState env wasm fuel a keypair.publicKey config
  let diagnostics ← balanceDiagnostics env a state
  printJson (.object (members (balanceFields a state ++ [
    (lit "minimumCellCapacity", text (bigIntToString state.minimumCellCapacity)),
    (lit "minimumCellCapacityCkb", text (formatCkb state.minimumCellCapacity)), (lit "funded", flag state.funded),
    (lit "hint", if state.liveCells = 0 then
      text (lit "No live cells were returned by the configured indexer. See diagnostics for indexer-vs-RPC guidance.")
      else none),
    (lit "diagnostics", diagnostics)])))

def runWait (args : List JsString) : Wallet Unit := do
  let a ← Action.lift (parseBalanceArgs args)
  let keypair ← readKeypair env a.keyFile
  let config ← loadScriptConfig env a.network
  let result ← waitForBalance env a.client fuel wasm keypair.publicKey config a.options
  printJson (.object (members (balanceFields a result.found ++ [
    (lit "funded", flag result.found.funded), (lit "attempts", count result.attempts),
    (lit "elapsedMs", integer result.elapsedMs)])))

/-! ### Out points -/

def outPointStatusName : OutPointStatus → JsString
  | .live => lit "live"
  | .dead => lit "dead"
  | .unknown => lit "unknown"

inductive Diagnosis where
  | liveAndMatchesWallet
  | liveButLockMismatch
  | outpointSpent
  | outpointUnknown
  deriving DecidableEq

def diagnosisName : Diagnosis → JsString
  | .liveAndMatchesWallet => lit "live_and_matches_wallet"
  | .liveButLockMismatch => lit "live_but_lock_mismatch"
  | .outpointSpent => lit "outpoint_spent"
  | .outpointUnknown => lit "outpoint_unknown"

/-- A live out point without a cell counts as a mismatch. -/
def diagnose (inspection : OutPointInspection) : Diagnosis :=
  match inspection.status with
  | .live => if inspection.lockMatchesExpected = some true then .liveAndMatchesWallet else .liveButLockMismatch
  | .dead => .outpointSpent
  | .unknown => .outpointUnknown

def checkOutpointNextSteps : Diagnosis → List JsString
  | .liveAndMatchesWallet => [
      lit "The outpoint is live and belongs to this wallet lock.",
      lit ("If balance is still zero, the indexer is the likely issue; retry balance --wait or use another " ++
        "--indexer-url.")]
  | .liveButLockMismatch => [
      lit "The outpoint is live, but its lock does not match this wallet.",
      lit "Re-check the key file, selected network, and the funding address used."]
  | .outpointSpent => [
      lit "The referenced outpoint is not live anymore.",
      lit "Check later transactions or change outputs if you are tracing spent funds."]
  | .outpointUnknown => [
      lit "The node could not confirm this outpoint as a live cell.",
      lit "Double-check the tx hash and output index, or inspect the funding transaction again."]

def observedCellJson (cell : ResolvedOutPointCell) : Js Json := do
  let capacity ← hexQuantityToBigInt cell.output.capacity
  pure (.object (members [
    (lit "capacity", text cell.output.capacity), (lit "capacityCkb", text (formatCkb capacity)),
    (lit "lock", some (lockJson cell.output.lock)),
    (lit "type", some ((cell.output.type.map lockJson).getD .null)), (lit "outputData", text cell.outputData)]))

def runCheckOutpoint (args : List JsString) : Wallet Unit := do
  let keyFile ← Action.lift (requireOption args (lit "--key-file"))
  let rpcUrl ← Action.lift (requireOption args (lit "--rpc-url"))
  let network ← Action.lift (do parseNetwork (← requireOption args (lit "--network")))
  let txHash ← Action.lift (requireOption args (lit "--tx-hash"))
  let index ← Action.lift (do parseOutPointIndex (← requireOption args (lit "--index")))
  let keypair ← readKeypair env keyFile
  let config ← loadScriptConfig env network
  let client : RpcConfig := ⟨rpcUrl, none⟩
  let address ← Action.lift (addressFromPublicKey wasm keypair.publicKey config)
  let expectedLock ← Action.lift (walletLock wasm config keypair.publicKey)
  let outPoint : OutPoint := ⟨txHash, index⟩
  let inspection ← inspectOutPoint env client outPoint (some expectedLock)
  let observedCell ← match inspection.cell with
    | some cell => Action.lift (observedCellJson cell)
    | none => pure Json.null
  printJson (.object (members [
    (lit "network", text (networkName network)), (lit "rpcUrl", text rpcUrl), (lit "address", text address),
    (lit "expectedLock", some (lockJson expectedLock)), (lit "outPoint", some (outPointJson outPoint)),
    (lit "status", text (outPointStatusName inspection.status)), (lit "live", flag (inspection.status = .live)),
    (lit "observedCell", some observedCell),
    (lit "lockMatchesWallet", some ((inspection.lockMatchesExpected.map Json.bool).getD .null)),
    (lit "diagnosis", text (diagnosisName (diagnose inspection))),
    (lit "nextSteps", texts (checkOutpointNextSteps (diagnose inspection)))]))

/-! ### Transfers -/

structure TransferArgs where
  keyFile : JsString
  rpcUrl : JsString
  indexerUrl : JsString
  network : Network
  toAddress : JsString
  amountCkb : JsString
  feeRate : Option JsString
  wait : Bool
  dryRun : Bool
  timeoutMs : Option JsNumber
  intervalMs : Option JsNumber
  deriving DecidableEq

def parseTransferArgs (args : List JsString) : Js TransferArgs := do
  let keyFile ← requireOption args (lit "--key-file")
  let rpcUrl ← requireOption args (lit "--rpc-url")
  let indexerUrl := (optionalOption args (lit "--indexer-url")).getD rpcUrl
  let network ← parseNetwork (← requireOption args (lit "--network"))
  let toAddress ← requireOption args (lit "--to")
  let amountCkb ← requireOption args (lit "--amount-ckb")
  let feeRate := optionalOption args (lit "--fee-rate")
  let wait := hasFlag args (lit "--wait")
  let dryRun := hasFlag args (lit "--dry-run")
  let timeoutMs ← parseOptionalInteger (optionalOption args (lit "--timeout-ms")) (lit "timeoutMs")
  let intervalMs ← parseOptionalInteger (optionalOption args (lit "--interval-ms")) (lit "intervalMs")
  pure { keyFile, rpcUrl, indexerUrl, network, toAddress, amountCkb, feeRate, wait, dryRun, timeoutMs, intervalMs }

/-- The client of the command. -/
def TransferArgs.client (a : TransferArgs) : RpcConfig := ⟨a.rpcUrl, some a.indexerUrl⟩

/-- A transfer that has passed the preflight. -/
structure PreparedTransfer where
  keypair : DilithiumKeypair
  options : BuildTransferOptions
  preflight : TransferPreflight
  senderAddress : JsString

def prepareTransfer (a : TransferArgs) : Wallet PreparedTransfer := do
  let keypair ← readKeypair env a.keyFile
  let config ← loadScriptConfig env a.network
  let fromLock ← Action.lift (walletLock wasm config keypair.publicKey)
  let toDecoded ← Action.lift (decodeCkbAddress a.toAddress)
  let amount ← Action.lift (parseCkbAmount a.amountCkb)
  let cells ← CkbRpcClient.getCells env a.client fuel fromLock (.ofNat 100)
  let feeRate ← Action.lift (parseFeeRate a.feeRate)
  let options : BuildTransferOptions := {
    cells, fromLock, toLock := toDecoded.script, amount := .bigint amount, scriptConfig := config
    changeLock := none, feeRate }
  let preflight ← Action.lift (validateTransferRequest options (some toDecoded.network))
  let senderAddress ← Action.lift (addressFromPublicKey wasm keypair.publicKey config)
  pure { keypair, options, preflight, senderAddress }

/-- An amount in shannons and in CKB. -/
def amountFields (name : String) (value : Int) : List (JsString × Option Json) :=
  [(lit name, text (bigIntToString value)), (lit name ++ lit "Ckb", text (formatCkb value))]

def transferSummary (a : TransferArgs) (prepared : PreparedTransfer) : List (JsString × Option Json) :=
  let preflight := prepared.preflight
  [(lit "network", text (networkName a.network)), (lit "rpcUrl", text a.rpcUrl), (lit "indexerUrl", text a.indexerUrl),
    (lit "fromAddress", text prepared.senderAddress), (lit "toAddress", text a.toAddress)] ++
  amountFields "amount" preflight.amount ++ amountFields "fee" preflight.unsigned.fee ++
  amountFields "inputCapacity" preflight.unsigned.inputCapacity ++
  amountFields "changeCapacity" preflight.unsigned.changeCapacity ++
  amountFields "recipientMinimumCapacity" preflight.recipientMinimumCapacity ++
  amountFields "minimumChangeCapacity" preflight.minimumChangeCapacity ++
  [(lit "inputs", count preflight.unsigned.selectedCells.length), (lit "txSize", count preflight.unsigned.txSize)]

structure Confirmation where
  status : JsString
  attempts : JsNumber
  elapsedMs : JsNumber

/-- `Number(error.details?.key ?? 0)`. -/
def detailNumber (details : List (JsString × JsString)) (key : JsString) : JsNumber :=
  match details.lookup key with
  | some value => stringToNumber value
  | none => .finite 0

/-- A wait that times out has a status of its own; any other error is thrown on. -/
def confirmTransfer (a : TransferArgs) (txHash : JsString) : Wallet Confirmation :=
  Action.catching
    (do
      let result ← waitForTransactionConfirmation env a.client fuel
        { txHash, timeoutMs := a.timeoutMs, intervalMs := a.intervalMs, acceptedStatuses := none }
      pure ⟨transactionStatusName (transactionStatus result.found), .ofNat result.attempts, .finite result.elapsedMs⟩)
    fun error => match error with
      | .walletError .transactionConfirmationTimeout _ details =>
        pure ⟨lit "timeout", detailNumber details (lit "attempts"), detailNumber details (lit "elapsedMs")⟩
      | error => Action.lift (throw error)

def confirmationJson (confirmation : Confirmation) : Json :=
  .object (members [(lit "status", text confirmation.status), (lit "attempts", some (.number confirmation.attempts)),
    (lit "elapsedMs", some (.number confirmation.elapsedMs))])

/-- What `broadcastTransfer` signs. -/
def signingOptions (prepared : PreparedTransfer) : BuildSignedTransferOptions where
  toBuildTransferOptions := prepared.options
  publicKey := .uint8Array prepared.keypair.publicKey
  secretKey := .uint8Array prepared.keypair.secretKey

/-- Sign the prepared transfer, broadcast it, and wait if asked to. The seed is drawn once the transfer is built and
hashed and the length of the key is checked. -/
def broadcastTransfer (a : TransferArgs) (prepared : PreparedTransfer) : Wallet (JsString × Option Confirmation) := do
  Action.lift (beforeSeed wasm (signingOptions prepared))
  let seed ← randomBytes env 32
  let signed ← Action.lift (buildSignedTransfer wasm seed (signingOptions prepared))
  let txHash ← CkbRpcClient.sendTransaction env a.client signed.transaction
  if a.wait then do pure (txHash, some (← confirmTransfer env fuel a txHash))
  else pure (txHash, none)

def runTransfer (args : List JsString) : Wallet Unit := do
  let a ← Action.lift (parseTransferArgs args)
  let prepared ← prepareTransfer env wasm fuel a
  let summary := transferSummary a prepared
  if a.dryRun then
    printJson (.object (members (summary ++ [(lit "dryRun", flag true),
      (lit "message", text (lit "Transfer preflight succeeded. No transaction was broadcast."))])))
  else do
    let (txHash, confirmation) ← broadcastTransfer env wasm fuel a prepared
    printJson (.object (members (summary ++ [(lit "txHash", text txHash),
      (lit "confirmation", confirmation.map confirmationJson),
      (lit "next", text (lit "dillithium-wallet balance --key-file " ++ a.keyFile ++ lit " --network " ++
        networkName a.network ++ lit " --rpc-url " ++ a.rpcUrl ++ lit " --indexer-url " ++ a.indexerUrl ++
        lit " --wait"))])))

end

/-! ### The program -/

section

variable (env : Environment) (wasm : WasmModule) (fuel : Nat)

/-- The exit code, unless an error is thrown. -/
def main (argv : List JsString) : Wallet Nat :=
  match argv with
  | [] => do
    consoleLog usage
    pure 0
  | command :: args =>
    if command = lit "keygen" then do runKeygen env wasm args; pure 0
    else if command = lit "address" then do runAddress env wasm.toWasmExports args; pure 0
    else if command = lit "balance" then do runBalance env wasm.toWasmExports fuel args; pure 0
    else if command = lit "check-outpoint" then do runCheckOutpoint env wasm.toWasmExports args; pure 0
    else if command = lit "wait" then do runWait env wasm.toWasmExports fuel args; pure 0
    else if command = lit "transfer" then do runTransfer env wasm.toWasmExports fuel args; pure 0
    else do
      consoleLog usage
      pure (if command = [] then 0 else 1)

def renderError (error : JsError) : JsString := error.message

/-- `main().catch(...)`: an error is printed and sets the exit code. -/
def run (argv : List JsString) : Wallet Nat :=
  Action.catching (main env wasm fuel argv) fun error => do
    consoleError (renderError error)
    pure 1

end

end CkbDilithium.Sdk.Cli
