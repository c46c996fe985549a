import CkbDilithium.System.Balance
import CkbDilithium.System.KeyFile

/-!
# What a transfer broadcasts

A run of `transfer` hands at most one transaction to a node, and a successful one that is no dry run exactly one.
That transaction is the payment that was typed (`Payment`): its amount, recipient, fee and change are those of the
printed summary, and its inputs are cells of the sender that this run listed.
-/

namespace CkbDilithium.System

open Sdk Sdk.Cli Js

/-! ### The transactions that are sent -/

/-- A transaction handed to a node, with the endpoint. -/
def sentTransaction : Event → Option (JsString × RpcTransaction)
  | .request url _ (.sendTransaction transaction _) => some (url, transaction)
  | _ => none

def sends (s : Session) : List (JsString × RpcTransaction) := s.events.filterMap sentTransaction

theorem sends_eq_of_emits {s s' : Session} (h : Emits (fun event => sentTransaction event = none) s s') :
    sends s' = sends s := by
  obtain ⟨new, hevents, hquiet, -, -⟩ := h
  rw [sends, sends, hevents, List.filterMap_append, List.filterMap_eq_nil_iff.2 hquiet, List.append_nil]

/-! ### The payment -/

/-- The transaction is the payment that was typed, with the values of the preflight. -/
structure Payment (a : TransferArgs) (own : LockScript) (listed : List LiveCell) (preflight : TransferPreflight)
    (transaction : Transaction) : Prop where
  amount : parseCkbAmount a.amountCkb = .ok preflight.amount
  amount_pos : 0 < preflight.amount
  recipient : ∃ decoded, decodeCkbAddress a.toAddress = .ok decoded ∧
    recipientMatchesNetwork a.network decoded.network = true ∧
    transaction.outputs = ⟨hexQuantity preflight.amount, decoded.script, none⟩ ::
      if 0 < preflight.unsigned.changeCapacity then [⟨hexQuantity preflight.unsigned.changeCapacity, own, none⟩] else []
  listed : preflight.unsigned.selectedCells.Subperm listed
  ownLock : ∀ cell ∈ preflight.unsigned.selectedCells, cell.output.lock = own
  capacities : ∀ cell ∈ preflight.unsigned.selectedCells, hexToBigInt cell.output.capacity = .ok (cellCapacity cell)
  inputs : transaction.inputs = preflight.unsigned.selectedCells.map fun cell => ⟨cell.outPoint, lit "0x0"⟩
  inputCapacity : preflight.unsigned.inputCapacity = (preflight.unsigned.selectedCells.map cellCapacity).sum
  conserved : preflight.unsigned.inputCapacity =
    preflight.amount + preflight.unsigned.fee + preflight.unsigned.changeCapacity
  change_nonneg : 0 ≤ preflight.unsigned.changeCapacity

/-- What a preparation has read: the key, the deployment and the cells of the own lock. -/
structure Preparation (env : Environment) (wasm : WasmExports) (fuel : Nat) (a : TransferArgs) (s s' : Session)
    (config : DilithiumScriptConfig) (prepared : PreparedTransfer) : Prop where
  keypair : ∃ s₁, (readKeypair env a.keyFile).Ends s (.ok prepared.keypair) s₁ ∧
    ∃ s₂, (loadScriptConfig env a.network).Ends s₁ (.ok config) s₂ ∧
      (CkbRpcClient.getCells env a.client fuel prepared.options.fromLock (.ofNat 100)).Ends s₂
        (.ok prepared.options.cells) s'
  fromLock : walletLock wasm config prepared.keypair.publicKey = .ok prepared.options.fromLock
  changeLock : prepared.options.changeLock = none
  scriptConfig : prepared.options.scriptConfig = config
  amount : ∃ amount, parseCkbAmount a.amountCkb = .ok amount ∧ prepared.options.amount = .bigint amount
  feeRate : parseFeeRate a.feeRate = .ok prepared.options.feeRate
  preflight : ∃ decoded, decodeCkbAddress a.toAddress = .ok decoded ∧ prepared.options.toLock = decoded.script ∧
    validateTransferRequest prepared.options (some decoded.network) = .ok prepared.preflight

section

variable {env : Environment} {wasm : WasmExports} {fuel : Nat} {a : TransferArgs} {s s' : Session}

theorem prepareTransfer_returns {prepared : PreparedTransfer}
    (h : (prepareTransfer env wasm fuel a).Ends s (.ok prepared) s') :
    ∃ config, Preparation env wasm fuel a s s' config prepared := by
  simp only [prepareTransfer, Action.bind_returns, Action.lift_ends, Action.pure_ends, Except.ok.injEq] at h
  obtain ⟨keypair, s₁, hkeypair, config, s₂, hconfig, fromLock, _, ⟨hlock, rfl⟩, decoded, _, ⟨hdecoded, rfl⟩, amount, _,
    ⟨hamount, rfl⟩, cells, s₃, hcells, feeRate, _, ⟨hfeeRate, rfl⟩, preflight, _, ⟨hpreflight, rfl⟩, address, _,
    ⟨haddress, rfl⟩, rfl, rfl⟩ := h
  exact ⟨config, ⟨s₁, hkeypair, _, hconfig, hcells⟩, hlock.symm, rfl, rfl, ⟨amount, hamount.symm, rfl⟩,
    hfeeRate.symm, decoded, hdecoded.symm, rfl, hpreflight.symm⟩

/-- The deployment is the one of the network that was asked for. -/
theorem loadScriptConfig_network {network : Network} {config : DilithiumScriptConfig}
    (h : (loadScriptConfig env network).Ends s (.ok config) s') : config.network = network := by
  simp only [loadScriptConfig, Action.bind_returns, Action.lift_ends] at h
  obtain ⟨content, s₁, -, deployment, s₂, -, hconfig, -⟩ := h
  have hconfig := hconfig.symm
  simp only [scriptConfigOfDeployment, Result.bind_eq_ok, ite_raise_eq_ok, Result.pure_eq_ok] at hconfig
  obtain ⟨_, -, -, _, -, _, -, -, _, -, _, -, -, _, -, _, -, _, -, _, -, rfl⟩ := hconfig
  rfl

/-- **The signed transfer of a preparation is the payment that was typed.** -/
theorem Preparation.payment {config : DilithiumScriptConfig} {prepared : PreparedTransfer}
    (h : Preparation env wasm fuel a s s' config prepared) {seed : Bytes} {signed : SignedTransferTransaction}
    (hsigned : buildSignedTransfer wasm seed (signingOptions prepared) = .ok signed) :
    Payment a prepared.options.fromLock prepared.options.cells prepared.preflight signed.transaction ∧
      Signs wasm seed (.uint8Array prepared.keypair.publicKey) (.uint8Array prepared.keypair.secretKey)
        prepared.preflight.unsigned.rawTransaction signed := by
  obtain ⟨s₁, -, s₂, hconfig, -⟩ := h.keypair
  obtain ⟨typed, htyped, hamount⟩ := h.amount
  obtain ⟨decoded, hdecoded, htoLock, hpreflight⟩ := h.preflight
  obtain ⟨hnetwork, amount, minimumChange, hread, -, -, -, -, -, unsigned, hunsigned, hvalues⟩ :=
    validateTransferRequest_eq_ok.1 hpreflight
  have hsame := buildSignedTransfer_signs hunsigned hsigned
  obtain ⟨amount', feeRate, cells, plan⟩ := buildTransferTransaction_plan hunsigned
  obtain rfl := Result.ok_unique hread plan.amount_eq
  rw [hamount] at hread
  cases hread
  rw [hvalues]
  refine ⟨?_, hsame.2⟩
  have hraw : signed.transaction.toRawTransaction = unsigned.rawTransaction := hsame.2.2.1
  have hchange : effectiveChangeLock prepared.options = prepared.options.fromLock := by
    rw [effectiveChangeLock, h.changeLock]
    rfl
  constructor
  · exact htyped
  · exact lt_of_lt_of_le (lockMinimum_pos _) plan.amount_ge
  · refine ⟨decoded, hdecoded, ?_, ?_⟩
    · rw [h.scriptConfig, loadScriptConfig_network hconfig] at hnetwork
      exact recipientMatchesNetwork_iff.2 (hnetwork _ rfl)
    · rw [hraw, plan.planned.outputs, recipientOutput, changeOutputs, htoLock, hchange]
  · rw [plan.planned.selectedCells]
    exact plan.funding.subperm
  · rw [plan.planned.selectedCells]
    exact plan.funding.ownLock
  · rw [plan.planned.selectedCells]
    exact plan.capacities
  · rw [hraw]
    exact plan.inputs
  · rw [plan.planned.inputCapacity, plan.planned.selectedCells]
  · have hsurplus := plan.planned.changeCapacity
    rw [surplus, ← plan.planned.fee, ← plan.planned.inputCapacity] at hsurplus
    simp only
    omega
  · rw [plan.planned.changeCapacity]
    exact plan.funding.surplus_nonneg

/-! ### The runs -/

theorem randomBytes_ends {size : Nat} {r : Js Bytes} (h : (randomBytes env size).Ends s r s') :
    sends s' = sends s ∧ ∃ seed, r = .ok seed ∧ seed.length = size := by
  cases h
  refine ⟨?_, _, rfl, (env.random s.events size).2⟩
  simp [sends, sentTransaction]

theorem sendTransaction_sends {config : RpcConfig} {transaction : Transaction} {r : Js JsString}
    (h : (CkbRpcClient.sendTransaction env config transaction).Ends s r s') :
    sends s' = sends s ++ [(config.rpcUrl, toRpcTransaction transaction)] := by
  obtain ⟨-, rfl⟩ := CkbRpcClient.request_ends.1 h
  simp [sends, sentTransaction]

/-- A broadcast fails before it sends anything, or sends the signed transfer. -/
theorem broadcastTransfer_sends {prepared : PreparedTransfer} {r : Js (JsString × Option Confirmation)}
    (h : (broadcastTransfer env wasm fuel a prepared).Ends s r s') :
    (sends s' = sends s ∧ ∃ e, r = .error e) ∨
      ∃ seed signed, seed.length = 32 ∧ buildSignedTransfer wasm seed (signingOptions prepared) = .ok signed ∧
        sends s' = sends s ++ [(a.rpcUrl, toRpcTransaction signed.transaction)] := by
  rcases Action.bind_ends.1 h with ⟨e, rfl, hlift⟩ | ⟨_, s₀, hlift, hdraw⟩
  · obtain ⟨-, rfl⟩ := Action.lift_ends.1 hlift
    exact Or.inl ⟨rfl, e, rfl⟩
  obtain ⟨-, rfl⟩ := Action.lift_ends.1 hlift
  rcases Action.bind_ends.1 hdraw with ⟨e, rfl, hseed⟩ | ⟨seed, s₁, hseed, hsign⟩
  · obtain ⟨-, seed, hseed, -⟩ := randomBytes_ends hseed
    cases hseed
  obtain ⟨hquiet, seed', hdrawn, hlength⟩ := randomBytes_ends hseed
  cases hdrawn
  rcases Action.bind_ends.1 hsign with ⟨e, rfl, hlift⟩ | ⟨signed, s₂, hlift, hbroadcast⟩
  · obtain ⟨-, rfl⟩ := Action.lift_ends.1 hlift
    exact Or.inl ⟨hquiet, e, rfl⟩
  obtain ⟨hsigned, rfl⟩ := Action.lift_ends.1 hlift
  refine Or.inr ⟨seed, signed, hlength, hsigned.symm, ?_⟩
  rw [← hquiet]
  rcases Action.bind_ends.1 hbroadcast with ⟨e, rfl, hsend⟩ | ⟨txHash, s₃, hsend, hconfirm⟩
  · exact sendTransaction_sends hsend
  rw [show (a.rpcUrl, toRpcTransaction signed.transaction) = (a.client.rpcUrl, _) from rfl,
    ← sendTransaction_sends hsend]
  -- what follows the broadcast asks for its status only
  refine sends_eq_of_emits ?_
  split_ifs at hconfirm with hwait
  · refine Action.Keeps.bind (R := Emits _) (emitsOnly_confirmTransfer (fun _ => rfl) (fun _ => rfl) fun _ => rfl)
      (fun _ => .pure _) _ _ _ hconfirm
  · exact Action.Keeps.pure (R := Emits _) _ _ _ _ hconfirm

/-- Nothing is sent, and then the run failed or was a dry run; or the payment is sent. -/
theorem runTransfer_sends {args : List JsString} {r : Js Unit}
    (h : (runTransfer env wasm fuel args).Ends s r s') :
    sends s' = sends s ∧ ((∃ e, r = .error e) ∨ hasFlag args (lit "--dry-run") = true) ∨
      hasFlag args (lit "--dry-run") = false ∧
        ∃ a prepared config s₁ seed signed, parseTransferArgs args = .ok a ∧
          Preparation env wasm fuel a s s₁ config prepared ∧
          buildSignedTransfer wasm seed (signingOptions prepared) = .ok signed ∧
          sends s' = sends s ++ [(a.rpcUrl, toRpcTransaction signed.transaction)] ∧
          (r = .ok () → ∃ rest, s'.events.getLast? = some (.log
            ((Json.object (members (transferSummary a prepared ++ rest))).stringify (lit "  ")))) := by
  rcases Action.bind_ends.1 h with ⟨e, rfl, hlift⟩ | ⟨a, s₀, hlift, hrun⟩
  · obtain ⟨-, rfl⟩ := Action.lift_ends.1 hlift
    exact Or.inl ⟨rfl, Or.inl ⟨e, rfl⟩⟩
  obtain ⟨ha, rfl⟩ := Action.lift_ends.1 hlift
  have hdry := (parseTransferArgs_eq_ok ha.symm).dryRun
  have hquiet : EmitsOnly (fun event => sentTransaction event = none) (prepareTransfer env wasm fuel a) :=
    emitsOnly_prepareTransfer rfl rfl fun _ _ => rfl
  have hprint : ∀ value, EmitsOnly (fun event => sentTransaction event = none) (printJson value) :=
    fun _ => emitsOnly_printJson fun _ => rfl
  rcases Action.bind_ends.1 hrun with ⟨e, rfl, hprepare⟩ | ⟨prepared, s₁, hprepare, hrest⟩
  · exact Or.inl ⟨sends_eq_of_emits (hquiet _ _ _ hprepare), Or.inl ⟨e, rfl⟩⟩
  have hbefore := sends_eq_of_emits (hquiet _ _ _ hprepare)
  obtain ⟨config, preparation⟩ := prepareTransfer_returns hprepare
  rw [← hdry]
  cases hflag : a.dryRun with
  | true =>
    simp only [hflag, if_true] at hrest
    exact Or.inl ⟨(sends_eq_of_emits (hprint _ _ _ _ hrest)).trans hbefore, Or.inr rfl⟩
  | false =>
    simp only [hflag, Bool.false_eq_true, if_false] at hrest
    rcases Action.bind_ends.1 hrest with ⟨e, rfl, hbroadcast⟩ | ⟨⟨txHash, confirmation⟩, s₂, hbroadcast, hprinted⟩
    · rcases broadcastTransfer_sends hbroadcast with ⟨hsends, -⟩ | ⟨seed, signed, -, hsigned, hsends⟩
      · exact Or.inl ⟨hsends.trans hbefore, Or.inl ⟨e, rfl⟩⟩
      · exact Or.inr ⟨rfl, a, prepared, config, s₁, seed, signed, ha.symm, preparation, hsigned,
          by rw [hsends, hbefore], by simp⟩
    · have hlast := sends_eq_of_emits (hprint _ _ _ _ hprinted)
      rcases broadcastTransfer_sends hbroadcast with ⟨-, e, he⟩ | ⟨seed, signed, -, hsigned, hsends⟩
      · cases he
      · refine Or.inr ⟨rfl, a, prepared, config, s₁, seed, signed, ha.symm, preparation, hsigned,
          by rw [hlast, hsends, hbefore], fun _ => ?_⟩
        cases hprinted
        exact ⟨_, List.getLast?_concat⟩

theorem run_transfer_ends {wasmModule : WasmModule} {args : List JsString} {r : Js Nat}
    (h : (run env wasmModule fuel (lit "transfer" :: args)).Ends s r s') :
    r = .ok 0 ∧ (runTransfer env wasmModule.toWasmExports fuel args).Ends s (.ok ()) s' ∨
      ∃ e s₁, r = .ok 1 ∧ (runTransfer env wasmModule.toWasmExports fuel args).Ends s (.error e) s₁ ∧
        sends s' = sends s₁ := by
  rw [run, main, if_neg (by decide), if_neg (by decide), if_neg (by decide), if_neg (by decide), if_neg (by decide),
    if_pos rfl] at h
  rcases exitCode_ends.1 h with hreturns | ⟨e, s₁, hcode, hthrows, rfl⟩
  · exact Or.inl hreturns
  · exact Or.inr ⟨e, s₁, hcode, hthrows, by simp [sends, sentTransaction]⟩

/-- **What `transfer` broadcasts.** Nothing is sent, and then the exit code is `1` or it was a dry run; or one
transaction is sent, to the node of `--rpc-url`, and it is what `buildSignedTransfer` makes of the payment that was
typed, from cells that this run listed, with the key and the signature in its first witness. The values that are
printed in the end are those of the payment. -/
theorem run_transfer_broadcasts {wasmModule : WasmModule} {args : List JsString} {r : Js Nat}
    (h : (run env wasmModule fuel (lit "transfer" :: args)).Ends s r s') :
    sends s' = sends s ∧ (r = .ok 1 ∨ r = .ok 0 ∧ hasFlag args (lit "--dry-run") = true) ∨
      hasFlag args (lit "--dry-run") = false ∧ (r = .ok 0 ∨ r = .ok 1) ∧
        ∃ a prepared config s₁ seed signed, parseTransferArgs args = .ok a ∧
          Preparation env wasmModule.toWasmExports fuel a s s₁ config prepared ∧
          buildSignedTransfer wasmModule.toWasmExports seed (signingOptions prepared) = .ok signed ∧
          Payment a prepared.options.fromLock prepared.options.cells prepared.preflight signed.transaction ∧
          Signs wasmModule.toWasmExports seed (.uint8Array prepared.keypair.publicKey)
            (.uint8Array prepared.keypair.secretKey) prepared.preflight.unsigned.rawTransaction signed ∧
          sends s' = sends s ++ [(a.rpcUrl, toRpcTransaction signed.transaction)] ∧
          (r = .ok 0 → ∃ rest, s'.events.getLast? = some (.log
            ((Json.object (members (transferSummary a prepared ++ rest))).stringify (lit "  ")))) := by
  rcases run_transfer_ends h with ⟨rfl, hrun⟩ | ⟨e, s₁, rfl, hrun, hsends⟩
  · rcases runTransfer_sends hrun with ⟨hsends, ⟨e, he⟩ | hdry⟩ | ⟨hdry, a, prepared, config, s₁, seed, signed, ha,
      hprepared, hsigned, hsends, hprinted⟩
    · cases he
    · exact Or.inl ⟨hsends, Or.inr ⟨rfl, hdry⟩⟩
    · obtain ⟨hpayment, hsigns⟩ := hprepared.payment hsigned
      exact Or.inr ⟨hdry, Or.inl rfl, a, prepared, config, s₁, seed, signed, ha, hprepared, hsigned, hpayment, hsigns,
        hsends, fun _ => hprinted rfl⟩
  · rcases runTransfer_sends hrun with ⟨hbefore, -⟩ | ⟨hdry, a, prepared, config, s₂, seed, signed, ha, hprepared,
      hsigned, hbefore, -⟩
    · exact Or.inl ⟨hsends.trans hbefore, Or.inl rfl⟩
    · obtain ⟨hpayment, hsigns⟩ := hprepared.payment hsigned
      exact Or.inr ⟨hdry, Or.inr rfl, a, prepared, config, s₂, seed, signed, ha, hprepared, hsigned, hpayment, hsigns,
        hsends.trans hbefore, by simp⟩

/-- What is sent is the signed transfer of a preparation. -/
theorem run_transfer_signed {wasmModule : WasmModule} {args : List JsString} {r : Js Nat}
    (h : (run env wasmModule fuel (lit "transfer" :: args)).Ends s r s') (hsent : sends s' ≠ sends s) :
    ∃ a prepared config s₁ seed signed, parseTransferArgs args = .ok a ∧
      Preparation env wasmModule.toWasmExports fuel a s s₁ config prepared ∧
      buildSignedTransfer wasmModule.toWasmExports seed (signingOptions prepared) = .ok signed ∧
      sends s' = sends s ++ [(a.rpcUrl, toRpcTransaction signed.transaction)] := by
  obtain ⟨r', s₁, hrun, hsame⟩ : ∃ r' s₁, (runTransfer env wasmModule.toWasmExports fuel args).Ends s r' s₁ ∧
      sends s' = sends s₁ := by
    rcases run_transfer_ends h with ⟨-, hrun⟩ | ⟨e, s₁, -, hrun, hsame⟩
    · exact ⟨_, s', hrun, rfl⟩
    · exact ⟨_, s₁, hrun, hsame⟩
  rcases runTransfer_sends hrun with ⟨hquiet, -⟩ | ⟨-, a, prepared, config, s₂, seed, signed,
    ha, hprepared, hsigned, hsends, -⟩
  · exact absurd (hsame.trans hquiet) hsent
  · exact ⟨a, prepared, config, s₂, seed, signed, ha, hprepared, hsigned, hsame.trans hsends⟩

/-- **A payment to an address is locked by the script of the address.** Whatever `transfer` sends with the address of
a lock after `--to`, such as that of a public key, has the typed amount in its first output, under a lock with the
values of that lock, and both wallets are on mainnet or neither is. -/
theorem run_transfer_paysOwner {wasmModule : WasmModule} {args : List JsString} {r : Js Nat} {lock : LockScript}
    {network : Network} {address url : JsString} {transaction : RpcTransaction}
    (haddress : encodeCkbAddress lock network = .ok address)
    (hto : optionalOption args (lit "--to") = some address)
    (h : (run env wasmModule fuel (lit "transfer" :: args)).Ends s r s')
    (hsent : sends s' = sends s ++ [(url, transaction)]) :
    ∃ output rest typed amount sender, transaction.outputs = output :: rest ∧
      SameValues ⟨output.lock.codeHash, output.lock.hashType, output.lock.args⟩ lock ∧
      optionalOption args (lit "--amount-ckb") = some typed ∧ parseCkbAmount typed = .ok amount ∧
      hexToBigInt output.capacity = .ok amount ∧
      optionalOption args (lit "--network") = some (networkName sender) ∧ (sender = .mainnet ↔ network = .mainnet) := by
  obtain ⟨a, prepared, _, _, _, signed, ha, hprepared, hsigned, hsends⟩ := run_transfer_signed h (by rw [hsent]; simp)
  obtain ⟨payment, -⟩ := hprepared.payment hsigned
  have hargs := parseTransferArgs_eq_ok ha
  obtain ⟨-, rfl⟩ := Prod.mk.inj (List.singleton_injective (List.append_cancel_left (hsent.symm.trans hsends)))
  obtain rfl : address = a.toAddress := Option.some.inj (hto.symm.trans hargs.toAddress)
  obtain ⟨decoded, hdecoded, hnetworks, houtputs⟩ := payment.recipient
  obtain ⟨script, hscript, hsame⟩ := encodeCkbAddress_decodes haddress
  obtain rfl := Result.ok_unique hdecoded hscript
  obtain ⟨rest, hrest⟩ : ∃ rest, (toRpcTransaction signed.transaction).outputs =
      toRpcCellOutput ⟨hexQuantity prepared.preflight.amount, script, none⟩ :: rest := by
    rw [toRpcTransaction, houtputs, List.map_cons]
    exact ⟨_, rfl⟩
  refine ⟨_, rest, a.amountCkb, prepared.preflight.amount, a.network, hrest, hsame, hargs.amountCkb, payment.amount,
    hexToBigInt_hexQuantity payment.amount_pos.le, hargs.network, ?_⟩
  have hdecodedNetwork : decodedNetwork network = .mainnet ↔ network = .mainnet := by cases network <;> decide
  exact (recipientMatchesNetwork_iff.1 hnetworks).trans hdecodedNetwork

end

/-! ### A transfer of the command line -/

/-- The address of the recipient on the test network. -/
def recipientAddress : JsString :=
  lit "ckt1qzda0cr08m85hc8jlnfp3zer7xulejywt49kt2rr0vthywaa50xwsqdnnw7qkdnnclfkg59uzn8umtfd2kwxceqgutnjd"

/-- The deployment file of the sample transfer. -/
def deploymentJson : Json :=
  .object [(lit "testnet", .object [(lit "dillithium-lock", .object [
    (lit "codeHash", .string senderLock.codeHash), (lit "hashType", .string senderLock.hashType),
    (lit "cellDeps", .array [.object [(lit "cellDep", .object [
      (lit "outPoint", .object [(lit "txHash", .string sampleTxHash), (lit "index", .number (.ofNat 2))]),
      (lit "depType", .string (lit "code"))])]])])])]

/-- What an indexer says of a cell. -/
def indexed (cell : LiveCell) : RpcIndexerCell where
  blockNumber := cell.blockNumber
  outPoint := toRpcOutPoint cell.outPoint
  output := toRpcCellOutput cell.output
  outputData := cell.outputData
  txIndex := cell.txIndex

/-- The indexer lists the cells of the sample transfer on one page, and the node takes every transaction. -/
def fundedMachine : Environment := machine
  (fun _ _ call => match call with
    | .getCells params => .success ⟨lit "0x1", if params.cursor = none then sampleTransfer.cells.map indexed else []⟩
    | .sendTransaction _ _ => .success (bytesToHex sampleTransferHash)
    | _ => .rejected (lit "fetch failed"))
  fun path =>
    if path = lit "key.json" then some (keyFileContent ⟨zeroPublicKey, zeroSecretKey⟩)
    else if path = lit "/deployment/scripts.json" then some (deploymentJson.stringify (lit "  "))
    else none

def fundedArgv : List JsString := [lit "--key-file", lit "key.json", lit "--rpc-url",
    lit "http://127.0.0.1:8114", lit "--network", lit "testnet", lit "--to", recipientAddress, lit "--amount-ckb",
    lit "100"]

def fundedArgs : TransferArgs where
  keyFile := lit "key.json"
  rpcUrl := lit "http://127.0.0.1:8114"
  indexerUrl := lit "http://127.0.0.1:8114"
  network := .testnet
  toAddress := recipientAddress
  amountCkb := lit "100"
  feeRate := none
  wait := false
  dryRun := false
  timeoutMs := none
  intervalMs := none

theorem recipientAddress_decodes :
    decodeCkbAddress recipientAddress = .ok ⟨.testnet, recipientLock⟩ := by decide +kernel

theorem fundedArgs_parsed : parseTransferArgs fundedArgv = .ok fundedArgs := by decide +kernel

theorem fundedMachine_lists : Sdk.getCells fundedMachine.transport fundedArgs.client senderLock (.ofNat 100) 2 0 =
    some (.ok ⟨sampleTransfer.cells, some (lit "0x1"), 2⟩) := by
  decide +kernel

theorem deploymentJson_config : scriptConfigOfDeployment (lit "/deployment/scripts.json") .testnet deploymentJson =
    .ok sampleTransfer.scriptConfig := by
  decide +kernel

theorem deploymentJson_plain : deploymentJson.Plain := by
  refine .object (List.forall_mem_singleton.2 (.object (List.forall_mem_singleton.2 (.object ?_))))
  refine List.forall_mem_cons.2 ⟨.string _, List.forall_mem_cons.2 ⟨.string _, List.forall_mem_singleton.2 ?_⟩⟩
  refine .array (List.forall_mem_singleton.2 (.object (List.forall_mem_singleton.2 (.object ?_))))
  refine List.forall_mem_cons.2 ⟨.object ?_, List.forall_mem_singleton.2 (.string _)⟩
  exact List.forall_mem_cons.2 ⟨.string _, List.forall_mem_singleton.2 (.number (by decide))⟩

theorem fundedMachine_keypair : ∃ s', (readKeypair fundedMachine (lit "key.json")).Ends ⟨0, []⟩
    (.ok ⟨zeroPublicKey, zeroSecretKey⟩) s' ∧ s' = ⟨0, [.readFile (lit "key.json")]⟩ := by
  refine ⟨_, readKeypair_returns.2 ⟨_, _, rfl, parse_keyFileContent _, ?_, rfl⟩, rfl⟩
  exact keypairOfContent_keyFile_iff.2 ⟨rfl, zeroPublicKey_length, zeroSecretKey_length⟩

theorem fundedMachine_config : ∃ s', (loadScriptConfig fundedMachine .testnet).Ends
    ⟨0, [.readFile (lit "key.json")]⟩ (.ok sampleTransfer.scriptConfig) s' ∧ s'.nextId = 0 := by
  have hread : (readFile fundedMachine (deploymentPath fundedMachine)).Ends ⟨0, [.readFile (lit "key.json")]⟩
      (.ok (deploymentJson.stringify (lit "  ")))
      ⟨0, [.readFile (lit "key.json"), .readFile (deploymentPath fundedMachine)]⟩ := act_ends.2 ⟨rfl, rfl⟩
  have hparse : Json.parse (deploymentJson.stringify (lit "  ")) = some deploymentJson := by
    rw [← List.append_nil (deploymentJson.stringify (lit "  "))]
    exact Json.parse_stringify deploymentJson_plain (by decide) (by decide)
  have hjson : (Action.lift (jsonParse fundedMachine (deploymentJson.stringify (lit "  "))) : Wallet Json).Ends
      ⟨0, [.readFile (lit "key.json"), .readFile (deploymentPath fundedMachine)]⟩ (.ok deploymentJson)
      ⟨0, [.readFile (lit "key.json"), .readFile (deploymentPath fundedMachine)]⟩ :=
    Action.lift_ends.2 ⟨(jsonParse_eq_ok.2 hparse).symm, rfl⟩
  exact ⟨_, hread.bind (hjson.bind (Action.lift_ends.2 ⟨deploymentJson_config.symm, rfl⟩)), rfl⟩

theorem fundedMachine_prepares : ∃ prepared s', (prepareTransfer fundedMachine sampleWasm 2 fundedArgs).Ends ⟨0, []⟩
    (.ok prepared) s' ∧ prepared.options = sampleTransfer ∧ prepared.keypair = ⟨zeroPublicKey, zeroSecretKey⟩ := by
  obtain ⟨s₁, hkeypair, rfl⟩ := fundedMachine_keypair
  obtain ⟨s₂, hconfig, hid⟩ := fundedMachine_config
  have hlists := fundedMachine_lists
  rw [← hid] at hlists
  obtain ⟨s₃, hcells⟩ := CkbRpcClient.getCells_ends_of hlists
  obtain ⟨address, haddress⟩ := senderLock_address
  have hnetworks : NetworksAgree sampleTransfer.scriptConfig.network (some .testnet) := by
    intro recipient hrecipient
    obtain rfl := Option.some.inj hrecipient
    decide
  have hfeeRate : normalizeBigInt (sampleTransfer.feeRate.getD (.bigint defaultFeeRate)) (lit "feeRate") =
      .ok 1000 := rfl
  obtain ⟨preflight, hpreflight⟩ := (validateTransferRequest_returns_iff hfeeRate (by decide)).2
    ⟨hnetworks, sampleTransfer_returns⟩
  have hsender : addressFromPublicKey sampleWasm zeroPublicKey sampleTransfer.scriptConfig = .ok address := by
    rw [addressFromPublicKey]
    exact Result.bind_eq_ok.2 ⟨senderLock, senderLock_eq_buildLockScript, haddress⟩
  have hamount : parseCkbAmount fundedArgs.amountCkb = .ok 10000000000 := by decide +kernel
  simp only [prepareTransfer, Action.bind_returns, Action.lift_ends, Action.pure_ends]
  refine ⟨_, s₃, ⟨_, _, hkeypair, _, _, hconfig, senderLock, _, ⟨senderLock_eq_buildLockScript.symm, rfl⟩, _, _,
    ⟨recipientAddress_decodes.symm, rfl⟩, _, _, ⟨hamount.symm, rfl⟩, _, _, hcells, none, _, ⟨rfl, rfl⟩, preflight, _,
    ⟨hpreflight.symm, rfl⟩, address, _, ⟨hsender.symm, rfl⟩, rfl, rfl⟩, rfl, rfl⟩

theorem fundedMachine_transfers : ∃ s' url transaction,
    (run fundedMachine zeroModule 2 (lit "transfer" :: fundedArgv)).Ends ⟨0, []⟩ (.ok 0) s' ∧
      sends s' = [(url, transaction)] := by
  obtain ⟨prepared, s₁, hprepared, hoptions, hkeypair⟩ := fundedMachine_prepares
  obtain ⟨signed, hsigned⟩ := sampleSignedTransfer_returns
  have hseed : (randomBytes fundedMachine 32).Ends s₁ (.ok (List.replicate 32 0))
      { s₁ with events := s₁.events ++ [.random 32] } := act_ends.2 ⟨rfl, rfl⟩
  have hsend : ∀ s, ∃ s', (CkbRpcClient.sendTransaction fundedMachine fundedArgs.client signed.transaction).Ends s
      (.ok (bytesToHex sampleTransferHash)) s' := fun _ => ⟨_, CkbRpcClient.request_ends.2 ⟨rfl, rfl⟩⟩
  obtain ⟨s₂, hsend⟩ := hsend { s₁ with events := s₁.events ++ [.random 32] }
  have hbroadcast : (broadcastTransfer fundedMachine sampleWasm 2 fundedArgs prepared).Ends s₁
      (.ok (bytesToHex sampleTransferHash, none)) s₂ := by
    have hsigned : buildSignedTransfer sampleWasm (List.replicate 32 0) (signingOptions prepared) = .ok signed := by
      rw [signingOptions, hoptions, hkeypair]
      exact hsigned
    have hbefore := beforeSeed_of_signed hsigned
    exact Action.Ends.bind (Action.lift_ends.2 ⟨hbefore.symm, rfl⟩)
      (hseed.bind (Action.Ends.bind (Action.lift_ends.2 ⟨hsigned.symm, rfl⟩) (hsend.bind rfl)))
  have hargs : (Action.lift (parseTransferArgs fundedArgv) : Wallet TransferArgs).Ends ⟨0, []⟩
      (.ok fundedArgs) ⟨0, []⟩ :=
    Action.lift_ends.2 ⟨fundedArgs_parsed.symm, rfl⟩
  have hrun : ∃ s', (runTransfer fundedMachine sampleWasm 2 fundedArgv).Ends ⟨0, []⟩ (.ok ()) s' :=
    ⟨_, hargs.bind (hprepared.bind (hbroadcast.bind rfl))⟩
  obtain ⟨s', hrun⟩ := hrun
  have hdry : hasFlag fundedArgv (lit "--dry-run") = false := by decide +kernel
  rcases runTransfer_sends hrun with ⟨-, ⟨e, he⟩ | hflag⟩ | ⟨-, a, _, _, _, _, signed, -, -, -, hsends, -⟩
  · cases he
  · rw [hdry] at hflag
    cases hflag
  · exact ⟨s', a.rpcUrl, _, exitCode_ends.2 (Or.inl ⟨rfl, hrun⟩), hsends⟩

theorem run_transfer_broadcasts_fundedMachine : ∃ s' a own listed preflight seed signing signed,
    (run fundedMachine zeroModule 2 (lit "transfer" :: fundedArgv)).Ends ⟨0, []⟩ (.ok 0) s' ∧
      buildSignedTransfer sampleWasm seed signing = .ok signed ∧ Payment a own listed preflight signed.transaction ∧
      sends s' = [(a.rpcUrl, toRpcTransaction signed.transaction)] := by
  obtain ⟨s', url, transaction, hrun, hsent⟩ := fundedMachine_transfers
  rcases run_transfer_broadcasts hrun with ⟨hquiet, -⟩ | ⟨-, -, a, prepared, _, _, seed, signed, -, -, hsigned,
    hpayment, -, hsends, -⟩
  · rw [hsent] at hquiet
    cases hquiet
  · exact ⟨s', a, _, _, _, seed, _, signed, hrun, hsigned, hpayment, hsends⟩

theorem run_transfer_paysOwner_fundedMachine : ∃ s' url transaction output rest,
    (run fundedMachine zeroModule 2 (lit "transfer" :: fundedArgv)).Ends ⟨0, []⟩ (.ok 0) s' ∧
      sends s' = [(url, transaction)] ∧ transaction.outputs = output :: rest ∧
      SameValues ⟨output.lock.codeHash, output.lock.hashType, output.lock.args⟩ recipientLock := by
  obtain ⟨s', url, transaction, hrun, hsent⟩ := fundedMachine_transfers
  have haddress : encodeCkbAddress recipientLock .testnet = .ok recipientAddress := by decide +kernel
  have hto : optionalOption fundedArgv (lit "--to") = some recipientAddress := by decide +kernel
  obtain ⟨output, rest, -, -, -, houtputs, hsame, -⟩ := run_transfer_paysOwner haddress hto hrun hsent
  exact ⟨s', url, transaction, output, rest, hrun, hsent, houtputs, hsame⟩

end CkbDilithium.System
