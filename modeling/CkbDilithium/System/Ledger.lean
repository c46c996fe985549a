import CkbDilithium.Lib.Ledger
import CkbDilithium.System.TransferCommand
import CkbDilithium.Transfer.Solvency

/-!
# Transfers on the chain

The chain is the ledger of the live cells: an out point, the lock and the capacity of each. A transaction spends the
cells of its inputs and creates those of its outputs, and the lock script runs on the inputs that have its lock.
What `transfer` sends after a listing of live cells is accepted by the lock and moves the typed amount to the
recipient (`Settles.moves`), also in any order with other transactions (`History`). Type scripts are not run.
-/

namespace CkbDilithium.System

open Sdk Sdk.Cli Js Contract Ledger

/-! ### The chain -/

/-- The live cells. -/
abbrev Chain := List (Coin OutPoint LockScript)

def coinOf (cell : LiveCell) : Coin OutPoint LockScript := ⟨cell.outPoint, cell.output.lock, cellCapacity cell⟩

/-- The cells of the outputs. -/
def createdCoins (txHash : JsString) (outputs : List CellOutput) : Chain :=
  outputs.mapIdx fun index output =>
    ⟨⟨txHash, hexQuantity index⟩, output.lock, (hexToBigInt output.capacity).toOption.getD 0⟩

/-- The chain after a transaction. -/
def applied (chain : Chain) (txHash : JsString) (transaction : Transaction) : Chain :=
  settle chain (transaction.inputs.map TransactionInput.previousOutput) (createdCoins txHash transaction.outputs)

/-- The index of the first input of the script group of a lock. -/
def chainGroupIndex (chain : Chain) (transaction : Transaction) (lock : LockScript) : Option Nat :=
  transaction.inputs.findIdx? fun input => ownerAt chain input.previousOutput = some lock

/-- What the host loads for the script group of a lock. -/
def chainHost {PublicKey : Type} (crypto : Crypto PublicKey) (chain : Chain) (transaction : Transaction)
    (lock : LockScript) : Host where
  loadScript := some lock.value
  loadTxHash := (serializeRawTransaction transaction.toRawTransaction).toOption.map crypto.blake2b256
  loadWitnessArgs := do
    let witness ← transaction.witnesses[← chainGroupIndex chain transaction lock]?
    Ckb.readWitnessArgs (hexValue witness)

/-- The inputs are different live cells whose locks accept, and the outputs hold what they occupy. -/
structure Valid {PublicKey : Type} (crypto : Crypto PublicKey) (chain : Chain) (transaction : Transaction) : Prop where
  distinct : (transaction.inputs.map TransactionInput.previousOutput).Nodup
  unlocked : ∀ input ∈ transaction.inputs, ∃ lock, ownerAt chain input.previousOutput = some lock ∧
    programEntry crypto (chainHost crypto chain transaction lock) = .ok 0
  occupied : ∀ output ∈ transaction.outputs, ∃ capacity minimum, hexToBigInt output.capacity = .ok capacity ∧
    minimumCellCapacity output.lock (lit "0x") none = .ok minimum ∧ minimum ≤ capacity

/-! ### A signed transfer on the chain -/

section

variable {PublicKey : Type} {crypto : Crypto PublicKey} {wasm : WasmExports} {seed : Bytes}
  {options : BuildSignedTransferOptions} {r : SignedTransferTransaction} {chain : Chain}

/-- The selected cells are on the chain when the listed ones are. -/
theorem selected_subperm (hlisted : (options.cells.map coinOf).Subperm chain) {amount feeRate : Int}
    {cells : List LiveCell}
    (hfunding : FundingPrefix options.toBuildTransferOptions amount feeRate cells) :
    (cells.map coinOf).Subperm chain := by
  obtain ⟨cells', hperm, hsublist⟩ := hfunding.subperm
  exact List.Subperm.trans ⟨cells'.map coinOf, hperm.map coinOf, hsublist.map coinOf⟩ hlisted

theorem chainGroupIndex_eq_zero {lock : LockScript} {transaction : Transaction} {cells : List LiveCell}
    (hinputs : transaction.inputs = cells.map fun cell => ⟨cell.outPoint, lit "0x0"⟩) (hne : cells ≠ [])
    (howners : ∀ cell ∈ cells, ownerAt chain cell.outPoint = some lock) :
    chainGroupIndex chain transaction lock = some 0 := by
  obtain ⟨cell, cells, rfl⟩ := List.exists_cons_of_ne_nil hne
  rw [chainGroupIndex, hinputs, List.map_cons, List.findIdx?_cons, howners cell List.mem_cons_self]
  simp

/-- **A signed transfer of listed cells is accepted by the lock**, run for the group of its inputs on the chain. -/
theorem signed_unlocks {codeHash hashType : JsString} {n : Nat} {bytes txHash signature : Bytes}
    (hhash : SameHash crypto wasm)
    (hkeys : MatchingKeys crypto wasm (toBytes options.publicKey) (toBytes options.secretKey))
    (hlock : buildLockScript wasm codeHash hashType options.publicKey = .ok options.fromLock)
    (signed : SignedPlan wasm seed options n bytes txHash signature r)
    (hindex : chainGroupIndex chain r.transaction options.fromLock = some 0) :
    programEntry crypto (chainHost crypto chain r.transaction options.fromLock) = .ok 0 := by
  obtain ⟨args, hargs, hargsLen, hfrom⟩ := buildLockScript_eq_ok.1 hlock
  obtain ⟨key, hkey, hverify⟩ := hkeys
  have hfield := frame_keys_length signed.publicKey_length signed.signature_length
  have hwitness := readWitnessArgs_lockWitnessArgs (frame (toBytes options.publicKey) signature)
    (by rw [hfield]; decide)
  have hhost : chainHost crypto chain r.transaction options.fromLock =
      hostOf options.fromLock.value (crypto.blake2b256 bytes)
        ⟨some (frame (toBytes options.publicKey) signature), none, none⟩ := by
    simp [chainHost, hostOf, hindex, signed.rawTransaction, signed.serialized, signed.witnesses,
      hexValue_bytesToHex, hwitness, Except.toOption]
  have hpk : (toBytes options.publicKey).length = 1952 := signed.publicKey_length
  have hsig : signature.length = 3309 := signed.signature_length
  have hparses :
      LockParses (some (frame (toBytes options.publicKey) signature)) (toBytes options.publicKey) signature :=
    ⟨_, rfl, by omega, by omega, [], (List.append_nil _).symm⟩
  have hscript : options.fromLock.value.args = args := by
    rw [LockScript.value, hfrom, hexValue_bytesToHex]
  rw [hhost, programEntry_eq_zero, hscript, ← hhash.ckbHash _ _ signed.hashed]
  exact ⟨hargsLen, _, _, key, hparses, hpk, hsig, (hhash.hashPubkey _ _ hargs).symm, hkey, hverify _ _ _ signed.signed⟩

theorem signed_valid {codeHash hashType : JsString} (hhash : SameHash crypto wasm)
    (hkeys : MatchingKeys crypto wasm (toBytes options.publicKey) (toBytes options.secretKey))
    (hlock : buildLockScript wasm codeHash hashType options.publicKey = .ok options.fromLock)
    (hsigned : buildSignedTransfer wasm seed options = .ok r) (hnodup : (chain.map Coin.ref).Nodup)
    (hlisted : (options.cells.map coinOf).Subperm chain) : Valid crypto chain r.transaction := by
  obtain ⟨n, bytes, txHash, signature, signed⟩ := buildSignedTransfer_plan hsigned
  obtain ⟨amount, feeRate, cells, plan⟩ := buildTransferTransaction_plan signed.unsigned
  have hinputs : r.transaction.inputs = cells.map fun cell => ⟨cell.outPoint, lit "0x0"⟩ := by
    rw [← plan.planned.selectedCells, ← plan.inputs, ← signed.rawTransaction]
  have hspent := selected_subperm hlisted plan.funding
  have howners : ∀ cell ∈ cells, ownerAt chain cell.outPoint = some options.fromLock := by
    intro cell hcell
    rw [← plan.funding.ownLock cell hcell]
    exact ownerAt_of_mem hnodup (hspent.subset (List.mem_map_of_mem hcell))
  have hindex := chainGroupIndex_eq_zero hinputs plan.funding.ne_nil howners
  constructor
  · rw [hinputs, List.map_map]
    obtain ⟨spent, hperm, hsublist⟩ := hspent
    have hrefs := (hperm.map Coin.ref).nodup_iff.1 (hnodup.sublist (hsublist.map Coin.ref))
    rwa [List.map_map] at hrefs
  · intro input hinput
    rw [hinputs] at hinput
    obtain ⟨cell, hcell, rfl⟩ := List.mem_map.1 hinput
    exact ⟨_, howners cell hcell, signed_unlocks hhash hkeys hlock signed hindex⟩
  · have hraw : r.transaction.outputs = r.rawTransaction.outputs := by rw [← signed.rawTransaction]
    rw [hraw]
    exact plan.output_minimum

theorem capacity_hexQuantity {value : Int} (h : 0 ≤ value) :
    (hexToBigInt (hexQuantity value)).toOption.getD 0 = value := by
  rw [hexToBigInt_hexQuantity h]
  rfl

/-- What the outputs of a transfer are worth to an owner. -/
theorem created_balance {options : BuildTransferOptions} {amount feeRate : Int} {cells : List LiveCell}
    {unsigned : UnsignedTransferTransaction} (plan : TransferPlan options amount feeRate cells unsigned)
    (hchange : options.changeLock = none) (txHash : JsString) (owner : LockScript) :
    balance (createdCoins txHash unsigned.rawTransaction.outputs) owner =
      (if owner = options.toLock then amount else 0) +
        if owner = options.fromLock then surplus options amount feeRate cells else 0 := by
  have hamount : 0 ≤ amount := (lockMinimum_pos options.toLock).le.trans plan.amount_ge
  have hsurplus := plan.funding.surplus_nonneg
  have hlock : effectiveChangeLock options = options.fromLock := by
    rw [effectiveChangeLock, hchange]
    rfl
  rw [plan.planned.outputs, plan.planned.changeCapacity, changeOutputs, hlock]
  by_cases hpos : surplus options amount feeRate cells > 0
  · rw [if_pos hpos]
    simp [createdCoins, recipientOutput, capacity_hexQuantity hamount, capacity_hexQuantity hsurplus, @eq_comm _ owner]
  · have hzero : surplus options amount feeRate cells = 0 := by omega
    rw [if_neg hpos, hzero]
    simp [createdCoins, recipientOutput, capacity_hexQuantity hamount, @eq_comm _ owner]

/-- **What a signed transfer moves**: the amount to the recipient, and the amount and the fee from the sender. -/
theorem signed_moves (hsigned : buildSignedTransfer wasm seed options = .ok r) (hchange : options.changeLock = none)
    (hnodup : (chain.map Coin.ref).Nodup) (hlisted : (options.cells.map coinOf).Subperm chain) (txHash : JsString) :
    ∃ amount feeRate, normalizeBigInt options.amount (lit "amount") = .ok amount ∧
      normalizeBigInt (options.feeRate.getD (.bigint defaultFeeRate)) (lit "feeRate") = .ok feeRate ∧
      (0 ≤ r.fee ↔ 0 ≤ feeRate) ∧
      ∀ owner, balance (applied chain txHash r.transaction) owner = balance chain owner +
        ((if owner = options.toLock then amount else 0) - if owner = options.fromLock then amount + r.fee else 0) := by
  obtain ⟨n, bytes, hash, signature, signed⟩ := buildSignedTransfer_plan hsigned
  obtain ⟨amount, feeRate, cells, plan⟩ := buildTransferTransaction_plan signed.unsigned
  refine ⟨amount, feeRate, plan.amount_eq, plan.feeRate_eq, ?_, fun owner => ?_⟩
  · rw [plan.planned.fee, transferFee_nonneg_iff]
  have hspent := selected_subperm hlisted plan.funding
  have hinputs : r.transaction.inputs.map TransactionInput.previousOutput = (cells.map coinOf).map Coin.ref := by
    have hraw : r.transaction.inputs = r.rawTransaction.inputs := by rw [← signed.rawTransaction]
    rw [hraw, plan.inputs, plan.planned.selectedCells, List.map_map, List.map_map]
    rfl
  have houtputs : r.transaction.outputs = r.rawTransaction.outputs := by rw [← signed.rawTransaction]
  have howners : ∀ coin ∈ cells.map coinOf, coin.owner = options.fromLock := by
    intro coin hcoin
    obtain ⟨cell, hcell, rfl⟩ := List.mem_map.1 hcoin
    exact plan.funding.ownLock cell hcell
  have hvalues : ((cells.map coinOf).map Coin.value).sum = (cells.map cellCapacity).sum := by
    rw [List.map_map]
    rfl
  rw [applied, hinputs, houtputs, balance_settle hnodup hspent, balance_of_owner howners, hvalues,
    created_balance plan hchange, plan.planned.fee]
  have hbalance : (cells.map cellCapacity).sum = amount + transferFee options.toBuildTransferOptions feeRate cells +
      surplus options.toBuildTransferOptions amount feeRate cells := by
    rw [surplus]
    ring
  split_ifs <;> omega

end

/-! ### Runs of `transfer` on the chain -/

/-- A run of `transfer` with a transaction it has sent. -/
structure Submission where
  env : Environment
  wasm : WasmModule
  fuel : Nat
  args : List JsString
  before : Session
  after : Session
  transaction : Transaction
  txHash : JsString

/-- The chain takes the transaction: the keys of the run belong together, its listing is one of different live
cells, and the hash is new. -/
structure Settles {PublicKey : Type} (crypto : Crypto PublicKey) (chain : Chain) (t : Submission) : Prop where
  hash : SameHash crypto t.wasm.toWasmExports
  honest : ∀ a s₁ config prepared, parseTransferArgs t.args = .ok a →
    Preparation t.env t.wasm.toWasmExports t.fuel a t.before s₁ config prepared →
    MatchingKeys crypto t.wasm.toWasmExports prepared.keypair.publicKey prepared.keypair.secretKey ∧
      (prepared.options.cells.map coinOf).Subperm chain
  runs : ∃ r, (run t.env t.wasm t.fuel (lit "transfer" :: t.args)).Ends t.before r t.after
  sent : ∃ url, sends t.after = sends t.before ++ [(url, toRpcTransaction t.transaction)]
  fresh : ∀ ref ∈ chain.map Coin.ref, ref.txHash ≠ t.txHash

/-- What the command line of the run says: the key file and the network, whose deployment the run loads, the
address, the amount and the fee rate. -/
structure Typed (t : Submission) (payer payee : LockScript) (amount fee : Int) : Prop where
  payer : ∃ path network keypair config s₁ s₂, optionalOption t.args (lit "--key-file") = some path ∧
    optionalOption t.args (lit "--network") = some (networkName network) ∧
    (readKeypair t.env path).Ends t.before (.ok keypair) s₁ ∧
    (loadScriptConfig t.env network).Ends s₁ (.ok config) s₂ ∧
    walletLock t.wasm.toWasmExports config keypair.publicKey = .ok payer
  payee : ∃ address decoded, optionalOption t.args (lit "--to") = some address ∧
    decodeCkbAddress address = .ok decoded ∧ decoded.script = payee
  amount : ∃ typed, optionalOption t.args (lit "--amount-ckb") = some typed ∧ parseCkbAmount typed = .ok amount
  fee : ∃ typed feeRate, parseFeeRate (optionalOption t.args (lit "--fee-rate")) = .ok typed ∧
    normalizeBigInt (typed.getD (.bigint defaultFeeRate)) (lit "feeRate") = .ok feeRate ∧ (0 ≤ fee ↔ 0 ≤ feeRate)

section

variable {PublicKey : Type} {crypto : Crypto PublicKey} {chain : Chain} {t : Submission}

/-- Nothing is lost on the way to the node. -/
theorem toRpcTransaction_injective {transaction transaction' : Transaction}
    (h : toRpcTransaction transaction = toRpcTransaction transaction') : transaction = transaction' := by
  have hscript : Function.Injective toRpcScript := fun left right h => by
    cases left
    cases right
    cases h
    rfl
  have houtPoint : Function.Injective toRpcOutPoint := fun left right h => by
    cases left
    cases right
    cases h
    rfl
  have hdep : Function.Injective toRpcCellDep := fun left right h => by
    injection h with hpoint htype
    obtain ⟨point, type⟩ := left
    obtain ⟨point', type'⟩ := right
    obtain rfl := houtPoint hpoint
    cases type <;> cases type' <;> first | rfl | cases htype
  have hinput : Function.Injective toRpcInput := fun left right h => by
    injection h with hpoint hsince
    cases left
    cases right
    obtain rfl := houtPoint hpoint
    cases hsince
    rfl
  have houtput : Function.Injective toRpcCellOutput := fun left right h => by
    injection h with hcapacity hlock htype
    cases left
    cases right
    obtain rfl := hscript hlock
    obtain rfl := Option.map_injective hscript htype
    cases hcapacity
    rfl
  injection h with hversion hdeps hheaders hinputs houtputs hdata hwitnesses
  obtain ⟨⟨version, deps, headers, inputs, outputs, data⟩, witnesses⟩ := transaction
  obtain ⟨⟨version', deps', headers', inputs', outputs', data'⟩, witnesses'⟩ := transaction'
  obtain rfl := List.map_injective_iff.2 hdep hdeps
  obtain rfl := List.map_injective_iff.2 hinput hinputs
  obtain rfl := List.map_injective_iff.2 houtput houtputs
  cases hversion
  cases hheaders
  cases hdata
  cases hwitnesses
  rfl

/-- **A transfer that the chain takes is valid there, and moves what was typed.** -/
theorem Settles.moves (h : Settles crypto chain t) (hnodup : (chain.map Coin.ref).Nodup) :
    Valid crypto chain t.transaction ∧ ∃ payer payee amount fee, Typed t payer payee amount fee ∧
      ∀ owner, balance (applied chain t.txHash t.transaction) owner = balance chain owner +
        ((if owner = payee then amount else 0) - if owner = payer then amount + fee else 0) := by
  obtain ⟨r, hrun⟩ := h.runs
  obtain ⟨url, hsent⟩ := h.sent
  obtain ⟨a, prepared, config, s₁, seed, signed, ha, hprepared, hsigned, hsends⟩ :=
    run_transfer_signed hrun (by rw [hsent]; simp)
  have hsame : toRpcTransaction signed.transaction = toRpcTransaction t.transaction :=
    (Prod.mk.inj (List.singleton_injective (List.append_cancel_left (hsends.symm.trans hsent)))).2
  rw [← toRpcTransaction_injective hsame]
  obtain ⟨hkeys, hlisted⟩ := h.honest a s₁ config prepared ha hprepared
  have hoptions := parseTransferArgs_eq_ok ha
  obtain ⟨s₂, hkeypair, s₃, hconfig, -⟩ := hprepared.keypair
  obtain ⟨typed, htyped, hamount⟩ := hprepared.amount
  obtain ⟨decoded, hdecoded, htoLock, -⟩ := hprepared.preflight
  have hsigner : MatchingKeys crypto t.wasm.toWasmExports (toBytes (signingOptions prepared).publicKey)
      (toBytes (signingOptions prepared).secretKey) := hkeys
  refine ⟨signed_valid h.hash hsigner hprepared.fromLock hsigned hnodup hlisted, ?_⟩
  obtain ⟨amount, feeRate, hread, hfeeRate, hfee, hmoves⟩ :=
    signed_moves hsigned hprepared.changeLock hnodup hlisted t.txHash
  have hexact : amount = typed := by
    rw [signingOptions, hamount] at hread
    exact (Except.ok.inj hread).symm
  subst hexact
  refine ⟨prepared.options.fromLock, prepared.options.toLock, amount, signed.fee, ⟨?_, ?_, ?_, ?_⟩, hmoves⟩
  · exact ⟨a.keyFile, a.network, prepared.keypair, config, s₂, s₃, hoptions.keyFile, hoptions.network, hkeypair,
      hconfig, hprepared.fromLock⟩
  · exact ⟨a.toAddress, decoded, hoptions.toAddress, hdecoded, htoLock.symm⟩
  · exact ⟨a.amountCkb, hoptions.amountCkb, htyped⟩
  · exact ⟨prepared.options.feeRate, feeRate, hoptions.feeRate ▸ hprepared.feeRate, hfeeRate, hfee⟩

end

/-! ### Histories of the chain -/

/-- What changes the chain: a transfer of the wallet, or a transaction of someone else. -/
inductive Happening where
  | transfer (t : Submission)
  | foreign (spent created : Chain)

namespace Happening

/-- The chain afterwards. -/
def apply (chain : Chain) : Happening → Chain
  | transfer t => applied chain t.txHash t.transaction
  | foreign spent created => settle chain (spent.map Coin.ref) created

/-- The chain takes it. -/
def Admitted {PublicKey : Type} (crypto : Crypto PublicKey) (chain : Chain) : Happening → Prop
  | transfer t => Settles crypto chain t
  | foreign spent created => spent.Subperm chain ∧ (created.map Coin.ref).Nodup ∧
    ∀ coin ∈ created, coin.ref ∉ chain.map Coin.ref

/-- The change of the balances: for a transfer what was typed. -/
def Explains : Happening → (LockScript → Int) → Prop
  | transfer t, change => ∃ payer payee amount fee, Typed t payer payee amount fee ∧
    change = fun owner => (if owner = payee then amount else 0) - if owner = payer then amount + fee else 0
  | foreign spent created, change => change = fun owner => balance created owner - balance spent owner

end Happening

/-- The chain takes one after the other. -/
inductive History {PublicKey : Type} (crypto : Crypto PublicKey) : Chain → List Happening → Prop
  | nil (chain : Chain) : History crypto chain []
  | cons {chain : Chain} {happening : Happening} {rest : List Happening} (admitted : happening.Admitted crypto chain)
      (others : History crypto (happening.apply chain) rest) : History crypto chain (happening :: rest)

section

variable {PublicKey : Type} {crypto : Crypto PublicKey} {chain : Chain} {happenings : List Happening}

/-- The refs of created cells have the hash of their transaction and are different. -/
theorem createdCoins_refs (txHash : JsString) (outputs : List CellOutput) :
    (createdCoins txHash outputs).map Coin.ref =
      (List.range outputs.length).map fun index => ⟨txHash, hexQuantity (index : Nat)⟩ := by
  apply List.ext_getElem
  · simp [createdCoins]
  · intro i _ _
    simp [createdCoins]

theorem hexQuantity_injective {m n : Nat} (h : hexQuantity m = hexQuantity n) : m = n := by
  have hread := hexToBigInt_hexQuantity (Int.natCast_nonneg m)
  rw [h, hexToBigInt_hexQuantity (Int.natCast_nonneg n)] at hread
  exact_mod_cast (Except.ok.inj hread).symm

theorem createdCoins_nodup (txHash : JsString) (outputs : List CellOutput) :
    ((createdCoins txHash outputs).map Coin.ref).Nodup := by
  rw [createdCoins_refs]
  refine List.nodup_range.map fun m n h => hexQuantity_injective (OutPoint.mk.inj h).2

/-- One happening. -/
theorem Happening.Admitted.explained {happening : Happening} (h : happening.Admitted crypto chain)
    (hnodup : (chain.map Coin.ref).Nodup) :
    ((happening.apply chain).map Coin.ref).Nodup ∧ ∃ change, happening.Explains change ∧
      ∀ owner, balance (happening.apply chain) owner = balance chain owner + change owner := by
  cases happening with
  | transfer t =>
    obtain ⟨-, payer, payee, amount, fee, htyped, hmoves⟩ := h.moves hnodup
    refine ⟨settle_nodup hnodup (createdCoins_nodup _ _) fun coin hcoin hmem => ?_, _,
      ⟨payer, payee, amount, fee, htyped, rfl⟩, hmoves⟩
    have href : coin.ref ∈ (createdCoins t.txHash t.transaction.outputs).map Coin.ref := List.mem_map_of_mem hcoin
    rw [createdCoins_refs] at href
    obtain ⟨index, -, href⟩ := List.mem_map.1 href
    exact h.fresh coin.ref hmem (by rw [← href])
  | foreign spent created =>
    obtain ⟨hspent, hcreated, hfresh⟩ := h
    refine ⟨settle_nodup hnodup hcreated hfresh, _, rfl, fun owner => ?_⟩
    rw [Happening.apply, balance_settle hnodup hspent]
    omega

theorem History.explained (h : History crypto chain happenings) (hnodup : (chain.map Coin.ref).Nodup) :
    ((happenings.foldl Happening.apply chain).map Coin.ref).Nodup ∧
      ∃ changes, List.Forall₂ Happening.Explains happenings changes ∧
        ∀ owner, balance (happenings.foldl Happening.apply chain) owner =
          balance chain owner + (changes.map (· owner)).sum := by
  induction h with
  | nil chain => exact ⟨hnodup, [], .nil, by simp⟩
  | @cons chain happening rest hadmitted _ ih =>
    obtain ⟨hnodup', change, hexplains, hchange⟩ := hadmitted.explained hnodup
    obtain ⟨hlast, changes, hrest, hchanges⟩ := ih hnodup'
    refine ⟨hlast, change :: changes, .cons hexplains hrest, fun owner => ?_⟩
    rw [List.foldl_cons, hchanges, hchange, List.map_cons, List.sum_cons, Int.add_assoc]

/-- What comes before and what comes after. -/
theorem History.split {before after : List Happening} (h : History crypto chain (before ++ after)) :
    History crypto chain before ∧ History crypto (before.foldl Happening.apply chain) after := by
  induction before generalizing chain with
  | nil => exact ⟨.nil chain, h⟩
  | cons happening before ih =>
    cases h with
    | cons hadmitted hrest =>
      obtain ⟨hbefore, hafter⟩ := ih hrest
      exact ⟨.cons hadmitted hbefore, hafter⟩

/-- **The books balance.** However transfers of wallets and transactions of others follow each other on the chain, every
transfer is valid when its turn comes, no out point is live twice, and at the end each lock holds what it held at
the beginning with every payment that was typed added, less the payments and fees of its own, and with what others
changed. -/
theorem history_balances (h : History crypto chain happenings) (hnodup : (chain.map Coin.ref).Nodup) :
    (∀ before t after, happenings = before ++ .transfer t :: after →
      Valid crypto (before.foldl Happening.apply chain) t.transaction) ∧
    ((happenings.foldl Happening.apply chain).map Coin.ref).Nodup ∧
      ∃ changes, List.Forall₂ Happening.Explains happenings changes ∧
        ∀ owner, balance (happenings.foldl Happening.apply chain) owner =
          balance chain owner + (changes.map (· owner)).sum := by
  refine ⟨?_, h.explained hnodup⟩
  rintro before t after rfl
  obtain ⟨hbefore, hafter⟩ := h.split
  cases hafter with
  | cons hadmitted _ => exact (hadmitted.moves (hbefore.explained hnodup).1).1

end

/-! ### A chain with the cells of the sample transfer -/

def fundedChain : Chain := sampleTransfer.cells.map coinOf

theorem fundedChain_refs : fundedChain.map Coin.ref = sampleTransfer.cells.map LiveCell.outPoint := by
  rw [fundedChain, List.map_map]
  rfl

theorem fundedChain_nodup : (fundedChain.map Coin.ref).Nodup := by
  rw [fundedChain_refs]
  decide +kernel

/-- The run of the sample transfer reads the zero keys and lists the sample cells. -/
theorem fundedMachine_honest {s₁ : Session} {config : DilithiumScriptConfig} {prepared : PreparedTransfer}
    (h : Preparation fundedMachine sampleWasm 2 fundedArgs ⟨0, []⟩ s₁ config prepared) :
    MatchingKeys sampleCrypto sampleWasm prepared.keypair.publicKey prepared.keypair.secretKey ∧
      (prepared.options.cells.map coinOf).Subperm fundedChain := by
  obtain ⟨s₂, hkeypair, s₃, hconfig, hcells⟩ := h.keypair
  obtain ⟨_, hzero, rfl⟩ := fundedMachine_keypair
  obtain ⟨hkeys, rfl⟩ := hkeypair.unique hzero
  have hkeys : prepared.keypair = ⟨zeroPublicKey, zeroSecretKey⟩ := Except.ok.inj hkeys
  obtain ⟨s₄, hsample, hid⟩ := fundedMachine_config
  obtain ⟨hsame, rfl⟩ := hconfig.unique hsample
  have hsame : config = sampleTransfer.scriptConfig := Except.ok.inj hsame
  have hlock := h.fromLock
  rw [hkeys, hsame] at hlock
  have hsender : prepared.options.fromLock = senderLock := Result.ok_unique hlock senderLock_eq_buildLockScript
  have hlists := fundedMachine_lists
  rw [← hid] at hlists
  obtain ⟨s₅, hlisted⟩ := CkbRpcClient.getCells_ends_of hlists
  rw [hsender] at hcells
  obtain ⟨hsame, -⟩ := hcells.unique hlisted
  rw [hkeys, Except.ok.inj hsame]
  exact ⟨sampleKeys_match, List.Subperm.refl _⟩

theorem fundedMachine_settles : ∃ s' transaction, Settles sampleCrypto fundedChain
    ⟨fundedMachine, zeroModule, 2, fundedArgv, ⟨0, []⟩, s', transaction, bytesToHex sampleTransferHash⟩ := by
  obtain ⟨s', url, transaction, hrun, hsends⟩ := fundedMachine_transfers
  obtain ⟨a, prepared, config, s₁, seed, signed, -, -, -, hsent⟩ :=
    run_transfer_signed hrun (by rw [hsends]; simp [sends])
  have hfresh : ∀ ref ∈ sampleTransfer.cells.map LiveCell.outPoint, ref.txHash ≠ bytesToHex sampleTransferHash := by
    decide +kernel
  refine ⟨s', signed.transaction, ⟨fun _ _ h => (Except.ok.inj h).symm, fun _ _ h => (Except.ok.inj h).symm⟩, ?_,
    ⟨_, hrun⟩, ⟨_, hsent⟩, ?_⟩
  · intro a s₁ config prepared ha hprepared
    obtain rfl := Result.ok_unique ha fundedArgs_parsed
    exact fundedMachine_honest hprepared
  · rw [fundedChain_refs]
    exact hfresh

theorem history_balances_fundedMachine : ∃ t changes, History sampleCrypto fundedChain [.transfer t] ∧
    Valid sampleCrypto fundedChain t.transaction ∧ List.Forall₂ Happening.Explains [.transfer t] changes ∧
    ∀ owner, balance (applied fundedChain t.txHash t.transaction) owner =
      balance fundedChain owner + (changes.map (· owner)).sum := by
  obtain ⟨s', transaction, hsettles⟩ := fundedMachine_settles
  have hhistory : History sampleCrypto fundedChain [.transfer _] := .cons hsettles (.nil _)
  obtain ⟨hvalid, -, changes, hexplains, hbalances⟩ := history_balances hhistory fundedChain_nodup
  exact ⟨_, changes, hhistory, hvalid [] _ [] rfl, hexplains, hbalances⟩

end CkbDilithium.System
