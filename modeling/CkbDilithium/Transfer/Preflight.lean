import CkbDilithium.Sdk.Preflight
import CkbDilithium.Transfer.Signed

/-!
# The preflight and the builder agree

At a fee rate that is not negative `validateTransferRequest` returns exactly when the network check
passes and `buildTransferTransaction` returns (`validateTransferRequest_returns_iff`), since a transfer
that is built reads every own cell and spends no more than they hold. For a well-formed request the
three classes of failures are told apart by the amount and the total alone
(`validateTransferRequest_failure`).
-/

namespace CkbDilithium.Sdk

open Js

variable {options : BuildTransferOptions} {amount feeRate : Int} {recipientNetwork : Option Network}

/-! ### What the preflight computes -/

/-- Both parties are on mainnet or neither is; without a recipient network nothing is required. -/
def NetworksAgree (sender : Network) (recipientNetwork : Option Network) : Prop :=
  ∀ recipient, recipientNetwork = some recipient → (sender = .mainnet ↔ recipient = .mainnet)

theorem recipientMatchesNetwork_iff {sender recipient : Network} :
    recipientMatchesNetwork sender recipient = true ↔ (sender = .mainnet ↔ recipient = .mainnet) := by
  cases sender <;> cases recipient <;> decide

theorem checkRecipientNetwork_eq_ok {sender : Network} {u : Unit} :
    checkRecipientNetwork sender recipientNetwork = .ok u ↔ NetworksAgree sender recipientNetwork := by
  cases recipientNetwork with
  | none => simp [checkRecipientNetwork, NetworksAgree]
  | some recipient =>
    simp only [checkRecipientNetwork, Result.ite_throw_eq_ok, not_not, Result.pure_eq_ok, and_true,
      recipientMatchesNetwork_iff, NetworksAgree, Option.some.injEq, forall_eq']

theorem reduceCapacity_eq_ok {sum v : Int} {cells : List LiveCell} :
    reduceCapacity sum cells = .ok v ↔
      (∀ cell ∈ cells, hexToBigInt cell.output.capacity = .ok (cellCapacity cell)) ∧
        v = sum + (cells.map cellCapacity).sum := by
  induction cells generalizing sum with
  | nil =>
    simp only [reduceCapacity, List.foldlM_nil, Result.pure_eq_ok, List.not_mem_nil, false_implies,
      implies_true, true_and, List.map_nil, List.sum_nil, add_zero]
    exact eq_comm
  | cons cell cells ih =>
    unfold reduceCapacity at ih ⊢
    simp only [List.foldlM_cons, Result.bind_eq_ok, Result.pure_eq_ok, ih, List.mem_cons, forall_eq_or_imp,
      List.map_cons, List.sum_cons]
    constructor
    · intro h
      rcases h with ⟨_, ⟨capacity, hread, rfl⟩, hrest, rfl⟩
      obtain rfl := hexToBigInt_cellCapacity hread
      exact ⟨⟨hread, hrest⟩, by ring⟩
    · intro h
      rcases h with ⟨⟨hread, hrest⟩, rfl⟩
      exact ⟨_, ⟨_, hread, rfl⟩, hrest, by ring⟩

/-- The given cells with the lock of the sender, as the preflight adds them up. -/
def lockedCells (options : BuildTransferOptions) : List LiveCell :=
  options.cells.filter fun cell => sameLock cell.output.lock options.fromLock

/-- What the own cells hold together. -/
def ownTotal (options : BuildTransferOptions) : Int := ((lockedCells options).map cellCapacity).sum

theorem ownCells_perm (options : BuildTransferOptions) : (ownCells options).Perm (lockedCells options) :=
  (List.perm_insertionSort _ _).filter _

theorem ownCells_sum (options : BuildTransferOptions) :
    ((ownCells options).map cellCapacity).sum = ownTotal options :=
  ((ownCells_perm options).map cellCapacity).sum_eq

/-! ### A transfer that is built passes the preflight -/

theorem sortByCapacity_reads {cells sorted : List LiveCell} (h : sortByCapacity cells = .ok sorted)
    (hlen : 2 ≤ cells.length) :
    ∀ cell ∈ cells, hexToBigInt cell.output.capacity = .ok (cellCapacity cell) := by
  unfold sortByCapacity at h
  rw [if_neg (by omega)] at h
  simp only [Result.bind_eq_ok] at h
  obtain ⟨keyed, hkeyed, -⟩ := h
  intro cell hcell
  obtain ⟨entry, hentry⟩ := Result.mapM_steps hkeyed cell hcell
  simp only [Result.bind_eq_ok] at hentry
  obtain ⟨capacity, hread, -⟩ := hentry
  rw [hread, hexToBigInt_cellCapacity hread]

/-- A transfer that is built has read the capacity of every own cell. -/
theorem buildTransferTransaction_reads {r : UnsignedTransferTransaction}
    (h : buildTransferTransaction options = .ok r) :
    ∀ cell ∈ lockedCells options, hexToBigInt cell.output.capacity = .ok (cellCapacity cell) := by
  intro cell hcell
  obtain ⟨amount, feeRate, sorted, -, -, -, -, hsorted, -⟩ := buildTransferTransaction_eq_ok.1 h
  by_cases hlen : 2 ≤ options.cells.length
  · exact sortByCapacity_reads hsorted hlen cell (List.mem_of_mem_filter hcell)
  -- A single cell is not compared; if it is an own one, it is the cell that is selected.
  · obtain ⟨amount, feeRate, cells, plan⟩ := buildTransferTransaction_plan h
    obtain ⟨k, hk, hcells, -⟩ := plan.funding
    have hown : (ownCells options).length ≤ options.cells.length := by
      rw [(ownCells_perm options).length_eq]
      exact List.length_filter_le _ _
    refine plan.capacities cell ?_
    rw [hcells, List.take_of_length_le (by omega)]
    exact (ownCells_perm options).mem_iff.2 hcell

/-- At a rate that is not negative, what is built spends no more than the own cells hold. -/
theorem TransferPlan.amount_le_ownTotal {cells : List LiveCell} {r : UnsignedTransferTransaction}
    (plan : TransferPlan options amount feeRate cells r) (h : buildTransferTransaction options = .ok r)
    (hnonneg : 0 ≤ feeRate) : amount ≤ ownTotal options := by
  obtain ⟨k, hk, hcells, -⟩ := plan.funding
  have hcapacities : ∀ cell ∈ ownCells options, 0 ≤ cellCapacity cell := fun cell hcell =>
    hexToBigInt_nonneg (buildTransferTransaction_reads h cell ((ownCells_perm options).mem_iff.1 hcell))
  have hsum := sum_take_le hcapacities (k + 1)
  have hfee := transferFee_nonneg options hnonneg cells
  have hsurplus := plan.funding.surplus_nonneg
  rw [← hcells, ownCells_sum] at hsum
  unfold surplus at hsurplus
  omega

theorem tryBuild_eq_ok {minimum minimumChange total : Int} {built : Js UnsignedTransferTransaction}
    {p : TransferPreflight} :
    tryBuild amount minimum minimumChange total built = .ok p ↔
      ∃ unsigned, built = .ok unsigned ∧ p = ⟨amount, minimum, minimumChange, unsigned⟩ := by
  cases built with
  | error e => simp [tryBuild]
  | ok unsigned =>
    simp only [tryBuild, Result.pure_eq_ok, Except.ok.injEq, exists_eq_left']
    exact eq_comm

/-- The preflight returns what the builder returns, after its own checks. -/
theorem validateTransferRequest_eq_ok {p : TransferPreflight} :
    validateTransferRequest options recipientNetwork = .ok p ↔
      NetworksAgree options.scriptConfig.network recipientNetwork ∧
      ∃ amount minimumChange, normalizeBigInt options.amount (lit "amount") = .ok amount ∧
        minimumCellCapacity options.toLock (lit "0x") none = .ok (lockMinimum options.toLock) ∧
        minimumCellCapacity (effectiveChangeLock options) (lit "0x") none = .ok minimumChange ∧
        lockMinimum options.toLock ≤ amount ∧
        (∀ cell ∈ lockedCells options, hexToBigInt cell.output.capacity = .ok (cellCapacity cell)) ∧
        amount ≤ ownTotal options ∧
        ∃ unsigned, buildTransferTransaction options = .ok unsigned ∧
          p = ⟨amount, lockMinimum options.toLock, minimumChange, unsigned⟩ := by
  simp only [validateTransferRequest, Result.bind_eq_ok, checkRecipientNetwork_eq_ok, Result.ite_throw_eq_ok,
    not_lt, reduceCapacity_eq_ok, zero_add, tryBuild_eq_ok]
  constructor
  · intro h
    rcases h with ⟨_, hnetwork, amount, hamount, minimum, hminimum, minimumChange, hchange, hge, _, ⟨hread, rfl⟩,
      htotal, hunsigned⟩
    obtain rfl := minimumCellCapacity_eq hminimum
    exact ⟨hnetwork, amount, minimumChange, hamount, hminimum, hchange, hge, hread, htotal, hunsigned⟩
  · intro h
    rcases h with ⟨hnetwork, amount, minimumChange, hamount, hminimum, hchange, hge, hread, htotal, hunsigned⟩
    exact ⟨(), hnetwork, amount, hamount, _, hminimum, minimumChange, hchange, hge, _, ⟨hread, rfl⟩, htotal,
      hunsigned⟩

/-- **The preflight and the builder draw the same line.** -/
theorem validateTransferRequest_returns_iff
    (hfeeRate : normalizeBigInt (options.feeRate.getD (.bigint defaultFeeRate)) (lit "feeRate") = .ok feeRate)
    (hnonneg : 0 ≤ feeRate) :
    (∃ p, validateTransferRequest options recipientNetwork = .ok p) ↔
      NetworksAgree options.scriptConfig.network recipientNetwork ∧
        ∃ r, buildTransferTransaction options = .ok r := by
  constructor
  · intro h
    obtain ⟨p, hp⟩ := h
    obtain ⟨hnetwork, _, _, -, -, -, -, -, -, unsigned, hunsigned, -⟩ := validateTransferRequest_eq_ok.1 hp
    exact ⟨hnetwork, unsigned, hunsigned⟩
  · intro h
    obtain ⟨hnetwork, r, hr⟩ := h
    obtain ⟨amount, feeRate', cells, plan⟩ := buildTransferTransaction_plan hr
    obtain rfl : feeRate = feeRate' := Result.ok_unique hfeeRate plan.feeRate_eq
    exact ⟨_, validateTransferRequest_eq_ok.2 ⟨hnetwork, amount, _, plan.amount_eq, plan.recipientMinimum,
      plan.planned.changeMinimum, plan.amount_ge, buildTransferTransaction_reads hr,
      plan.amount_le_ownTotal hr hnonneg, r, hr, rfl⟩⟩

/-! ### The classes of failures -/

/-- The fields of a request are well formed and what is built from them fits, whatever the amount. -/
structure WellFormedRequest (options : BuildTransferOptions) : Prop where
  cellDep : options.scriptConfig.cellDep.outPoint.WellFormed
  outPoints : ∀ cell ∈ options.cells, cell.outPoint.WellFormed
  capacities : ∀ cell ∈ options.cells, hexToBigInt cell.output.capacity = .ok (cellCapacity cell)
  toLock : options.toLock.WellFormed
  changeLock : (effectiveChangeLock options).WellFormed
  total_lt : ownTotal options < 2 ^ 64
  size_lt : transferSize options (ownCells options) + changeOutputSize (effectiveChangeLock options) < 2 ^ 32

/-- An amount that passes the checks of the preflight fits its field. -/
theorem WellFormedRequest.transfer (h : WellFormedRequest options) (hminimum : lockMinimum options.toLock ≤ amount)
    (htotal : amount ≤ ownTotal options) : WellFormedTransfer options amount := by
  have hpos := lockMinimum_pos options.toLock
  have hlt := h.total_lt
  refine ⟨h.cellDep, h.outPoints, h.capacities, h.toLock, h.changeLock, by omega, by omega, ?_, h.size_lt⟩
  rw [ownCells_sum]
  exact hlt

/-- The error of a failed request: the first of the three conditions that fails. -/
def requestError (options : BuildTransferOptions) (amount : Int) : JsError :=
  if amount < lockMinimum options.toLock then
    amountBelowMinimumError (amountBelowMinimumMessage (lockMinimum options.toLock)) amount
      (lockMinimum options.toLock)
  else if ownTotal options < amount then insufficientTotalError (ownTotal options) amount
  else insufficientForFeeError (ownTotal options) amount (lockMinimum (effectiveChangeLock options))

theorem translateBuildError_insufficient (amount minimum minimumChange total : Int) :
    translateBuildError amount minimum minimumChange total
        (.error (lit "insufficient capacity to build transfer transaction")) =
      insufficientForFeeError total amount minimumChange := by
  have hsame : includes insufficientCapacityMessage insufficientCapacityMessage = true :=
    decide_eq_true List.infix_rfl
  exact if_pos hsame

/-- **The failures of a well-formed request** are told apart by the amount and the total alone. -/
theorem validateTransferRequest_failure
    (hnetwork : NetworksAgree options.scriptConfig.network recipientNetwork)
    (hamount : normalizeBigInt options.amount (lit "amount") = .ok amount)
    (hfeeRate : normalizeBigInt (options.feeRate.getD (.bigint defaultFeeRate)) (lit "feeRate") = .ok feeRate)
    (hnonneg : 0 ≤ feeRate) (h : WellFormedRequest options) {e : JsError}
    (hfail : validateTransferRequest options recipientNetwork = .error e) : e = requestError options amount := by
  have hreduce : reduceCapacity 0 (options.cells.filter fun cell => sameLock cell.output.lock options.fromLock) =
      .ok (ownTotal options) :=
    reduceCapacity_eq_ok.2 ⟨fun cell hcell => h.capacities cell (List.mem_of_mem_filter hcell), (zero_add _).symm⟩
  have hchange : minimumCellCapacity (options.changeLock.getD options.fromLock) (lit "0x") none =
      .ok (lockMinimum (effectiveChangeLock options)) := minimumCellCapacity_returns h.changeLock.args
  unfold validateTransferRequest at hfail
  rw [checkRecipientNetwork_eq_ok (u := ()).2 hnetwork] at hfail
  simp only [Result.ok_bind, hamount, minimumCellCapacity_returns h.toLock.args, hchange, hreduce] at hfail
  unfold requestError
  by_cases hminimum : amount < lockMinimum options.toLock
  · rw [if_pos hminimum] at hfail ⊢
    exact (Except.error.inj hfail).symm
  rw [if_neg hminimum] at hfail ⊢
  by_cases htotal : ownTotal options < amount
  · rw [if_pos htotal] at hfail ⊢
    exact (Except.error.inj hfail).symm
  rw [if_neg htotal] at hfail ⊢
  have hwf := h.transfer (not_lt.1 hminimum) (not_lt.1 htotal)
  rcases buildTransferTransaction_outcome hamount hfeeRate (not_lt.1 hminimum) hwf
    (fun k _ => surplus_take_lt hwf hnonneg (k + 1)) with ⟨r, hr⟩ | ⟨-, herror⟩
  · rw [hr] at hfail
    exact absurd hfail (by simp [tryBuild, pure, Except.pure])
  · rw [herror] at hfail
    have hthrown := Except.error.inj hfail
    rw [translateBuildError_insufficient] at hthrown
    exact hthrown.symm

/-- The signed transfer carries the hash of `raw` and the signature of that hash, and its first witness holds
the key with the signature, the others being empty. -/
def Signs (wasm : WasmExports) (seed : Bytes) (publicKey secretKey : ByteLike) (raw : RawTransaction)
    (r : SignedTransferTransaction) : Prop :=
  r.rawTransaction = raw ∧ r.transaction.toRawTransaction = raw ∧
    ∃ txHash signature, computeTransactionHash wasm raw = .ok txHash ∧
      signTxHash wasm seed secretKey (.uint8Array txHash) = .ok signature ∧
      r.txHash = bytesToHex txHash ∧ r.witnessLock = bytesToHex (frame (toBytes publicKey) signature) ∧
      r.transaction.witnesses = bytesToHex (lockWitnessArgs (frame (toBytes publicKey) signature)) ::
        List.replicate (r.selectedCells.length - 1) emptyWitness

/-- A signed transfer signs what the builder returns for the same options. -/
theorem buildSignedTransfer_signs {wasm : WasmExports} {seed : Bytes} {signing : BuildSignedTransferOptions}
    {unsigned : UnsignedTransferTransaction} {r : SignedTransferTransaction}
    (hunsigned : buildTransferTransaction signing.toBuildTransferOptions = .ok unsigned)
    (h : buildSignedTransfer wasm seed signing = .ok r) :
    r.toUnsignedTransferTransaction = unsigned ∧
      Signs wasm seed signing.publicKey signing.secretKey unsigned.rawTransaction r := by
  obtain ⟨n, bytes, txHash, signature, signed⟩ := buildSignedTransfer_plan h
  obtain rfl : unsigned = r.toUnsignedTransferTransaction :=
    Result.ok_unique hunsigned signed.unsigned
  have hhash : computeTransactionHash wasm r.rawTransaction = .ok txHash := by
    rw [computeTransactionHash, signed.serialized, Result.ok_bind, ckbHash_eq_ok]
    exact ⟨signed.hashed, signed.hash_length⟩
  refine ⟨rfl, rfl, signed.rawTransaction, txHash, signature, hhash, ?_, signed.txHash, signed.witnessLock, ?_⟩
  · exact signTxHash_eq_ok.2 ⟨signed.secretKey_length, signed.signed⟩
  · rw [signed.witnesses, signed.count, Nat.add_sub_cancel]

/-- **Preflight and execution agree.** At a fee rate that is not negative the preflight returns exactly
when the networks agree and the transfer is built; it then returns that transfer, and a signed transfer
of the same options signs its raw transaction. When the networks agree and the request is well formed,
a failure is the error of the first condition that fails: the amount below the minimum of the
recipient, the own cells below the amount, and otherwise the fee or the change. -/
theorem validateTransferRequest_agrees
    (hfeeRate : normalizeBigInt (options.feeRate.getD (.bigint defaultFeeRate)) (lit "feeRate") = .ok feeRate)
    (hnonneg : 0 ≤ feeRate) (recipientNetwork : Option Network) :
    ((∃ p, validateTransferRequest options recipientNetwork = .ok p) ↔
      NetworksAgree options.scriptConfig.network recipientNetwork ∧
        ∃ r, buildTransferTransaction options = .ok r) ∧
    (∀ p, validateTransferRequest options recipientNetwork = .ok p →
      buildTransferTransaction options = .ok p.unsigned ∧
      ∀ wasm seed publicKey secretKey r,
        buildSignedTransfer wasm seed { toBuildTransferOptions := options, publicKey, secretKey } = .ok r →
        r.toUnsignedTransferTransaction = p.unsigned ∧
          Signs wasm seed publicKey secretKey p.unsigned.rawTransaction r) ∧
    (NetworksAgree options.scriptConfig.network recipientNetwork → WellFormedRequest options →
      ∀ amount, normalizeBigInt options.amount (lit "amount") = .ok amount →
      ∀ e, validateTransferRequest options recipientNetwork = .error e →
        ∃ message details, e = .walletError
          (if amount < lockMinimum options.toLock then .amountBelowMinimumCapacity
            else if ownTotal options < amount then .insufficientTotalCapacity
            else .insufficientCapacityForFee) message details) := by
  refine ⟨validateTransferRequest_returns_iff hfeeRate hnonneg, ?_, ?_⟩
  · intro p hp
    obtain ⟨-, _, _, -, -, -, -, -, -, unsigned, hunsigned, rfl⟩ := validateTransferRequest_eq_ok.1 hp
    refine ⟨hunsigned, fun wasm seed publicKey secretKey r hr => ?_⟩
    exact buildSignedTransfer_signs hunsigned hr
  · intro hnetwork hwf amount hamount e he
    rw [validateTransferRequest_failure hnetwork hamount hfeeRate hnonneg hwf he, requestError]
    split_ifs
    · exact ⟨_, _, rfl⟩
    · exact ⟨_, _, rfl⟩
    · exact ⟨_, _, rfl⟩

theorem sampleTransfer_request : WellFormedRequest sampleTransfer := by
  have h := sampleTransfer_wellFormed
  refine ⟨h.cellDep, h.outPoints, h.capacities, h.toLock, h.changeLock, ?_, h.size_lt⟩
  rw [← ownCells_sum]
  exact h.total_lt

theorem validateTransferRequest_agrees_sampleTransfer :
    WellFormedRequest sampleTransfer ∧
      ∃ p, validateTransferRequest sampleTransfer (some .testnet) = .ok p ∧
        buildTransferTransaction sampleTransfer = .ok p.unsigned := by
  have hnetwork : NetworksAgree sampleTransfer.scriptConfig.network (some .testnet) := by
    intro recipient hrecipient
    obtain rfl := Option.some.inj hrecipient
    decide
  obtain ⟨hreturns, hunsigned, -⟩ :=
    @validateTransferRequest_agrees sampleTransfer 1000 rfl (by decide) (some .testnet)
  obtain ⟨p, hp⟩ := hreturns.2 ⟨hnetwork, sampleTransfer_returns⟩
  exact ⟨sampleTransfer_request, p, hp, (hunsigned p hp).1⟩

end CkbDilithium.Sdk
