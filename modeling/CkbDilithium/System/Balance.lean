import CkbDilithium.System.Waiting
import CkbDilithium.System.Discovery
import CkbDilithium.System.Acceptance
import CkbDilithium.Transfer.Preflight
import CkbDilithium.Transfer.SameLock

/-!
# The reported balance

What `getBalanceSummary` and `getWalletState` report while the store of the indexer changes between the
requests: no cell is counted twice, everything that stayed is counted, and nothing else than what was there
at some request. Against a store that does not change this is its exact sum. The keys of a changing store
have to come from a finite set for the listing to end.
-/

namespace CkbDilithium.System

open Sdk Js Pagination

variable {κ : Type} [LinearOrder κ] {env : Environment} {config : RpcConfig} {lock : LockScript}
  {stores : Nat → Store κ RpcIndexerCell} {encode : κ → JsString}

/-! ### The listing ends -/

section Ends

variable {limit first : Nat} {state : GetCellsState} {after : Option κ} {entries : List (κ × RpcIndexerCell)}

/-- Each page that is not the last leaves fewer keys to come. -/
theorem Discovered.ends {transport : Transport} (h : Discovered stores encode first state after entries)
    (hanswers : Answers transport config lock limit stores encode) {keys : Finset κ}
    (hkeys : ∀ id, ∀ e ∈ (stores id).entries, e.1 ∈ keys) {fuel : Nat} (hfuel : (keysBeyond keys after).card < fuel) :
    ∃ result, getCellsLoop transport config lock (.ofNat limit) fuel state = some result := by
  induction fuel generalizing state after entries with
  | zero => omega
  | succ fuel ih =>
    rw [getCellsLoop]
    cases hstep : getCellsPage transport config lock (.ofNat limit) state with
    | error error => exact ⟨.error error, rfl⟩
    | ok step =>
      rcases h.round hanswers hstep with ⟨-, final, rfl, -⟩ | ⟨next, last, rfl, -, hmem, hnext⟩
      · exact ⟨.ok final, rfl⟩
      · have hless := keysBeyond_lt hmem (hkeys _ _ (Store.mem_of_mem_page hmem))
        exact ih hnext (by omega)

theorem total_getCells (hanswers : Answers env.transport config lock limit stores encode) {keys : Finset κ}
    (hkeys : ∀ id, ∀ e ∈ (stores id).entries, e.1 ∈ keys) {fuel : Nat} (hfuel : keys.card < fuel) :
    (CkbRpcClient.getCells env config fuel lock (.ofNat limit)).Total := by
  intro s
  have hcard : (keysBeyond keys none).card < fuel :=
    lt_of_le_of_lt (Finset.card_le_card (Finset.filter_subset _ _)) hfuel
  obtain ⟨result, hrun⟩ := (Discovered.start stores encode s.nextId).ends hanswers hkeys hcard
  obtain ⟨s', hends⟩ := CkbRpcClient.getCells_ends_of hrun
  exact ⟨_, s', hends⟩

end Ends

/-! ### The sum of what is listed -/

/-- The capacity that the indexer sent for an entry. -/
def entryCapacity (entry : κ × RpcIndexerCell) : Int := (hexToBigInt entry.2.output.capacity).toOption.getD 0

omit [LinearOrder κ] in
theorem entryCapacity_nonneg (entry : κ × RpcIndexerCell) : 0 ≤ entryCapacity entry := by
  unfold entryCapacity
  cases hread : hexToBigInt entry.2.output.capacity with
  | error error => exact le_rfl
  | ok v => exact hexToBigInt_nonneg hread

omit [LinearOrder κ] in
theorem cellCapacity_fromRpcIndexerCell (entry : κ × RpcIndexerCell) :
    cellCapacity (fromRpcIndexerCell entry.2) = entryCapacity entry := rfl

/-- A summary that was returned counts each of the entries that were listed once. -/
structure Counted (stores : Nat → Store κ RpcIndexerCell) (first last : Nat) (entries : List (κ × RpcIndexerCell))
    (totalCapacity : Int) (liveCells : Nat) : Prop where
  sorted : entries.Pairwise fun a b => a.1 < b.1
  total : totalCapacity = (entries.map entryCapacity).sum
  count : liveCells = entries.length
  covers : ∀ e, (∀ id, first < id → id ≤ last → e ∈ (stores id).entries) → e ∈ entries
  found : ∀ e ∈ entries, ∃ id, first < id ∧ id ≤ last ∧ e ∈ (stores id).entries

theorem getBalanceSummary_ends {fuel : Nat} {s s' : Session} {r : Js BalanceSummary}
    (h : (getBalanceSummary env config fuel lock).Ends s r s') :
    (∃ e, r = .error e ∧ ((CkbRpcClient.getCells env config fuel lock (.ofNat 100)).Ends s (.error e) s' ∨
      ∃ cells, (CkbRpcClient.getCells env config fuel lock (.ofNat 100)).Ends s (.ok cells) s' ∧
        reduceCapacity 0 cells = .error e)) ∨
    ∃ cells total, (CkbRpcClient.getCells env config fuel lock (.ofNat 100)).Ends s (.ok cells) s' ∧
      reduceCapacity 0 cells = .ok total ∧ r = .ok ⟨lock, total, cells.length⟩ := by
  rcases Action.bind_ends.1 h with ⟨e, rfl, hcells⟩ | ⟨cells, s₁, hcells, h⟩
  · exact Or.inl ⟨e, rfl, Or.inl hcells⟩
  · rcases Action.bind_ends.1 h with ⟨e, rfl, hlift⟩ | ⟨total, s₂, hlift, hpure⟩
    · obtain ⟨hsum, rfl⟩ := Action.lift_ends.1 hlift
      exact Or.inl ⟨e, rfl, Or.inr ⟨cells, hcells, hsum.symm⟩⟩
    · obtain ⟨hsum, rfl⟩ := Action.lift_ends.1 hlift
      obtain ⟨rfl, rfl⟩ := Action.pure_ends.1 hpure
      exact Or.inr ⟨cells, total, hcells, hsum.symm, rfl⟩

theorem getBalanceSummary_counted (hanswers : Answers env.transport config lock 100 stores encode) {fuel : Nat}
    {s s' : Session} {summary : BalanceSummary}
    (h : (getBalanceSummary env config fuel lock).Ends s (.ok summary) s') :
    summary.lock = lock ∧
      ∃ entries, Counted stores s.nextId s'.nextId entries summary.totalCapacity summary.liveCells := by
  rcases getBalanceSummary_ends h with ⟨e, he, -⟩ | ⟨cells, total, hcells, hsum, hsummary⟩
  · cases he
  · cases hsummary
    obtain ⟨result, hrun, hresult, hid⟩ := CkbRpcClient.getCells_ends hcells
    cases result with
    | error e => cases hresult
    | ok final =>
      have hobjects : cells = final.objects := Except.ok.inj hresult
      obtain ⟨entries, hentries, hsorted, hcovers, hfound⟩ :=
        (Discovered.start stores encode s.nextId).run hanswers (by decide) hrun
      rw [← hid final rfl] at hcovers hfound
      obtain ⟨-, rfl⟩ := reduceCapacity_eq_ok.1 hsum
      refine ⟨rfl, entries, hsorted, ?_, ?_, hcovers, hfound⟩
      · rw [hobjects, hentries, cellsOf, List.map_map, zero_add]
        exact congrArg List.sum (List.map_congr_left fun entry _ => cellCapacity_fromRpcIndexerCell entry)
      · rw [hobjects, hentries, cellsOf, List.length_map]

section Counted

variable {first last liveCells : Nat} {entries : List (κ × RpcIndexerCell)} {totalCapacity : Int}

omit [LinearOrder κ] in
theorem sum_le_of_subset {small large : List (κ × RpcIndexerCell)} (hnodup : small.Nodup)
    (hsubset : ∀ e ∈ small, e ∈ large) :
    small.length ≤ large.length ∧ (small.map entryCapacity).sum ≤ (large.map entryCapacity).sum := by
  have hsubperm : small.Subperm large := List.subperm_of_subset hnodup hsubset
  refine ⟨hsubperm.length_le, ?_⟩
  obtain ⟨l, hperm, hsublist⟩ := hsubperm
  rw [← (hperm.map entryCapacity).sum_eq]
  refine (hsublist.map entryCapacity).sum_le_sum fun v hv => ?_
  obtain ⟨e, -, rfl⟩ := List.mem_map.1 hv
  exact entryCapacity_nonneg e

theorem Counted.nodup (h : Counted stores first last entries totalCapacity liveCells) : entries.Nodup :=
  h.sorted.imp fun hlt heq => absurd hlt (by rw [heq]; exact lt_irrefl _)

/-- What stayed is counted. -/
theorem Counted.stayed_le (h : Counted stores first last entries totalCapacity liveCells)
    {stayed : List (κ × RpcIndexerCell)} (hnodup : stayed.Nodup)
    (hstayed : ∀ e ∈ stayed, ∀ id, first < id → id ≤ last → e ∈ (stores id).entries) :
    stayed.length ≤ liveCells ∧ (stayed.map entryCapacity).sum ≤ totalCapacity := by
  rw [h.total, h.count]
  exact sum_le_of_subset hnodup fun e he => h.covers e (hstayed e he)

/-- Only what was there is counted, and each once. -/
theorem Counted.le_seen (h : Counted stores first last entries totalCapacity liveCells)
    {seen : List (κ × RpcIndexerCell)}
    (hseen : ∀ id, first < id → id ≤ last → ∀ e ∈ (stores id).entries, e ∈ seen) :
    liveCells ≤ seen.length ∧ totalCapacity ≤ (seen.map entryCapacity).sum := by
  rw [h.total, h.count]
  refine sum_le_of_subset h.nodup fun e he => ?_
  obtain ⟨id, hfirst, hlast, hin⟩ := h.found e he
  exact hseen id hfirst hlast e hin

end Counted

/-! ### The state of a wallet -/

theorem encodeCkbAddress_decodes {script : LockScript} {network : Network} {address : JsString}
    (h : encodeCkbAddress script network = .ok address) :
    ∃ decoded, decodeCkbAddress address = .ok ⟨decodedNetwork network, decoded⟩ ∧ SameValues decoded script := by
  obtain ⟨codeHash, args, byte, hashType, hcode, -, hargs, hbyte, hdecoded, hdecode⟩ := decodeCkbAddress_of_encode h
  refine ⟨_, hdecode, ?_, ?_, ?_⟩
  · rw [hexToBytes_bytesToHex, hcode]
  · rw [hdecoded.hashTypeByte_eq, hashTypeByte_of_hashTypeToByte hbyte]
  · rw [hexToBytes_bytesToHex, hargs]

/-- The steps of a wallet state that is returned. -/
theorem getWalletState_returns {fuel : Nat} {wasm : WasmExports} {publicKey : Bytes}
    {scriptConfig : DilithiumScriptConfig} {s s' : Session} {state : WalletState} :
    (getWalletState env config fuel wasm publicKey scriptConfig).Ends s (.ok state) s' ↔
      ∃ lock address summary minimum,
        buildLockScript wasm scriptConfig.codeHash scriptConfig.hashType (.uint8Array publicKey) = .ok lock ∧
        encodeCkbAddress lock scriptConfig.network = .ok address ∧
        (getBalanceSummary env config fuel lock).Ends s (.ok summary) s' ∧
        minimumCellCapacity lock (lit "0x") none = .ok minimum ∧
        state = ⟨address, lock, summary.totalCapacity, summary.liveCells, minimum,
          summary.liveCells > 0 && summary.totalCapacity ≥ minimum⟩ := by
  simp only [getWalletState, Action.bind_returns, Action.lift_ends, Action.pure_ends, Except.ok.injEq]
  constructor
  · rintro ⟨lock, _, ⟨hlock, rfl⟩, address, _, ⟨haddress, rfl⟩, summary, _, hsummary, minimum, _, ⟨hminimum, rfl⟩,
      rfl, rfl⟩
    exact ⟨lock, address, summary, minimum, hlock.symm, haddress.symm, hsummary, hminimum.symm, rfl⟩
  · rintro ⟨lock, address, summary, minimum, hlock, haddress, hsummary, hminimum, rfl⟩
    exact ⟨lock, s, ⟨hlock.symm, rfl⟩, address, s, ⟨haddress.symm, rfl⟩, summary, s', hsummary, minimum, s',
      ⟨hminimum.symm, rfl⟩, rfl, rfl⟩

/-- The lock of a public key needs 73 CKB. -/
theorem minimumCellCapacity_publicKey {wasm : WasmExports} {codeHash hashType : JsString} {publicKey : ByteLike}
    {lock : LockScript} {minimum : Int} (hlock : buildLockScript wasm codeHash hashType publicKey = .ok lock)
    (hminimum : minimumCellCapacity lock (lit "0x") none = .ok minimum) : minimum = 7300000000 := by
  obtain ⟨args, -, hargs, rfl⟩ := buildLockScript_eq_ok.1 hlock
  rw [minimumCellCapacity_eq hminimum, lockMinimum, hexSize_bytesToHex, hargs]
  rfl

/-- **The reported state of a wallet**, whatever happens to the store between the requests: the address decodes to the
lock of the public key, what stayed in the store is counted, nothing is counted that was not there, and
`funded` says whether a cell of the lock could be made from it. -/
theorem getWalletState_reports {fuel : Nat} {wasm : WasmExports} {publicKey : Bytes}
    {scriptConfig : DilithiumScriptConfig} {s s' : Session} {state : WalletState}
    (hlock : buildLockScript wasm scriptConfig.codeHash scriptConfig.hashType (.uint8Array publicKey) = .ok lock)
    (hanswers : Answers env.transport config lock 100 stores encode)
    (h : (getWalletState env config fuel wasm publicKey scriptConfig).Ends s (.ok state) s') :
    state.lock = lock ∧
      (∃ decoded, decodeCkbAddress state.address = .ok ⟨decodedNetwork scriptConfig.network, decoded⟩ ∧
        SameValues decoded lock) ∧
      (∀ stayed : List (κ × RpcIndexerCell), stayed.Nodup →
        (∀ e ∈ stayed, ∀ id, s.nextId < id → id ≤ s'.nextId → e ∈ (stores id).entries) →
        stayed.length ≤ state.liveCells ∧ (stayed.map entryCapacity).sum ≤ state.totalCapacity) ∧
      (∀ seen : List (κ × RpcIndexerCell),
        (∀ id, s.nextId < id → id ≤ s'.nextId → ∀ e ∈ (stores id).entries, e ∈ seen) →
        state.liveCells ≤ seen.length ∧ state.totalCapacity ≤ (seen.map entryCapacity).sum) ∧
      state.minimumCellCapacity = 7300000000 ∧
      (state.funded = true ↔ 0 < state.liveCells ∧ 7300000000 ≤ state.totalCapacity) := by
  obtain ⟨lock', address, summary, minimum, hlock', haddress, hsummary, hminimum, rfl⟩ := getWalletState_returns.1 h
  obtain rfl := Result.ok_unique hlock hlock'
  obtain rfl := minimumCellCapacity_publicKey hlock hminimum
  obtain ⟨-, entries, hcounted⟩ := getBalanceSummary_counted hanswers hsummary
  refine ⟨rfl, encodeCkbAddress_decodes haddress, fun stayed hnodup => hcounted.stayed_le hnodup,
    fun seen => hcounted.le_seen, rfl, ?_⟩
  simp

/-! ### A wallet with an indexer that changes -/

/-- Only the indexer answers. -/
def indexedNode (stores : Nat → Store Nat RpcIndexerCell) : Environment := timedEnvironment fun url id call =>
  match call with
  | .getCells params => numberedIndexer stores url id params
  | _ => .rejected (lit "fetch failed")

theorem indexedNode_answers (stores : Nat → Store Nat RpcIndexerCell) (config : RpcConfig) (lock : LockScript) :
    Answers (indexedNode stores).transport config lock 100 stores fun key => hexQuantity key :=
  numberedIndexer_answers stores config lock 100

/-- The first page has the cells 1 and 3, the second the cell 4. -/
theorem indexedNode_lists : Sdk.getCells (indexedNode changingStores).transport numberedConfig senderLock
    (.ofNat 100) 6 0 =
      some (.ok ⟨[1, 3, 4].map fun n => fromRpcIndexerCell (numberedCell n), some (hexQuantity 4), 3⟩) := by
  decide +kernel

theorem numberedCell_capacity (n : Nat) :
    hexToBigInt (fromRpcIndexerCell (numberedCell n)).output.capacity = .ok 8000000000 :=
  hexToBigInt_hexQuantity (by decide)

theorem senderLock_address : ∃ address, encodeCkbAddress senderLock .testnet = .ok address := by
  have hcode : hexToBytes senderLock.codeHash = .ok (hexValue senderLock.codeHash) ∧
      (hexValue senderLock.codeHash).length = codeHashBytes := by decide +kernel
  have hargs : hexToBytes senderLock.args = .ok (hexValue senderLock.args) := by decide +kernel
  have hbyte : hashTypeToByte senderLock.hashType = .ok 2 := by decide +kernel
  exact encodeCkbAddress_returns .testnet hcode.1 hcode.2 hargs hbyte

theorem indexedNode_state : ∃ state s', (getWalletState (indexedNode changingStores) numberedConfig 6 sampleWasm
    zeroPublicKey sampleTransfer.scriptConfig).Ends ⟨0, []⟩ (.ok state) s' := by
  obtain ⟨address, haddress⟩ := senderLock_address
  obtain ⟨s', hcells⟩ := CkbRpcClient.getCells_ends_of (s := ⟨0, []⟩) indexedNode_lists
  have hsum : reduceCapacity 0 ([1, 3, 4].map fun n => fromRpcIndexerCell (numberedCell n)) = .ok 24000000000 := by
    simp [reduceCapacity, numberedCell_capacity]
  have hsummary : (getBalanceSummary (indexedNode changingStores) numberedConfig 6 senderLock).Ends ⟨0, []⟩
      (.ok ⟨senderLock, 24000000000, 3⟩) s' := by
    rw [getBalanceSummary, Action.bind_returns]
    refine ⟨_, _, hcells, ?_⟩
    rw [Action.bind_returns]
    exact ⟨_, _, Action.lift_ends.2 ⟨hsum.symm, rfl⟩, Action.pure_ends.2 ⟨rfl, rfl⟩⟩
  have hminimum : minimumCellCapacity senderLock (lit "0x") none = .ok 7300000000 := by decide +kernel
  exact ⟨_, s', getWalletState_returns.2
    ⟨senderLock, address, _, _, senderLock_eq_buildLockScript, haddress, hsummary, hminimum, rfl⟩⟩

theorem getWalletState_reports_indexedNode : ∃ state s', (getWalletState (indexedNode changingStores) numberedConfig 6
    sampleWasm zeroPublicKey sampleTransfer.scriptConfig).Ends ⟨0, []⟩ (.ok state) s' ∧
      state.lock = senderLock ∧ (state.funded = true ↔ 0 < state.liveCells ∧ 7300000000 ≤ state.totalCapacity) := by
  obtain ⟨state, s', hends⟩ := indexedNode_state
  have hlock : buildLockScript sampleWasm sampleTransfer.scriptConfig.codeHash sampleTransfer.scriptConfig.hashType
      (.uint8Array zeroPublicKey) = .ok senderLock := senderLock_eq_buildLockScript
  have hreports := getWalletState_reports hlock (indexedNode_answers changingStores numberedConfig senderLock) hends
  exact ⟨state, s', hends, hreports.1, hreports.2.2.2.2.2⟩

end CkbDilithium.System
