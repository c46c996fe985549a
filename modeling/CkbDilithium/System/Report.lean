import CkbDilithium.System.Amounts
import CkbDilithium.System.Funding
import CkbDilithium.System.TransferCommand

/-!
# What `balance` prints

A successful run of `balance` ends with one text of JSON. It parses, and says what the indexer showed during the run:
the number and the sum of the cells of the wallet's lock, in shannons and in CKB, the address of that lock, and whether
a cell could be made of it. Diagnostics are added to an empty listing only.
-/

namespace CkbDilithium.System

open Sdk Sdk.Cli Js Pagination

/-! ### Members of printed objects -/

/-- A field of an object is found under its name, and one that is `undefined` is not. -/
theorem member?_members {fields : List (JsString × Option Json)} (hnodup : (fields.map Prod.fst).Nodup) {key : JsString}
    {value : Option Json} (h : (key, value) ∈ fields) : (Json.object (members fields)).member? key = value := by
  have hmember : ∀ found : Json, (key, found) ∈ members fields → some found = value := by
    intro found hfound
    obtain ⟨field, hfield, hvalue⟩ := List.mem_filterMap.1 hfound
    obtain ⟨found', hsome, hpair⟩ := Option.map_eq_some_iff.1 hvalue
    cases hpair
    have hsame : field = (field.1, value) := List.inj_on_of_nodup_map hnodup hfield h rfl
    rw [← hsome, hsame]
  rw [Json.member?]
  cases hfind : (members fields).reverse.find? fun member => member.1 == key with
  | some member =>
    have hkey : member.1 = key := by simpa using List.find?_some hfind
    have hmem : (key, member.2) ∈ members fields := by
      rw [← hkey]
      exact List.mem_reverse.1 (List.mem_of_find?_eq_some hfind)
    exact hmember member.2 hmem
  | none =>
    cases value with
    | none => rfl
    | some value =>
      have hmem : (key, value) ∈ members fields := List.mem_filterMap.2 ⟨_, h, rfl⟩
      have habsent := List.find?_eq_none.1 hfind (key, value) (List.mem_reverse.2 hmem)
      simp at habsent

/-- A printed object is plain when its fields are. -/
theorem plain_members {fields : List (JsString × Option Json)}
    (h : ∀ field ∈ fields, ∀ value, field.2 = some value → value.Plain) : (Json.object (members fields)).Plain := by
  refine .object fun member hmember => ?_
  obtain ⟨field, hfield, hvalue⟩ := List.mem_filterMap.1 hmember
  obtain ⟨value, hsome, rfl⟩ := Option.map_eq_some_iff.1 hvalue
  exact h field hfield value hsome

theorem plain_text {value : Json} {s : JsString} (h : text s = some value) : value.Plain := by
  cases h
  exact .string s

theorem plain_lockJson (lock : LockScript) : (lockJson lock).Plain := by
  refine plain_members fun field hfield value hvalue => ?_
  simp only [List.mem_cons, List.not_mem_nil, or_false] at hfield
  rcases hfield with rfl | rfl | rfl <;> exact plain_text hvalue

/-! ### The report -/

/-- What a report says of a lock with its cells. -/
structure BalanceReport (report : Json) (network : Network) (own : LockScript)
    (capacity : Int) (cells : Nat) : Prop where
  address : ∃ address decoded, report.member? (lit "address") = some (.string address) ∧
    decodeCkbAddress address = .ok ⟨decodedNetwork network, decoded⟩ ∧ SameValues decoded own
  lock : report.member? (lit "lock") = some (lockJson own)
  totalCapacity : report.member? (lit "totalCapacity") = some (.string (bigIntToString capacity))
  totalCapacityCkb : ∃ amount, report.member? (lit "totalCapacityCkb") = some (.string amount) ∧
    parseCkbAmount amount = .ok capacity
  liveCells : report.member? (lit "liveCells") = some (.number (.ofNat cells))
  funded : ∃ funded, report.member? (lit "funded") = some (.bool funded) ∧
    (funded = true ↔ 0 < cells ∧ 7300000000 ≤ capacity)
  diagnostics : (report.member? (lit "diagnostics")).isSome = true ↔ cells = 0

/-- The fields that `balance` prints. -/
def balanceReportFields (a : BalanceArgs) (state : WalletState) (diagnostics : Option Json) :
    List (JsString × Option Json) :=
  balanceFields a state ++ [
    (lit "minimumCellCapacity", text (bigIntToString state.minimumCellCapacity)),
    (lit "minimumCellCapacityCkb", text (formatCkb state.minimumCellCapacity)), (lit "funded", flag state.funded),
    (lit "hint", if state.liveCells = 0 then
      text (lit "No live cells were returned by the configured indexer. See diagnostics for indexer-vs-RPC guidance.")
      else none),
    (lit "diagnostics", diagnostics)]

theorem balanceReportFields_nodup (a : BalanceArgs) (state : WalletState) (diagnostics : Option Json) :
    ((balanceReportFields a state diagnostics).map Prod.fst).Nodup := by
  have hnames : (balanceReportFields a state diagnostics).map Prod.fst = [lit "network", lit "rpcUrl", lit "indexerUrl",
      lit "address", lit "lock", lit "totalCapacity", lit "totalCapacityCkb", lit "liveCells",
      lit "minimumCellCapacity", lit "minimumCellCapacityCkb", lit "funded", lit "hint", lit "diagnostics"] := rfl
  rw [hnames]
  decide +kernel

theorem balanceReport_member {a : BalanceArgs} {state : WalletState} {diagnostics : Option Json} {key : JsString}
    {value : Option Json} (h : (key, value) ∈ balanceReportFields a state diagnostics) :
    (Json.object (members (balanceReportFields a state diagnostics))).member? key = value :=
  member?_members (balanceReportFields_nodup a state diagnostics) h

variable {env : Environment} {wasm : WasmExports} {fuel : Nat} {a : BalanceArgs} {publicKey : Bytes}
  {config : DilithiumScriptConfig} {s s' : Session}

theorem nextId_le {α : Type} {x : Wallet α} (hx : EmitsOnly (fun _ => True) x) {r : Js α} (h : x.Ends s r s') :
    s.nextId ≤ s'.nextId := by
  obtain ⟨-, -, -, hle, -⟩ := hx _ _ _ h
  exact hle

theorem Waited.nextId_le {α : Type} {start : Int} {timeoutMs intervalMs : JsNumber} {ask : Wallet α}
    {accepts : α → Bool}
    {n : Nat} (hask : EmitsOnly (fun _ => True) ask)
    (h : Waited env start timeoutMs intervalMs ask accepts n s s') : s.nextId ≤ s'.nextId := by
  induction h with
  | zero s => exact le_rfl
  | succ asked _ _ _ ih => exact (System.nextId_le hask asked).trans ih

/-- With and without `--wait`, the state comes from one listing of the run. -/
theorem balanceState_returns {state : WalletState}
    (h : (balanceState env wasm fuel a publicKey config).Ends s (.ok state) s') :
    ∃ before after, (getWalletState env a.client fuel wasm publicKey config).Ends before (.ok state) after ∧
      s.nextId ≤ before.nextId ∧ after.nextId ≤ s'.nextId := by
  have hemits : EmitsOnly (fun _ => True) (getWalletState env a.client fuel wasm publicKey config) :=
    emitsOnly_getWalletState (fun _ _ => trivial) fuel
  rw [balanceState] at h
  split_ifs at h with hwait
  · obtain ⟨polled, s₁, hpolled, hpure⟩ := Action.bind_returns.1 h
    obtain ⟨hfound, rfl⟩ := Action.pure_ends.1 hpure
    cases hfound
    rcases waitForBalance_iff.1 hpolled with ⟨e, -, he, -⟩ | ⟨minCapacity, -, hpoll⟩
    · cases he
    · obtain ⟨n, -, before, hwaited, ⟨e, he, -⟩ | ⟨found, after, hasked, hround⟩⟩ := poll_ends.1 hpoll
      · cases he
      · rcases hround with ⟨-, hreturned, rfl⟩ | ⟨-, -, hthrown, -⟩
        · cases hreturned
          have hbefore := hwaited.nextId_le hemits
          exact ⟨before, after, hasked, hbefore, le_rfl⟩
        · cases hthrown
  · exact ⟨s, s', h, le_rfl, le_rfl⟩

/-- Diagnostics are printed for an empty listing, and read back. -/
theorem balanceDiagnostics_returns {state : WalletState} {diagnostics : Option Json}
    (h : (balanceDiagnostics env a state).Ends s (.ok diagnostics) s') :
    s.nextId ≤ s'.nextId ∧ (diagnostics.isSome = true ↔ state.liveCells = 0) ∧
      ∀ value, diagnostics = some value → value.Plain := by
  rw [balanceDiagnostics] at h
  split_ifs at h with hempty
  · obtain ⟨found, s₁, hfound, hpure⟩ := Action.bind_returns.1 h
    obtain ⟨hvalue, rfl⟩ := Action.pure_ends.1 hpure
    cases hvalue
    obtain ⟨inspection, s₂, hinspection, hpure⟩ := Action.bind_returns.1 hfound
    obtain ⟨hvalue, rfl⟩ := Action.pure_ends.1 hpure
    cases hvalue
    refine ⟨nextId_le (emitsOnly_getBalanceSourceInspection (fun _ => trivial) fun _ => trivial) hinspection,
      by simp [hempty], fun value hvalue => ?_⟩
    cases hvalue
    refine plain_members fun field hfield value hvalue => ?_
    simp only [List.mem_cons, List.not_mem_nil, or_false] at hfield
    rcases hfield with rfl | rfl | rfl | rfl | rfl | rfl | rfl | rfl
    · exact plain_text hvalue
    · obtain ⟨tip, -, htip⟩ := Option.bind_eq_some_iff.1 hvalue
      exact plain_text htip
    · obtain ⟨tip, -, htip⟩ := Option.bind_eq_some_iff.1 hvalue
      exact plain_text htip
    · obtain ⟨lag, -, hlag⟩ := Option.bind_eq_some_iff.1 hvalue
      exact plain_text hlag
    · cases hvalue
      exact .bool _
    · obtain ⟨error, -, herror⟩ := Option.bind_eq_some_iff.1 hvalue
      exact plain_text herror
    · exact plain_text hvalue
    · cases hvalue
      refine .array fun item hitem => ?_
      obtain ⟨line, -, rfl⟩ := List.mem_map.1 hitem
      exact .string line
  · obtain ⟨hvalue, rfl⟩ := Action.pure_ends.1 h
    cases hvalue
    exact ⟨le_rfl, by simp [hempty], by simp⟩

theorem plain_balanceReport {state : WalletState} {diagnostics : Option Json} (hcells : state.liveCells ≤ 2 ^ 53 - 1)
    (hdiagnostics : ∀ value, diagnostics = some value → value.Plain) :
    (Json.object (members (balanceReportFields a state diagnostics))).Plain := by
  refine plain_members fun field hfield value hvalue => ?_
  simp only [balanceReportFields, balanceFields, List.cons_append, List.nil_append, List.mem_cons, List.not_mem_nil,
    or_false] at hfield
  rcases hfield with rfl | rfl | rfl | rfl | rfl | rfl | rfl | rfl | rfl | rfl | rfl | rfl | rfl
  · exact plain_text hvalue
  · exact plain_text hvalue
  · exact plain_text hvalue
  · exact plain_text hvalue
  · cases hvalue
    exact plain_lockJson _
  · exact plain_text hvalue
  · exact plain_text hvalue
  · cases hvalue
    exact .number hcells
  · exact plain_text hvalue
  · exact plain_text hvalue
  · cases hvalue
    exact .bool _
  · split_ifs at hvalue
    exact plain_text hvalue
  · exact hdiagnostics value hvalue

/-- The members of the report of a state. -/
theorem balanceReport {before after : Session} {state : WalletState} {diagnostics : Option Json}
    (hnetwork : config.network = a.network)
    (hstate : (getWalletState env a.client fuel wasm publicKey config).Ends before (.ok state) after)
    (hcapacity : 0 ≤ state.totalCapacity) (hdiagnostics : diagnostics.isSome = true ↔ state.liveCells = 0) :
    BalanceReport (.object (members (balanceReportFields a state diagnostics))) a.network state.lock
      state.totalCapacity state.liveCells := by
  obtain ⟨lock, address, summary, minimum, hlock, haddress, -, hminimum, rfl⟩ := getWalletState_returns.1 hstate
  obtain rfl := minimumCellCapacity_publicKey hlock hminimum
  obtain ⟨decoded, hdecoded, hsame⟩ := encodeCkbAddress_decodes haddress
  rw [hnetwork] at hdecoded
  obtain ⟨v, hv⟩ := Int.eq_ofNat_of_zero_le hcapacity
  constructor
  · exact ⟨address, decoded, balanceReport_member (by simp [balanceReportFields, balanceFields, text]), hdecoded, hsame⟩
  · exact balanceReport_member (by simp [balanceReportFields, balanceFields])
  · exact balanceReport_member (by simp [balanceReportFields, balanceFields, text])
  · refine ⟨formatCkb summary.totalCapacity,
      balanceReport_member (by simp [balanceReportFields, balanceFields, text]), ?_⟩
    rw [show summary.totalCapacity = v from hv]
    exact parseCkbAmount_formatCkb_natCast v
  · exact balanceReport_member (by simp [balanceReportFields, balanceFields, count])
  · refine ⟨decide (0 < summary.liveCells) && decide (7300000000 ≤ summary.totalCapacity),
      balanceReport_member (by simp [balanceReportFields, flag]), ?_⟩
    simp
  · rw [balanceReport_member (List.mem_append_right _ (List.mem_of_getLast? rfl))]
    exact hdiagnostics

/-! ### The runs -/

variable {κ : Type} [LinearOrder κ] {encode : κ → JsString}

theorem Counted.total_nonneg {stores : Nat → Store κ RpcIndexerCell} {first last liveCells : Nat}
    {entries : List (κ × RpcIndexerCell)} {totalCapacity : Int}
    (h : Counted stores first last entries totalCapacity liveCells) : 0 ≤ totalCapacity := by
  rw [h.total]
  refine List.sum_nonneg fun v hv => ?_
  obtain ⟨e, -, rfl⟩ := List.mem_map.1 hv
  exact entryCapacity_nonneg e

theorem printJson_ends {value : Json} {r : Js Unit} : (printJson value).Ends s r s' ↔
    r = .ok () ∧ s' = { s with events := s.events ++ [.log (value.stringify (lit "  "))] } := by
  rw [printJson, consoleLog, act_ends]

/-- The steps of a run that returns. -/
theorem runBalance_returns {args : List JsString} : (runBalance env wasm fuel args).Ends s (.ok ()) s' ↔
    ∃ a keypair config state diagnostics s₁ s₂ s₃ s₄, parseBalanceArgs args = .ok a ∧
      (readKeypair env a.keyFile).Ends s (.ok keypair) s₁ ∧ (loadScriptConfig env a.network).Ends s₁ (.ok config) s₂ ∧
      (balanceState env wasm fuel a keypair.publicKey config).Ends s₂ (.ok state) s₃ ∧
      (balanceDiagnostics env a state).Ends s₃ (.ok diagnostics) s₄ ∧
      s' = { s₄ with events := s₄.events ++
        [.log ((Json.object (members (balanceReportFields a state diagnostics))).stringify (lit "  "))] } := by
  simp only [runBalance, Action.bind_returns, Action.lift_ends, printJson_ends]
  constructor
  · rintro ⟨a, _, ⟨hargs, rfl⟩, keypair, s₁, hkeypair, config, s₂, hconfig, state, s₃, hstate, diagnostics, s₄,
      hdiagnostics, -, rfl⟩
    exact ⟨a, keypair, config, state, diagnostics, s₁, s₂, s₃, s₄, hargs.symm, hkeypair, hconfig, hstate,
      hdiagnostics, rfl⟩
  · rintro ⟨a, keypair, config, state, diagnostics, s₁, s₂, s₃, s₄, hargs, hkeypair, hconfig, hstate, hdiagnostics, rfl⟩
    exact ⟨a, s, ⟨hargs.symm, rfl⟩, keypair, s₁, hkeypair, config, s₂, hconfig, state, s₃, hstate, diagnostics, s₄,
      hdiagnostics, trivial, rfl⟩

/-- **What `balance` prints** when it succeeds, with or without `--wait` and whatever happens to the store of the
indexer: its last output is the report of a listing of this run, for the lock of the public key in the key file. -/
theorem run_balance_reports {wasmModule : WasmModule} {args : List JsString}
    {stores : RpcConfig → LockScript → Nat → Store κ RpcIndexerCell}
    (hanswers : ∀ client lock, Answers env.transport client lock 100 (stores client lock) encode)
    (h : (run env wasmModule fuel (lit "balance" :: args)).Ends s (.ok 0) s') :
    ∃ a keypair config lock first last entries totalCapacity liveCells line, parseBalanceArgs args = .ok a ∧
      (∃ s₁, (readKeypair env a.keyFile).Ends s (.ok keypair) s₁ ∧
        ∃ s₂, (loadScriptConfig env a.network).Ends s₁ (.ok config) s₂) ∧
      walletLock wasmModule.toWasmExports config keypair.publicKey = .ok lock ∧ s.nextId ≤ first ∧ last ≤ s'.nextId ∧
      Counted (stores a.client lock) first last entries totalCapacity liveCells ∧
      s'.events.getLast? = some (.log line) ∧
      (liveCells ≤ 2 ^ 53 - 1 → ∃ report, Json.parse line = some report ∧
        BalanceReport report a.network lock totalCapacity liveCells) := by
  rw [run, main, if_neg (by decide), if_neg (by decide), if_pos rfl] at h
  rcases exitCode_ends.1 h with ⟨-, hrun⟩ | ⟨e, s₁, hcode, -⟩
  · obtain ⟨a, keypair, config, state, diagnostics, s₁, s₂, s₃, s₄, hargs, hkeypair, hconfig, hstate,
      hdiagnostics, rfl⟩ :=
      runBalance_returns.1 hrun
    obtain ⟨before, after, hlisted, hbefore, hafter⟩ := balanceState_returns hstate
    obtain ⟨hlast, hempty, hplain⟩ := balanceDiagnostics_returns hdiagnostics
    have hread : s.nextId ≤ s₁.nextId := nextId_le (emitsOnly_readKeypair trivial) hkeypair
    have hload : s₁.nextId ≤ s₂.nextId := nextId_le (emitsOnly_loadScriptConfig trivial) hconfig
    obtain ⟨lock, address, summary, minimum, hlock, -, -, -, hvalues⟩ := getWalletState_returns.1 hlisted
    obtain ⟨entries, hcounted⟩ := getWalletState_counted hlock (hanswers a.client lock) hlisted
    have hreport := balanceReport (loadScriptConfig_network hconfig) hlisted hcounted.total_nonneg hempty
    rw [show state.lock = lock by rw [hvalues]] at hreport
    refine ⟨a, keypair, config, lock, before.nextId, after.nextId, entries, _, _, _, hargs,
      ⟨s₁, hkeypair, s₂, hconfig⟩, hlock, by omega, hafter.trans hlast, hcounted, List.getLast?_concat,
      fun hcells => ?_⟩
    refine ⟨_, ?_, hreport⟩
    rw [← List.append_nil (Json.stringify (lit "  ") _)]
    exact Json.parse_stringify (plain_balanceReport hcells hplain) (by decide) (by decide)
  · cases hcode

/-! ### A balance of the command line -/

/-- The files of the sample transfer, and an indexer that changes. -/
def balanceMachine : Environment := { indexedNode changingStores with readFile := fundedMachine.readFile }

def balanceArgv : List JsString := [lit "--key-file", lit "key.json", lit "--rpc-url", lit "http://127.0.0.1:8114",
    lit "--network", lit "testnet"]

def balanceArgs : BalanceArgs where
  keyFile := lit "key.json"
  rpcUrl := lit "http://127.0.0.1:8114"
  indexerUrl := lit "http://127.0.0.1:8114"
  network := .testnet
  wait := false
  options := { minCapacity := none, timeoutMs := none, intervalMs := none }

theorem balanceArgs_parsed : parseBalanceArgs balanceArgv = .ok balanceArgs := rfl

theorem balanceMachine_lists : Sdk.getCells balanceMachine.transport balanceArgs.client senderLock (.ofNat 100) 6 0 =
    some (.ok ⟨[1, 3, 4].map fun n => fromRpcIndexerCell (numberedCell n), some (hexQuantity 4), 3⟩) := by
  decide +kernel

theorem balanceMachine_answers (client : RpcConfig) (lock : LockScript) :
    Answers balanceMachine.transport client lock 100 changingStores fun key => hexQuantity key :=
  indexedNode_answers changingStores client lock

theorem balanceMachine_state {s : Session} (hid : s.nextId = 0) : ∃ state s', state.liveCells = 3 ∧
    (getWalletState balanceMachine balanceArgs.client 6 sampleWasm zeroPublicKey sampleTransfer.scriptConfig).Ends s
      (.ok state) s' := by
  obtain ⟨address, haddress⟩ := senderLock_address
  have hlists := balanceMachine_lists
  rw [← hid] at hlists
  obtain ⟨s', hcells⟩ := CkbRpcClient.getCells_ends_of hlists
  have hsum : reduceCapacity 0 ([1, 3, 4].map fun n => fromRpcIndexerCell (numberedCell n)) = .ok 24000000000 := by
    simp [reduceCapacity, numberedCell_capacity]
  have hsummary : (getBalanceSummary balanceMachine balanceArgs.client 6 senderLock).Ends s
      (.ok ⟨senderLock, 24000000000, 3⟩) s' :=
    hcells.bind (Action.Ends.bind (Action.lift_ends.2 ⟨hsum.symm, rfl⟩) rfl)
  have hminimum : minimumCellCapacity senderLock (lit "0x") none = .ok 7300000000 := by decide +kernel
  exact ⟨_, s', rfl, getWalletState_returns.2
    ⟨senderLock, address, _, _, senderLock_eq_buildLockScript, haddress, hsummary, hminimum, rfl⟩⟩

theorem balanceMachine_returns : ∃ s',
    (run balanceMachine zeroModule 6 (lit "balance" :: balanceArgv)).Ends ⟨0, []⟩ (.ok 0) s' := by
  obtain ⟨_, hkeypair, rfl⟩ := fundedMachine_keypair
  obtain ⟨s₂, hconfig, hid⟩ := fundedMachine_config
  obtain ⟨state, s₃, hcells, hstate⟩ := balanceMachine_state hid
  have hkeypair : (readKeypair balanceMachine balanceArgs.keyFile).Ends ⟨0, []⟩ (.ok ⟨zeroPublicKey, zeroSecretKey⟩)
      ⟨0, [.readFile (lit "key.json")]⟩ := hkeypair
  have hconfig : (loadScriptConfig balanceMachine balanceArgs.network).Ends ⟨0, [.readFile (lit "key.json")]⟩
      (.ok sampleTransfer.scriptConfig) s₂ := hconfig
  have hbalance :
      (balanceState balanceMachine sampleWasm 6 balanceArgs zeroPublicKey sampleTransfer.scriptConfig).Ends s₂
      (.ok state) s₃ := by
    rw [balanceState, if_neg (by decide)]
    exact hstate
  have hdiagnostics : (balanceDiagnostics balanceMachine balanceArgs state).Ends s₃ (.ok none) s₃ := by
    rw [balanceDiagnostics, if_neg (by omega)]
    exact Action.pure_ends.2 ⟨rfl, rfl⟩
  have hrun := runBalance_returns.2 ⟨balanceArgs, ⟨zeroPublicKey, zeroSecretKey⟩, _, state, none, _, s₂, s₃, s₃,
    balanceArgs_parsed, hkeypair, hconfig, hbalance, hdiagnostics, rfl⟩
  exact ⟨_, exitCode_ends.2 (Or.inl ⟨rfl, hrun⟩)⟩

theorem run_balance_reports_balanceMachine : ∃ s' line report lock totalCapacity liveCells,
    (run balanceMachine zeroModule 6 (lit "balance" :: balanceArgv)).Ends ⟨0, []⟩ (.ok 0) s' ∧
      s'.events.getLast? = some (.log line) ∧ Json.parse line = some report ∧
      BalanceReport report .testnet lock totalCapacity liveCells := by
  obtain ⟨s', hrun⟩ := balanceMachine_returns
  obtain ⟨a, _, _, lock, _, _, _, totalCapacity, liveCells, line, hargs, -, -, -, -, hcounted, hlast, hreport⟩ :=
    run_balance_reports balanceMachine_answers hrun
  obtain rfl := Result.ok_unique hargs balanceArgs_parsed
  have hseen : ∀ id, ∀ e ∈ (changingStores id).entries,
      e ∈ (changingStores 0).entries ++ (changingStores 2).entries := by
    intro id e he
    rw [changingStores] at he
    split_ifs at he
    · exact List.mem_append_left _ he
    · exact List.mem_append_right _ he
  have hle := (hcounted.le_seen fun id _ _ => hseen id).1
  have hfew : ((changingStores 0).entries ++ (changingStores 2).entries).length = 5 := rfl
  obtain ⟨report, hparse, hreport⟩ := hreport (by omega)
  exact ⟨s', line, report, lock, totalCapacity, liveCells, hrun, hlast, hparse, hreport⟩

end CkbDilithium.System
