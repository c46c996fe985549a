import CkbDilithium.Sdk.Cli

/-!
# What a command may do

Every event of a run is permitted by its command line (`Permitted`): which endpoints and files it may touch, which
methods it may call there, and when it may draw random bytes or wait. A transaction is handed to a node only by a
transfer that is no dry run, and only key generation writes a file. The requests of a run are numbered without a
gap.
-/

namespace CkbDilithium.System

open Sdk Sdk.Cli Js

/-! ### The permissions -/

/-- The endpoint is the one of `--rpc-url`. -/
def ToNode (args : List JsString) (url : JsString) : Prop := optionalOption args (lit "--rpc-url") = some url

/-- The endpoint is the one of `--indexer-url`, or of `--rpc-url` when there is none. -/
def ToIndexer (args : List JsString) (url : JsString) : Prop :=
  (optionalOption args (lit "--indexer-url")).or (optionalOption args (lit "--rpc-url")) = some url

/-- A transfer that is no dry run. -/
def Broadcasts (command : JsString) (args : List JsString) : Prop :=
  command = lit "transfer" ∧ hasFlag args (lit "--dry-run") = false

/-- The command polls. -/
def MayWait (command : JsString) (args : List JsString) : Prop :=
  command = lit "wait" ∨ command = lit "balance" ∧ hasFlag args (lit "--wait") = true ∨
    Broadcasts command args ∧ hasFlag args (lit "--wait") = true

/-- What the command line permits. -/
def Permitted (env : Environment) (command : JsString) (args : List JsString) : Event → Prop
  | .request url _ (.getCells _) =>
    (command = lit "balance" ∨ command = lit "wait" ∨ command = lit "transfer") ∧ ToIndexer args url
  | .request url _ .getTipHeader => command = lit "balance" ∧ ToNode args url
  | .request url _ .getIndexerTip => command = lit "balance" ∧ ToIndexer args url
  | .request url _ (.getLiveCell _ _) => command = lit "check-outpoint" ∧ ToNode args url
  | .request url _ (.sendTransaction _ _) => Broadcasts command args ∧ ToNode args url
  | .request url _ (.getTransaction _) =>
    Broadcasts command args ∧ hasFlag args (lit "--wait") = true ∧ ToNode args url
  | .clock _ => MayWait command args
  | .sleep _ => MayWait command args
  | .random size => size = 32 ∧ (command = lit "keygen" ∨ Broadcasts command args)
  | .readFile path => command ≠ lit "keygen" ∧
    (path = deploymentPath env ∨ optionalOption args (lit "--key-file") = some path)
  | .mkdir path => command = lit "keygen" ∧ ∃ out, optionalOption args (lit "--out") = some out ∧ path = dirname out
  | .writeFile path content => command = lit "keygen" ∧ optionalOption args (lit "--out") = some path ∧
    ∃ keypair, content = keyFileContent keypair
  | .log _ => True
  | .logError _ => True

/-! ### The options -/

theorem requireOption_eq_ok {args : List JsString} {name value : JsString} :
    requireOption args name = .ok value ↔ optionalOption args name = some value ∧ value ≠ [] := by
  rw [requireOption]
  cases hoption : optionalOption args name with
  | none => simp
  | some value' =>
    by_cases hempty : value' = []
    · subst hempty
      simp only [if_true, Option.some.injEq]
      constructor
      · intro h
        cases h
      · rintro ⟨rfl, hne⟩
        exact absurd rfl hne
    · simp only [if_neg hempty, Result.pure_eq_ok, Option.some.injEq]
      constructor
      · rintro rfl
        exact ⟨rfl, hempty⟩
      · rintro ⟨rfl, -⟩
        rfl

theorem parseNetwork_eq_ok {value : JsString} {network : Network} (h : parseNetwork value = .ok network) :
    value = networkName network := by
  unfold parseNetwork at h
  split_ifs at h with hdevnet htestnet hmainnet
  · cases h
    exact hdevnet
  · cases h
    exact htestnet
  · cases h
    exact hmainnet
  · cases h

/-- What the arguments of a transfer are read from. -/
structure TransferOptions (args : List JsString) (a : TransferArgs) : Prop where
  keyFile : optionalOption args (lit "--key-file") = some a.keyFile
  node : ToNode args a.rpcUrl
  indexer : ToIndexer args a.indexerUrl
  network : optionalOption args (lit "--network") = some (networkName a.network)
  toAddress : optionalOption args (lit "--to") = some a.toAddress
  amountCkb : optionalOption args (lit "--amount-ckb") = some a.amountCkb
  wait : a.wait = hasFlag args (lit "--wait")
  dryRun : a.dryRun = hasFlag args (lit "--dry-run")
  feeRate : a.feeRate = optionalOption args (lit "--fee-rate")

theorem parseTransferArgs_eq_ok {args : List JsString} {a : TransferArgs} (h : parseTransferArgs args = .ok a) :
    TransferOptions args a := by
  simp only [parseTransferArgs, Result.bind_eq_ok, Result.pure_eq_ok, requireOption_eq_ok] at h
  obtain ⟨keyFile, ⟨hkey, -⟩, rpcUrl, ⟨hrpc, -⟩, name, ⟨hname, -⟩, network, hnetwork, toAddress, ⟨hto, -⟩, amount,
    ⟨hamount, -⟩, timeout, -, interval, -, rfl⟩ := h
  refine ⟨hkey, hrpc, ?_, ?_, hto, hamount, rfl, rfl, rfl⟩
  · rw [ToIndexer, hrpc]
    cases optionalOption args (lit "--indexer-url") with
    | none => rfl
    | some indexer => rfl
  · rw [hname, parseNetwork_eq_ok hnetwork]

theorem parseBalanceArgs_eq_ok {args : List JsString} {a : BalanceArgs} (h : parseBalanceArgs args = .ok a) :
    optionalOption args (lit "--key-file") = some a.keyFile ∧ ToNode args a.rpcUrl ∧ ToIndexer args a.indexerUrl ∧
      a.wait = hasFlag args (lit "--wait") := by
  simp only [parseBalanceArgs, Result.bind_eq_ok, Result.pure_eq_ok, requireOption_eq_ok] at h
  obtain ⟨keyFile, ⟨hkey, -⟩, rpcUrl, ⟨hrpc, -⟩, _, -, network, -, minCapacity, -, timeout, -, interval, -, rfl⟩ := h
  refine ⟨hkey, hrpc, ?_, rfl⟩
  rw [ToIndexer, hrpc]
  cases optionalOption args (lit "--indexer-url") with
  | none => rfl
  | some indexer => rfl

/-! ### The parts of the commands -/

section

variable {p : Event → Prop} {env : Environment}

theorem emitsOnly_readKeypair {filePath : JsString} (h : p (.readFile filePath)) :
    EmitsOnly p (readKeypair env filePath) := by
  refine Action.Keeps.bind ?_ fun _ => .lift _
  exact Action.Keeps.catching ((emitsOnly_act rfl h).bind fun _ => .lift _) fun _ => .lift _

theorem emitsOnly_loadScriptConfig {network : Network} (h : p (.readFile (deploymentPath env))) :
    EmitsOnly p (loadScriptConfig env network) :=
  (emitsOnly_act rfl h).bind fun _ => (Action.Keeps.lift _).bind fun _ => .lift _

theorem emitsOnly_consoleLog {line : JsString} (h : ∀ line, p (.log line)) : EmitsOnly p (consoleLog line) :=
  emitsOnly_act rfl (h line)

theorem emitsOnly_printJson {value : Json} (h : ∀ line, p (.log line)) : EmitsOnly p (printJson value) :=
  emitsOnly_consoleLog h

theorem emitsOnly_poll {α : Type} {fuel : Nat} {start : Int} {timeoutMs intervalMs : JsNumber} {ask : Wallet α}
    {accepts : α → Bool} {timeoutError : Polled α → JsError} (hask : EmitsOnly p ask) (hclock : ∀ now, p (.clock now))
    (hsleep : ∀ delay, p (.sleep delay)) :
    EmitsOnly p (poll env fuel start timeoutMs intervalMs ask accepts timeoutError) := by
  refine .loop (fun _ => hask.bind fun _ => ?_) fuel 0
  split_ifs
  · exact (emitsOnly_dateNow hclock).bind fun _ => .pure _
  · refine (emitsOnly_dateNow hclock).bind fun _ => ?_
    split_ifs
    · exact (emitsOnly_dateNow hclock).bind fun _ => .lift _
    · exact (emitsOnly_act rfl (hsleep _)).bind fun _ => .pure _

theorem emitsOnly_getBalanceSummary {config : RpcConfig} {lock : LockScript}
    (h : ∀ id params, p (.request config.endpoint id (.getCells params))) (fuel : Nat) :
    EmitsOnly p (getBalanceSummary env config fuel lock) :=
  (CkbRpcClient.emitsOnly_getCells h fuel).bind fun _ => (Action.Keeps.lift _).bind fun _ => .pure _

theorem emitsOnly_getWalletState {config : RpcConfig} {wasm : WasmExports} {publicKey : Bytes}
    {scriptConfig : DilithiumScriptConfig} (h : ∀ id params, p (.request config.endpoint id (.getCells params)))
    (fuel : Nat) : EmitsOnly p (getWalletState env config fuel wasm publicKey scriptConfig) :=
  (Action.Keeps.lift _).bind fun _ => (Action.Keeps.lift _).bind fun _ =>
    (emitsOnly_getBalanceSummary h fuel).bind fun _ => (Action.Keeps.lift _).bind fun _ => .pure _

theorem emitsOnly_waitForBalance {config : RpcConfig} {wasm : WasmExports} {publicKey : Bytes}
    {scriptConfig : DilithiumScriptConfig} {options : WaitForBalanceOptions}
    (h : ∀ id params, p (.request config.endpoint id (.getCells params))) (hclock : ∀ now, p (.clock now))
    (hsleep : ∀ delay, p (.sleep delay)) (fuel : Nat) :
    EmitsOnly p (waitForBalance env config fuel wasm publicKey scriptConfig options) :=
  (emitsOnly_dateNow hclock).bind fun _ => (Action.Keeps.lift _).bind fun _ =>
    emitsOnly_poll (emitsOnly_getWalletState h fuel) hclock hsleep

theorem emitsOnly_waitForTransactionConfirmation {config : RpcConfig}
    {options : WaitForTransactionConfirmationOptions}
    (h : ∀ id, p (.request config.rpcUrl id (.getTransaction options.txHash))) (hclock : ∀ now, p (.clock now))
    (hsleep : ∀ delay, p (.sleep delay)) (fuel : Nat) :
    EmitsOnly p (waitForTransactionConfirmation env config fuel options) :=
  (emitsOnly_dateNow hclock).bind fun _ => emitsOnly_poll (CkbRpcClient.emitsOnly_request h) hclock hsleep

theorem emitsOnly_getBalanceSourceInspection {config : RpcConfig}
    (hnode : ∀ id, p (.request config.rpcUrl id .getTipHeader))
    (hindexer : ∀ id, p (.request config.endpoint id .getIndexerTip)) :
    EmitsOnly p (getBalanceSourceInspection env config) := by
  refine Action.Keeps.bind ?_ fun rpcTip => Action.Keeps.catching ?_ fun _ => .pure _
  · exact Action.Keeps.catching (((CkbRpcClient.emitsOnly_request hnode).bind fun _ => .lift _).bind
      fun _ => .pure _) fun _ => .pure _
  · refine ((CkbRpcClient.emitsOnly_indexerRequest hindexer).bind fun _ => .lift _).bind fun indexerTip => ?_
    cases rpcTip with
    | none => exact .pure _
    | some rpcTip => exact (Action.Keeps.lift _).bind fun _ => .pure _

theorem emitsOnly_prepareTransfer {wasm : WasmExports} {fuel : Nat} {a : TransferArgs}
    (hkey : p (.readFile a.keyFile)) (hdeployment : p (.readFile (deploymentPath env)))
    (hcells : ∀ id params, p (.request a.client.endpoint id (.getCells params))) :
    EmitsOnly p (prepareTransfer env wasm fuel a) :=
  (emitsOnly_readKeypair hkey).bind fun _ => (emitsOnly_loadScriptConfig hdeployment).bind fun _ =>
    (Action.Keeps.lift _).bind fun _ => (Action.Keeps.lift _).bind fun _ =>
    (Action.Keeps.lift _).bind fun _ => (CkbRpcClient.emitsOnly_getCells hcells fuel).bind fun _ =>
    (Action.Keeps.lift _).bind fun _ => (Action.Keeps.lift _).bind fun _ =>
    (Action.Keeps.lift _).bind fun _ => .pure _

theorem emitsOnly_confirmTransfer {fuel : Nat} {a : TransferArgs} {txHash : JsString}
    (h : ∀ id, p (.request a.rpcUrl id (.getTransaction txHash))) (hclock : ∀ now, p (.clock now))
    (hsleep : ∀ delay, p (.sleep delay)) : EmitsOnly p (confirmTransfer env fuel a txHash) := by
  refine Action.Keeps.catching ?_ fun _ => ?_
  · exact (emitsOnly_waitForTransactionConfirmation h hclock hsleep fuel).bind fun _ => .pure _
  · split
    · exact .pure _
    · exact .lift _

end

/-! ### The commands -/

section

variable {env : Environment} {args : List JsString}

theorem emitsOnly_runKeygen (wasm : WasmModule) (args : List JsString) :
    EmitsOnly (Permitted env (lit "keygen") args) (runKeygen env wasm args) := by
  refine .lift_bind fun out hout => ?_
  have hout := (requireOption_eq_ok.1 hout).1
  refine ((emitsOnly_act rfl ⟨rfl, Or.inl rfl⟩).bind fun _ => .lift _).bind fun keypair => ?_
  refine (emitsOnly_act rfl ⟨rfl, out, hout, rfl⟩).bind fun _ => ?_
  refine (emitsOnly_act rfl ⟨rfl, hout, keypair, rfl⟩).bind fun _ => ?_
  refine (emitsOnly_consoleLog fun _ => trivial).bind fun _ => ?_
  split
  · exact .pure _
  · split_ifs
    · exact .pure _
    · exact (emitsOnly_consoleLog fun _ => trivial).bind fun _ => emitsOnly_consoleLog fun _ => trivial

theorem emitsOnly_runAddress (wasm : WasmExports) (args : List JsString) :
    EmitsOnly (Permitted env (lit "address") args) (runAddress env wasm args) := by
  refine .lift_bind fun keyFile hkey => .lift_bind fun network _ => ?_
  have hkey := (requireOption_eq_ok.1 hkey).1
  refine (emitsOnly_readKeypair ⟨by decide, Or.inr hkey⟩).bind fun _ => ?_
  refine (emitsOnly_loadScriptConfig ⟨by decide, Or.inl rfl⟩).bind fun _ => ?_
  exact (Action.Keeps.lift _).bind fun _ => (Action.Keeps.lift _).bind fun _ => emitsOnly_printJson fun _ => trivial

theorem emitsOnly_runBalance (wasm : WasmExports) (fuel : Nat) (args : List JsString) :
    EmitsOnly (Permitted env (lit "balance") args) (runBalance env wasm fuel args) := by
  refine .lift_bind fun a ha => ?_
  obtain ⟨hkey, hnode, hindexer, hwait⟩ := parseBalanceArgs_eq_ok ha
  refine (emitsOnly_readKeypair ⟨by decide, Or.inr hkey⟩).bind fun keypair => ?_
  refine (emitsOnly_loadScriptConfig ⟨by decide, Or.inl rfl⟩).bind fun config => ?_
  have hcells : ∀ id params, Permitted env (lit "balance") args (.request a.indexerUrl id (.getCells params)) :=
    fun _ _ => ⟨Or.inl rfl, hindexer⟩
  have hstate : EmitsOnly (Permitted env (lit "balance") args)
      (balanceState env wasm fuel a keypair.publicKey config) := by
    unfold balanceState
    split_ifs with hflag
    · have hmay : MayWait (lit "balance") args := Or.inr (Or.inl ⟨rfl, hwait.symm.trans hflag⟩)
      exact (emitsOnly_waitForBalance hcells (fun _ => hmay) (fun _ => hmay) fuel).bind fun _ => .pure _
    · exact emitsOnly_getWalletState hcells fuel
  have hdiagnostics : ∀ state, EmitsOnly (Permitted env (lit "balance") args) (balanceDiagnostics env a state) := by
    intro state
    unfold balanceDiagnostics
    split_ifs
    · exact ((emitsOnly_getBalanceSourceInspection (fun _ => ⟨rfl, hnode⟩) fun _ => ⟨rfl, hindexer⟩).bind
        fun _ => .pure _).bind fun _ => .pure _
    · exact .pure _
  exact hstate.bind fun state => (hdiagnostics state).bind fun _ => emitsOnly_printJson fun _ => trivial

theorem emitsOnly_runWait (wasm : WasmExports) (fuel : Nat) (args : List JsString) :
    EmitsOnly (Permitted env (lit "wait") args) (runWait env wasm fuel args) := by
  refine .lift_bind fun a ha => ?_
  obtain ⟨hkey, -, hindexer, -⟩ := parseBalanceArgs_eq_ok ha
  refine (emitsOnly_readKeypair ⟨by decide, Or.inr hkey⟩).bind fun _ => ?_
  refine (emitsOnly_loadScriptConfig ⟨by decide, Or.inl rfl⟩).bind fun _ => ?_
  refine Action.Keeps.bind ?_ fun _ => emitsOnly_printJson fun _ => trivial
  exact emitsOnly_waitForBalance (fun _ _ => ⟨Or.inr (Or.inl rfl), hindexer⟩) (fun _ => Or.inl rfl)
    (fun _ => Or.inl rfl) fuel

theorem emitsOnly_runCheckOutpoint (wasm : WasmExports) (args : List JsString) :
    EmitsOnly (Permitted env (lit "check-outpoint") args) (runCheckOutpoint env wasm args) := by
  refine .lift_bind fun keyFile hkey => .lift_bind fun rpcUrl hrpc => .lift_bind fun network _ => ?_
  refine .lift_bind fun txHash _ => .lift_bind fun index _ => ?_
  have hkey := (requireOption_eq_ok.1 hkey).1
  have hrpc := (requireOption_eq_ok.1 hrpc).1
  refine (emitsOnly_readKeypair ⟨by decide, Or.inr hkey⟩).bind fun _ => ?_
  refine (emitsOnly_loadScriptConfig ⟨by decide, Or.inl rfl⟩).bind fun _ => ?_
  refine (Action.Keeps.lift _).bind fun _ => (Action.Keeps.lift _).bind fun expectedLock => ?_
  refine Action.Keeps.bind ?_ fun inspection => ?_
  · exact ((CkbRpcClient.emitsOnly_request fun _ => ⟨rfl, hrpc⟩).bind fun _ => .lift _).bind fun _ => .pure _
  · split
    · exact (Action.Keeps.lift _).bind fun _ => emitsOnly_printJson fun _ => trivial
    · exact (Action.Keeps.pure _).bind fun _ => emitsOnly_printJson fun _ => trivial

theorem emitsOnly_runTransfer (wasm : WasmExports) (fuel : Nat) (args : List JsString) :
    EmitsOnly (Permitted env (lit "transfer") args) (runTransfer env wasm fuel args) := by
  refine .lift_bind fun a ha => ?_
  obtain ⟨hkey, hnode, hindexer, -, -, -, hwait, hdry, -⟩ := parseTransferArgs_eq_ok ha
  refine (emitsOnly_prepareTransfer ⟨by decide, Or.inr hkey⟩ ⟨by decide, Or.inl rfl⟩
    fun _ _ => ⟨Or.inr (Or.inr rfl), hindexer⟩).bind fun prepared => ?_
  split_ifs with hflag
  · exact emitsOnly_printJson fun _ => trivial
  · have hbroadcasts : Broadcasts (lit "transfer") args := ⟨rfl, hdry.symm.trans (Bool.eq_false_iff.2 hflag)⟩
    refine Action.Keeps.bind ?_ fun _ => emitsOnly_printJson fun _ => trivial
    refine (Action.Keeps.lift _).bind fun _ => (emitsOnly_act rfl ⟨rfl, Or.inr hbroadcasts⟩).bind fun _ =>
      (Action.Keeps.lift _).bind fun signed => ?_
    refine (CkbRpcClient.emitsOnly_request fun _ => ⟨hbroadcasts, hnode⟩).bind fun txHash => ?_
    split_ifs with hpoll
    · have hpoll := hwait.symm.trans hpoll
      have hmay : MayWait (lit "transfer") args := Or.inr (Or.inr ⟨hbroadcasts, hpoll⟩)
      exact (emitsOnly_confirmTransfer (fun _ => ⟨hbroadcasts, hpoll, hnode⟩) (fun _ => hmay)
        fun _ => hmay).bind fun _ => .pure _
    · exact .pure _

/-- The exit code of a command: `0` when it returns, and `1` when it throws, after the message is printed. -/
theorem exitCode_ends {command : Wallet Unit} {s s' : Session} {r : Js Nat} :
    (Action.catching (do command; pure 0) fun error => do consoleError (renderError error); pure 1).Ends s r s' ↔
      r = .ok 0 ∧ command.Ends s (.ok ()) s' ∨
      ∃ e s₁, r = .ok 1 ∧ command.Ends s (.error e) s₁ ∧
        s' = { s₁ with events := s₁.events ++ [.logError (renderError e)] } := by
  rw [Action.catching_ends]
  constructor
  · rintro (⟨code, rfl, hreturns⟩ | ⟨e, s₁, hthrows, hhandled⟩)
    · obtain ⟨_, s₁, hcommand, hpure⟩ := Action.bind_returns.1 hreturns
      obtain ⟨hcode, rfl⟩ := Action.pure_ends.1 hpure
      exact Or.inl ⟨hcode, hcommand⟩
    · rcases Action.bind_ends.1 hthrows with ⟨e', he, hcommand⟩ | ⟨_, s₂, -, hpure⟩
      · cases he
        cases hhandled
        exact Or.inr ⟨e, s₁, rfl, hcommand, rfl⟩
      · cases hpure
  · rintro (⟨rfl, hcommand⟩ | ⟨e, s₁, rfl, hcommand, rfl⟩)
    · exact Or.inl ⟨0, rfl, hcommand.bind rfl⟩
    · exact Or.inr ⟨e, s₁, Action.bind_ends.2 (Or.inl ⟨e, rfl, hcommand⟩), rfl⟩

theorem emitsOnly_run (env : Environment) (wasm : WasmModule) (fuel : Nat) (argv : List JsString) :
    EmitsOnly (Permitted env (argv.headD []) argv.tail) (run env wasm fuel argv) := by
  refine Action.Keeps.catching ?_ fun error => ?_
  · cases argv with
    | nil => exact (emitsOnly_consoleLog fun _ => trivial).bind fun _ => .pure _
    | cons command args =>
      simp only [main]
      split_ifs with hkeygen haddress hbalance hcheck hwait htransfer
      · subst hkeygen
        exact (emitsOnly_runKeygen wasm args).bind fun _ => .pure _
      · subst haddress
        exact (emitsOnly_runAddress _ args).bind fun _ => .pure _
      · subst hbalance
        exact (emitsOnly_runBalance _ fuel args).bind fun _ => .pure _
      · subst hcheck
        exact (emitsOnly_runCheckOutpoint _ args).bind fun _ => .pure _
      · subst hwait
        exact (emitsOnly_runWait _ fuel args).bind fun _ => .pure _
      · subst htransfer
        exact (emitsOnly_runTransfer _ fuel args).bind fun _ => .pure _
      · exact (emitsOnly_consoleLog fun _ => trivial).bind fun _ => .pure _
      · exact (emitsOnly_consoleLog fun _ => trivial).bind fun _ => .pure _
  · exact (emitsOnly_act rfl trivial).bind fun _ => .pure _

/-- Commands that are run one after the other, each a process with a client of its own, and the events before and
after. -/
inductive Commands (env : Environment) (wasm : WasmModule) (fuel : Nat) :
    List (List JsString) → List Event → List Event → Prop
  | nil (events : List Event) : Commands env wasm fuel [] events events
  | cons {argv : List JsString} {argvs : List (List JsString)} {events events' : List Event} {r : Js Nat} {s : Session}
      (runs : (run env wasm fuel argv).Ends ⟨0, events⟩ r s) (rest : Commands env wasm fuel argvs s.events events') :
      Commands env wasm fuel (argv :: argvs) events events'

section

variable {env : Environment} {wasm : WasmModule} {fuel : Nat} {argvs : List (List JsString)}
  {events events' : List Event}

/-- What every single run keeps to, and the numbering of its requests from one, over a sequence of commands. -/
theorem Commands.segments {P : List JsString → Event → Prop}
    (hrun : ∀ argv, EmitsOnly (P argv) (run env wasm fuel argv))
    (h : Commands env wasm fuel argvs events events') :
    ∃ segments : List (List Event), events' = events ++ segments.flatten ∧
      List.Forall₂ (fun argv segment => (∀ event ∈ segment, P argv event) ∧
        ∃ requests, segment.filterMap Event.requestId = List.range' 1 requests) argvs segments := by
  induction h with
  | nil events => exact ⟨[], by simp, .nil⟩
  | @cons argv argvs events events' r s hends _ ih =>
    obtain ⟨first, hfirst, hpermitted, -, hids⟩ := hrun argv _ _ _ hends
    obtain ⟨segments, hlater, hrest⟩ := ih
    refine ⟨first :: segments, ?_, .cons ⟨hpermitted, s.nextId, hids⟩ hrest⟩
    rw [hlater, hfirst, List.append_assoc, List.flatten_cons]

theorem Commands.permitted (h : Commands env wasm fuel argvs events events') :
    ∃ new, events' = events ++ new ∧
      ∀ event ∈ new, ∃ argv ∈ argvs, Permitted env (argv.headD []) argv.tail event := by
  obtain ⟨segments, hevents, hsegments⟩ := h.segments (emitsOnly_run env wasm fuel)
  refine ⟨segments.flatten, hevents, fun event hevent => ?_⟩
  clear h hevents
  induction hsegments with
  | nil => cases hevent
  | @cons argv segment argvs segments hfirst _ ih =>
    rcases List.mem_append.1 hevent with hevent | hevent
    · exact ⟨argv, List.mem_cons_self, hfirst.1 event hevent⟩
    · obtain ⟨argv', hmem, hpermitted⟩ := ih hevent
      exact ⟨argv', List.mem_cons_of_mem _ hmem, hpermitted⟩

/-- **Every command does only what its own command line permits**, whatever was run before, and numbers its requests
from one without a gap. -/
theorem commands_permitted (h : Commands env wasm fuel argvs events events') :
    ∃ segments : List (List Event), events' = events ++ segments.flatten ∧
      List.Forall₂ (fun argv segment => (∀ event ∈ segment, Permitted env (argv.headD []) argv.tail event) ∧
        ∃ requests, segment.filterMap Event.requestId = List.range' 1 requests) argvs segments :=
  h.segments (emitsOnly_run env wasm fuel)

end

end

end CkbDilithium.System
