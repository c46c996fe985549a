import CkbDilithium.System.KeyFile

/-!
# What a command tells of the key file

A command that does not broadcast depends on the content of the key file through the public key alone, or through
the message of the error if the file is refused (`keyOutcome`): two files with the same outcome give the same
requests, the same output and the same exit code.
-/

namespace CkbDilithium.System

open Sdk Sdk.Cli Js

/-! ### Reading the key -/

/-- What `readKeypair` makes of what it reads. -/
def keyResult (env : Environment) (filePath : JsString) : Except JsString JsString → Js DilithiumKeypair
  | .error message => throw (unreadableKeyFileError filePath message)
  | .ok text =>
    match Json.parse text with
    | none => throw (unreadableKeyFileError filePath (env.parseError text))
    | some content => keypairOfContent filePath content

/-- What a command can tell of it: the public key, or the message of the error. -/
def keyOutcome (env : Environment) (filePath : JsString) (read : Except JsString JsString) : Except JsString Bytes :=
  match keyResult env filePath read with
  | .ok keypair => .ok keypair.publicKey
  | .error error => .error error.message

theorem readKeypair_eq (env : Environment) (filePath : JsString) (s : Session) :
    readKeypair env filePath s = some (keyResult env filePath (env.readFile s.events filePath),
      { s with events := s.events ++ [.readFile filePath] }) := by
  simp only [readKeypair, readFile, act, Action.update, Action.catching, Action.lift, bind]
  cases env.readFile s.events filePath with
  | error message => rfl
  | ok text =>
    simp only [ioResult, jsonParse, keyResult, pure, Except.pure]
    cases hparse : Json.parse text with
    | none => rfl
    | some content => rfl

/-- Errors that print the same. -/
def SameMessage (e e' : JsError) : Prop := e.message = e'.message

instance : Std.Refl SameMessage := ⟨fun _ => rfl⟩

def SamePublicKey (keypair keypair' : DilithiumKeypair) : Prop := keypair.publicKey = keypair'.publicKey

section

variable {env : Environment} {readFile' : List Event → JsString → Except JsString JsString}

/-- The environment with other files. -/
def withFiles (env : Environment) (readFile' : List Event → JsString → Except JsString JsString) : Environment :=
  { env with readFile := readFile' }

/-- The files differ only in what commands cannot tell. -/
structure SameKeys (env : Environment) (readFile' : List Event → JsString → Except JsString JsString) : Prop where
  deployment : ∀ events, readFile' events (deploymentPath env) = env.readFile events (deploymentPath env)
  keyFile : ∀ events path, keyOutcome env path (readFile' events path) = keyOutcome env path (env.readFile events path)

theorem parallel_readKeypair (h : SameKeys env readFile') (filePath : JsString) :
    Action.Parallel SamePublicKey SameMessage (readKeypair (withFiles env readFile') filePath)
      (readKeypair env filePath) := by
  intro s
  rw [readKeypair_eq, readKeypair_eq]
  have hsame := h.keyFile s.events filePath
  unfold keyOutcome at hsame
  have hresult : keyResult (withFiles env readFile') filePath ((withFiles env readFile').readFile s.events filePath) =
      keyResult env filePath (readFile' s.events filePath) := rfl
  rw [hresult]
  generalize keyResult env filePath (readFile' s.events filePath) = left at hsame ⊢
  generalize keyResult env filePath (env.readFile s.events filePath) = right at hsame ⊢
  cases left with
  | error e =>
    cases right with
    | error e' =>
      have hmessage : SameMessage e e' := Except.error.inj hsame
      exact .threw hmessage _
    | ok keypair => cases hsame
  | ok keypair =>
    cases right with
    | error e => cases hsame
    | ok keypair' =>
      have hpublic : SamePublicKey keypair keypair' := Except.ok.inj hsame
      exact .returned hpublic _

theorem loadScriptConfig_withFiles (h : SameKeys env readFile') (network : Network) :
    loadScriptConfig (withFiles env readFile') network = loadScriptConfig env network := by
  have hread : readFile (withFiles env readFile') (deploymentPath env) = readFile env (deploymentPath env) := by
    funext s
    simp only [readFile, act, Action.update, withFiles, h.deployment]
  unfold loadScriptConfig
  rw [← hread]
  rfl

/-! ### The commands -/

/-- After the key is read, what follows uses its public key and the files of the deployment. -/
theorem parallel_withKey {α : Type} (h : SameKeys env readFile') (filePath : JsString) (network : Network)
    {f f' : DilithiumKeypair → DilithiumScriptConfig → Wallet α}
    {V : α → α → Prop}
    (hf : ∀ keypair keypair' config, keypair.publicKey = keypair'.publicKey →
      Action.Parallel V SameMessage (f keypair config) (f' keypair' config)) :
    Action.Parallel V SameMessage
      (readKeypair (withFiles env readFile') filePath >>= fun keypair =>
        loadScriptConfig (withFiles env readFile') network >>= fun config => f keypair config)
      (readKeypair env filePath >>= fun keypair =>
        loadScriptConfig env network >>= fun config => f' keypair config) := by
  refine (parallel_readKeypair h filePath).bind fun keypair keypair' hpublic => ?_
  rw [loadScriptConfig_withFiles h]
  exact .bind_same _ fun config => hf keypair keypair' config hpublic

theorem parallel_runAddress (h : SameKeys env readFile') (wasm : WasmExports) (args : List JsString) :
    Action.Parallel Eq SameMessage (runAddress (withFiles env readFile') wasm args) (runAddress env wasm args) := by
  refine .bind_same _ fun keyFile => .bind_same _ fun network => ?_
  refine parallel_withKey h keyFile network fun keypair keypair' config hpublic => ?_
  rw [hpublic]
  exact .same _

theorem parallel_runBalance (h : SameKeys env readFile') (wasm : WasmExports) (fuel : Nat) (args : List JsString) :
    Action.Parallel Eq SameMessage (runBalance (withFiles env readFile') wasm fuel args)
      (runBalance env wasm fuel args) := by
  refine .bind_same _ fun a => ?_
  refine parallel_withKey h a.keyFile a.network fun keypair keypair' config hpublic => ?_
  rw [hpublic]
  exact .same _

theorem parallel_runWait (h : SameKeys env readFile') (wasm : WasmExports) (fuel : Nat) (args : List JsString) :
    Action.Parallel Eq SameMessage (runWait (withFiles env readFile') wasm fuel args) (runWait env wasm fuel args) := by
  refine .bind_same _ fun a => ?_
  refine parallel_withKey h a.keyFile a.network fun keypair keypair' config hpublic => ?_
  rw [hpublic]
  exact .same _

theorem parallel_runCheckOutpoint (h : SameKeys env readFile') (wasm : WasmExports) (args : List JsString) :
    Action.Parallel Eq SameMessage (runCheckOutpoint (withFiles env readFile') wasm args)
      (runCheckOutpoint env wasm args) := by
  refine .bind_same _ fun keyFile => .bind_same _ fun rpcUrl => .bind_same _ fun network => ?_
  refine .bind_same _ fun txHash => .bind_same _ fun index => ?_
  refine parallel_withKey h keyFile network fun keypair keypair' config hpublic => ?_
  rw [hpublic]
  exact .same _

/-- Transfers that print the same summary. -/
structure SameTransfer (prepared prepared' : PreparedTransfer) : Prop where
  preflight : prepared.preflight = prepared'.preflight
  senderAddress : prepared.senderAddress = prepared'.senderAddress

theorem parallel_prepareTransfer (h : SameKeys env readFile') (wasm : WasmExports) (fuel : Nat) (a : TransferArgs) :
    Action.Parallel SameTransfer SameMessage (prepareTransfer (withFiles env readFile') wasm fuel a)
      (prepareTransfer env wasm fuel a) := by
  refine parallel_withKey h a.keyFile a.network fun keypair keypair' config hpublic => ?_
  rw [hpublic]
  refine .bind_same _ fun fromLock => .bind_same _ fun toDecoded => .bind_same _ fun amount => ?_
  refine .bind_same (CkbRpcClient.getCells env a.client fuel fromLock (.ofNat 100)) fun cells => ?_
  refine .bind_same _ fun feeRate => .bind_same _ fun preflight => .bind_same _ fun senderAddress => ?_
  exact fun s => .returned ⟨rfl, rfl⟩ s

/-- A dry run prints the summary and nothing else. -/
theorem parallel_runTransfer (h : SameKeys env readFile') (wasm : WasmExports) (fuel : Nat) {args : List JsString}
    (hdry : hasFlag args (lit "--dry-run") = true) :
    Action.Parallel Eq SameMessage (runTransfer (withFiles env readFile') wasm fuel args)
      (runTransfer env wasm fuel args) := by
  refine .lift_bind fun a ha => ?_
  refine (parallel_prepareTransfer h wasm fuel a).bind fun prepared prepared' hsame => ?_
  have hsummary : transferSummary a prepared = transferSummary a prepared' := by
    rw [transferSummary, transferSummary, hsame.preflight, hsame.senderAddress]
  rw [(parseTransferArgs_eq_ok ha).dryRun, hdry, hsummary]
  exact .same _

/-- **The key file is told apart by its public key alone.** When the files of two environments differ only in key
files with the same outcome, every command but a broadcast is the same in both: it makes the same requests, prints
the same lines and has the same exit code. -/
theorem run_hidesSecret (h : SameKeys env readFile') (wasm : WasmModule) (fuel : Nat) {argv : List JsString}
    (hquiet : ¬ Broadcasts (argv.headD []) argv.tail) :
    run (withFiles env readFile') wasm fuel argv = run env wasm fuel argv := by
  refine Action.Parallel.eq (.catching (E := SameMessage) ?_ fun e e' hmessage => ?_)
  · cases argv with
    | nil => exact .same _
    | cons command args =>
      simp only [main]
      split_ifs with hkeygen haddress hbalance hcheck hwait htransfer
      · exact .same _
      · exact (parallel_runAddress h _ args).bind fun _ _ _ => .same _
      · exact (parallel_runBalance h _ fuel args).bind fun _ _ _ => .same _
      · exact (parallel_runCheckOutpoint h _ args).bind fun _ _ _ => .same _
      · exact (parallel_runWait h _ fuel args).bind fun _ _ _ => .same _
      · have hdry : hasFlag args (lit "--dry-run") = true := by
          by_contra hnot
          exact hquiet ⟨htransfer, Bool.eq_false_iff.2 hnot⟩
        exact (parallel_runTransfer h _ fuel hdry).bind fun _ _ _ => .same _
      · exact .same _
      · exact .same _
  · have hline : renderError e = renderError e' := hmessage
    rw [hline]
    exact .same _

end

/-! ### Two secrets -/

theorem keyOutcome_keyFileContent (env : Environment) (filePath : JsString) {keypair : DilithiumKeypair}
    (hpk : keypair.publicKey.length = publicKeyLen) (hsk : keypair.secretKey.length = secretKeyLen) :
    keyOutcome env filePath (.ok (keyFileContent keypair)) = .ok keypair.publicKey := by
  have hkeypair : keypairOfContent filePath (keyFileJson keypair) = .ok keypair :=
    keypairOfContent_keyFile_iff.2 ⟨rfl, hpk, hsk⟩
  simp only [keyOutcome, keyResult, parse_keyFileContent, hkeypair]

/-- The only file is a key file with the zero public key. -/
def keyMachine (secretKey : Bytes) : Environment :=
  { timedEnvironment (fun _ _ _ => .rejected (lit "fetch failed")) with
    readFile := fun _ path =>
      if path = lit "key.json" then .ok (keyFileContent ⟨zeroPublicKey, secretKey⟩)
      else .error (lit "ENOENT: no such file or directory") }

theorem run_hidesSecret_keyMachine :
    run (withFiles (keyMachine zeroSecretKey) (keyMachine (List.replicate secretKeyLen 0)).readFile) zeroModule 0
        [lit "address", lit "--key-file", lit "key.json", lit "--network", lit "testnet"] =
      run (keyMachine zeroSecretKey) zeroModule 0
        [lit "address", lit "--key-file", lit "key.json", lit "--network", lit "testnet"] := by
  have hfiles : SameKeys (keyMachine zeroSecretKey) (keyMachine (List.replicate secretKeyLen 0)).readFile := by
    constructor
    · intro events
      have hpath : deploymentPath (keyMachine zeroSecretKey) ≠ lit "key.json" := by decide
      generalize deploymentPath (keyMachine zeroSecretKey) = path at hpath ⊢
      simp only [keyMachine, if_neg hpath]
    · intro events path
      by_cases hpath : path = lit "key.json"
      · simp only [keyMachine, if_pos hpath]
        rw [keyOutcome_keyFileContent _ _ zeroPublicKey_length List.length_replicate,
          keyOutcome_keyFileContent _ _ zeroPublicKey_length zeroSecretKey_length]
      · simp only [keyMachine, if_neg hpath]
  refine run_hidesSecret hfiles zeroModule 0 ?_
  rintro ⟨hcommand, -⟩
  exact absurd hcommand (by decide)

end CkbDilithium.System
