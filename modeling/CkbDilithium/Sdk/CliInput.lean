import CkbDilithium.Sdk.Amount
import CkbDilithium.Sdk.Wallet
import CkbDilithium.Sdk.Keys

/-!
# What the command line reads

The options, the key file and the deployment file of `sdk/src/cli.ts`. A file is read as text and parsed as JSON;
its members are looked up as the source does, where a missing member of a missing value is an error of
the runtime.
-/

namespace CkbDilithium.Sdk.Cli

open Js

/-! ### Options -/

/-- The argument after the first one that is the name. -/
def optionalOption (args : List JsString) (name : JsString) : Option JsString :=
  match args.idxOf? name with
  | none => none
  | some index => args[index + 1]?

/-- An option that is missing or empty is refused. -/
def requireOption (args : List JsString) (name : JsString) : Js JsString :=
  match optionalOption args name with
  | some value =>
    if value = [] then raise (lit "Missing required option: " ++ name) else pure value
  | none => raise (lit "Missing required option: " ++ name)

def hasFlag (args : List JsString) (name : JsString) : Bool := args.contains name

def parseNetwork (value : JsString) : Js Network :=
  if value = lit "devnet" then pure .devnet
  else if value = lit "testnet" then pure .testnet
  else if value = lit "mainnet" then pure .mainnet
  else raise (lit "Unsupported network: " ++ value)

def parseOptionalInteger (value : Option JsString) (label : JsString) : Js (Option JsNumber) :=
  match value with
  | none => pure none
  | some value =>
    let parsed := stringToNumber value
    if ¬ parsed.isSafeInteger ∨ parsed.toInt < 0 then raise (label ++ lit " must be a non-negative integer")
    else pure (some parsed)

def parseOutPointIndex (value : JsString) : Js JsString := toHexQuantity (.string value)

def hexQuantityToBigInt (value : JsString) : Js Int := bigIntOfString value

/-- `feeRate ? BigInt(feeRate) : undefined`. -/
def parseFeeRate : Option JsString → Js (Option Numeric)
  | none => pure none
  | some value => if value = [] then pure none else do pure (some (.bigint (← bigIntOfString value)))

/-! ### Paths -/

/-- The last slash that is followed by something else, if it is not the first unit. -/
def dirnameEnd : (index : Nat) → (path : JsString) → (matchedSlash : Bool) → Option Nat
  | 0, _, _ => none
  | index + 1, path, matchedSlash =>
    if path[index + 1]? = some (unit '/') then
      if matchedSlash then dirnameEnd index path matchedSlash else some (index + 1)
    else dirnameEnd index path false

/-- `dirname(path)` of `node:path`, for slashes. -/
def dirname (path : JsString) : JsString :=
  let hasRoot : Bool := path.head? = some (unit '/')
  match dirnameEnd (path.length - 1) path true with
  | none => if hasRoot then lit "/" else lit "."
  | some last => if hasRoot ∧ last = 1 then lit "//" else path.take last

/-- `resolve(process.cwd(), "deployment/scripts.json")`; the working directory is absolute and normal. -/
def deploymentPath (env : Environment) : JsString :=
  if env.cwd = lit "/" then lit "/deployment/scripts.json" else env.cwd ++ lit "/deployment/scripts.json"

/-! ### The key file -/

/-- `Buffer.from(value.slice(2), "hex")` after a check of the start; the number of digits is not checked. -/
def hexToBytes (value filePath field : JsString) : Js Bytes :=
  if ¬ (lit "0x").isPrefixOf value then
    throw (.walletError .invalidKeyFile (field ++ lit " in " ++ filePath ++ lit " must start with 0x")
      [(lit "filePath", filePath), (lit "field", field)])
  else pure (bufferFromHex (value.drop 2))

def wrongLengthError (field filePath : JsString) (actualLength expectedLength : Nat) : JsError :=
  .walletError .invalidKeyFile
    (field ++ lit " in " ++ filePath ++ lit " must be " ++ toRadix 10 expectedLength ++ lit " bytes")
    [(lit "filePath", filePath), (lit "actualLength", toRadix 10 actualLength),
      (lit "expectedLength", toRadix 10 expectedLength)]

/-- The content of a key file. -/
def keypairOfContent (filePath : JsString) (content : Json) : Js DilithiumKeypair :=
  match content with
  | .null => readNull (lit "publicKey")
  | content =>
    match content.member? (lit "publicKey"), content.member? (lit "secretKey") with
    | some (.string publicKeyText), some (.string secretKeyText) => do
      let publicKey ← hexToBytes publicKeyText filePath (lit "publicKey")
      let secretKey ← hexToBytes secretKeyText filePath (lit "secretKey")
      if publicKey.length ≠ publicKeyLen then
        throw (wrongLengthError (lit "publicKey") filePath publicKey.length publicKeyLen)
      else if secretKey.length ≠ secretKeyLen then
        throw (wrongLengthError (lit "secretKey") filePath secretKey.length secretKeyLen)
      else pure ⟨publicKey, secretKey⟩
    | _, _ =>
      throw (.walletError .invalidKeyFile
        (lit "Key file " ++ filePath ++ lit " must contain publicKey and secretKey strings")
        [(lit "filePath", filePath)])

def unreadableKeyFileError (filePath cause : JsString) : JsError :=
  .walletError .invalidKeyFile (lit "Unable to read key file at " ++ filePath)
    [(lit "filePath", filePath), (lit "cause", cause)]

def readKeypair (env : Environment) (filePath : JsString) : Wallet DilithiumKeypair := do
  let content ← Action.catching (do Action.lift (jsonParse env (← readFile env filePath)))
    fun error => Action.lift (throw (unreadableKeyFileError filePath error.message))
  Action.lift (keypairOfContent filePath content)

/-! ### The deployment file -/

/-- A value that counts as false. -/
def falsy : Option Json → Bool
  | none => true
  | some .null => true
  | some (.bool value) => !value
  | some (.number value) => value == .nan || value == .finite 0
  | some (.string value) => value == []
  | _ => false

/-- What reading a property of a missing value throws. -/
def readUndefined {α : Type} (property : JsString) : Js α :=
  raise (lit "Cannot read properties of undefined (reading '" ++ property ++ lit "')")

/-- `value.key`, where `value` may be missing. -/
def property (key : JsString) : Option Json → Js (Option Json)
  | none => readUndefined key
  | some .null => readNull key
  | some value => pure (value.member? key)

/-- `value[0]`. -/
def firstItem : Option Json → Js (Option Json)
  | none => readUndefined (lit "0")
  | some .null => readNull (lit "0")
  | some (.array items) => pure items.head?
  | some (.string value) => pure (value.head?.map fun c => .string [c])
  | some value => pure (value.member? (lit "0"))

/-- A field that is declared a string; a value of another type is refused. -/
def stringField : Option Json → Js JsString
  | some (.string value) => pure value
  | _ => raise (lit "value.startsWith is not a function")

/-- A field that is declared a number; a string is taken as well, and a value of another type is refused. -/
def numericField : Option Json → Js Numeric
  | some (.number value) => pure (.number value)
  | some (.string value) => pure (.string value)
  | _ => raise (lit "value.toString is not a function")

/-- The out point of a configured dependency. -/
def deploymentOutPoint (outPoint : Option Json) : Js OutPoint := do
  let txHash ← stringField (← property (lit "txHash") outPoint)
  let index ← numericField (← property (lit "index") outPoint)
  pure { txHash, index := ← toHexQuantity index }

/-- The configuration of a network in the parsed file. The source passes the values on unread, so that one of another
JSON type than `DeploymentFile` declares fails only where it is first used; here it is refused when it is read. -/
def scriptConfigOfDeployment (path : JsString) (network : Network) (deployment : Json) : Js DilithiumScriptConfig := do
  let networkTable ← property (networkName network) (some deployment)
  let networkConfig := (present networkTable).bind fun table => table.member? (lit "dillithium-lock")
  if falsy networkConfig then
    raise (lit "No dillithium-lock deployment config found for " ++ networkName network ++ lit " in " ++ path)
  else
    let codeHash ← property (lit "codeHash") networkConfig
    let hashType ← property (lit "hashType") networkConfig
    if falsy codeHash ∨ falsy hashType then
      raise (lit "Incomplete dillithium-lock deployment config for " ++ networkName network ++ lit " in " ++ path)
    else
      let firstItem ← firstItem (← property (lit "cellDeps") networkConfig)
      let firstDep := (present firstItem).bind fun item => item.member? (lit "cellDep")
      if falsy firstDep then
        raise (lit "No cell dep configured for dillithium-lock on " ++ networkName network ++ lit " in " ++ path)
      else
        let outPoint ← deploymentOutPoint (← property (lit "outPoint") firstDep)
        let isCode : Bool := match firstDep.bind fun dep => dep.member? (lit "depType") with
          | some (.string depType) => depType == lit "code"
          | _ => false
        pure {
          codeHash := ← stringField codeHash
          hashType := ← stringField hashType
          network
          cellDep := { outPoint, depType := if isCode then .code else .depGroup } }

def loadScriptConfig (env : Environment) (network : Network) : Wallet DilithiumScriptConfig := do
  let text ← readFile env (deploymentPath env)
  let deployment ← Action.lift (jsonParse env text)
  Action.lift (scriptConfigOfDeployment (deploymentPath env) network deployment)

end CkbDilithium.Sdk.Cli
