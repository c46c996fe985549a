import CkbDilithium.Sdk.Serialize

/-!
# Cell discovery

`CkbRpcClient.getCells` of `sdk/src/wallet.ts` with the conversions from the JSON-RPC types. What comes
back over the network for a request is a parameter (`Transport`), a function of the id of the request, so
that equal requests may be answered differently. `getCellsPage` is one round of the loop, `getCellsLoop`
the loop, which has no bound of its own: with too little fuel the model gives no result.
-/

namespace CkbDilithium.Sdk

open Js

/-! ### The JSON-RPC types -/

structure RpcIndexerCell where
  blockNumber : JsString
  outPoint : RpcOutPoint
  output : RpcCellOutput
  outputData : JsString
  txIndex : JsString
  deriving DecidableEq

structure IndexerCellsResponse where
  lastCursor : JsString
  objects : List RpcIndexerCell
  deriving DecidableEq

def fromRpcScript (script : RpcScript) : LockScript := ⟨script.codeHash, script.hashType, script.args⟩

def fromRpcOutPoint (outPoint : RpcOutPoint) : OutPoint := ⟨outPoint.txHash, outPoint.index⟩

def fromRpcCellOutput (output : RpcCellOutput) : CellOutput where
  capacity := output.capacity
  lock := fromRpcScript output.lock
  type := output.type.map fromRpcScript

def fromRpcIndexerCell (cell : RpcIndexerCell) : LiveCell where
  blockNumber := cell.blockNumber
  outPoint := fromRpcOutPoint cell.outPoint
  output := fromRpcCellOutput cell.output
  outputData := cell.outputData
  txIndex := cell.txIndex

/-! ### Requests -/

structure RpcConfig where
  rpcUrl : JsString
  indexerUrl : Option JsString
  deriving DecidableEq

/-- `this.config.indexerUrl ?? this.config.rpcUrl`. -/
def RpcConfig.endpoint (config : RpcConfig) : JsString := config.indexerUrl.getD config.rpcUrl

/-- What comes back for a request: `fetch` rejects or the body cannot be parsed, a status that is not
ok, a body with an error, or a result. -/
inductive HttpReply (α : Type) where
  | rejected (message : JsString)
  | status (status : Nat)
  | failure (message : JsString)
  | success (result : α)

def request {α : Type} (method : JsString) : HttpReply α → Js α
  | .rejected message => raise message
  | .status status => raise (method ++ lit " failed with HTTP " ++ toRadix 10 status)
  | .failure message => raise (method ++ lit " failed: " ++ message)
  | .success result => pure result

def wrapIndexerError (error : JsError) (endpoint : JsString) : JsError :=
  match error with
  | .walletError code message details => .walletError code message details
  | error => .walletError .indexerUnavailable
      (lit "unable to query live cells from " ++ endpoint ++ lit "; an indexer-backed endpoint is required")
      [(lit "endpoint", endpoint), (lit "cause", error.message)]

/-- `.catch((error) => { throw wrapIndexerError(error, endpoint) })`. -/
def catchIndexer {α : Type} (endpoint : JsString) : Js α → Js α
  | .ok a => pure a
  | .error error => throw (wrapIndexerError error endpoint)

/-- The parameters of `get_cells`; the cursor is pushed when there is one. -/
structure GetCellsParams where
  script : RpcScript
  scriptType : JsString
  order : JsString
  limit : JsString
  cursor : Option JsString
  deriving DecidableEq

/-- The answer to the request with a given id. -/
abbrev Transport := (url : JsString) → (id : Nat) → GetCellsParams → HttpReply IndexerCellsResponse

/-! ### The loop -/

/-- The variables of the loop and the request counter of the client. -/
structure GetCellsState where
  objects : List LiveCell
  cursor : Option JsString
  nextId : Nat
  deriving DecidableEq

inductive GetCellsStep where
  | continue (state : GetCellsState)
  | return (state : GetCellsState)

def getCellsParams (lock : LockScript) (limit : JsString) (cursor : Option JsString) : GetCellsParams where
  script := toRpcScript lock
  scriptType := lit "lock"
  order := lit "asc"
  limit := limit
  cursor := cursor

section

variable (transport : Transport) (config : RpcConfig) (lock : LockScript) (limit : JsNumber)

/-- One round: request the page, collect its cells, and return or go on from its cursor. -/
def getCellsPage (state : GetCellsState) : Js GetCellsStep := do
  let endpoint := config.endpoint
  let params := getCellsParams lock (← toHexQuantity (.number limit)) state.cursor
  let nextId := state.nextId + 1
  let page ← catchIndexer endpoint (request (lit "get_cells") (transport endpoint nextId params))
  let objects := state.objects ++ page.objects.map fromRpcIndexerCell
  if page.objects = [] ∨ some page.lastCursor = state.cursor then
    pure (.return { objects, cursor := state.cursor, nextId })
  else pure (.continue { objects, cursor := some page.lastCursor, nextId })

def getCellsLoop : (fuel : Nat) → GetCellsState → Option (Js GetCellsState)
  | 0, _ => none
  | fuel + 1, state =>
    match getCellsPage transport config lock limit state with
    | .error error => some (.error error)
    | .ok (.return state) => some (.ok state)
    | .ok (.continue state) => getCellsLoop fuel state

/-- A call of a client that has made `nextId` requests. -/
def getCells (fuel nextId : Nat) : Option (Js GetCellsState) :=
  getCellsLoop transport config lock limit fuel { objects := [], cursor := none, nextId }

end

/-! ### What one round says -/

theorem request_eq_ok {α : Type} {method : JsString} {reply : HttpReply α} {result : α} :
    request method reply = .ok result ↔ reply = .success result := by
  cases reply <;> simp [request]

theorem catchIndexer_eq_ok {α : Type} {endpoint : JsString} {x : Js α} {a : α} :
    catchIndexer endpoint x = .ok a ↔ x = .ok a := by
  cases x <;> simp [catchIndexer]

theorem toHexQuantity_ofNat {n : Nat} {quantity : JsString} :
    toHexQuantity (.number (.ofNat n)) = .ok quantity ↔ n ≤ 2 ^ 53 - 1 ∧ hexQuantity n = quantity := by
  rw [toHexQuantity, ite_raise_eq_ok, Result.pure_eq_ok, not_or, not_not, JsNumber.isSafeInteger_ofNat,
    JsNumber.toInt_ofNat]
  simp

/-- A limit that is not a safe integer is refused before any request. -/
theorem getCells_refuses (transport : Transport) (config : RpcConfig) (lock : LockScript) (nextId : Nat) {limit : Nat}
    (hlimit : 2 ^ 53 - 1 < limit) (fuel : Nat) :
    getCells transport config lock (.ofNat limit) (fuel + 1) nextId =
      some (raise (lit "number value must be a non-negative safe integer")) := by
  have hunsafe : ¬ (JsNumber.ofNat limit).isSafeInteger = true := by
    rw [JsNumber.isSafeInteger_ofNat]
    omega
  have hquantity : toHexQuantity (.number (.ofNat limit)) =
      raise (lit "number value must be a non-negative safe integer") := if_pos (Or.inl hunsafe)
  rw [getCells, getCellsLoop, getCellsPage, hquantity]
  rfl

section Round

variable {transport : Transport} {config : RpcConfig} {lock : LockScript} {limit : JsNumber}

/-- A round has its page, and returns when the page is empty or has the cursor it was asked with. -/
theorem getCellsPage_eq_ok {state : GetCellsState} {step : GetCellsStep} :
    getCellsPage transport config lock limit state = .ok step ↔
      ∃ quantity page, toHexQuantity (.number limit) = .ok quantity ∧
        transport config.endpoint (state.nextId + 1) (getCellsParams lock quantity state.cursor) =
          .success page ∧
        step = if page.objects = [] ∨ some page.lastCursor = state.cursor then
            .return ⟨state.objects ++ page.objects.map fromRpcIndexerCell, state.cursor, state.nextId + 1⟩
          else
            .continue ⟨state.objects ++ page.objects.map fromRpcIndexerCell, some page.lastCursor,
              state.nextId + 1⟩ := by
  simp only [getCellsPage, Result.bind_eq_ok, catchIndexer_eq_ok, request_eq_ok]
  constructor
  · rintro ⟨quantity, hquantity, page, hpage, hstep⟩
    refine ⟨quantity, page, hquantity, hpage, ?_⟩
    by_cases hexit : page.objects = [] ∨ some page.lastCursor = state.cursor
    · rw [if_pos hexit] at hstep ⊢
      exact (Result.pure_eq_ok.1 hstep).symm
    · rw [if_neg hexit] at hstep ⊢
      exact (Result.pure_eq_ok.1 hstep).symm
  · rintro ⟨quantity, page, hquantity, hpage, rfl⟩
    refine ⟨quantity, hquantity, page, hpage, ?_⟩
    by_cases hexit : page.objects = [] ∨ some page.lastCursor = state.cursor
    · rw [if_pos hexit, if_pos hexit]
      rfl
    · rw [if_neg hexit, if_neg hexit]
      rfl

end Round

end CkbDilithium.Sdk
