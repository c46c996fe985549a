import CkbDilithium.Sdk.Runtime

/-!
# The RPC client

The methods of `CkbRpcClient` of `sdk/src/wallet.ts` as operations on the session. `getCells` is the loop of
`Sdk.getCells` with its requests recorded: both collect the same cells and count the same requests
(`getCells_ends`, `getCells_ends_of`).
-/

namespace CkbDilithium.Sdk

open Js

/-! ### Replies -/

inductive OutPointStatus where
  | live
  | dead
  | unknown
  deriving DecidableEq

structure ChainTip where
  blockHash : Option JsString
  blockNumber : JsString
  deriving DecidableEq

structure ResolvedOutPointCell where
  output : CellOutput
  outputData : JsString
  deriving DecidableEq

/-- What reading a property of `null` throws. -/
def readNull {α : Type} (property : JsString) : Js α :=
  raise (lit "Cannot read properties of null (reading '" ++ property ++ lit "')")

def fromRpcTipHeader : Option RpcTipHeader → Js ChainTip
  | none => readNull (lit "hash")
  | some tip => pure {
      blockHash := tip.hash.or tip.blockHash
      blockNumber := (tip.number.or tip.blockNumber).getD (lit "0x0") }

def liveCellStatus (status : Option JsString) : OutPointStatus :=
  if status = some (lit "live") then .live
  else if status = some (lit "dead") then .dead
  else .unknown

def fromRpcResolvedOutPointCell (cell : RpcResolvedCell) : ResolvedOutPointCell :=
  ⟨fromRpcCellOutput cell.output, cell.content⟩

def fromRpcLiveCell : Option RpcLiveCell → Js (OutPointStatus × Option ResolvedOutPointCell)
  | none => readNull (lit "status")
  | some result => pure (liveCellStatus result.status, result.cell.map fromRpcResolvedOutPointCell)

/-- The answers to `get_cells`. -/
def Environment.transport (env : Environment) : Transport := fun url id params =>
  env.reply url id (.getCells params)

namespace CkbRpcClient

/-! ### The methods -/

section

variable (env : Environment) (config : RpcConfig)

def request (url : JsString) (call : RpcCall) : Wallet call.Result := do
  Action.lift (Sdk.request call.method (← fetch env url call))

/-- A request to the indexer, whose errors name the endpoint. -/
def indexerRequest (call : RpcCall) : Wallet call.Result :=
  (request env config.endpoint call).catching fun error =>
    Action.lift (throw (wrapIndexerError error config.endpoint))

def getTipHeader : Wallet ChainTip := do
  Action.lift (fromRpcTipHeader (← request env config.rpcUrl .getTipHeader))

def getIndexerTip : Wallet ChainTip := do
  Action.lift (fromRpcTipHeader (← indexerRequest env config .getIndexerTip))

def getLiveCell (outPoint : OutPoint) (withData : Bool) : Wallet (OutPointStatus × Option ResolvedOutPointCell) := do
  Action.lift (fromRpcLiveCell (← request env config.rpcUrl (.getLiveCell (toRpcOutPoint outPoint) withData)))

def sendTransaction (transaction : Transaction) : Wallet JsString :=
  request env config.rpcUrl (.sendTransaction (toRpcTransaction transaction) (lit "passthrough"))

def getTransaction (txHash : JsString) : Wallet Json := request env config.rpcUrl (.getTransaction txHash)

/-- One round of the loop, on the collected cells and the cursor. -/
def getCellsRound (lock : LockScript) (limit : JsNumber) (state : List LiveCell × Option JsString) :
    Wallet ((List LiveCell × Option JsString) ⊕ List LiveCell) := do
  let params := getCellsParams lock (← Action.lift (toHexQuantity (.number limit))) state.2
  let page : IndexerCellsResponse ← indexerRequest env config (.getCells params)
  let objects := state.1 ++ page.objects.map fromRpcIndexerCell
  if page.objects = [] ∨ some page.lastCursor = state.2 then pure (.inr objects)
  else pure (.inl (objects, some page.lastCursor))

def getCells (fuel : Nat) (lock : LockScript) (limit : JsNumber) : Wallet (List LiveCell) :=
  Action.loop (getCellsRound env config lock limit) fuel ([], none)

end

/-! ### What the methods do -/

section

variable {env : Environment} {config : RpcConfig}

theorem request_ends {url : JsString} {call : RpcCall} {s s' : Session} {r : Js call.Result} :
    (request env url call).Ends s r s' ↔
      r = Sdk.request call.method (env.reply url (s.nextId + 1) call) ∧
        s' = ⟨s.nextId + 1, s.events ++ [.request url (s.nextId + 1) call]⟩ := by
  rw [request, Action.bind_ends]
  constructor
  · rintro (⟨e, -, hfetch⟩ | ⟨reply, s₁, hfetch, hlift⟩)
    · cases hfetch
    · cases hfetch
      exact Action.lift_ends.1 hlift
  · rintro ⟨rfl, rfl⟩
    exact Or.inr ⟨_, _, rfl, Action.lift_ends.2 ⟨rfl, rfl⟩⟩

theorem indexerRequest_ends {call : RpcCall} {s s' : Session} {r : Js call.Result} :
    (indexerRequest env config call).Ends s r s' ↔
      r = catchIndexer config.endpoint
        (Sdk.request call.method (env.reply config.endpoint (s.nextId + 1) call)) ∧
        s' = ⟨s.nextId + 1, s.events ++ [.request config.endpoint (s.nextId + 1) call]⟩ := by
  rw [indexerRequest, Action.catching_ends]
  simp only [request_ends, Action.lift_ends]
  cases hreply : Sdk.request call.method (env.reply config.endpoint (s.nextId + 1) call) with
  | ok result =>
    constructor
    · rintro (⟨a, rfl, ha, rfl⟩ | ⟨e, s₁, ⟨he, -⟩, -⟩)
      · exact ⟨ha, rfl⟩
      · cases he
    · rintro ⟨rfl, rfl⟩
      exact Or.inl ⟨result, rfl, rfl, rfl⟩
  | error error =>
    constructor
    · rintro (⟨a, -, ha, -⟩ | ⟨e, s₁, ⟨he, rfl⟩, rfl, rfl⟩)
      · cases ha
      · cases he
        exact ⟨rfl, rfl⟩
    · rintro ⟨rfl, rfl⟩
      exact Or.inr ⟨error, _, ⟨rfl, rfl⟩, rfl, rfl⟩

theorem total_request (url : JsString) (call : RpcCall) : (request env url call).Total := fun _ =>
  ⟨_, _, request_ends.2 ⟨rfl, rfl⟩⟩

theorem total_indexerRequest (call : RpcCall) : (indexerRequest env config call).Total := fun _ =>
  ⟨_, _, indexerRequest_ends.2 ⟨rfl, rfl⟩⟩

theorem emitsOnly_request {p : Event → Prop} {url : JsString} {call : RpcCall}
    (h : ∀ id, p (.request url id call)) : EmitsOnly p (request env url call) :=
  (emitsOnly_fetch h).bind fun _ => .lift _

theorem emitsOnly_indexerRequest {p : Event → Prop} {call : RpcCall}
    (h : ∀ id, p (.request config.endpoint id call)) : EmitsOnly p (indexerRequest env config call) :=
  (emitsOnly_request h).catching fun _ => .lift _

/-! ### The loop of `getCells` -/

/-- What a round of `Sdk.getCells` says of the variables of the loop here. -/
def roundResult : GetCellsStep → (List LiveCell × Option JsString) ⊕ List LiveCell
  | .continue state => .inl (state.objects, state.cursor)
  | .return state => .inr state.objects

/-- The request counter after the round. -/
def roundId : GetCellsStep → Nat
  | .continue state => state.nextId
  | .return state => state.nextId

/-- The request for a page. -/
theorem pageRequest_ends {params : GetCellsParams} {s s' : Session} {r : Js IndexerCellsResponse} :
    Action.Ends (indexerRequest env config (.getCells params)) s r s' ↔
      r = catchIndexer config.endpoint
        (Sdk.request (lit "get_cells") (env.transport config.endpoint (s.nextId + 1) params)) ∧
        s' = ⟨s.nextId + 1, s.events ++ [.request config.endpoint (s.nextId + 1) (.getCells params)]⟩ :=
  indexerRequest_ends

variable {lock : LockScript} {limit : JsNumber}

/-- **One round** of both loops. -/
theorem getCellsRound_ends {objects : List LiveCell} {cursor : Option JsString} {s s' : Session}
    {r : Js ((List LiveCell × Option JsString) ⊕ List LiveCell)}
    (h : (getCellsRound env config lock limit (objects, cursor)).Ends s r s') :
    r = (getCellsPage env.transport config lock limit ⟨objects, cursor, s.nextId⟩).map roundResult ∧
      ∀ step, getCellsPage env.transport config lock limit ⟨objects, cursor, s.nextId⟩ = .ok step →
        s'.nextId = roundId step := by
  simp only [getCellsRound, getCellsPage] at h ⊢
  cases hquantity : toHexQuantity (.number limit) with
  | error error =>
    rw [hquantity] at h
    rcases Action.bind_ends.1 h with ⟨e, rfl, hlift⟩ | ⟨quantity, s₁, hlift, -⟩
    · cases hlift
      exact ⟨rfl, by simp⟩
    · cases hlift
  | ok quantity =>
    rw [hquantity] at h
    rcases Action.bind_ends.1 h with ⟨e, rfl, hlift⟩ | ⟨_, s₁, hlift, h⟩
    · cases hlift
    · cases hlift
      simp only [Result.ok_bind]
      rcases Action.bind_ends.1 h with ⟨e, rfl, hpage⟩ | ⟨page, s₁, hpage, h⟩
      · obtain ⟨hreply, rfl⟩ := pageRequest_ends.1 hpage
        rw [← hreply]
        exact ⟨rfl, by simp⟩
      · obtain ⟨hreply, rfl⟩ := pageRequest_ends.1 hpage
        rw [← hreply]
        simp only [Result.ok_bind]
        by_cases hexit : page.objects = [] ∨ some page.lastCursor = cursor
        · rw [if_pos hexit] at h ⊢
          obtain ⟨rfl, rfl⟩ := Action.pure_ends.1 h
          refine ⟨rfl, fun step hstep => ?_⟩
          cases hstep
          rfl
        · rw [if_neg hexit] at h ⊢
          obtain ⟨rfl, rfl⟩ := Action.pure_ends.1 h
          refine ⟨rfl, fun step hstep => ?_⟩
          cases hstep
          rfl

theorem total_getCellsRound (lock : LockScript) (limit : JsNumber) (state : List LiveCell × Option JsString) :
    (getCellsRound env config lock limit state).Total := by
  refine (Action.Total.lift _).bind fun quantity => (total_indexerRequest _).bind fun page => ?_
  split_ifs
  · exact .pure _
  · exact .pure _

/-- **The loop** collects what `Sdk.getCells` collects, with as many requests. -/
theorem getCellsLoop_ends {fuel : Nat} {objects : List LiveCell} {cursor : Option JsString} {s s' : Session}
    {r : Js (List LiveCell)}
    (h : (Action.loop (getCellsRound env config lock limit) fuel (objects, cursor)).Ends s r s') :
    ∃ result, getCellsLoop env.transport config lock limit fuel ⟨objects, cursor, s.nextId⟩ = some result ∧
      r = result.map GetCellsState.objects ∧ ∀ final, result = .ok final → s'.nextId = final.nextId := by
  induction fuel generalizing objects cursor s with
  | zero => cases h
  | succ fuel ih =>
    rcases Action.bind_ends.1 h with ⟨e, rfl, hround⟩ | ⟨step, s₁, hround, hrest⟩
    · obtain ⟨hpage, -⟩ := getCellsRound_ends hround
      cases hresult : getCellsPage env.transport config lock limit ⟨objects, cursor, s.nextId⟩ with
      | ok step =>
        rw [hresult] at hpage
        cases hpage
      | error e' =>
        rw [hresult] at hpage
        cases hpage
        exact ⟨.error e, by simp only [getCellsLoop, hresult], rfl, by simp⟩
    · obtain ⟨hpage, hid⟩ := getCellsRound_ends hround
      cases hresult : getCellsPage env.transport config lock limit ⟨objects, cursor, s.nextId⟩ with
      | error e =>
        rw [hresult] at hpage
        cases hpage
      | ok step' =>
        have hid := hid step' hresult
        rw [hresult] at hpage
        cases hpage
        cases step' with
        | «continue» state =>
          obtain ⟨result, hloop, hr, hfinal⟩ := ih hrest
          rw [hid] at hloop
          exact ⟨result, by simp only [getCellsLoop, hresult]; exact hloop, hr, hfinal⟩
        | «return» state =>
          obtain ⟨rfl, rfl⟩ := Action.pure_ends.1 hrest
          refine ⟨.ok state, by simp only [getCellsLoop, hresult], rfl, fun final hfinal => ?_⟩
          cases hfinal
          exact hid

theorem getCellsLoop_ends_of {fuel : Nat} {objects : List LiveCell} {cursor : Option JsString} {s : Session}
    {result : Js GetCellsState}
    (h : getCellsLoop env.transport config lock limit fuel ⟨objects, cursor, s.nextId⟩ = some result) :
    ∃ s', (Action.loop (getCellsRound env config lock limit) fuel (objects, cursor)).Ends s
      (result.map GetCellsState.objects) s' := by
  induction fuel generalizing objects cursor s with
  | zero => cases h
  | succ fuel ih =>
    have htotal : Action.Total (getCellsRound env config lock limit (objects, cursor)) :=
      total_getCellsRound lock limit _
    obtain ⟨r, s₁, hround⟩ := htotal s
    obtain ⟨hpage, hid⟩ := getCellsRound_ends hround
    simp only [Action.loop, Action.bind_ends]
    cases hresult : getCellsPage env.transport config lock limit ⟨objects, cursor, s.nextId⟩ with
    | error e =>
      simp only [getCellsLoop, hresult, Option.some.injEq] at h
      rw [hresult] at hpage
      subst hpage h
      exact ⟨s₁, Or.inl ⟨e, rfl, hround⟩⟩
    | ok step =>
      have hid := hid step hresult
      rw [hresult] at hpage
      subst hpage
      cases step with
      | «continue» state =>
        simp only [getCellsLoop, hresult] at h
        rw [show state = ⟨state.objects, state.cursor, s₁.nextId⟩ by rw [hid]; rfl] at h
        obtain ⟨s', hrest⟩ := ih h
        exact ⟨s', Or.inr ⟨_, s₁, hround, hrest⟩⟩
      | «return» state =>
        simp only [getCellsLoop, hresult, Option.some.injEq] at h
        subst h
        exact ⟨s₁, Or.inr ⟨_, s₁, hround, Action.pure_ends.2 ⟨rfl, rfl⟩⟩⟩

/-- **A run of `getCells`** is a run of `Sdk.getCells` on the answers of the environment. -/
theorem getCells_ends {fuel : Nat} {s s' : Session} {r : Js (List LiveCell)}
    (h : (getCells env config fuel lock limit).Ends s r s') :
    ∃ result, Sdk.getCells env.transport config lock limit fuel s.nextId = some result ∧
      r = result.map GetCellsState.objects ∧ ∀ final, result = .ok final → s'.nextId = final.nextId :=
  getCellsLoop_ends h

theorem getCells_ends_of {fuel : Nat} {s : Session} {result : Js GetCellsState}
    (h : Sdk.getCells env.transport config lock limit fuel s.nextId = some result) :
    ∃ s', (getCells env config fuel lock limit).Ends s (result.map GetCellsState.objects) s' :=
  getCellsLoop_ends_of h

theorem emitsOnly_getCells {p : Event → Prop} (h : ∀ id params, p (.request config.endpoint id (.getCells params)))
    (fuel : Nat) : EmitsOnly p (getCells env config fuel lock limit) := by
  refine .loop (fun state => (Action.Keeps.lift _).bind fun quantity =>
    (emitsOnly_indexerRequest fun id => h id _).bind fun page => ?_) fuel _
  split_ifs
  · exact .pure _
  · exact .pure _

end

end CkbRpcClient

end CkbDilithium.Sdk
