import CkbDilithium.Lib.Action
import CkbDilithium.Lib.Json
import CkbDilithium.Sdk.Indexer

/-!
# The runtime

What the SDK and its command line ask of the outside: requests to a node, the clock, timers, random bytes,
files and the console. An `Environment` says what comes back. Every such act is an `Event` of the session, and
what the environment answers may depend on the events before; the answer to a request depends on its id,
which no two requests of a session share. An operation is an `Action` on the session.
-/

namespace CkbDilithium.Sdk

open Js

/-! ### Requests -/

structure RpcTipHeader where
  hash : Option JsString
  number : Option JsString
  blockHash : Option JsString
  blockNumber : Option JsString
  deriving DecidableEq

structure RpcResolvedCell where
  output : RpcCellOutput
  /-- `data.content`. -/
  content : JsString
  deriving DecidableEq

structure RpcLiveCell where
  cell : Option RpcResolvedCell
  status : Option JsString
  deriving DecidableEq

/-- The methods the client calls, with their parameters. -/
inductive RpcCall where
  | getTipHeader
  | getIndexerTip
  | getLiveCell (outPoint : RpcOutPoint) (withData : Bool)
  | sendTransaction (transaction : RpcTransaction) (outputsValidator : JsString)
  | getTransaction (txHash : JsString)
  | getCells (params : GetCellsParams)
  deriving DecidableEq

def RpcCall.method : RpcCall → JsString
  | .getTipHeader => lit "get_tip_header"
  | .getIndexerTip => lit "get_indexer_tip"
  | .getLiveCell _ _ => lit "get_live_cell"
  | .sendTransaction _ _ => lit "send_transaction"
  | .getTransaction _ => lit "get_transaction"
  | .getCells _ => lit "get_cells"

/-- The type a result is cast to; `none` is `null`. The result of `get_transaction` is `unknown`. -/
def RpcCall.Result : RpcCall → Type
  | .getTipHeader => Option RpcTipHeader
  | .getIndexerTip => Option RpcTipHeader
  | .getLiveCell _ _ => Option RpcLiveCell
  | .sendTransaction _ _ => JsString
  | .getTransaction _ => Json
  | .getCells _ => IndexerCellsResponse

/-! ### Events and the environment -/

inductive Event where
  | request (url : JsString) (id : Nat) (call : RpcCall)
  | clock (now : Int)
  | sleep (delay : Nat)
  | random (size : Nat)
  | readFile (path : JsString)
  | mkdir (path : JsString)
  | writeFile (path content : JsString)
  | log (line : JsString)
  | logError (line : JsString)
  deriving DecidableEq

/-- A file operation fails with the message of its error. -/
structure Environment where
  reply : (url : JsString) → (id : Nat) → (call : RpcCall) → HttpReply call.Result
  now : List Event → Int
  random : List Event → (size : Nat) → { bytes : Bytes // bytes.length = size }
  readFile : List Event → (path : JsString) → Except JsString JsString
  mkdir : List Event → (path : JsString) → Except JsString Unit
  writeFile : List Event → (path content : JsString) → Except JsString Unit
  /-- The message of the `SyntaxError` of `JSON.parse`. -/
  parseError : (text : JsString) → JsString
  /-- `process.cwd()`. -/
  cwd : JsString

/-- The request counter of the client and what has happened. -/
structure Session where
  nextId : Nat
  events : List Event
  deriving DecidableEq

abbrev Wallet := Action Session JsError

/-! ### Acts -/

section

variable (env : Environment)

/-- `fetch` with the next id of the client. -/
def fetch (url : JsString) (call : RpcCall) : Wallet (HttpReply call.Result) := Action.update fun s =>
  (.ok (env.reply url (s.nextId + 1) call), ⟨s.nextId + 1, s.events ++ [.request url (s.nextId + 1) call]⟩)

/-- An act of the session with its answer. -/
def act {α : Type} (event : Event) (answer : List Event → Js α) : Wallet α := Action.update fun s =>
  (answer s.events, { s with events := s.events ++ [event] })

/-- `Date.now()`. -/
def dateNow : Wallet Int := Action.update fun s =>
  (.ok (env.now s.events), { s with events := s.events ++ [.clock (env.now s.events)] })

/-- `randomBytes(size)`. -/
def randomBytes (size : Nat) : Wallet Bytes := act (.random size) fun events => .ok (env.random events size).1

/-- What a file operation throws is an `Error`. -/
def ioResult {α : Type} : Except JsString α → Js α
  | .ok a => .ok a
  | .error message => raise message

def readFile (path : JsString) : Wallet JsString :=
  act (.readFile path) fun events => ioResult (env.readFile events path)

def mkdir (path : JsString) : Wallet Unit := act (.mkdir path) fun events => ioResult (env.mkdir events path)

def writeFile (path content : JsString) : Wallet Unit :=
  act (.writeFile path content) fun events => ioResult (env.writeFile events path content)

def consoleLog (line : JsString) : Wallet Unit := act (.log line) fun _ => .ok ()

def consoleError (line : JsString) : Wallet Unit := act (.logError line) fun _ => .ok ()

/-- `JSON.parse(text)`. -/
def jsonParse (text : JsString) : Js Json :=
  match Json.parse text with
  | some value => pure value
  | none => throw (.syntaxError (env.parseError text))

end

/-- The delay of `setTimeout(f, ms)`: whole milliseconds, and `1` for what is below, above `2 ^ 31 - 1` or no
number. -/
def timerDelay : JsNumber → Nat
  | .finite q => if 1 ≤ q ∧ q ≤ 2 ^ 31 - 1 then q.floor.toNat else 1
  | _ => 1

def sleep (ms : JsNumber) : Wallet Unit := act (.sleep (timerDelay ms)) fun _ => .ok ()

theorem timerDelay_pos (ms : JsNumber) : 0 < timerDelay ms := by
  cases ms with
  | nan => exact Nat.one_pos
  | infinity negative => exact Nat.one_pos
  | finite q =>
    rw [timerDelay]
    split_ifs with hq
    · have hfloor : 1 ≤ q.floor := Rat.le_floor_iff.2 (by exact_mod_cast hq.1)
      omega
    · exact Nat.one_pos

/-! ### What a session does -/

/-- The id of a request. -/
def Event.requestId : Event → Option Nat
  | .request _ id _ => some id
  | _ => none

/-- The session went on: the new events satisfy `p`, and its requests have the ids after the last one, in
order and without a gap. -/
def Emits (p : Event → Prop) (s s' : Session) : Prop :=
  ∃ new, s'.events = s.events ++ new ∧ (∀ event ∈ new, p event) ∧ s.nextId ≤ s'.nextId ∧
    new.filterMap Event.requestId = List.range' (s.nextId + 1) (s'.nextId - s.nextId)

instance (p : Event → Prop) : IsPreorder Session (Emits p) where
  refl s := ⟨[], by simp, by simp, le_rfl, by simp⟩
  trans s s₁ s₂ h₁ h₂ := by
    obtain ⟨new₁, hevents₁, hp₁, hle₁, hids₁⟩ := h₁
    obtain ⟨new₂, hevents₂, hp₂, hle₂, hids₂⟩ := h₂
    refine ⟨new₁ ++ new₂, by rw [hevents₂, hevents₁, List.append_assoc], ?_, hle₁.trans hle₂, ?_⟩
    · intro event hevent
      rcases List.mem_append.1 hevent with hevent | hevent
      · exact hp₁ event hevent
      · exact hp₂ event hevent
    · have hsplit : s₂.nextId - s.nextId = (s₁.nextId - s.nextId) + (s₂.nextId - s₁.nextId) := by omega
      have hnext : s.nextId + 1 + (s₁.nextId - s.nextId) = s₁.nextId + 1 := by omega
      rw [List.filterMap_append, hids₁, hids₂, hsplit, ← List.range'_append_1, hnext]

/-- Every run of the operation emits only such events. -/
abbrev EmitsOnly {α : Type} (p : Event → Prop) (x : Wallet α) : Prop := Action.Keeps (Emits p) x

section

variable {p : Event → Prop}

theorem emitsOnly_fetch {env : Environment} {url : JsString} {call : RpcCall}
    (h : ∀ id, p (.request url id call)) : EmitsOnly p (fetch env url call) := by
  intro s r s' hrun
  obtain ⟨rfl, rfl⟩ := Prod.mk.inj (Action.update_ends.1 hrun)
  exact ⟨[.request url (s.nextId + 1) call], rfl, by simpa using h _, by simp, by simp [Event.requestId]⟩

theorem emitsOnly_act {α : Type} {event : Event} {answer : List Event → Js α} (hevent : event.requestId = none)
    (h : p event) : EmitsOnly p (act event answer) := by
  intro s r s' hrun
  obtain ⟨rfl, rfl⟩ := Prod.mk.inj (Action.update_ends.1 hrun)
  exact ⟨[event], rfl, by simpa using h, le_rfl, by simp [hevent]⟩

theorem emitsOnly_dateNow {env : Environment} (h : ∀ now, p (.clock now)) : EmitsOnly p (dateNow env) := by
  intro s r s' hrun
  obtain ⟨rfl, rfl⟩ := Prod.mk.inj (Action.update_ends.1 hrun)
  exact ⟨[.clock (env.now s.events)], rfl, by simpa using h _, le_rfl, by simp [Event.requestId]⟩

end

end CkbDilithium.Sdk
