import CkbDilithium.Lib.Pagination
import CkbDilithium.Sdk.Indexer

/-!
# Discovery over a changing store

The indexer answers a request with a page of the store it has at that moment, and names the last key of
the page in its cursor (`Answers`). The loop of `getCells` then collects what `Pagination.Collected` says:
its cursor encodes the last key it has seen, and of its two exits only the empty page is ever taken,
since a page lies beyond the cursor it was asked with. The cells it returns have the fields that the
indexer sent (`AsSent`).
-/

namespace CkbDilithium.System

open Sdk Js Pagination

variable {κ : Type} [LinearOrder κ]

/-- What is assumed of the indexer: `stores id` are the cells of the lock when the request `id` is
answered, under the indexer's keys. A request may fail; when it does not, it has the first `limit`
entries beyond the key that its cursor encodes, and the cursor of a page that is not empty encodes its
last key. -/
structure Answers (transport : Transport) (config : RpcConfig) (lock : LockScript) (limit : Nat)
    (stores : Nat → Store κ RpcIndexerCell) (encode : κ → JsString) : Prop where
  injective : Function.Injective encode
  objects : ∀ (id : Nat) (after : Option κ) (response : IndexerCellsResponse),
    transport config.endpoint id (getCellsParams lock (hexQuantity limit) (after.map encode)) =
      .success response →
    response.objects = ((stores id).page after limit).map Prod.snd
  lastCursor : ∀ (id : Nat) (after : Option κ) (response : IndexerCellsResponse) (last : κ × RpcIndexerCell),
    transport config.endpoint id (getCellsParams lock (hexQuantity limit) (after.map encode)) =
      .success response →
    last ∈ ((stores id).page after limit).getLast? → response.lastCursor = encode last.1

/-! ### What arrives -/

/-- The cells the entries stand for, as the client returns them. -/
def cellsOf (entries : List (κ × RpcIndexerCell)) : List LiveCell :=
  entries.map fun entry => fromRpcIndexerCell entry.2

/-- The script has the fields that were sent. -/
structure ScriptAsSent (sent : RpcScript) (script : LockScript) : Prop where
  codeHash : script.codeHash = sent.codeHash
  hashType : script.hashType = sent.hashType
  args : script.args = sent.args

/-- The cell has the fields that were sent; it has a type script when one was sent. -/
structure AsSent (sent : RpcIndexerCell) (cell : LiveCell) : Prop where
  txHash : cell.outPoint.txHash = sent.outPoint.txHash
  index : cell.outPoint.index = sent.outPoint.index
  capacity : cell.output.capacity = sent.output.capacity
  lock : ScriptAsSent sent.output.lock cell.output.lock
  type : Option.Rel ScriptAsSent sent.output.type cell.output.type
  outputData : cell.outputData = sent.outputData
  blockNumber : cell.blockNumber = sent.blockNumber
  txIndex : cell.txIndex = sent.txIndex

/-- The cells are those of the entries, one for each and in their order. -/
def Delivers (entries : List (κ × RpcIndexerCell)) (cells : List LiveCell) : Prop :=
  List.Forall₂ (fun entry cell => AsSent entry.2 cell) entries cells

theorem fromRpcScript_asSent (sent : RpcScript) : ScriptAsSent sent (fromRpcScript sent) := ⟨rfl, rfl, rfl⟩

/-- The conversion keeps every field. -/
theorem fromRpcIndexerCell_asSent (sent : RpcIndexerCell) : AsSent sent (fromRpcIndexerCell sent) where
  txHash := rfl
  index := rfl
  capacity := rfl
  lock := fromRpcScript_asSent _
  type := by
    rw [fromRpcIndexerCell, fromRpcCellOutput]
    cases sent.output.type with
    | none => exact .none
    | some type => exact .some (fromRpcScript_asSent type)
  outputData := rfl
  blockNumber := rfl
  txIndex := rfl

omit [LinearOrder κ] in
theorem cellsOf_delivers (entries : List (κ × RpcIndexerCell)) : Delivers entries (cellsOf entries) :=
  List.forall₂_map_right_iff.2 (List.forall₂_same.2 fun entry _ => fromRpcIndexerCell_asSent entry.2)

omit [LinearOrder κ] in
theorem Delivers.exists_of_mem {entries : List (κ × RpcIndexerCell)} {cells : List LiveCell}
    (h : Delivers entries cells) {entry : κ × RpcIndexerCell} (hentry : entry ∈ entries) :
    ∃ cell ∈ cells, AsSent entry.2 cell := by
  induction h with
  | nil => cases hentry
  | @cons first cell entries cells hfirst _ ih =>
    rcases List.mem_cons.1 hentry with rfl | hrest
    · exact ⟨cell, List.mem_cons_self, hfirst⟩
    · obtain ⟨found, hfound, hsent⟩ := ih hrest
      exact ⟨found, List.mem_cons_of_mem _ hfound, hsent⟩

/-! ### The loop -/

/-- The variables of the loop hold the entries collected since the request `first`. -/
structure Discovered (stores : Nat → Store κ RpcIndexerCell) (encode : κ → JsString) (first : Nat)
    (state : GetCellsState) (after : Option κ) (entries : List (κ × RpcIndexerCell)) : Prop where
  objects : state.objects = cellsOf entries
  cursor : state.cursor = after.map encode
  first_le : first ≤ state.nextId
  collected : Collected stores first state.nextId after entries

section Loop

variable {transport : Transport} {config : RpcConfig} {lock : LockScript} {limit first : Nat}
  {stores : Nat → Store κ RpcIndexerCell} {encode : κ → JsString} {state : GetCellsState} {after : Option κ}
  {entries : List (κ × RpcIndexerCell)}

theorem Discovered.start (stores : Nat → Store κ RpcIndexerCell) (encode : κ → JsString) (first : Nat) :
    Discovered stores encode first ⟨[], none, first⟩ none [] :=
  ⟨rfl, rfl, le_rfl, Collected.start stores first⟩

/-- The exit on an unchanged cursor is not taken. -/
theorem Answers.cursor_ne (h : Answers transport config lock limit stores encode) {id : Nat}
    {last : κ × RpcIndexerCell} (hlast : last ∈ (stores id).page after limit) :
    some (encode last.1) ≠ after.map encode := by
  intro heq
  cases after with
  | none => cases heq
  | some key =>
    have hkey : last.1 = key := h.injective (Option.some.inj heq)
    have hbeyond := Store.beyond_of_mem_page hlast
    rw [beyond_some, hkey] at hbeyond
    exact lt_irrefl _ hbeyond

/-- **One round.** It returns what has been collected when its page is empty, and collects its page
otherwise. -/
theorem Discovered.round (h : Discovered stores encode first state after entries)
    (hanswers : Answers transport config lock limit stores encode) {step : GetCellsStep}
    (hstep : getCellsPage transport config lock (.ofNat limit) state = .ok step) :
    ((stores (state.nextId + 1)).page after limit = [] ∧
      ∃ final, step = .return final ∧ final.objects = cellsOf entries ∧ final.nextId = state.nextId + 1) ∨
    ∃ next last, step = .continue next ∧ next.nextId = state.nextId + 1 ∧
      last ∈ (stores (state.nextId + 1)).page after limit ∧
      Discovered stores encode first next (some last.1)
        (entries ++ (stores (state.nextId + 1)).page after limit) := by
  obtain ⟨quantity, page, hquantity, hpage, rfl⟩ := getCellsPage_eq_ok.1 hstep
  obtain ⟨-, rfl⟩ := toHexQuantity_ofNat.1 hquantity
  rw [h.cursor] at hpage
  have hobjects := hanswers.objects _ _ _ hpage
  cases hlast : ((stores (state.nextId + 1)).page after limit).getLast? with
  | none =>
    have hnil := List.getLast?_eq_none_iff.1 hlast
    rw [hnil, List.map_nil] at hobjects
    refine Or.inl ⟨hnil, _, if_pos (Or.inl hobjects), ?_, rfl⟩
    rw [hobjects, List.map_nil, List.append_nil, h.objects]
  | some last =>
    have hmem := List.mem_of_getLast? hlast
    have hcursor := hanswers.lastCursor _ _ _ last hpage hlast
    have hnot : ¬ (page.objects = [] ∨ some page.lastCursor = state.cursor) := by
      rw [hobjects, List.map_eq_nil_iff, hcursor, h.cursor]
      rintro (hnil | hsame)
      · rw [hnil] at hmem
        exact List.not_mem_nil hmem
      · exact hanswers.cursor_ne hmem hsame
    refine Or.inr ⟨_, last, if_neg hnot, rfl, hmem, ?_, ?_, Nat.le_succ_of_le h.first_le,
      h.collected.next h.first_le hlast⟩
    · simp only [hobjects, h.objects, cellsOf, List.map_append, List.map_map]
      rfl
    · rw [hcursor, Option.map_some]

/-- **A run that returns** has collected whatever stayed in the store. -/
theorem Discovered.run (h : Discovered stores encode first state after entries)
    (hanswers : Answers transport config lock limit stores encode) (hlimit : 1 ≤ limit) {fuel : Nat}
    {final : GetCellsState}
    (hrun : getCellsLoop transport config lock (.ofNat limit) fuel state = some (.ok final)) :
    ∃ all : List (κ × RpcIndexerCell), final.objects = cellsOf all ∧ all.Pairwise (fun a b => a.1 < b.1) ∧
      (∀ e, (∀ id, first < id → id ≤ final.nextId → e ∈ (stores id).entries) → e ∈ all) ∧
      ∀ e ∈ all, ∃ id, first < id ∧ id ≤ final.nextId ∧ e ∈ (stores id).entries := by
  induction fuel generalizing state after entries with
  | zero => cases hrun
  | succ fuel ih =>
    rw [getCellsLoop] at hrun
    cases hstep : getCellsPage transport config lock (.ofNat limit) state with
    | error error =>
      rw [hstep] at hrun
      cases hrun
    | ok step =>
      rw [hstep] at hrun
      rcases h.round hanswers hstep with ⟨hnil, last, rfl, hobjects, hid⟩ | ⟨next, last, rfl, -, -, hnext⟩
      · cases hrun
        refine ⟨entries, hobjects, h.collected.sorted, ?_, ?_⟩
        · rw [hid]
          exact h.collected.last h.first_le hlimit hnil
        · intro e he
          obtain ⟨id, hfirst, hle, hin⟩ := h.collected.found e he
          exact ⟨id, hfirst, by omega, hin⟩
      · exact ih hnext hrun

/-- **A store that does not change** is read to its end, in at most as many further rounds as entries
are left, and one. -/
theorem Discovered.terminates (h : Discovered stores encode first state after entries)
    (hanswers : Answers transport config lock limit stores encode) (hsafe : limit ≤ 2 ^ 53 - 1)
    {store : Store κ RpcIndexerCell} (hstores : ∀ id, first < id → stores id = store)
    (hsuccess : ∀ (id : Nat) (key : Option κ), ∃ response,
      transport config.endpoint id (getCellsParams lock (hexQuantity limit) (key.map encode)) = .success response)
    {fuel : Nat} (hfuel : store.remaining after < fuel) :
    ∃ final, getCellsLoop transport config lock (.ofNat limit) fuel state = some (.ok final) := by
  induction fuel generalizing state after entries with
  | zero => omega
  | succ fuel ih =>
    obtain ⟨page, hpage⟩ := hsuccess (state.nextId + 1) after
    rw [← h.cursor] at hpage
    have hstep := getCellsPage_eq_ok.2 ⟨_, page, toHexQuantity_ofNat.2 ⟨hsafe, rfl⟩, hpage, rfl⟩
    rw [getCellsLoop, hstep]
    rcases h.round hanswers hstep with ⟨-, final, heq, -⟩ | ⟨next, last, heq, -, hmem, hnext⟩
    · rw [heq]
      exact ⟨final, rfl⟩
    · rw [heq]
      rw [hstores _ (Nat.lt_succ_of_le h.first_le)] at hmem
      apply ih hnext
      have hlt := Store.remaining_lt hmem
      omega

/-- **Discovery neither loses nor repeats a cell**, whatever happens to the store between the requests. The
cells of a call that returns are those of entries with strictly ascending keys, each with the fields that the
indexer sent; every entry that is in the store at each request of the call is among them, and each of them
was in the store at some request. Against a store that does not change, with requests that succeed, the call
returns the whole store in order; only a limit that is not a safe integer is refused, before any request. -/
theorem getCells_discovers (hanswers : Answers transport config lock limit stores encode) (hlimit : 1 ≤ limit)
    (first : Nat) :
    (∀ fuel final, getCells transport config lock (.ofNat limit) fuel first = some (.ok final) →
      ∃ entries : List (κ × RpcIndexerCell), Delivers entries final.objects ∧
        entries.Pairwise (fun a b => a.1 < b.1) ∧
        (∀ e, (∀ id, first < id → id ≤ final.nextId → e ∈ (stores id).entries) →
          e ∈ entries ∧ ∃ cell ∈ final.objects, AsSent e.2 cell) ∧
        ∀ e ∈ entries, ∃ id, first < id ∧ id ≤ final.nextId ∧ e ∈ (stores id).entries) ∧
    (∀ store, (∀ id, first < id → stores id = store) → limit ≤ 2 ^ 53 - 1 →
      (∀ (id : Nat) (key : Option κ), ∃ response, transport config.endpoint id
        (getCellsParams lock (hexQuantity limit) (key.map encode)) = .success response) →
      ∀ fuel, store.entries.length < fuel →
        ∃ final, getCells transport config lock (.ofNat limit) fuel first = some (.ok final) ∧
          Delivers store.entries final.objects) ∧
    (2 ^ 53 - 1 < limit → ∀ fuel, getCells transport config lock (.ofNat limit) (fuel + 1) first =
      some (raise (lit "number value must be a non-negative safe integer"))) := by
  have hstart := Discovered.start stores encode first
  refine ⟨?_, ?_, getCells_refuses transport config lock first⟩
  · intro fuel final hrun
    obtain ⟨entries, hobjects, hsorted, hcovers, hfound⟩ := hstart.run hanswers hlimit hrun
    have hdelivers : Delivers entries final.objects := hobjects ▸ cellsOf_delivers entries
    refine ⟨entries, hdelivers, hsorted, fun e hstays => ?_, hfound⟩
    exact ⟨hcovers e hstays, hdelivers.exists_of_mem (hcovers e hstays)⟩
  · intro store hstores hsafe hsuccess fuel hfuel
    have hremaining : store.remaining none < fuel := by
      exact lt_of_le_of_lt (List.length_filter_le _ _) hfuel
    obtain ⟨final, hrun⟩ := hstart.terminates hanswers hsafe hstores hsuccess hremaining
    obtain ⟨entries, hobjects, hsorted, hcovers, hfound⟩ := hstart.run hanswers hlimit hrun
    have hentries : store.entries = entries := by
      refine (store.eq_entries hsorted fun e => ⟨fun he => ?_, fun he => ?_⟩).symm
      · obtain ⟨id, hfirst, -, hin⟩ := hfound e he
        rwa [hstores id hfirst] at hin
      · apply hcovers e
        intro id hfirst _
        rwa [hstores id hfirst]
    refine ⟨final, hrun, ?_⟩
    rw [hobjects, hentries]
    exact cellsOf_delivers entries

end Loop

/-! ### An indexer with numbers as keys -/

/-- Its cursors are the keys as hex quantities. -/
def numberedIndexer (stores : Nat → Store Nat RpcIndexerCell) : Transport := fun _ id params =>
  let after := params.cursor.bind fun cursor => parseDigits 16 (cursor.drop 2)
  let page := (stores id).page after ((parseDigits 16 (params.limit.drop 2)).getD 0)
  .success ⟨(page.getLast?.map fun last => hexQuantity last.1).getD (lit "0x"), page.map Prod.snd⟩

theorem parseDigits_hexQuantity (n : Nat) : parseDigits 16 ((hexQuantity n).drop 2) = some n :=
  parseDigits_toRadix n

theorem numberedIndexer_answers (stores : Nat → Store Nat RpcIndexerCell) (config : RpcConfig)
    (lock : LockScript) (limit : Nat) :
    Answers (numberedIndexer stores) config lock limit stores fun key => hexQuantity key := by
  have hcursor : ∀ after : Option Nat, ((after.map fun key : Nat => hexQuantity key).bind fun cursor =>
      parseDigits 16 (cursor.drop 2)) = after := by
    intro after
    cases after with
    | none => rfl
    | some key => exact parseDigits_hexQuantity key
  refine ⟨?_, ?_, ?_⟩
  · intro key key' heq
    have hread := congrArg (fun cursor => parseDigits 16 (cursor.drop 2)) heq
    rw [parseDigits_hexQuantity, parseDigits_hexQuantity] at hread
    exact Option.some.inj hread
  · intro id after response h
    simp only [numberedIndexer, getCellsParams, hcursor, parseDigits_hexQuantity, Option.getD_some] at h
    cases h
    rfl
  · intro id after response last h hlast
    simp only [numberedIndexer, getCellsParams, hcursor, parseDigits_hexQuantity, Option.getD_some] at h
    cases h
    rw [Option.mem_def.1 hlast]
    rfl

def numberedLock : LockScript where
  codeHash := bytesToHex (List.replicate 32 0x11)
  hashType := lit "data2"
  args := bytesToHex (List.replicate 32 0x22)

def numberedCell (n : Nat) : RpcIndexerCell where
  blockNumber := hexQuantity n
  outPoint := ⟨bytesToHex (List.replicate 32 0x77), hexQuantity n⟩
  output := ⟨hexQuantity 8000000000, toRpcScript numberedLock, none⟩
  outputData := lit "0x"
  txIndex := lit "0x0"

def numberedStore (keys : List Nat) (h : keys.Pairwise (· < ·)) : Store Nat RpcIndexerCell where
  entries := keys.map fun key => (key, numberedCell key)
  sorted := List.pairwise_map.2 h

/-- After the first request a cell goes and two come. -/
def changingStores (id : Nat) : Store Nat RpcIndexerCell :=
  if id ≤ 1 then numberedStore [1, 3] (by decide) else numberedStore [2, 3, 4] (by decide)

def numberedConfig : RpcConfig := ⟨lit "http://127.0.0.1:8114", none⟩

/-- Page by page the call returns, with the cell that stayed; and of a store that does not change, it
returns all. -/
theorem getCells_discovers_numbered :
    (∃ final, getCells (numberedIndexer changingStores) numberedConfig numberedLock (.ofNat 1) 6 0 =
        some (.ok final) ∧ ∃ cell ∈ final.objects, AsSent (numberedCell 3) cell) ∧
    ∃ final, getCells (numberedIndexer fun _ => numberedStore [2, 3, 4] (by decide)) numberedConfig numberedLock
        (.ofNat 1) 4 0 = some (.ok final) ∧
      List.Forall₂ (fun n cell => AsSent (numberedCell n) cell) [2, 3, 4] final.objects := by
  constructor
  · have hrun : getCells (numberedIndexer changingStores) numberedConfig numberedLock (.ofNat 1) 6 0 =
        some (.ok ⟨[1, 2, 3, 4].map fun n => fromRpcIndexerCell (numberedCell n), some (hexQuantity 4), 5⟩) := by
      decide +kernel
    obtain ⟨entries, -, -, hcovers, -⟩ :=
      (getCells_discovers (numberedIndexer_answers changingStores numberedConfig numberedLock 1) le_rfl 0).1 _ _ hrun
    refine ⟨_, hrun, (hcovers (3, numberedCell 3) fun id _ _ => ?_).2⟩
    by_cases hid : id ≤ 1
    · rw [changingStores, if_pos hid]
      exact List.mem_cons_of_mem _ List.mem_cons_self
    · rw [changingStores, if_neg hid]
      exact List.mem_cons_of_mem _ List.mem_cons_self
  · obtain ⟨final, hrun, hdelivers⟩ :=
      (getCells_discovers (numberedIndexer_answers _ numberedConfig numberedLock 1) le_rfl 0).2.1
        (numberedStore [2, 3, 4] (by decide)) (fun _ _ => rfl) (by decide) (fun _ _ => ⟨_, rfl⟩) 4 (by decide)
    have hcells : List.Forall₂ (fun entry cell => AsSent entry.2 cell)
        ([2, 3, 4].map fun key => (key, numberedCell key)) final.objects := hdelivers
    rw [List.forall₂_map_left_iff] at hcells
    exact ⟨final, hrun, hcells⟩

end CkbDilithium.System
