import CkbDilithium.System.Balance
import CkbDilithium.System.Effects

/-!
# Waiting for a balance

Each attempt of `waitForBalance` lists the cells of the wallet anew. It returns the first state that reaches the
threshold, and otherwise reports the last one when the time is over; an attempt that fails ends the wait. Against an
indexer whose keys come from a finite set it ends, and the state it returns is a count of what the indexer showed
during the last attempt.
-/

namespace CkbDilithium.System

open Sdk Js Pagination

variable {env : Environment} {config : RpcConfig} {wasm : WasmExports} {publicKey : Bytes}
  {scriptConfig : DilithiumScriptConfig}

/-! ### The attempts -/

theorem total_getWalletState {fuel : Nat}
    (h : ∀ lock, buildLockScript wasm scriptConfig.codeHash scriptConfig.hashType (.uint8Array publicKey) = .ok lock →
      (CkbRpcClient.getCells env config fuel lock (.ofNat 100)).Total) :
    (getWalletState env config fuel wasm publicKey scriptConfig).Total := by
  refine .lift_bind fun lock hlock => .lift_bind fun address _ => .bind ?_ fun summary => .lift_bind fun minimum _ =>
    .pure _
  exact .bind (h lock hlock) fun cells => .lift_bind fun total _ => .pure _

/-- The clock is read and the threshold checked before the loop. -/
theorem waitForBalance_iff {fuel : Nat} {options : WaitForBalanceOptions} {s s' : Session}
    {r : Js (Polled WalletState)} :
    (waitForBalance env config fuel wasm publicKey scriptConfig options).Ends s r s' ↔
      (∃ e, normalizeMinCapacity options.minCapacity = .error e ∧ r = .error e ∧ s' = tick env s) ∨
      ∃ minCapacity, normalizeMinCapacity options.minCapacity = .ok minCapacity ∧
        (poll env fuel (env.now s.events) (options.timeoutMs.getD defaultWaitTimeoutMs)
          (options.intervalMs.getD defaultWaitIntervalMs)
          (getWalletState env config fuel wasm publicKey scriptConfig) (balanceReached minCapacity)
          (balanceWaitTimeoutError (options.timeoutMs.getD defaultWaitTimeoutMs) minCapacity)).Ends
            (tick env s) r s' := by
  simp only [waitForBalance, Action.bind_ends, dateNow_ends, Action.lift_ends]
  cases hmin : normalizeMinCapacity options.minCapacity with
  | error e => simp [eq_comm]
  | ok minCapacity => simp

/-! ### What a wait comes to -/

section

variable {κ : Type} [LinearOrder κ]

/-- How a wait ends whose attempt `n + 1` lists the cells with the requests after `first`. -/
inductive BalanceOutcome (env : Environment) (config : RpcConfig) (fuel : Nat) (wasm : WasmExports)
    (publicKey : Bytes) (scriptConfig : DilithiumScriptConfig) (stores : Nat → Store κ RpcIndexerCell)
    (minCapacity : Option Int) (timeoutMs : JsNumber) (start : Int) (n : Nat) (before : Session) :
    Session → Js (Polled WalletState) → Prop
  | reached {state : WalletState} {entries : List (κ × RpcIndexerCell)} {after : Session}
      (counted : Counted stores before.nextId after.nextId entries state.totalCapacity state.liveCells)
      (enough : balanceThreshold minCapacity state ≤ state.totalCapacity) (live : 0 < state.liveCells) :
      BalanceOutcome env config fuel wasm publicKey scriptConfig stores minCapacity timeoutMs start n before
        (tick env after) (.ok ⟨state, n + 1, env.now after.events - start⟩)
  | timedOut {state : WalletState} {entries : List (κ × RpcIndexerCell)} {after : Session}
      (counted : Counted stores before.nextId after.nextId entries state.totalCapacity state.liveCells)
      (short : state.totalCapacity < balanceThreshold minCapacity state ∨ state.liveCells = 0)
      (expired : timeIsOver (env.now after.events - start) timeoutMs = true) :
      BalanceOutcome env config fuel wasm publicKey scriptConfig stores minCapacity timeoutMs start n before
        (tick env (tick env after))
        (.error (balanceWaitTimeoutError timeoutMs minCapacity
          ⟨state, n + 1, env.now (tick env after).events - start⟩))
  | failed {error : JsError} {after : Session}
      (attempt : (getWalletState env config fuel wasm publicKey scriptConfig).Ends before (.error error) after) :
      BalanceOutcome env config fuel wasm publicKey scriptConfig stores minCapacity timeoutMs start n before after
        (.error error)

variable {lock : LockScript} {stores : Nat → Store κ RpcIndexerCell} {encode : κ → JsString}

/-- A state that is returned counts what the attempt listed. -/
theorem getWalletState_counted {fuel : Nat} {s s' : Session} {state : WalletState}
    (hlock : buildLockScript wasm scriptConfig.codeHash scriptConfig.hashType (.uint8Array publicKey) = .ok lock)
    (hanswers : Answers env.transport config lock 100 stores encode)
    (h : (getWalletState env config fuel wasm publicKey scriptConfig).Ends s (.ok state) s') :
    ∃ entries, Counted stores s.nextId s'.nextId entries state.totalCapacity state.liveCells := by
  obtain ⟨lock', address, summary, minimum, hlock', -, hsummary, -, rfl⟩ := getWalletState_returns.1 h
  obtain rfl := Result.ok_unique hlock hlock'
  exact (getBalanceSummary_counted hanswers hsummary).2

/-- **A wait for a balance ends**, however the store of the indexer changes among finitely many keys: when the clock
advances and the timeout is a finite number, within as many attempts as its intervals fit the timeout and one more.
It returns at
the first attempt whose count reaches the threshold with a live cell, and reports a count that does not only when
the time is over. -/
theorem waitForBalance_decides (hclock : ClockAdvances env)
    (hlock : buildLockScript wasm scriptConfig.codeHash scriptConfig.hashType (.uint8Array publicKey) = .ok lock)
    (hanswers : Answers env.transport config lock 100 stores encode) {keys : Finset κ}
    (hkeys : ∀ id, ∀ e ∈ (stores id).entries, e.1 ∈ keys) {options : WaitForBalanceOptions} {timeout : ℚ}
    (htimeout : options.timeoutMs.getD defaultWaitTimeoutMs = .finite timeout) {fuel : Nat}
    (hfuel : roundsInTime timeout (options.intervalMs.getD defaultWaitIntervalMs) < fuel) (hcard : keys.card < fuel)
    (s : Session) :
    ∃ r s', (waitForBalance env config fuel wasm publicKey scriptConfig options).Ends s r s' ∧
      ((∃ e, normalizeMinCapacity options.minCapacity = .error e ∧ r = .error e ∧ s' = tick env s) ∨
        ∃ minCapacity, normalizeMinCapacity options.minCapacity = .ok minCapacity ∧
          ∃ n ≤ roundsInTime timeout (options.intervalMs.getD defaultWaitIntervalMs), ∃ before,
            Waited env (env.now s.events) (.finite timeout) (options.intervalMs.getD defaultWaitIntervalMs)
              (getWalletState env config fuel wasm publicKey scriptConfig) (balanceReached minCapacity) n
              (tick env s) before ∧
            BalanceOutcome env config fuel wasm publicKey scriptConfig stores minCapacity (.finite timeout)
              (env.now s.events) n before s' r) := by
  have htotal : (getWalletState env config fuel wasm publicKey scriptConfig).Total := by
    refine total_getWalletState fun lock' hlock' => ?_
    obtain rfl := Result.ok_unique hlock hlock'
    exact total_getCells hanswers hkeys hcard
  have hemits : EmitsOnly (fun _ => True) (getWalletState env config fuel wasm publicKey scriptConfig) :=
    emitsOnly_getWalletState (fun _ _ => trivial) fuel
  simp only [waitForBalance_iff, htimeout]
  cases hmin : normalizeMinCapacity options.minCapacity with
  | error e => exact ⟨.error e, tick env s, Or.inl ⟨e, rfl, rfl, rfl⟩, Or.inl ⟨e, rfl, rfl, rfl⟩⟩
  | ok minCapacity =>
    have hstart : env.now s.events ≤ env.now (tick env s).events := hclock.forward s.events _
    obtain ⟨r, s', hpoll⟩ := poll_total hclock htotal hemits hstart hfuel
    refine ⟨r, s', Or.inr ⟨minCapacity, rfl, hpoll⟩, Or.inr ⟨minCapacity, rfl, ?_⟩⟩
    obtain ⟨n, -, before, hwaited, hlast⟩ := poll_ends.1 hpoll
    have hn : n ≤ roundsInTime timeout (options.intervalMs.getD defaultWaitIntervalMs) := by
      have hle := hwaited.le_roundsInTime hclock hemits (k := 0) (by simpa using hstart) (Nat.zero_le _)
      omega
    refine ⟨n, hn, before, hwaited, ?_⟩
    rcases hlast with ⟨e, rfl, hasked⟩ | ⟨state, after, hasked, ⟨hreached, rfl, rfl⟩ | ⟨hshort, hover, rfl, rfl⟩⟩
    · exact .failed hasked
    · obtain ⟨entries, hcounted⟩ := getWalletState_counted hlock hanswers hasked
      simp only [balanceReached, Bool.and_eq_true, decide_eq_true_eq] at hreached
      exact .reached hcounted hreached.1 hreached.2
    · obtain ⟨entries, hcounted⟩ := getWalletState_counted hlock hanswers hasked
      simp only [balanceReached, Bool.and_eq_false_iff, decide_eq_false_iff_not, not_le, not_lt,
        Nat.le_zero] at hshort
      exact .timedOut hcounted hshort hover

end

/-- 250 CKB are never there. -/
def balanceWait : WaitForBalanceOptions where
  minCapacity := some (.bigint 25000000000)
  timeoutMs := some (.ofNat 8)
  intervalMs := some (.ofNat 4)

theorem changingStores_keys (id : Nat) : ∀ e ∈ (changingStores id).entries, e.1 ∈ ({1, 2, 3, 4} : Finset Nat) := by
  intro e he
  by_cases hid : id ≤ 1
  · rw [changingStores, if_pos hid] at he
    simp only [numberedStore, List.map_cons, List.map_nil, List.mem_cons, List.not_mem_nil, or_false] at he
    rcases he with rfl | rfl <;> simp
  · rw [changingStores, if_neg hid] at he
    simp only [numberedStore, List.map_cons, List.map_nil, List.mem_cons, List.not_mem_nil, or_false] at he
    rcases he with rfl | rfl | rfl <;> simp

theorem waitForBalance_decides_indexedNode :
    ∃ r s', (waitForBalance (indexedNode changingStores) numberedConfig 6 sampleWasm zeroPublicKey
      sampleTransfer.scriptConfig balanceWait).Ends ⟨0, []⟩ r s' := by
  have hrounds : roundsInTime 8 (balanceWait.intervalMs.getD defaultWaitIntervalMs) = 2 := by
    have hdelay : timerDelay (balanceWait.intervalMs.getD defaultWaitIntervalMs) = 4 := by decide +kernel
    rw [roundsInTime, hdelay]
    norm_num
  have hclock : ClockAdvances (indexedNode changingStores) := timedEnvironment_advances _
  have hlock : buildLockScript sampleWasm sampleTransfer.scriptConfig.codeHash sampleTransfer.scriptConfig.hashType
      (.uint8Array zeroPublicKey) = .ok senderLock := senderLock_eq_buildLockScript
  have htimeout : balanceWait.timeoutMs.getD defaultWaitTimeoutMs = .finite 8 := rfl
  have hfuel : roundsInTime 8 (balanceWait.intervalMs.getD defaultWaitIntervalMs) < 6 := by
    rw [hrounds]
    decide
  obtain ⟨r, s', hends, -⟩ := waitForBalance_decides hclock hlock
    (indexedNode_answers changingStores numberedConfig senderLock) changingStores_keys htimeout hfuel (by decide)
    ⟨0, []⟩
  exact ⟨r, s', hends⟩

end CkbDilithium.System
