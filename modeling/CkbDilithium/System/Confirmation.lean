import CkbDilithium.System.Waiting

/-!
# Waiting for a confirmation

Each attempt is one `get_transaction` request, so what `waitForTransactionConfirmation` does is decided by the
replies to consecutive ids. It returns at the first reply with an accepted status; a rejected transaction is asked for
again until the time is over, and a failed request ends the wait at once.
-/

namespace CkbDilithium.System

open Sdk Js

/-- The reply to a `get_transaction` request. -/
def transactionReply (env : Environment) (config : RpcConfig) (txHash : JsString) (id : Nat) : HttpReply Json :=
  env.reply config.rpcUrl id (.getTransaction txHash)

variable {env : Environment} {config : RpcConfig}

theorem getTransaction_ends {txHash : JsString} {s s' : Session} {r : Js Json} :
    (CkbRpcClient.getTransaction env config txHash).Ends s r s' ↔
      r = Sdk.request (lit "get_transaction") (transactionReply env config txHash (s.nextId + 1)) ∧
        s' = ⟨s.nextId + 1, s.events ++ [.request config.rpcUrl (s.nextId + 1) (.getTransaction txHash)]⟩ :=
  CkbRpcClient.request_ends

theorem total_getTransaction (txHash : JsString) : (CkbRpcClient.getTransaction env config txHash).Total :=
  CkbRpcClient.total_request _ _

theorem emitsOnly_getTransaction {p : Event → Prop} {txHash : JsString}
    (h : ∀ id, p (.request config.rpcUrl id (.getTransaction txHash))) :
    EmitsOnly p (CkbRpcClient.getTransaction env config txHash) :=
  CkbRpcClient.emitsOnly_request h

/-- The attempts that slept had the first replies, none of them accepted. -/
theorem Waited.replies {start : Int} {timeoutMs intervalMs : JsNumber} {txHash : JsString} {accepts : Json → Bool}
    {n : Nat} {s s' : Session}
    (h : Waited env start timeoutMs intervalMs (CkbRpcClient.getTransaction env config txHash) accepts n s s') :
    s'.nextId = s.nextId + n ∧ ∀ k < n, ∃ transaction,
      transactionReply env config txHash (s.nextId + k + 1) = .success transaction ∧ accepts transaction = false := by
  induction h with
  | zero s => exact ⟨rfl, by simp⟩
  | @succ n s s₁ s' found hasked hrefused _ _ ih =>
    obtain ⟨hreply, rfl⟩ := getTransaction_ends.1 hasked
    obtain ⟨hid, hrest⟩ := ih
    simp only [slept, tick] at hid hrest
    refine ⟨by omega, fun k hk => ?_⟩
    cases k with
    | zero => exact ⟨found, request_eq_ok.1 hreply.symm, hrefused⟩
    | succ k =>
      have hnext := hrest k (by omega)
      rwa [show s.nextId + 1 + k + 1 = s.nextId + (k + 1) + 1 by omega] at hnext

/-- How a wait ends that began at `start` and whose attempt `n + 1` had the reply to the id `id`, with the
clock as it was read last. -/
inductive ConfirmationOutcome (env : Environment) (config : RpcConfig) (txHash : JsString) (timeoutMs : JsNumber)
    (accepted : List WalletTransactionStatus) (start : Int) (n id : Nat) : List Event → Js (Polled Json) → Prop
  | confirmed {transaction : Json} {events : List Event} {now : Int}
      (reply : transactionReply env config txHash id = .success transaction)
      (status : transactionStatus transaction ∈ accepted) :
      ConfirmationOutcome env config txHash timeoutMs accepted start n id (events ++ [.clock now])
        (.ok ⟨transaction, n + 1, now - start⟩)
  | timedOut {transaction : Json} {events : List Event} {now later : Int}
      (reply : transactionReply env config txHash id = .success transaction)
      (status : transactionStatus transaction ∉ accepted) (expired : timeIsOver (now - start) timeoutMs = true) :
      ConfirmationOutcome env config txHash timeoutMs accepted start n id (events ++ [.clock now, .clock later])
        (.error (confirmationTimeoutError txHash timeoutMs ⟨transaction, n + 1, later - start⟩))
  | failed {events : List Event} {error : JsError}
      (reply : Sdk.request (lit "get_transaction") (transactionReply env config txHash id) = .error error) :
      ConfirmationOutcome env config txHash timeoutMs accepted start n id events (.error error)

/-- The clock is read once before the loop. -/
theorem waitForTransactionConfirmation_iff {fuel : Nat} {options : WaitForTransactionConfirmationOptions}
    {s s' : Session} {r : Js (Polled Json)} :
    (waitForTransactionConfirmation env config fuel options).Ends s r s' ↔
      (poll env fuel (env.now s.events) (options.timeoutMs.getD defaultWaitTimeoutMs)
        (options.intervalMs.getD defaultWaitIntervalMs) (CkbRpcClient.getTransaction env config options.txHash)
        (fun transaction =>
          (options.acceptedStatuses.getD defaultAcceptedStatuses).contains (transactionStatus transaction))
        (confirmationTimeoutError options.txHash (options.timeoutMs.getD defaultWaitTimeoutMs))).Ends
          (tick env s) r s' := by
  rw [waitForTransactionConfirmation, Action.bind_ends]
  simp [dateNow_ends]

/-- **What a wait comes to**: some replies that are not accepted, and one that ends it. -/
theorem waitForTransactionConfirmation_ends {fuel : Nat} {options : WaitForTransactionConfirmationOptions}
    {s s' : Session} {r : Js (Polled Json)}
    (h : (waitForTransactionConfirmation env config fuel options).Ends s r s') :
    ∃ n < fuel, s'.nextId = s.nextId + n + 1 ∧
      (∀ k < n, ∃ transaction,
        transactionReply env config options.txHash (s.nextId + k + 1) = .success transaction ∧
          transactionStatus transaction ∉ options.acceptedStatuses.getD defaultAcceptedStatuses) ∧
      ConfirmationOutcome env config options.txHash (options.timeoutMs.getD defaultWaitTimeoutMs)
        (options.acceptedStatuses.getD defaultAcceptedStatuses) (env.now s.events) n
          (s.nextId + n + 1) s'.events r := by
  obtain ⟨n, hn, sₙ, hwaited, hlast⟩ := poll_ends.1 (waitForTransactionConfirmation_iff.1 h)
  obtain ⟨hid, hreplies⟩ := hwaited.replies
  have hid : sₙ.nextId = s.nextId + n := hid
  have hrefused : ∀ k < n, ∃ transaction,
      transactionReply env config options.txHash (s.nextId + k + 1) = .success transaction ∧
        transactionStatus transaction ∉ options.acceptedStatuses.getD defaultAcceptedStatuses := by
    intro k hk
    obtain ⟨transaction, hreply, hrefused⟩ := hreplies k hk
    exact ⟨transaction, hreply, by simpa using hrefused⟩
  rcases hlast with ⟨e, rfl, hasked⟩ | ⟨found, s₁, hasked, ⟨haccepted, rfl, rfl⟩ | ⟨hnot, hover, rfl, rfl⟩⟩
  · obtain ⟨hreply, rfl⟩ := getTransaction_ends.1 hasked
    rw [hid] at hreply
    exact ⟨n, hn, by simp [hid], hrefused, .failed hreply.symm⟩
  · obtain ⟨hreply, rfl⟩ := getTransaction_ends.1 hasked
    rw [hid] at hreply
    exact ⟨n, hn, by simp [tick, hid], hrefused, .confirmed (request_eq_ok.1 hreply.symm) (by simpa using haccepted)⟩
  · obtain ⟨hreply, rfl⟩ := getTransaction_ends.1 hasked
    rw [hid] at hreply
    refine ⟨n, hn, by simp [tick, hid], hrefused, ?_⟩
    rw [tick_tick_events]
    exact .timedOut (request_eq_ok.1 hreply.symm) (by simpa using hnot) hover

/-- **A wait for a confirmation ends**, for any replies of the node: when the timeout is a finite number, within as many
attempts as its intervals fit the timeout and one more, and the replies decide how. -/
theorem waitForTransactionConfirmation_decides (hclock : ClockAdvances env)
    {options : WaitForTransactionConfirmationOptions} {timeout : ℚ}
    (htimeout : options.timeoutMs.getD defaultWaitTimeoutMs = .finite timeout) {fuel : Nat}
    (hfuel : roundsInTime timeout (options.intervalMs.getD defaultWaitIntervalMs) < fuel) (s : Session) :
    ∃ n ≤ roundsInTime timeout (options.intervalMs.getD defaultWaitIntervalMs), ∃ r s',
      (waitForTransactionConfirmation env config fuel options).Ends s r s' ∧ s'.nextId = s.nextId + n + 1 ∧
        (∀ k < n, ∃ transaction,
          transactionReply env config options.txHash (s.nextId + k + 1) = .success transaction ∧
            transactionStatus transaction ∉ options.acceptedStatuses.getD defaultAcceptedStatuses) ∧
        ConfirmationOutcome env config options.txHash (.finite timeout)
          (options.acceptedStatuses.getD defaultAcceptedStatuses) (env.now s.events) n (s.nextId + n + 1)
          s'.events r := by
  have hends : ∃ r s', (waitForTransactionConfirmation env config
      (roundsInTime timeout (options.intervalMs.getD defaultWaitIntervalMs) + 1) options).Ends s r s' := by
    simp only [waitForTransactionConfirmation_iff, htimeout]
    exact poll_total hclock (total_getTransaction _) (emitsOnly_getTransaction fun _ => trivial)
      (hclock.forward s.events _) (Nat.lt_succ_self _)
  obtain ⟨r, s', hends⟩ := hends
  obtain ⟨n, hn, hid, hrefused, houtcome⟩ := waitForTransactionConfirmation_ends hends
  rw [htimeout] at houtcome
  have hmore : (waitForTransactionConfirmation env config fuel options).Ends s r s' :=
    waitForTransactionConfirmation_iff.2 ((waitForTransactionConfirmation_iff.1 hends).more_fuel hfuel)
  exact ⟨n, Nat.le_of_lt_succ hn, r, s', hmore, hid, hrefused, houtcome⟩

/-- A node that has a transaction committed at the third request. -/
def committingNode : Environment := timedEnvironment fun _ id call =>
  match call with
  | .getTransaction _ =>
    .success (.object [(lit "tx_status", .object [(lit "status",
      .string (if id < 3 then lit "unknown" else lit "committed"))])])
  | _ => .rejected (lit "fetch failed")

def confirmationWait : WaitForTransactionConfirmationOptions where
  txHash := lit "0x01"
  timeoutMs := some (.ofNat 8)
  intervalMs := some (.ofNat 4)
  acceptedStatuses := none

theorem waitForTransactionConfirmation_decides_committingNode :
    ∃ n ≤ 2, ∃ r s', (waitForTransactionConfirmation committingNode ⟨lit "http://127.0.0.1:8114", none⟩ 3
        confirmationWait).Ends ⟨0, []⟩ r s' ∧ s'.nextId = n + 1 := by
  have hrounds : roundsInTime 8 (confirmationWait.intervalMs.getD defaultWaitIntervalMs) = 2 := by
    have hdelay : timerDelay (confirmationWait.intervalMs.getD defaultWaitIntervalMs) = 4 := by decide +kernel
    rw [roundsInTime, hdelay]
    norm_num
  have hclock : ClockAdvances committingNode := timedEnvironment_advances _
  obtain ⟨n, hn, r, s', hends, hid, -⟩ := @waitForTransactionConfirmation_decides committingNode
    ⟨lit "http://127.0.0.1:8114", none⟩ hclock confirmationWait 8 rfl 3 (by rw [hrounds]; decide) ⟨0, []⟩
  rw [hrounds] at hn
  exact ⟨n, hn, r, s', hends, by simpa using hid⟩

end CkbDilithium.System
