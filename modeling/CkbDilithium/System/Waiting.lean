import CkbDilithium.Sdk.Wallet

/-!
# The waiting loops

One round of a waiting loop asks once and then accepts the answer, gives up, or sleeps (`pollRound_ends`).
`Waited` counts the rounds that ended in sleep, so that a run of the loop is some such rounds and one that
is not (`poll_ends`). When the clock does not go back and a timer does not fire early (`ClockAdvances`), the rounds are
bounded by the timeout and the delay, whatever the answers (`Waited.lt`, `poll_total`).
-/

namespace CkbDilithium.System

open Sdk Js

/-! ### One round -/

/-- The session after reading the clock. -/
def tick (env : Environment) (s : Session) : Session :=
  { s with events := s.events ++ [.clock (env.now s.events)] }

theorem tick_tick_events (env : Environment) (s : Session) : (tick env (tick env s)).events =
    s.events ++ [.clock (env.now s.events), .clock (env.now (tick env s).events)] := by
  simp [tick]

/-- The session after a timer. -/
def slept (delay : Nat) (s : Session) : Session := { s with events := s.events ++ [.sleep delay] }

theorem dateNow_ends {env : Environment} {s s' : Session} {r : Js Int} :
    (dateNow env).Ends s r s' ↔ r = .ok (env.now s.events) ∧ s' = tick env s := by
  rw [dateNow, Action.update_ends, Prod.mk.injEq, eq_comm, @eq_comm _ s']
  rfl

theorem sleep_ends {ms : JsNumber} {s s' : Session} {r : Js Unit} :
    (sleep ms).Ends s r s' ↔ r = .ok () ∧ s' = slept (timerDelay ms) s := by
  rw [sleep, act, Action.update_ends, Prod.mk.injEq, eq_comm, @eq_comm _ s']
  rfl

section Round

variable {α : Type} {env : Environment} {start : Int} {timeoutMs intervalMs : JsNumber} {ask : Wallet α}
  {accepts : α → Bool} {timeoutError : Polled α → JsError} {attempts : Nat} {s s' : Session}

/-- **One round**: the question fails, its answer is accepted, the time is over, or the loop sleeps. -/
theorem pollRound_ends {r : Js (Nat ⊕ Polled α)} :
    (pollRound env start timeoutMs intervalMs ask accepts timeoutError attempts).Ends s r s' ↔
      (∃ e, r = .error e ∧ ask.Ends s (.error e) s') ∨
      ∃ found s₁, ask.Ends s (.ok found) s₁ ∧
        (accepts found = true ∧ r = .ok (.inr ⟨found, attempts + 1, env.now s₁.events - start⟩) ∧
            s' = tick env s₁ ∨
          accepts found = false ∧ timeIsOver (env.now s₁.events - start) timeoutMs = true ∧
            r = .error (timeoutError ⟨found, attempts + 1, env.now (tick env s₁).events - start⟩) ∧
            s' = tick env (tick env s₁) ∨
          accepts found = false ∧ timeIsOver (env.now s₁.events - start) timeoutMs = false ∧
            r = .ok (.inl (attempts + 1)) ∧ s' = slept (timerDelay intervalMs) (tick env s₁)) := by
  rw [pollRound, Action.bind_ends]
  refine or_congr Iff.rfl (exists_congr fun found => exists_congr fun s₁ => and_congr_right fun _ => ?_)
  cases haccepts : accepts found with
  | true =>
    simp only [if_true, Action.bind_ends, dateNow_ends, Action.pure_ends]
    simp
  | false =>
    simp only [Bool.false_eq_true, if_false, Action.bind_ends, dateNow_ends]
    cases hover : timeIsOver (env.now s₁.events - start) timeoutMs with
    | true =>
      simp [Action.bind_ends, dateNow_ends, hover, throw, throwThe, MonadExceptOf.throw]
      exact and_comm
    | false => simp [Action.bind_ends, sleep_ends, hover]

/-- `n` rounds that ended in sleep: each had an answer that was not accepted before the time was over. -/
inductive Waited (env : Environment) (start : Int) (timeoutMs intervalMs : JsNumber) (ask : Wallet α)
    (accepts : α → Bool) : Nat → Session → Session → Prop
  | zero (s : Session) : Waited env start timeoutMs intervalMs ask accepts 0 s s
  | succ {n : Nat} {s s₁ s' : Session} {found : α} (asked : ask.Ends s (.ok found) s₁)
      (refused : accepts found = false) (inTime : timeIsOver (env.now s₁.events - start) timeoutMs = false)
      (rest : Waited env start timeoutMs intervalMs ask accepts n
        (slept (timerDelay intervalMs) (tick env s₁)) s') :
      Waited env start timeoutMs intervalMs ask accepts (n + 1) s s'

theorem rounds_iff_waited {n k : Nat} :
    Action.Rounds (pollRound env start timeoutMs intervalMs ask accepts timeoutError) n attempts s k s' ↔
      k = attempts + n ∧ Waited env start timeoutMs intervalMs ask accepts n s s' := by
  constructor
  · intro h
    induction h with
    | zero b s => exact ⟨rfl, .zero s⟩
    | succ hround _ ih =>
      obtain ⟨rfl, hrest⟩ := ih
      rcases pollRound_ends.1 hround with ⟨e, he, -⟩ | ⟨found, s₁, hask, h | h | h⟩
      · cases he
      · cases h.2.1
      · cases h.2.2.1
      · obtain ⟨hrefused, hinTime, hnext, rfl⟩ := h
        cases hnext
        exact ⟨by omega, .succ hask hrefused hinTime hrest⟩
  · rintro ⟨rfl, h⟩
    induction h generalizing attempts with
    | zero s => exact .zero attempts s
    | @succ n s s₁ s' found hask hrefused hinTime _ ih =>
      have hnext := @ih (attempts + 1)
      rw [show attempts + 1 + n = attempts + (n + 1) by omega] at hnext
      refine .succ (pollRound_ends.2 (Or.inr ⟨found, s₁, hask, Or.inr (Or.inr ?_)⟩)) hnext
      exact ⟨hrefused, hinTime, rfl, rfl⟩

/-- **A run of the loop** that ends: rounds that slept, and then a question that failed, an answer that was
accepted, or one that was not when the time was over. -/
theorem poll_ends {fuel : Nat} {r : Js (Polled α)} :
    (poll env fuel start timeoutMs intervalMs ask accepts timeoutError).Ends s r s' ↔
      ∃ n < fuel, ∃ sₙ, Waited env start timeoutMs intervalMs ask accepts n s sₙ ∧
        ((∃ e, r = .error e ∧ ask.Ends sₙ (.error e) s') ∨
          ∃ found s₁, ask.Ends sₙ (.ok found) s₁ ∧
            (accepts found = true ∧ r = .ok ⟨found, n + 1, env.now s₁.events - start⟩ ∧ s' = tick env s₁ ∨
              accepts found = false ∧ timeIsOver (env.now s₁.events - start) timeoutMs = true ∧
                r = .error (timeoutError ⟨found, n + 1, env.now (tick env s₁).events - start⟩) ∧
                s' = tick env (tick env s₁))) := by
  simp only [poll, Action.loop_ends, rounds_iff_waited]
  refine exists_congr fun n => and_congr_right fun _ => ?_
  constructor
  · rintro ⟨k, sₙ, ⟨rfl, hwaited⟩, hleaves⟩
    rw [Nat.zero_add] at hleaves
    refine ⟨sₙ, hwaited, ?_⟩
    rcases hleaves with ⟨e, rfl, hround⟩ | ⟨a, rfl, hround⟩
    · rcases pollRound_ends.1 hround with ⟨e', he, hask⟩ | ⟨found, s₁, hask, h | h | h⟩
      · cases he
        exact Or.inl ⟨e, rfl, hask⟩
      · cases h.2.1
      · obtain ⟨hrefused, hover, herror, hs'⟩ := h
        cases herror
        exact Or.inr ⟨found, s₁, hask, Or.inr ⟨hrefused, hover, rfl, hs'⟩⟩
      · cases h.2.2.1
    · rcases pollRound_ends.1 hround with ⟨e', he, -⟩ | ⟨found, s₁, hask, h | h | h⟩
      · cases he
      · obtain ⟨haccepted, hfound, hs'⟩ := h
        cases hfound
        exact Or.inr ⟨found, s₁, hask, Or.inl ⟨haccepted, rfl, hs'⟩⟩
      · cases h.2.2.1
      · cases h.2.2.1
  · rintro ⟨sₙ, hwaited, hlast⟩
    refine ⟨n, sₙ, ⟨by omega, hwaited⟩, ?_⟩
    rcases hlast with ⟨e, rfl, hask⟩ | ⟨found, s₁, hask, ⟨haccepted, rfl, hs'⟩ | ⟨hrefused, hover, rfl, hs'⟩⟩
    · exact Or.inl ⟨e, rfl, pollRound_ends.2 (Or.inl ⟨e, rfl, hask⟩)⟩
    · exact Or.inr ⟨_, rfl, pollRound_ends.2 (Or.inr ⟨found, s₁, hask, Or.inl ⟨haccepted, rfl, hs'⟩⟩)⟩
    · exact Or.inl ⟨_, rfl, pollRound_ends.2
        (Or.inr ⟨found, s₁, hask, Or.inr (Or.inl ⟨hrefused, hover, rfl, hs'⟩)⟩)⟩

end Round

/-! ### The clock -/

/-- The clock does not go back, and a timer does not fire early. -/
structure ClockAdvances (env : Environment) : Prop where
  forward : ∀ events event, env.now events ≤ env.now (events ++ [event])
  timer : ∀ (events : List Event) (delay : Nat), env.now events + delay ≤ env.now (events ++ [.sleep delay])

theorem ClockAdvances.emits {env : Environment} (h : ClockAdvances env) {p : Event → Prop} {s s' : Session}
    (hemits : Emits p s s') : env.now s.events ≤ env.now s'.events := by
  obtain ⟨new, hevents, -, -, -⟩ := hemits
  rw [hevents]
  clear hevents
  induction new using List.reverseRecOn with
  | nil => rw [List.append_nil]
  | append_singleton new event ih =>
    rw [← List.append_assoc]
    exact ih.trans (h.forward _ _)

/-- The rounds after which the time is over for certain. -/
def roundsInTime (timeout : ℚ) (intervalMs : JsNumber) : Nat := ⌈timeout / timerDelay intervalMs⌉₊

section Clock

variable {α : Type} {env : Environment} {start : Int} {timeout : ℚ} {intervalMs : JsNumber} {ask : Wallet α}
  {accepts : α → Bool} {timeoutError : Polled α → JsError} {s s' : Session}

/-- A round that sleeps finds the time not over, so the sleeps before it fit the timeout. -/
theorem lt_roundsInTime {n : Nat} {now : Int} (hnow : start + n * timerDelay intervalMs ≤ now)
    (hinTime : timeIsOver (now - start) (.finite timeout) = false) : n < roundsInTime timeout intervalMs := by
  have hdelay : (0 : ℚ) < timerDelay intervalMs := by exact_mod_cast timerDelay_pos intervalMs
  rw [timeIsOver, decide_eq_false_iff_not, not_le] at hinTime
  have helapsed : (n * timerDelay intervalMs : ℚ) ≤ ((now - start : Int) : ℚ) := by
    rw [← sub_nonneg]
    have hint : (0 : Int) ≤ now - start - n * timerDelay intervalMs := by omega
    have hcast : (0 : ℚ) ≤ ((now - start - n * timerDelay intervalMs : Int) : ℚ) := by exact_mod_cast hint
    push_cast at hcast ⊢
    linarith
  rw [roundsInTime, Nat.lt_ceil, lt_div_iff₀ hdelay]
  exact lt_of_le_of_lt helapsed hinTime

/-- A round that sleeps moves the clock by its delay. -/
theorem ClockAdvances.round (h : ClockAdvances env) (hask : EmitsOnly (fun _ => True) ask) {found : α} {s₁ : Session}
    (hasked : ask.Ends s (.ok found) s₁) (delay : Nat) :
    env.now s.events ≤ env.now s₁.events ∧
      env.now s₁.events + delay ≤ env.now (slept delay (tick env s₁)).events := by
  refine ⟨h.emits (hask _ _ _ hasked), ?_⟩
  have htick := h.forward s₁.events (.clock (env.now s₁.events))
  have hsleep := h.timer (tick env s₁).events delay
  exact le_trans (add_le_add_left htick _) hsleep

/-- **The rounds that sleep fit the timeout.** -/
theorem Waited.le_roundsInTime (hclock : ClockAdvances env) (hask : EmitsOnly (fun _ => True) ask) {n k : Nat}
    (h : Waited env start (.finite timeout) intervalMs ask accepts n s s')
    (hstart : start + k * timerDelay intervalMs ≤ env.now s.events) (hk : k ≤ roundsInTime timeout intervalMs) :
    k + n ≤ roundsInTime timeout intervalMs := by
  induction h generalizing k with
  | zero => exact hk
  | @succ n s s₁ s' found hasked hrefused hinTime _ ih =>
    obtain ⟨hforward, hslept⟩ := hclock.round hask hasked (timerDelay intervalMs)
    have hlt := lt_roundsInTime (hstart.trans hforward) hinTime
    have hnext := @ih (k + 1) (by push_cast; linarith) hlt
    omega

/-- **The loop ends** when every question does, within as many rounds as fit the timeout and one more. -/
theorem poll_total (hclock : ClockAdvances env) (htotal : ask.Total) (hask : EmitsOnly (fun _ => True) ask)
    (hstart : start ≤ env.now s.events) {fuel : Nat} (hfuel : roundsInTime timeout intervalMs < fuel) :
    ∃ r s', (poll env fuel start (.finite timeout) intervalMs ask accepts timeoutError).Ends s r s' := by
  refine Action.loop_total
    (fun (attempts : Nat) (s : Session) => start + attempts * timerDelay intervalMs ≤ env.now s.events)
    (fun attempts _ => roundsInTime timeout intervalMs - attempts) ?_ ?_ (by simpa using hstart) (by omega)
  · intro attempts s _
    obtain ⟨r, s₁, hasked⟩ := htotal s
    cases r with
    | error e => exact ⟨_, _, pollRound_ends.2 (Or.inl ⟨e, rfl, hasked⟩)⟩
    | ok found =>
      cases haccepts : accepts found with
      | true => exact ⟨_, _, pollRound_ends.2 (Or.inr ⟨found, s₁, hasked, Or.inl ⟨haccepts, rfl, rfl⟩⟩)⟩
      | false =>
        cases hover : timeIsOver (env.now s₁.events - start) (.finite timeout) with
        | true =>
          exact ⟨_, _, pollRound_ends.2
            (Or.inr ⟨found, s₁, hasked, Or.inr (Or.inl ⟨haccepts, hover, rfl, rfl⟩)⟩)⟩
        | false =>
          exact ⟨_, _, pollRound_ends.2
            (Or.inr ⟨found, s₁, hasked, Or.inr (Or.inr ⟨haccepts, hover, rfl, rfl⟩)⟩)⟩
  · intro attempts s attempts' s' hinvariant hround
    rcases pollRound_ends.1 hround with ⟨e, he, -⟩ | ⟨found, s₁, hasked, h | h | h⟩
    · cases he
    · cases h.2.1
    · cases h.2.2.1
    · obtain ⟨-, hinTime, hnext, rfl⟩ := h
      cases hnext
      obtain ⟨hforward, hslept⟩ := hclock.round hask hasked (timerDelay intervalMs)
      have hlt := lt_roundsInTime (hinvariant.trans hforward) hinTime
      refine ⟨?_, by omega⟩
      push_cast
      linarith

end Clock

/-! ### A clock that only timers move -/

/-- The time an event takes. -/
def eventTime : Event → Nat
  | .sleep delay => delay
  | _ => 0

/-- Without files, and with zeros for random bytes. -/
def timedEnvironment (reply : (url : JsString) → (id : Nat) → (call : RpcCall) → HttpReply call.Result) :
    Environment where
  reply := reply
  now events := ((events.map eventTime).sum : Nat)
  random _ size := ⟨List.replicate size 0, List.length_replicate⟩
  readFile _ _ := .error (lit "ENOENT: no such file or directory")
  mkdir _ _ := .ok ()
  writeFile _ _ _ := .ok ()
  parseError _ := lit "Unexpected token"
  cwd := lit "/"

theorem timedEnvironment_advances
    (reply : (url : JsString) → (id : Nat) → (call : RpcCall) → HttpReply call.Result) :
    ClockAdvances (timedEnvironment reply) := by
  constructor
  · intro events event
    simp [timedEnvironment]
  · intro events delay
    simp [timedEnvironment, eventTime]

end CkbDilithium.System
