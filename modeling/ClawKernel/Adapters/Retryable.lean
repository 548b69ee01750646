import ClawKernel.Adapters.WebhookConnection
import ClawKernel.Provider.Backoff

/-! `RetryableChannel` around any channel: what its sends and receives call, and in which order.
The waits between the attempts are logged and not measured.
-/
namespace ClawKernel.Adapters.Retryable
open Lib.Retrying WebhookConnection

section Channel
variable {μ : Type}

def send (sent : Nat → Except ChannelError Unit) (retryConfig : Pal.Retry.RetryConfig) :
    Ended Unit ChannelError × List Act :=
  Pal.Retry.withRetryMapped sent retryConfig isRetryable

/-- One attempt of `recv`. What the reconnection comes to is ignored. -/
def attemptRecv (received : Nat → Except ChannelError μ) (connected : Nat → Except ChannelError Unit)
    (maxRetries attempt : Nat) (log : List Act) : List Act ⊕ (Except ChannelError μ × List Act) :=
  let (outcome,log) := operate received log
  match outcome with
  | .ok msg => .inr (.ok msg,log)
  | .error e =>
    if !isRetryable e then .inr (.error e,log)
    else if attempt = maxRetries then .inr (.error e,log)
    else
      let (_,log) := reconnect connected (log ++ [.wait attempt])
      .inl log

def recv (received : Nat → Except ChannelError μ) (connected : Nat → Except ChannelError Unit)
    (retryConfig : Pal.Retry.RetryConfig) : Ended μ ChannelError × List Act :=
  match forEach (attemptRecv received connected retryConfig.maxRetries.toNat)
    (List.range (retryConfig.maxRetries.toNat + 1)) [] with
  | .inr (result,log) => (.returned result,log)
  | .inl log => (.panicked,log)

/-- What is done before a retry of `recv`. -/
def reconnecting (attempt : Nat) : List Act := [.wait attempt,.connect]

theorem attemptRecv_last (received : Nat → Except ChannelError μ) (connected : Nat → Except ChannelError Unit)
    (maxRetries attempt : Nat) (log : List Act) (calls : log.count .call = attempt)
    (ends : ¬(attempt ≠ maxRetries ∧ Again received isRetryable attempt)) :
    attemptRecv received connected maxRetries attempt log = .inr (received attempt,log ++ [.call]) := by
  unfold attemptRecv operate
  rw [calls]
  cases outcome : received attempt with
  | ok msg => rfl
  | error e =>
    cases retryable : isRetryable e with
    | false => simp [retryable]
    | true =>
      have final : attempt = maxRetries := by
        by_contra more
        exact ends ⟨more,e,outcome,retryable⟩
      simp [retryable,final]

/-- Only the attempts of the loop, up to the last retry, are made. -/
theorem recv_exact (received : Nat → Except ChannelError μ) (connected : Nat → Except ChannelError Unit)
    (retryConfig : Pal.Retry.RetryConfig) :
    ∃ retries ended, recv received connected retryConfig = (.returned ended.1,ended.2) ∧
      Exact received isRetryable retryConfig.maxRetries.toNat reconnecting retries ended := by
  have iterates : Iterates received isRetryable retryConfig.maxRetries.toNat reconnecting id
      (attemptRecv received connected retryConfig.maxRetries.toNat) := by
    constructor
    · rintro attempt log calls below ⟨e,failed,retryable⟩
      refine ⟨log ++ [.call] ++ [.wait attempt] ++ [.connect],?_,by simp [reconnecting]⟩
      have more : attempt ≠ retryConfig.maxRetries.toNat := Nat.ne_of_lt below
      simp [attemptRecv,operate,reconnect,show log.count .call = attempt from calls,failed,retryable,more]
    · intro attempt log calls below ends
      exact attemptRecv_last received connected _ attempt log calls
        (fun more => ends ⟨Nat.lt_of_le_of_ne below more.1,more.2⟩)
  obtain ⟨retries,ended,found,exact⟩ := forEach_exact iterates (by simp [reconnecting]) [] rfl
  exact ⟨retries,ended,by simp [recv,found],exact⟩

/-- What a webhook channel receives through the wrapper is what the loop returns. -/
theorem webhook_recv (received : Nat → Except ChannelError μ) (attempts : Nat → Attempt) (maxRetries retries : Nat)
    (bounded : retries ≤ maxRetries) (again : ∀ attempt < retries, Again received isRetryable attempt)
    (last : retries = maxRetries ∨ ¬Again received isRetryable retries) (left attempt : Nat) (s : WebhookChannel)
    (total : attempt + left = maxRetries) (so_far : attempt ≤ retries) :
    (WebhookConnection.recv received attempts attempt left s).2 = received retries := by
  induction left generalizing attempt s with
  | zero =>
    have same : attempt = retries := by omega
    subst same
    unfold WebhookConnection.recv
    cases outcome : received attempt with
    | ok msg => rfl
    | error e => simp
  | succ left ih =>
    unfold WebhookConnection.recv
    rcases Nat.lt_or_eq_of_le so_far with below | rfl
    · obtain ⟨e,failed,retryable⟩ := again attempt below
      simp only [failed,retryable,if_true]
      exact ih (attempt + 1) _ (by omega) below
    · cases outcome : received attempt with
      | ok msg => rfl
      | error e =>
        have stops : ¬isRetryable e = true := by
          intro retryable
          rcases last with all | final
          · omega
          · exact final ⟨e,outcome,retryable⟩
        simp [stops]

theorem recv_webhook (received : Nat → Except ChannelError μ) (connected : Nat → Except ChannelError Unit)
    (attempts : Nat → Attempt) (retryConfig : Pal.Retry.RetryConfig) (s : WebhookChannel) :
    (recv received connected retryConfig).1 =
      .returned (WebhookConnection.recv received attempts 0 retryConfig.maxRetries.toNat s).2 := by
  obtain ⟨retries,ended,found,exact⟩ := recv_exact received connected retryConfig
  rw [found,webhook_recv received attempts _ retries exact.bounded exact.again exact.last _ 0 s (Nat.zero_add _)
    (Nat.zero_le _),exact.result]

end Channel

/-- The four loops, and the sends that go through the first, follow one specification: as many
retries as retryable errors come first, at most as many as allowed, and the last call's outcome. -/
theorem retries_exact {α ε μ : Type} (operation : Nat → Except ε α) (request : Nat → Except Provider.Types.ProviderError α)
    (sent : Nat → Except ChannelError Unit) (received : Nat → Except ChannelError μ)
    (connected : Nat → Except ChannelError Unit) (config : Pal.Retry.RetryConfig)
    (providerConfig : Provider.Backoff.RetryConfig) (retryable : ε → Bool) :
    Follows operation retryable config.maxRetries.toNat (fun attempt => [.wait attempt])
      (Pal.Retry.withRetryMapped operation config retryable) ∧
    Follows request (Provider.Retry.isRetryableError · providerConfig.toRetryConfig) providerConfig.maxRetries
      (fun attempt => [.wait attempt]) (Provider.Backoff.withRetry request providerConfig) ∧
    Follows operation retryable providerConfig.maxRetries (fun attempt => [.wait attempt])
      (Provider.Backoff.withRetryMapped operation providerConfig retryable) ∧
    Follows sent isRetryable config.maxRetries.toNat (fun attempt => [.wait attempt]) (send sent config) ∧
    Follows received isRetryable config.maxRetries.toNat (fun attempt => [.wait attempt,.connect])
      (recv received connected config) := by
  refine ⟨?_,?_,?_,?_,?_⟩
  · exact follows_of_exact _ (fun _ => rfl) (fun _ => rfl) (Pal.Retry.withRetryMapped_exact operation config retryable)
  · exact follows_of_exact _ (fun _ => rfl) (fun _ => rfl) (Provider.Backoff.withRetry_exact request providerConfig)
  · exact follows_of_exact _ (fun _ => rfl) (fun _ => rfl)
      (Provider.Backoff.withRetryMapped_exact operation providerConfig retryable)
  · exact follows_of_exact _ (fun _ => rfl) (fun _ => rfl) (Pal.Retry.withRetryMapped_exact sent config isRetryable)
  · exact follows_of_exact _ (fun _ => rfl) (fun _ => rfl) (recv_exact received connected config)

end ClawKernel.Adapters.Retryable
