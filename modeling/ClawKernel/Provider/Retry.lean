import ClawKernel.Provider.Types

/-! Retrying a provider call. The delays between the attempts are left out, and with them that
`2u128.pow(attempt)` overflows where `attempt` is 128 or more.
-/
namespace ClawKernel.Provider.Retry
open Provider.Types

structure RetryConfig where
  maxRetries : Nat := 3
  retryableStatuses : List Nat := [429,500,502,503,504]
  deriving DecidableEq, Repr

def isRetryableError (error : ProviderError) (config : RetryConfig) : Bool :=
  match error with
  | .network _ => true
  | .rateLimited _ => true
  | .http status _ => config.retryableStatuses.contains status
  | _ => false

variable {α : Type}

def retryFrom (operation : Nat → Except ProviderError α) (config : RetryConfig) :
    (left attempt : Nat) → Option ProviderError → Except ProviderError α
  | 0, _, lastError => .error (lastError.getD (.other "Retry exhausted"))
  | left+1, attempt, _ =>
    match operation attempt with
    | .ok result => .ok result
    | .error error =>
      if attempt < config.maxRetries ∧ isRetryableError error config then
        retryFrom operation config left (attempt + 1) (some error)
      else .error error

def withRetry (operation : Nat → Except ProviderError α) (config : RetryConfig) : Except ProviderError α :=
  retryFrom operation config (config.maxRetries + 1) 0 none

theorem retryFrom_ok (operation : Nat → Except ProviderError α) (config : RetryConfig) (left attempt : Nat)
    (lastError : Option ProviderError) (result : α)
    (found : retryFrom operation config left attempt lastError = .ok result) :
    ∃ tried, operation tried = .ok result := by
  induction left generalizing attempt lastError with
  | zero => simp [retryFrom] at found
  | succ left ih =>
    rw [retryFrom] at found
    cases given : operation attempt with
    | ok value =>
      rw [given] at found
      exact ⟨attempt,given.trans found⟩
    | error error =>
      simp only [given] at found
      split at found
      · exact ih _ _ found
      · simp at found

theorem withRetry_ok (operation : Nat → Except ProviderError α) (config : RetryConfig) (result : α)
    (found : withRetry operation config = .ok result) : ∃ tried, operation tried = .ok result :=
  retryFrom_ok operation config _ _ _ result found

end ClawKernel.Provider.Retry
