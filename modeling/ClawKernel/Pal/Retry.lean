import ClawKernel.Lib.Delays
import ClawKernel.Lib.Retrying

/-! The platform's retry helper: the delay before each retry, and the loop.
-/
namespace ClawKernel.Pal.Retry
open Lib.Delays Lib.Retrying

structure RetryConfig where
  maxRetries : UInt32
  baseDelay : Duration
  maxDelay : Duration
  deriving DecidableEq

def RetryConfig.default : RetryConfig :=
  { maxRetries := 3, baseDelay := .fromMillis 500 halfSecond_fits, maxDelay := .fromMillis 30000 (by decide) }

def RetryConfig.calculateDelay (config : RetryConfig) (attempt : UInt32) (rng : Rng) : Option Duration := do
  let pow ← pow128 attempt
  let expMs := saturatingMul128 config.baseDelay.asMillis pow
  let capMs := min (asU64 expMs) (asU64 config.maxDelay.asMillis)
  let jitter := if 0 < capMs then rng.genRange capMs else 0
  return .fromMillis (min (saturatingAdd64 capMs jitter) (asU64 config.maxDelay.asMillis)) (min_asU64_lt ..)

theorem RetryConfig.calculateDelay_large (config : RetryConfig) (attempt : UInt32) (large : ¬attempt.toNat < 128)
    (rng : Rng) : config.calculateDelay attempt rng = none := by
  simp [calculateDelay,pow128,large]

theorem RetryConfig.calculateDelay_small (config : RetryConfig) (attempt : UInt32) (small : attempt.toNat < 128)
    (rng : Rng) : config.calculateDelay attempt rng =
      let cap := capOf (wholeProduct config.baseDelay attempt) config.maxDelay.asMillis
      some (.fromMillis (min (saturatingAdd64 cap (rng.jitter cap)) (asU64 config.maxDelay.asMillis)) (min_asU64_lt ..)) := by
  simp only [calculateDelay,pow128,small,if_true,Option.bind_eq_bind,Option.bind_some]
  rfl

theorem RetryConfig.calculateDelay_backs (config : RetryConfig) (attempt : UInt32) (product : Nat) :
    Backs product config.maxDelay (config.calculateDelay attempt) ↔ attempt.toNat < 128 ∧
      min product config.maxDelay.asMillis ≤
        capOf (wholeProduct config.baseDelay attempt) config.maxDelay.asMillis := by
  by_cases small : attempt.toNat < 128
  · rw [and_iff_right small]
    refine backs_iff product _ config.maxDelay _ saturatingAdd64 ?_ ?_ (config.calculateDelay_small attempt small)
    · intro cap below drawn
      unfold saturatingAdd64
      omega
    · intro cap below
      unfold saturatingAdd64
      omega
  · refine iff_of_false (fun backs => ?_) (fun both => small both.1)
    obtain ⟨d,computed,_⟩ := backs Rng.least
    rw [config.calculateDelay_large attempt small] at computed
    cases computed

section Loop
variable {α ε : Type}

/-- One attempt, with what is logged and the last error. -/
def attemptMapped (operation : Nat → Except ε α) (maxRetries : Nat) (isRetryable : ε → Bool) (attempt : Nat)
    (s : List Act × Option ε) : (List Act × Option ε) ⊕ (Except ε α × List Act) :=
  let (outcome,log) := operate operation s.1
  match outcome with
  | .ok result => .inr (.ok result,log)
  | .error error =>
    if attempt < maxRetries ∧ isRetryable error then .inl (log ++ [.wait attempt],some error)
    else .inr (.error error,log)

def withRetryMapped (operation : Nat → Except ε α) (config : RetryConfig) (isRetryable : ε → Bool) :
    Ended α ε × List Act :=
  match forEach (attemptMapped operation config.maxRetries.toNat isRetryable)
    (List.range (config.maxRetries.toNat + 1)) ([],none) with
  | .inr (result,log) => (.returned result,log)
  | .inl (log,some error) => (.returned (.error error),log)
  | .inl (log,none) => (.panicked,log)

theorem attemptMapped_iterates (operation : Nat → Except ε α) (maxRetries : Nat) (isRetryable : ε → Bool) :
    Iterates operation isRetryable maxRetries (fun attempt => [.wait attempt]) Prod.fst
      (attemptMapped operation maxRetries isRetryable) := by
  constructor
  · rintro attempt s calls below ⟨e,failed,retryable⟩
    refine ⟨(s.1 ++ [.call] ++ [.wait attempt],some e),?_,by simp⟩
    simp [attemptMapped,operate,calls,failed,below,retryable]
  · intro attempt s calls _ ends
    cases outcome : operation attempt with
    | ok result => simp [attemptMapped,operate,calls,outcome]
    | error e =>
      have stops : ¬(attempt < maxRetries ∧ isRetryable e = true) := fun both => ends ⟨both.1,e,outcome,both.2⟩
      simp [attemptMapped,operate,calls,outcome,stops]

theorem withRetryMapped_exact (operation : Nat → Except ε α) (config : RetryConfig) (isRetryable : ε → Bool) :
    ∃ retries ended, withRetryMapped operation config isRetryable = (.returned ended.1,ended.2) ∧
      Exact operation isRetryable config.maxRetries.toNat (fun attempt => [.wait attempt]) retries ended := by
  obtain ⟨retries,ended,found,exact⟩ :=
    forEach_exact (attemptMapped_iterates operation config.maxRetries.toNat isRetryable) (by simp) ([],none) rfl
  exact ⟨retries,ended,by simp [withRetryMapped,found],exact⟩

end Loop

end ClawKernel.Pal.Retry
