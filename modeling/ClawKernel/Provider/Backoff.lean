import ClawKernel.Provider.Retry
import ClawKernel.Pal.Retry

/-! The providers' retry helpers: the delay before each retry, and the two loops.
-/
namespace ClawKernel.Provider.Backoff
open Lib.Delays Lib.Retrying Provider.Types Provider.Retry

structure RetryConfig extends Provider.Retry.RetryConfig where
  baseDelay : Duration
  maxDelay : Duration
  deriving DecidableEq

def RetryConfig.default : RetryConfig :=
  { baseDelay := .fromMillis 500 halfSecond_fits, maxDelay := .fromMillis 60000 (by decide) }

def RetryConfig.calculateDelay (config : RetryConfig) (attempt : UInt32) (rng : Rng) : Option Duration := do
  let pow ← pow128 attempt
  let exponential := saturatingMul128 config.baseDelay.asMillis pow
  let delayMs := min (asU64 exponential) (asU64 config.maxDelay.asMillis)
  let jitter := if 0 < delayMs then rng.genRange delayMs else 0
  let sum ← checkedAdd64 delayMs jitter
  return .fromMillis (min sum (asU64 config.maxDelay.asMillis)) (min_asU64_lt ..)

theorem RetryConfig.calculateDelay_large (config : RetryConfig) (attempt : UInt32) (large : ¬attempt.toNat < 128)
    (rng : Rng) : config.calculateDelay attempt rng = none := by
  simp [calculateDelay,pow128,large]

theorem RetryConfig.calculateDelay_small (config : RetryConfig) (attempt : UInt32) (small : attempt.toNat < 128)
    (rng : Rng) : config.calculateDelay attempt rng =
      let cap := capOf (wholeProduct config.baseDelay attempt) config.maxDelay.asMillis
      (checkedAdd64 cap (rng.jitter cap)).map
        (fun sum => .fromMillis (min sum (asU64 config.maxDelay.asMillis)) (min_asU64_lt ..)) := by
  simp only [calculateDelay,pow128,small,if_true,Option.bind_eq_bind,Option.bind_some]
  rw [Option.map_eq_bind]
  rfl

def JitterFits (cap : Nat) : Prop :=
  ∀ rng : Rng, checkedAdd64 cap (rng.jitter cap) = some (cap + rng.jitter cap)

theorem jitterFits_iff (cap : Nat) : JitterFits cap ↔ cap ≤ 2 ^ 63 := by
  have double : u64Values = 2 ^ 63 + 2 ^ 63 := by decide
  unfold JitterFits checkedAdd64 Rng.jitter
  constructor
  · intro fits
    have greatest := fits Rng.greatest
    simp only [Rng.greatest] at greatest
    split_ifs at greatest with positive below
    · omega
    · omega
  · intro half rng
    by_cases positive : 0 < cap
    · have drawn := rng.below cap positive
      rw [if_pos positive,if_pos (by omega)]
    · rw [if_neg positive,if_pos (by omega)]

/-- A delay for every draw means that no sum overflows. -/
theorem jitterFits_of_some (cap : Nat) (f : Nat → Duration)
    (computes : ∀ rng : Rng, ∃ d, (checkedAdd64 cap (rng.jitter cap)).map f = some d) : JitterFits cap := by
  intro rng
  obtain ⟨d,found⟩ := computes rng
  unfold checkedAdd64 at found ⊢
  split_ifs at found with below
  · rw [if_pos below]
  · cases found

theorem RetryConfig.calculateDelay_backs (config : RetryConfig) (attempt : UInt32) (product : Nat) :
    Backs product config.maxDelay (config.calculateDelay attempt) ↔ attempt.toNat < 128 ∧
      capOf (wholeProduct config.baseDelay attempt) config.maxDelay.asMillis ≤ 2 ^ 63 ∧
      min product config.maxDelay.asMillis ≤
        capOf (wholeProduct config.baseDelay attempt) config.maxDelay.asMillis := by
  by_cases small : attempt.toNat < 128
  · rw [and_iff_right small,← jitterFits_iff]
    have computed := config.calculateDelay_small attempt small
    have added : JitterFits (capOf (wholeProduct config.baseDelay attempt) config.maxDelay.asMillis) →
        (Backs product config.maxDelay (config.calculateDelay attempt) ↔ _) := fun fits =>
      backs_iff product (wholeProduct config.baseDelay attempt) config.maxDelay (config.calculateDelay attempt)
        (· + ·) (fun cap _ drawn => Nat.le_add_right cap drawn) (fun cap _ => Nat.add_zero cap)
        (fun rng => by rw [computed rng]; simp only; rw [fits rng]; rfl)
    constructor
    · intro backs
      have fits := jitterFits_of_some _ _ (fun rng => by
        obtain ⟨d,found,_⟩ := backs rng
        rw [computed rng] at found
        exact ⟨d,found⟩)
      exact ⟨fits,(added fits).mp backs⟩
    · rintro ⟨fits,lower⟩
      exact (added fits).mpr lower
  · refine iff_of_false (fun backs => ?_) (fun both => small both.1)
    obtain ⟨d,computed,_⟩ := backs Rng.least
    rw [config.calculateDelay_large attempt small] at computed
    cases computed

/-- The delays are bounded, grow and are always computed exactly when the power fits, nothing is
cut to 64 bits and, for the providers, the sum with the jitter fits; for the exact product also
when the base has nothing below a millisecond that counts. -/
theorem calculateDelay_bounds (config : Pal.Retry.RetryConfig) (other : RetryConfig) (attempt : UInt32) :
    (Backs (wholeProduct config.baseDelay attempt) config.maxDelay (config.calculateDelay attempt) ↔
      attempt.toNat < 128 ∧ Uncut (wholeProduct config.baseDelay attempt) config.maxDelay.asMillis) ∧
    (Backs (exactProduct config.baseDelay attempt) config.maxDelay (config.calculateDelay attempt) ↔
      attempt.toNat < 128 ∧ Uncut (wholeProduct config.baseDelay attempt) config.maxDelay.asMillis ∧
        NothingLost config.baseDelay config.maxDelay attempt) ∧
    (Backs (wholeProduct other.baseDelay attempt) other.maxDelay (other.calculateDelay attempt) ↔
      attempt.toNat < 128 ∧ Uncut (wholeProduct other.baseDelay attempt) other.maxDelay.asMillis ∧
        min (wholeProduct other.baseDelay attempt) other.maxDelay.asMillis ≤ 2 ^ 63) ∧
    (Backs (exactProduct other.baseDelay attempt) other.maxDelay (other.calculateDelay attempt) ↔
      attempt.toNat < 128 ∧ Uncut (wholeProduct other.baseDelay attempt) other.maxDelay.asMillis ∧
        NothingLost other.baseDelay other.maxDelay attempt ∧
        min (wholeProduct other.baseDelay attempt) other.maxDelay.asMillis ≤ 2 ^ 63) := by
  have half : Uncut (wholeProduct other.baseDelay attempt) other.maxDelay.asMillis →
      capOf (wholeProduct other.baseDelay attempt) other.maxDelay.asMillis =
        min (wholeProduct other.baseDelay attempt) other.maxDelay.asMillis := uncut_capOf _ _
  refine ⟨?_,?_,?_,?_⟩
  · rw [config.calculateDelay_backs,uncut_iff]
  · rw [config.calculateDelay_backs,exact_iff]
  · rw [other.calculateDelay_backs,← uncut_iff]
    refine and_congr_right (fun _ => ⟨?_,?_⟩)
    · rintro ⟨fits,uncut⟩
      exact ⟨uncut,half uncut ▸ fits⟩
    · rintro ⟨uncut,fits⟩
      exact ⟨(half uncut).symm ▸ fits,uncut⟩
  · rw [other.calculateDelay_backs,exact_iff]
    refine and_congr_right (fun _ => ⟨?_,?_⟩)
    · rintro ⟨fits,uncut,nothing⟩
      exact ⟨uncut,nothing,half uncut ▸ fits⟩
    · rintro ⟨uncut,nothing,fits⟩
      exact ⟨(half uncut).symm ▸ fits,uncut,nothing⟩

/-- The 64-bit cut leaves nothing of the product at attempt 64, and the power overflows at attempt 128. -/
theorem calculateDelay_resets :
    ¬Backs (wholeProduct Pal.Retry.RetryConfig.default.baseDelay 64) Pal.Retry.RetryConfig.default.maxDelay
      (Pal.Retry.RetryConfig.default.calculateDelay 64) ∧
    Pal.Retry.RetryConfig.default.calculateDelay 128 Rng.least = none ∧
    ¬Backs (wholeProduct RetryConfig.default.baseDelay 64) RetryConfig.default.maxDelay
      (RetryConfig.default.calculateDelay 64) ∧
    RetryConfig.default.calculateDelay 128 Rng.least = none := by
  refine ⟨fun backs => ?_,by decide,fun backs => ?_,by decide⟩
  · obtain ⟨d,computed,_,lower⟩ := backs Rng.least
    have zero : Pal.Retry.RetryConfig.default.calculateDelay 64 Rng.least = some (.fromMillis 0 (by decide)) := by decide
    rw [zero,Option.some.injEq] at computed
    exact absurd (computed ▸ lower) (by decide)
  · obtain ⟨d,computed,_,lower⟩ := backs Rng.least
    have zero : RetryConfig.default.calculateDelay 64 Rng.least = some (.fromMillis 0 (by decide)) := by decide
    rw [zero,Option.some.injEq] at computed
    exact absurd (computed ▸ lower) (by decide)

section Loop
variable {α ε : Type}

def attemptOnce (operation : Nat → Except ProviderError α) (config : RetryConfig) (attempt : Nat)
    (s : List Act × Option ProviderError) :
    (List Act × Option ProviderError) ⊕ (Except ProviderError α × List Act) :=
  let (outcome,log) := operate operation s.1
  match outcome with
  | .ok result => .inr (.ok result,log)
  | .error error =>
    if attempt < config.maxRetries ∧ isRetryableError error config.toRetryConfig then
      .inl (log ++ [.wait attempt],some error)
    else .inr (.error error,log)

def withRetry (operation : Nat → Except ProviderError α) (config : RetryConfig) : Ended α ProviderError × List Act :=
  match forEach (attemptOnce operation config) (List.range (config.maxRetries + 1)) ([],none) with
  | .inr (result,log) => (.returned result,log)
  | .inl (log,lastError) => (.returned (.error (lastError.getD (.other "Retry exhausted"))),log)

def attemptMapped (operation : Nat → Except ε α) (maxRetries : Nat) (isRetryable : ε → Bool) (attempt : Nat)
    (s : List Act × Option ε) : (List Act × Option ε) ⊕ (Except ε α × List Act) :=
  let (outcome,log) := operate operation s.1
  match outcome with
  | .ok result => .inr (.ok result,log)
  | .error error =>
    if attempt < maxRetries ∧ isRetryable error then .inl (log ++ [.wait attempt],some error)
    else .inr (.error error,log)

def withRetryMapped (operation : Nat → Except ε α) (config : RetryConfig) (isRetryable : ε → Bool) :
    Ended α ε × List Act :=
  match forEach (attemptMapped operation config.maxRetries isRetryable)
    (List.range (config.maxRetries + 1)) ([],none) with
  | .inr (result,log) => (.returned result,log)
  | .inl (log,some error) => (.returned (.error error),log)
  | .inl (log,none) => (.panicked,log)

/-- One attempt is that of the platform's helper. -/
theorem attemptMapped_eq (operation : Nat → Except ε α) (maxRetries : Nat) (isRetryable : ε → Bool) :
    attemptMapped operation maxRetries isRetryable = Pal.Retry.attemptMapped operation maxRetries isRetryable := by
  funext attempt s
  unfold attemptMapped Pal.Retry.attemptMapped operate
  cases operation (s.1.count .call) <;> rfl

theorem attemptOnce_eq (operation : Nat → Except ProviderError α) (config : RetryConfig) :
    attemptOnce operation config =
      attemptMapped operation config.maxRetries (isRetryableError · config.toRetryConfig) := by
  funext attempt s
  unfold attemptOnce attemptMapped operate
  cases operation (s.1.count .call) <;> rfl

theorem withRetryMapped_exact (operation : Nat → Except ε α) (config : RetryConfig) (isRetryable : ε → Bool) :
    ∃ retries ended, withRetryMapped operation config isRetryable = (.returned ended.1,ended.2) ∧
      Exact operation isRetryable config.maxRetries (fun attempt => [.wait attempt]) retries ended := by
  obtain ⟨retries,ended,found,exact⟩ :=
    forEach_exact (Pal.Retry.attemptMapped_iterates operation config.maxRetries isRetryable) (by simp) ([],none) rfl
  rw [← attemptMapped_eq] at found
  exact ⟨retries,ended,by simp [withRetryMapped,found],exact⟩

theorem withRetry_exact (operation : Nat → Except ProviderError α) (config : RetryConfig) :
    ∃ retries ended, withRetry operation config = (.returned ended.1,ended.2) ∧
      Exact operation (isRetryableError · config.toRetryConfig) config.maxRetries (fun attempt => [.wait attempt])
        retries ended := by
  obtain ⟨retries,ended,found,exact⟩ :=
    forEach_exact (Pal.Retry.attemptMapped_iterates operation config.maxRetries
      (isRetryableError · config.toRetryConfig)) (by simp) ([],none) rfl
  rw [← attemptMapped_eq,← attemptOnce_eq] at found
  exact ⟨retries,ended,by simp [withRetry,found],exact⟩

/-- The outcome after `left` more attempts, as it is without the log. -/
theorem retryFrom_exact (operation : Nat → Except ProviderError α) (config : Provider.Retry.RetryConfig)
    (retries : Nat) (bounded : retries ≤ config.maxRetries)
    (again : ∀ attempt < retries, Again operation (isRetryableError · config) attempt)
    (last : retries = config.maxRetries ∨ ¬Again operation (isRetryableError · config) retries)
    (left attempt : Nat) (lastError : Option ProviderError) (so_far : attempt ≤ retries)
    (enough : retries < attempt + left) :
    retryFrom operation config left attempt lastError = operation retries := by
  induction left generalizing attempt lastError with
  | zero => omega
  | succ left ih =>
    rw [retryFrom]
    rcases Nat.lt_or_eq_of_le so_far with below | rfl
    · obtain ⟨e,failed,retryable⟩ := again attempt below
      rw [failed]
      simp only [retryable,and_true,show attempt < config.maxRetries by omega,if_true]
      exact ih (attempt + 1) (some e) below (by omega)
    · cases outcome : operation attempt with
      | ok result => rfl
      | error e =>
        have stops : ¬(attempt < config.maxRetries ∧ isRetryableError e config = true) := by
          rintro ⟨below,retryable⟩
          rcases last with all | final
          · omega
          · exact final ⟨e,outcome,retryable⟩
        simp only [stops,if_false]

/-- With the log forgotten, the loop is the one that the agent's requests go through. -/
theorem withRetry_eq (operation : Nat → Except ProviderError α) (config : RetryConfig) :
    (withRetry operation config).1 = .returned (Provider.Retry.withRetry operation config.toRetryConfig) := by
  obtain ⟨retries,ended,found,exact⟩ := withRetry_exact operation config
  rw [found,Provider.Retry.withRetry,retryFrom_exact operation config.toRetryConfig retries exact.bounded exact.again
    exact.last _ 0 none (Nat.zero_le _) (by have := exact.bounded; omega),exact.result]

end Loop

end ClawKernel.Provider.Backoff
