import ClawKernel.Loop.Types
import ClawKernel.Provider.Retry

/-! Retries inside retries. A provider that implements `complete_inner` has the default
`complete`, which retries it; the loop retries `complete`. An operation here has a
state, so that calls are counted.
-/
namespace ClawKernel.Loop.Attempts
open Loop.Types Provider.Types Provider.Retry

section Counting

variable {σ α : Type}

def retryWithFrom (operation : σ → Except ProviderError α × σ) (config : RetryConfig) :
    (left attempt : Nat) → Option ProviderError → σ → Except ProviderError α × σ
  | 0, _, lastError, s => (.error (lastError.getD (.other "Retry exhausted")),s)
  | left+1, attempt, _, s =>
    match operation s with
    | (.ok result,next) => (.ok result,next)
    | (.error error,next) =>
      if attempt < config.maxRetries ∧ isRetryableError error config then
        retryWithFrom operation config left (attempt + 1) (some error) next
      else (.error error,next)

/-- `with_retry`, with the state its operation leaves. -/
def retryWith (operation : σ → Except ProviderError α × σ) (config : RetryConfig) (s : σ) :
    Except ProviderError α × σ :=
  retryWithFrom operation config (config.maxRetries + 1) 0 none s

theorem retryFrom_counted (operation : σ → Except ProviderError α × σ) (config : RetryConfig) (before : Nat → σ)
    (follows : ∀ attempt, before (attempt + 1) = (operation (before attempt)).2) (left attempt : Nat)
    (lastError : Option ProviderError) :
    retryFrom (fun attempt => (operation (before attempt)).1) config left attempt lastError =
      (retryWithFrom operation config left attempt lastError (before attempt)).1 := by
  induction left generalizing attempt lastError with
  | zero => rfl
  | succ left ih =>
    have next := follows attempt
    rw [retryFrom,retryWithFrom]
    cases called : operation (before attempt) with
    | mk answer after =>
      rw [called] at next
      cases answer with
      | ok result => rfl
      | error error =>
        dsimp only
        split
        · rw [ih,next]
        · rfl

theorem retryWithFrom_grows (operation : σ → Except ProviderError α × σ) (config : RetryConfig) (size : σ → Nat)
    (grows : ∀ s, size s < size (operation s).2) (left attempt : Nat) (lastError : Option ProviderError) (s : σ) :
    size s ≤ size (retryWithFrom operation config left attempt lastError s).2 ∧
      (0 < left → size s < size (retryWithFrom operation config left attempt lastError s).2) := by
  induction left generalizing attempt lastError s with
  | zero => exact ⟨Nat.le_refl _,fun positive => absurd positive (Nat.lt_irrefl 0)⟩
  | succ left ih =>
    have one := grows s
    rw [retryWithFrom]
    cases called : operation s with
    | mk answer next =>
      rw [called] at one
      cases answer with
      | ok result => exact ⟨Nat.le_of_lt one,fun _ => one⟩
      | error error =>
        dsimp only
        split
        · have later := (ih (attempt + 1) (some error) next).1
          exact ⟨Nat.le_trans (Nat.le_of_lt one) later,fun _ => Nat.lt_of_lt_of_le one later⟩
        · exact ⟨Nat.le_of_lt one,fun _ => one⟩

end Counting

structure InnerProvider where
  providerId : String
  modelId : String
  retryConfig : RetryConfig
  completeInner : (request call : Nat) → List Message → Options → Except ProviderError CompletionResponse
  completeStream : (request : Nat) → List Message → Options →
    Except ProviderError (List (Except ProviderError Delta))

namespace InnerProvider

variable (provider : InnerProvider) (request : Nat) (messages : List Message) (options : Options)

/-- One call of `complete_inner`. The state is the number of calls before. -/
def callInner (calls : Nat) : Except ProviderError CompletionResponse × Nat :=
  (provider.completeInner request calls messages options,calls + 1)

/-- The default `LLMProvider::complete`. -/
def complete (calls : Nat) : Except ProviderError CompletionResponse × Nat :=
  retryWith (provider.callInner request messages options) provider.retryConfig calls

/-- One turn of `AgentLoop::run`: its response, and the calls of `complete_inner` it took. -/
def turn : Except ProviderError CompletionResponse × Nat :=
  retryWith (provider.complete request messages options) {} 0

/-- The calls of `complete_inner` before an attempt of the loop. -/
def callsBefore : Nat → Nat
  | 0 => 0
  | attempt+1 => (provider.complete request messages options (callsBefore attempt)).2

def toProvider : LLMProvider where
  providerId := provider.providerId
  modelId := provider.modelId
  complete request attempt messages options :=
    (provider.complete request messages options (provider.callsBefore request messages options attempt)).1
  completeStream := provider.completeStream

end InnerProvider

/-- The loop's retries of such a provider give the response of the counted turn. -/
theorem withRetry_turn (provider : InnerProvider) (request : Nat) (messages : List Message) (options : Options) :
    withRetry (fun attempt => provider.toProvider.complete request attempt messages options) {} =
      (provider.turn request messages options).1 :=
  retryFrom_counted (provider.complete request messages options) {} (provider.callsBefore request messages options)
    (fun _ => rfl) _ 0 none

/-! One `complete`. -/

def Retryable (config : RetryConfig) (answer : Except ProviderError CompletionResponse) : Prop :=
  ∃ error, answer = .error error ∧ isRetryableError error config = true

/-- The call that ends the retries of a configuration: every call before it is retried, and it
is not, or is the last. -/
structure Decisive (config : RetryConfig) (answers : Nat → Except ProviderError CompletionResponse) (call : Nat) :
    Prop where
  limit : call ≤ config.maxRetries
  before : ∀ earlier < call, Retryable config (answers earlier)
  ends : call = config.maxRetries ∨ ¬Retryable config (answers call)

theorem decisive_unique (config : RetryConfig) (answers : Nat → Except ProviderError CompletionResponse)
    (call other : Nat) (one : Decisive config answers call) (two : Decisive config answers other) : call = other := by
  rcases Nat.lt_trichotomy call other with less | same | more
  · rcases one.ends with last | stops
    · have := two.limit
      omega
    · exact absurd (two.before call less) stops
  · exact same
  · rcases two.ends with last | stops
    · have := one.limit
      omega
    · exact absurd (one.before other more) stops

section Turns

variable (provider : InnerProvider) (request : Nat) (messages : List Message) (options : Options)

theorem callInner_retries (left attempt : Nat) (lastError : Option ProviderError) (positive : 0 < left)
    (limit : left + attempt = provider.retryConfig.maxRetries + 1)
    (before : ∀ earlier < attempt, Retryable provider.retryConfig (provider.completeInner request earlier messages options)) :
    ∃ call, Decisive provider.retryConfig (fun call => provider.completeInner request call messages options) call ∧
      retryWithFrom (provider.callInner request messages options) provider.retryConfig left attempt lastError attempt =
        (provider.completeInner request call messages options,call + 1) := by
  induction left generalizing attempt lastError with
  | zero => omega
  | succ left ih =>
    rw [retryWithFrom]
    unfold InnerProvider.callInner
    cases given : provider.completeInner request attempt messages options with
    | ok result =>
      refine ⟨attempt,⟨by omega,before,.inr ?_⟩,by rw [given]⟩
      rintro ⟨error,same,-⟩
      simp [given] at same
    | error error =>
      dsimp only
      by_cases again : attempt < provider.retryConfig.maxRetries ∧ isRetryableError error provider.retryConfig = true
      · rw [if_pos again]
        apply ih (attempt + 1) (some error) (by omega) (by omega)
        intro earlier less
        rcases Nat.lt_succ_iff_lt_or_eq.mp less with former | rfl
        · exact before earlier former
        · exact ⟨error,given,again.2⟩
      · rw [if_neg again]
        refine ⟨attempt,⟨by omega,before,?_⟩,by rw [given]⟩
        rcases Nat.lt_or_ge attempt provider.retryConfig.maxRetries with below | last
        · refine .inr ?_
          rintro ⟨other,same,retried⟩
          obtain rfl : error = other := by simpa [given] using same
          exact again ⟨below,retried⟩
        · exact .inl (by omega)

theorem complete_first :
    ∃ call, Decisive provider.retryConfig (fun call => provider.completeInner request call messages options) call ∧
      provider.complete request messages options 0 = (provider.completeInner request call messages options,call + 1) :=
  callInner_retries provider request messages options (provider.retryConfig.maxRetries + 1) 0 none (Nat.succ_pos _) rfl
    (fun _ less => absurd less (Nat.not_lt_zero _))

theorem complete_grows (calls : Nat) : calls < (provider.complete request messages options calls).2 :=
  (retryWithFrom_grows (provider.callInner request messages options) provider.retryConfig id
    (fun calls => Nat.lt_succ_self calls) _ 0 none calls).2 (Nat.succ_pos _)

/-- A turn calls `complete_inner` until the decisive call of its provider, and then once more
at least if that failed with an error the loop retries. -/
theorem turn_calls (call : Nat)
    (decisive : Decisive provider.retryConfig (fun call => provider.completeInner request call messages options) call) :
    ((¬Retryable {} (provider.completeInner request call messages options)) →
      (provider.turn request messages options).2 = call + 1) ∧
    (Retryable {} (provider.completeInner request call messages options) →
      call + 1 < (provider.turn request messages options).2) := by
  obtain ⟨first,settled,ran⟩ := complete_first provider request messages options
  obtain rfl := decisive_unique _ _ call first decisive settled
  unfold InnerProvider.turn retryWith
  rw [retryWithFrom,ran]
  cases given : provider.completeInner request call messages options with
  | ok result => exact ⟨fun _ => rfl,fun ⟨error,same,_⟩ => nomatch same⟩
  | error error =>
    dsimp only
    by_cases again : isRetryableError error {} = true
    · rw [if_pos ⟨by decide,again⟩]
      refine ⟨fun stops => absurd ⟨error,rfl,again⟩ stops,fun _ => ?_⟩
      exact (retryWithFrom_grows (provider.complete request messages options) {} id
        (complete_grows provider request messages options) 3 1 (some error) (call + 1)).2 (by decide)
    · rw [if_neg (fun both => again both.2)]
      refine ⟨fun _ => rfl,?_⟩
      rintro ⟨other,same,retried⟩
      obtain rfl := Except.error.inj same
      exact absurd retried again

/-- A turn takes at most one call more than the provider's retries and stops at the first error
they do not cover, exactly when the call that ends them does not fail with an error
that the loop retries. -/
theorem turn_bounded_iff :
    ((provider.turn request messages options).2 ≤ 1 + provider.retryConfig.maxRetries ∧
      ∀ call error, provider.completeInner request call messages options = .error error →
        isRetryableError error provider.retryConfig = false → (provider.turn request messages options).2 ≤ call + 1) ↔
    ∀ call, Decisive provider.retryConfig (fun call => provider.completeInner request call messages options) call →
      ∀ error, provider.completeInner request call messages options = .error error → isRetryableError error {} = false := by
  constructor
  · rintro ⟨limit,stops⟩ call decisive error given
    refine Bool.eq_false_iff.mpr fun again => ?_
    have more := (turn_calls provider request messages options call decisive).2 ⟨error,given,again⟩
    rcases decisive.ends with last | ended
    · omega
    · have covered : isRetryableError error provider.retryConfig = false :=
        Bool.eq_false_iff.mpr fun covered => ended ⟨error,given,covered⟩
      have := stops call error given covered
      omega
  · intro settled
    obtain ⟨call,decisive,-⟩ := complete_first provider request messages options
    have once : (provider.turn request messages options).2 = call + 1 := by
      apply (turn_calls provider request messages options call decisive).1
      rintro ⟨error,given,retried⟩
      simp [settled call decisive error given] at retried
    refine ⟨by have := decisive.limit; omega,?_⟩
    intro failed error given uncovered
    rcases Nat.lt_or_ge failed call with before | after
    · obtain ⟨other,same,retried⟩ := decisive.before failed before
      obtain rfl := Except.error.inj (given.symm.trans same)
      simp [uncovered] at retried
    · omega

end Turns

/-! A provider that cannot be reached. -/

def unreachable : InnerProvider :=
  ⟨"p","m",{},fun _ _ _ _ => .error (.network "unreachable"),fun _ _ _ => .error (.network "unreachable")⟩

/-- With the default configuration of three retries one turn takes sixteen calls. -/
theorem unreachable_sixteen_calls :
    (unreachable.turn 0 [.user "go"] ⟨"m",4096,none⟩).2 = 16 ∧ ¬16 ≤ 1 + unreachable.retryConfig.maxRetries := by
  decide

end ClawKernel.Loop.Attempts
