import Mathlib.Data.List.Basic

/-! Retrying an operation. A caller logs what it does; the calls of the operation come to
given outcomes, one after the other. A loop over the attempts is exact when it calls again
after each retryable error, while retries are left, and otherwise ends with the outcome of
its last call.
-/
namespace ClawKernel.Lib.Retrying

variable {α ε σ ρ : Type*}

/-- A `for` loop whose body may return from the function. -/
def forEach (body : Nat → σ → σ ⊕ ρ) : List Nat → σ → σ ⊕ ρ
  | [], s => .inl s
  | attempt :: rest, s =>
    match body attempt s with
    | .inl next => forEach body rest next
    | .inr result => .inr result

inductive Act where
  | call
  | wait (attempt : Nat)
  | connect
  deriving DecidableEq, Repr

/-- What a retrying function comes to. -/
inductive Ended (α ε : Type*) where
  | returned (result : Except ε α)
  | panicked

/-- The next call of the operation. -/
def operate (outcomes : Nat → Except ε α) (log : List Act) : Except ε α × List Act :=
  (outcomes (log.count .call),log ++ [.call])

/-- The next call of `connect`. -/
def reconnect (outcomes : Nat → Except ε α) (log : List Act) : Except ε α × List Act :=
  (outcomes (log.count .connect),log ++ [.connect])

/-- What is logged by `retries` calls that were each retried. -/
def retried (between : Nat → List Act) (retries : Nat) : List Act :=
  (List.range retries).flatMap (fun attempt => .call :: between attempt)

theorem retried_succ (between : Nat → List Act) (retries : Nat) :
    retried between (retries + 1) = retried between retries ++ .call :: between retries := by
  simp [retried,List.range_succ]

theorem count_retried (between : Nat → List Act) (act : Act) (each retries : Nat)
    (counted : ∀ attempt, (Act.call :: between attempt).count act = each) :
    (retried between retries).count act = retries * each := by
  induction retries with
  | zero => simp [retried]
  | succ retries ih => rw [retried_succ,List.count_append,ih,counted,Nat.succ_mul]

/-- A call whose error is retried when a retry is left. -/
def Again (outcomes : Nat → Except ε α) (retryable : ε → Bool) (attempt : Nat) : Prop :=
  ∃ e, outcomes attempt = .error e ∧ retryable e = true

/-- `retries` is the number of calls that are retried, `ended` what is returned and logged. -/
structure Exact (outcomes : Nat → Except ε α) (retryable : ε → Bool) (maxRetries : Nat) (between : Nat → List Act)
    (retries : Nat) (ended : Except ε α × List Act) : Prop where
  bounded : retries ≤ maxRetries
  again : ∀ attempt < retries, Again outcomes retryable attempt
  last : retries = maxRetries ∨ ¬Again outcomes retryable retries
  result : ended.1 = outcomes retries
  logged : ended.2 = retried between retries ++ [.call]

variable {outcomes : Nat → Except ε α} {retryable : ε → Bool} {maxRetries : Nat} {between : Nat → List Act}

theorem Exact.unique {retries others : Nat} {ended other : Except ε α × List Act}
    (one : Exact outcomes retryable maxRetries between retries ended)
    (two : Exact outcomes retryable maxRetries between others other) : retries = others ∧ ended = other := by
  have same : retries = others := by
    rcases Nat.lt_trichotomy retries others with less | same | more
    · rcases one.last with all | final
      · have := two.bounded
        omega
      · exact absurd (two.again retries less) final
    · exact same
    · rcases two.last with all | final
      · have := one.bounded
        omega
      · exact absurd (one.again others more) final
  subst same
  exact ⟨rfl,Prod.ext (one.result.trans two.result.symm) (one.logged.trans two.logged.symm)⟩

/-- One call for the start and one for each retry. -/
theorem Exact.calls {retries : Nat} {ended : Except ε α × List Act}
    (exact : Exact outcomes retryable maxRetries between retries ended)
    (counted : ∀ attempt, (between attempt).count .call = 0) : ended.2.count .call = retries + 1 := by
  rw [exact.logged,List.count_append,count_retried between .call 1 retries (by simp [counted])]
  simp

/-- What one iteration of the loop has to do. -/
structure Iterates (outcomes : Nat → Except ε α) (retryable : ε → Bool) (maxRetries : Nat)
    (between : Nat → List Act) (logOf : σ → List Act) (body : Nat → σ → σ ⊕ (Except ε α × List Act)) : Prop where
  again : ∀ attempt s, (logOf s).count .call = attempt → attempt < maxRetries → Again outcomes retryable attempt →
    ∃ next, body attempt s = .inl next ∧ logOf next = logOf s ++ .call :: between attempt
  last : ∀ attempt s, (logOf s).count .call = attempt → attempt ≤ maxRetries →
    ¬(attempt < maxRetries ∧ Again outcomes retryable attempt) →
    body attempt s = .inr (outcomes attempt,logOf s ++ [.call])

variable {logOf : σ → List Act} {body : Nat → σ → σ ⊕ (Except ε α × List Act)}

theorem forEach_last (iterates : Iterates outcomes retryable maxRetries between logOf body) (left attempt : Nat) (s : σ)
    (below : attempt ≤ maxRetries) (calls : (logOf s).count .call = attempt) (so_far : logOf s = retried between attempt)
    (before : ∀ earlier < attempt, Again outcomes retryable earlier)
    (ends : ¬(attempt < maxRetries ∧ Again outcomes retryable attempt)) :
    ∃ retries ended, forEach body (List.range' attempt (left + 1)) s = .inr ended ∧
      Exact outcomes retryable maxRetries between retries ended := by
  refine ⟨attempt,(outcomes attempt,logOf s ++ [.call]),?_,below,before,?_,rfl,by rw [so_far]⟩
  · rw [List.range'_succ,forEach,iterates.last attempt s calls below ends]
  · by_cases final : attempt = maxRetries
    · exact .inl final
    · exact .inr (fun again => ends ⟨by omega,again⟩)

/-- The loop with `left` retries left, after `attempt` retries. -/
theorem forEach_from (iterates : Iterates outcomes retryable maxRetries between logOf body)
    (counted : ∀ attempt, (between attempt).count .call = 0) (left attempt : Nat) (s : σ)
    (total : attempt + left = maxRetries) (so_far : logOf s = retried between attempt)
    (before : ∀ earlier < attempt, Again outcomes retryable earlier) :
    ∃ retries ended, forEach body (List.range' attempt (left + 1)) s = .inr ended ∧
      Exact outcomes retryable maxRetries between retries ended := by
  have counts : ∀ attempt, (retried between attempt).count .call = attempt := by
    intro attempt
    rw [count_retried between .call 1 attempt (by simp [counted]),Nat.mul_one]
  induction left generalizing attempt s with
  | zero =>
    exact forEach_last iterates 0 attempt s (by omega) (by rw [so_far,counts]) so_far before (fun more => by omega)
  | succ left ih =>
    by_cases more : attempt < maxRetries ∧ Again outcomes retryable attempt
    · obtain ⟨next,went,log⟩ := iterates.again attempt s (by rw [so_far,counts]) more.1 more.2
      have earlier : ∀ earlier < attempt + 1, Again outcomes retryable earlier := by
        intro earlier below
        rcases Nat.lt_succ_iff_lt_or_eq.mp below with below | rfl
        · exact before earlier below
        · exact more.2
      obtain ⟨retries,ended,found,exact⟩ := ih (attempt + 1) next (by omega) (by rw [log,so_far,retried_succ]) earlier
      refine ⟨retries,ended,?_,exact⟩
      rw [List.range'_succ,forEach,went]
      exact found
    · exact forEach_last iterates (left + 1) attempt s (by omega) (by rw [so_far,counts]) so_far before more

theorem forEach_exact (iterates : Iterates outcomes retryable maxRetries between logOf body)
    (counted : ∀ attempt, (between attempt).count .call = 0) (s : σ) (start : logOf s = []) :
    ∃ retries ended, forEach body (List.range (maxRetries + 1)) s = .inr ended ∧
      Exact outcomes retryable maxRetries between retries ended := by
  rw [List.range_eq_range']
  exact forEach_from iterates counted maxRetries 0 s (Nat.zero_add _) (by simpa [retried] using start)
    (fun _ below => absurd below (Nat.not_lt_zero _))

/-- A run that is exact: it calls once, and once more after each retry. -/
def Follows (outcomes : Nat → Except ε α) (retryable : ε → Bool) (maxRetries : Nat) (between : Nat → List Act)
    (run : Ended α ε × List Act) : Prop :=
  ∃ retries ended, run = (.returned ended.1,ended.2) ∧ Exact outcomes retryable maxRetries between retries ended ∧
    ended.2.count .call = retries + 1 ∧ ended.2.count .connect = retries * (between 0).count .connect

theorem follows_of_exact (run : Ended α ε × List Act) (counted : ∀ attempt, (between attempt).count .call = 0)
    (connects : ∀ attempt, (between attempt).count .connect = (between 0).count .connect)
    (exact : ∃ retries ended, run = (.returned ended.1,ended.2) ∧
      Exact outcomes retryable maxRetries between retries ended) : Follows outcomes retryable maxRetries between run := by
  obtain ⟨retries,ended,same,exact⟩ := exact
  refine ⟨retries,ended,same,exact,exact.calls counted,?_⟩
  rw [exact.logged,List.count_append,count_retried between .connect _ retries (by simpa using connects)]
  rfl

end ClawKernel.Lib.Retrying
