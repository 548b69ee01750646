import Mathlib.Algebra.GroupWithZero.Nat
import Mathlib.Data.Nat.Basic

/-! Durations, and the machine arithmetic that delays are computed with. An operation that
overflows has no value. A delay that doubles with each attempt is bounded below by the
product of the base and the power of two, as far as the maximum allows it.
-/
namespace ClawKernel.Lib.Delays

def u64Values : Nat := UInt64.size

def u128Values : Nat := u64Values * u64Values

/-- The cast `as u64`. -/
def asU64 (n : Nat) : Nat := n % u64Values

def saturatingMul128 (a b : Nat) : Nat := min (a * b) (u128Values - 1)

def saturatingAdd64 (a b : Nat) : Nat := min (a + b) (u64Values - 1)

def checkedAdd64 (a b : Nat) : Option Nat := if a + b < u64Values then some (a + b) else none

/-- `2u128.pow(attempt)`. -/
def pow128 (attempt : UInt32) : Option Nat := if attempt.toNat < 128 then some (2 ^ attempt.toNat) else none

theorem u64Values_eq : u64Values = 18446744073709551616 := rfl

theorem halfSecond_fits : 500 < u64Values := by
  decide

theorem asU64_lt (n : Nat) : asU64 n < u64Values := Nat.mod_lt n (by rw [u64Values_eq]; decide)

theorem asU64_le (n : Nat) : asU64 n ≤ n := Nat.mod_le n _

theorem min_asU64_lt (n m : Nat) : min n (asU64 m) < u64Values := Nat.lt_of_le_of_lt (Nat.min_le_right ..) (asU64_lt m)

@[ext] structure Duration where
  secs : Nat
  nanos : Nat
  secs_lt : secs < u64Values
  nanos_lt : nanos < 1000000000
  deriving DecidableEq

def Duration.asNanos (d : Duration) : Nat := d.secs * 1000000000 + d.nanos

def Duration.asMillis (d : Duration) : Nat := d.secs * 1000 + d.nanos / 1000000

def Duration.fromMillis (ms : Nat) (fits : ms < u64Values) : Duration where
  secs := ms / 1000
  nanos := ms % 1000 * 1000000
  secs_lt := Nat.lt_of_le_of_lt (Nat.div_le_self ..) fits
  nanos_lt := by have := Nat.mod_lt ms (show 0 < 1000 by decide); omega

@[simp] theorem Duration.asMillis_fromMillis (ms : Nat) (fits : ms < u64Values) : (fromMillis ms fits).asMillis = ms := by
  simp only [asMillis,fromMillis,Nat.mul_div_cancel _ (show 0 < 1000000 by decide)]
  omega

theorem Duration.asMillis_eq (d : Duration) : d.asMillis = d.asNanos / 1000000 := by
  unfold asMillis asNanos
  omega

/-- The thread's generator: a number below the bound. -/
structure Rng where
  genRange : Nat → Nat
  below : ∀ bound, 0 < bound → genRange bound < bound

/-- The jitter added to a delay. -/
def Rng.jitter (rng : Rng) (cap : Nat) : Nat := if 0 < cap then rng.genRange cap else 0

def Rng.least : Rng := ⟨fun _ => 0,fun _ positive => positive⟩

def Rng.greatest : Rng := ⟨fun bound => bound - 1,fun _ positive => Nat.sub_lt positive Nat.one_pos⟩

/-- Whatever is drawn, the delay is computed, is at most the maximum and at least `product`
or the maximum, in whole milliseconds. -/
def Backs (product : Nat) (max : Duration) (delay : Rng → Option Duration) : Prop :=
  ∀ rng, ∃ d, delay rng = some d ∧ d.asMillis ≤ max.asMillis ∧ min product max.asMillis ≤ d.asMillis

/-- The product of the base in whole milliseconds. -/
def wholeProduct (base : Duration) (attempt : UInt32) : Nat := base.asMillis * 2 ^ attempt.toNat

/-- The product of the base, in whole milliseconds. -/
def exactProduct (base : Duration) (attempt : UInt32) : Nat := base.asNanos * 2 ^ attempt.toNat / 1000000

/-- Neither the product nor the maximum loses by being cut to 64 bits. -/
def Uncut (product max : Nat) : Prop :=
  product < u64Values ∧ (max < u64Values ∨ product ≤ max % u64Values) ∨
    u64Values ≤ product ∧ max < u64Values ∧ (u128Values ≤ product ∨ max ≤ product % u64Values)

/-- What the jitter is added to. -/
def capOf (product max : Nat) : Nat := min (asU64 (min product (u128Values - 1))) (asU64 max)

theorem wholeProduct_le (base : Duration) (attempt : UInt32) : wholeProduct base attempt ≤ exactProduct base attempt := by
  rw [wholeProduct,exactProduct,Duration.asMillis_eq,Nat.le_div_iff_mul_le (by decide)]
  calc base.asNanos / 1000000 * 2 ^ attempt.toNat * 1000000
      = base.asNanos / 1000000 * 1000000 * 2 ^ attempt.toNat := Nat.mul_right_comm ..
    _ ≤ base.asNanos * 2 ^ attempt.toNat := Nat.mul_le_mul_right _ (Nat.div_mul_le_self ..)

theorem capOf_le (product max : Nat) : capOf product max ≤ min product max :=
  Nat.le_min.mpr ⟨Nat.le_trans (Nat.min_le_left ..) (Nat.le_trans (asU64_le _) (Nat.min_le_left ..)),
    Nat.le_trans (Nat.min_le_right ..) (asU64_le max)⟩

theorem capOf_asU64 (product max : Nat) : capOf product max ≤ asU64 max := Nat.min_le_right ..

theorem uncut_iff (product max : Nat) : Uncut product max ↔ min product max ≤ capOf product max := by
  have last : (u128Values - 1) % u64Values = u64Values - 1 := by decide
  have positive : 0 < u64Values := by decide
  have below := Nat.mod_lt product positive
  have under := Nat.mod_lt max positive
  have more : u64Values ≤ u128Values := by decide
  have same : max < u64Values → max % u64Values = max := Nat.mod_eq_of_lt
  unfold Uncut capOf asU64
  by_cases huge : u128Values ≤ product
  · rw [Nat.min_eq_right (show u128Values - 1 ≤ product by omega),last]
    by_cases fits : max < u64Values
    · rw [same fits]
      omega
    · omega
  · rw [Nat.min_eq_left (show product ≤ u128Values - 1 by omega)]
    by_cases small : product < u64Values
    · rw [Nat.mod_eq_of_lt small]
      by_cases fits : max < u64Values
      · rw [same fits]
        omega
      · omega
    · by_cases fits : max < u64Values
      · rw [same fits]
        omega
      · omega

theorem uncut_capOf (product max : Nat) (uncut : Uncut product max) : capOf product max = min product max :=
  Nat.le_antisymm (capOf_le product max) ((uncut_iff product max).mp uncut)

/-- What the cut of the base to whole milliseconds takes away makes no difference. -/
def NothingLost (base max : Duration) (attempt : UInt32) : Prop :=
  exactProduct base attempt = wholeProduct base attempt ∨ max.asMillis ≤ wholeProduct base attempt

theorem exact_iff (base max : Duration) (attempt : UInt32) :
    min (exactProduct base attempt) max.asMillis ≤ capOf (wholeProduct base attempt) max.asMillis ↔
      Uncut (wholeProduct base attempt) max.asMillis ∧ NothingLost base max attempt := by
  have larger := wholeProduct_le base attempt
  have least := capOf_le (wholeProduct base attempt) max.asMillis
  rw [uncut_iff]
  unfold NothingLost
  omega

/-- A lower bound for every draw is one for the draw that adds nothing. -/
theorem backs_iff (product other : Nat) (max : Duration) (delay : Rng → Option Duration) (sum : Nat → Nat → Nat)
    (grows : ∀ cap < u64Values, ∀ drawn, cap ≤ sum cap drawn) (still : ∀ cap < u64Values, sum cap 0 = cap)
    (delayed : ∀ rng, delay rng = some
      (.fromMillis (min (sum (capOf other max.asMillis) (rng.jitter (capOf other max.asMillis))) (asU64 max.asMillis))
        (min_asU64_lt ..))) :
    Backs product max delay ↔ min product max.asMillis ≤ capOf other max.asMillis := by
  have below : capOf other max.asMillis ≤ asU64 max.asMillis := capOf_asU64 other max.asMillis
  have fits := Nat.lt_of_le_of_lt below (asU64_lt max.asMillis)
  constructor
  · intro backs
    obtain ⟨d,computed,_,lower⟩ := backs Rng.least
    rw [delayed,Option.some.injEq] at computed
    rw [← computed,Duration.asMillis_fromMillis] at lower
    have none : Rng.least.jitter (capOf other max.asMillis) = 0 := by
      unfold Rng.jitter
      split <;> rfl
    rw [none,still _ fits,Nat.min_eq_left below] at lower
    exact lower
  · intro lower rng
    refine ⟨_,delayed rng,?_,?_⟩
    · rw [Duration.asMillis_fromMillis]
      exact Nat.le_trans (Nat.min_le_right ..) (asU64_le _)
    · rw [Duration.asMillis_fromMillis]
      exact Nat.le_trans lower (Nat.le_min.mpr ⟨grows _ fits _,below⟩)

end ClawKernel.Lib.Delays
