import Mathlib.Data.Rat.Floor
import Mathlib.Tactic

/-!
# Payment rows and quota conversion

The rows of `top_ups`, and the conversion of a decimal to a quota (`common/quota_math.go`). Decimals
are exact, so they are rationals; a float column is the decimal that it prints as, which is what
`decimal.NewFromFloat` makes of it.
-/

namespace TokenEra

inductive Provider
  | epay
  | stripe
  | creem
  | waffo
  | waffoPancake
  | balance
  | other (text : String)
deriving DecidableEq, Repr

inductive TopUpStatus
  | pending
  | success
  | failed
  | expired
deriving DecidableEq, Repr

structure TopUp where
  userId : Int
  amount : Int
  money : ℚ
  tradeNo : String
  paymentMethod : String
  paymentProvider : Provider
  createTime : Int
  completeTime : Int
  status : TopUpStatus
deriving DecidableEq, Repr

/-! ### Quota conversion -/

def maxQuota : Int := 2 ^ 31 - 1

def minQuota : Int := -2 ^ 31

inductive QuotaClampKind
  | overflow
  | underflow
deriving DecidableEq, Repr

/-- `saturateQuota` on a rounded value; a decimal is never NaN. -/
def saturateQuota (value : Int) : Int × Option QuotaClampKind :=
  if maxQuota ≤ value then (maxQuota, some .overflow)
  else if value ≤ minQuota then (minQuota, some .underflow)
  else (value, none)

def strictQuota (quota : Int) (clamp : Option QuotaClampKind) : Except QuotaClampKind Int :=
  match clamp with
  | some kind => .error kind
  | none => .ok quota

/-- `Decimal.Round(0)`: halves go away from zero. -/
def roundHalfAway (d : ℚ) : Int := if 0 ≤ d then ⌊d + 1 / 2⌋ else -⌊-d + 1 / 2⌋

/-- `QuotaFromDecimalStrict`. A rounded value that a `float64` cannot hold is out of range either
way. -/
def quotaFromDecimalStrict (d : ℚ) : Except QuotaClampKind Int :=
  strictQuota (saturateQuota (roundHalfAway d)).1 (saturateQuota (roundHalfAway d)).2

theorem quotaFromDecimalStrict_ok {d : ℚ} {quota : Int} :
    quotaFromDecimalStrict d = .ok quota ↔
      quota = roundHalfAway d ∧ minQuota < roundHalfAway d ∧ roundHalfAway d < maxQuota := by
  unfold quotaFromDecimalStrict saturateQuota
  split_ifs with hhigh hlow
  · simp [strictQuota]
    omega
  · simp [strictQuota]
    omega
  · simp only [strictQuota, Except.ok.injEq]
    constructor
    · rintro rfl
      exact ⟨rfl, by omega, by omega⟩
    · rintro ⟨rfl, -, -⟩
      rfl

@[simp] theorem roundHalfAway_intCast (n : Int) : roundHalfAway n = n := by
  unfold roundHalfAway
  have hhalf (m : Int) : ⌊(m : ℚ) + 1 / 2⌋ = m := by
    rw [Int.floor_eq_iff]
    constructor <;> norm_num
  split_ifs
  · exact hhalf n
  · rw [← Int.cast_neg, hhalf]
    omega

example : roundHalfAway (5 / 2) = 3 ∧ roundHalfAway (-5 / 2) = -3 := by decide +kernel

end TokenEra
