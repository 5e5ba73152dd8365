/-
MicrossApi/QuotaMath.lean

Quota conversions (common/quota_math.go).  Quota columns are 32-bit, so a
computed value is rounded and then kept inside the int32 range: saturated on
the charging paths, refused on the strict ones.  The decimals the source
computes with are exact, hence rationals here; a rounded decimal inside the
range is exact as a float64, and one outside it is outside as a float64 too.
-/
import MicrossApi.Rounding

namespace MicrossApi

open Rounding

/-- `MaxQuota`, the largest int32. -/
def maxQuota : Int := 2147483647

/-- `MinQuota`, the smallest int32. -/
def minQuota : Int := -2147483648

/-- Why a conversion was saturated (`QuotaClampKind`); a decimal is never
NaN. -/
inductive QuotaClampKind where
  | overflow
  | underflow
deriving DecidableEq, Repr

/-- `saturateQuota`: the value kept inside the range, and the clamp if there
was one.  The bounds themselves count as clamped. -/
def saturateQuota (value : Int) : Int × Option QuotaClampKind :=
  if maxQuota ≤ value then (maxQuota, some .overflow)
  else if value ≤ minQuota then (minQuota, some .underflow)
  else (value, none)

/-- `QuotaFromDecimalChecked`. -/
def quotaFromDecimalChecked (d : ℚ) : Int × Option QuotaClampKind :=
  saturateQuota (roundHalfAway d)

/-- `QuotaFromDecimal`. -/
def quotaFromDecimal (d : ℚ) : Int := (quotaFromDecimalChecked d).1

/-- `strictQuota`: a clamp is an error. -/
def strictQuota (r : Int × Option QuotaClampKind) : Except QuotaClampKind Int :=
  match r with
  | (_, some clamp) => .error clamp
  | (quota, none) => .ok quota

/-- `QuotaFromDecimalStrict`. -/
def quotaFromDecimalStrict (d : ℚ) : Except QuotaClampKind Int :=
  strictQuota (quotaFromDecimalChecked d)

end MicrossApi
