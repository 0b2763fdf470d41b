import TokenEra.Billing.QuotaBounds

/-!
# What the smoke test of an expression is worth

An expression is accepted if it runs and is not negative on four vectors, whose cache, image and
audio counts are all zero, and two requests (`smokeTestExpr`). Settlement runs it on the counts and
the request that were, and nothing cuts off a negative value. So the quota is a charge for every
group ratio exactly if the expression is not negative there (`neverCredits_iff`).

Expressions are run by a library: here an expression is what it says on counts and a request, its
value or an error.
-/

namespace TokenEra.TextQuota

structure RequestInput where
  headers : List (String × String) := []
  body : String := ""
  deriving DecidableEq, Repr

/-- `RunExprWithRequest` of one expression. -/
abbrev Expression := TokenParams → RequestInput → Except String ℚ

inductive SmokeError
  | runFailed (vector : TokenParams) (text : String)
  | negative (vector : TokenParams) (result : ℚ)
  deriving DecidableEq, Repr

def smokeVector (n : Int) : TokenParams := ⟨n, n, n, 0, 0, 0, 0, 0, 0, 0⟩

def smokeVectors : List TokenParams := [smokeVector 0, smokeVector 1000, smokeVector 100000, smokeVector 1000000]

def smokeRequests : List RequestInput :=
  [{}, { headers := [("anthropic-beta", "fast-mode-2026-02-01")],
         body := "\x7b\"service_tier\":\"fast\",\"stream_options\":\x7b\"include_usage\":true\x7d,\"messages\":" ++
          "[1,2,3,4,5,6,7,8,9,10,11,12,13,14,15,16,17,18,19,20,21]\x7d" }]

def smokeTestExpr (e : Expression) : Except SmokeError Unit :=
  smokeVectors.forM fun v =>
    smokeRequests.forM fun request =>
      match e v request with
      | .error text => .error (.runFailed v text)
      | .ok result => if result < 0 then .error (.negative v result) else .ok ()

/-- Settlement charges nothing below zero, by the expression alone and with a tool surcharge. -/
def NeverCredits (e : Expression) (params : TokenParams) (request : RequestInput) (quotaPerUnit : ℚ) : Prop :=
  ∀ snap : BillingSnapshot, snap.quotaPerUnit = quotaPerUnit → 0 ≤ snap.groupRatio →
    (∀ params, snap.runExpr params = e params request) → ∀ result, computeTieredQuota snap params = .ok result →
      0 ≤ result.actualQuotaAfterGroup ∧
        ∀ (info : RelayInfo) (summary : Summary), info.tieredBillingSnapshot = some snap →
          0 ≤ summary.toolCallSurchargeQuota →
          0 ≤ composeTieredTextQuota info summary result.actualQuotaAfterGroup (some result)

theorem computeTieredQuota_eq_ok {snap : BillingSnapshot} {params : TokenParams} {result : TieredResult} :
    computeTieredQuota snap params = .ok result ↔ ∃ cost, snap.runExpr params = .ok cost ∧
      result = ⟨cost / 1000000 * snap.quotaPerUnit,
        quotaFromDecimal (cost / 1000000 * snap.quotaPerUnit * snap.groupRatio)⟩ := by
  rw [computeTieredQuota]
  cases snap.runExpr params with
  | error text => simp
  | ok cost => simp [quotaFromDecimal, eq_comm]

/-- **Settlement never credits on some counts and a request exactly if the expression is not
negative there.** -/
theorem neverCredits_iff (e : Expression) (params : TokenParams) (request : RequestInput) (quotaPerUnit : ℚ)
    (hunit : 0 < quotaPerUnit) :
    NeverCredits e params request quotaPerUnit ↔ ∀ cost, e params request = .ok cost → 0 ≤ cost := by
  constructor
  · intro hnever cost hcost
    by_contra hneg
    rw [not_le] at hneg
    -- the group ratio for which the value is minus one
    have hfactor : 0 < -(cost / 1000000 * quotaPerUnit) := by
      have := mul_pos (neg_pos.2 hneg) hunit
      linarith
    let snap : BillingSnapshot :=
      ⟨"tiered_expr", (-(cost / 1000000 * quotaPerUnit))⁻¹, 0, quotaPerUnit, fun _ => false,
        fun params => e params request⟩
    have hvalue : cost / 1000000 * snap.quotaPerUnit * snap.groupRatio = -1 := by
      have hcancel := mul_inv_cancel₀ hfactor.ne'
      simp only [snap]
      linarith
    have hquota := (hnever snap rfl (inv_nonneg.2 hfactor.le) (fun _ => rfl) _
      (computeTieredQuota_eq_ok.2 ⟨cost, hcost, rfl⟩)).1
    have hminus : quotaFromDecimal (-1) = -1 := by decide +kernel
    simp only [hvalue, hminus] at hquota
    omega
  · intro hcost snap hsnap hratio hrun result hresult
    obtain ⟨cost, hok, rfl⟩ := computeTieredQuota_eq_ok.1 hresult
    have hpos : 0 ≤ cost := hcost cost ((hrun params).symm.trans hok)
    have hvalue : 0 ≤ cost / 1000000 * snap.quotaPerUnit * snap.groupRatio := by
      rw [hsnap]
      positivity
    refine ⟨quotaFromDecimal_nonneg hvalue, fun info summary hinfo hcharge => ?_⟩
    simp only [composeTieredTextQuota, hinfo]
    split_ifs
    · exact quotaFromDecimal_nonneg hvalue
    · exact quotaFromDecimal_nonneg (add_nonneg hvalue hcharge)

def discounted : Expression := fun params _ => .ok (params.p + params.c - 5 * params.cr)

theorem neverCredits_discounted :
    NeverCredits discounted ⟨1000, 20, 1200, 200, 0, 0, 0, 0, 0, 0⟩ {} 500000 := by
  refine (neverCredits_iff discounted _ _ 500000 (by norm_num)).2 fun cost hcost => ?_
  cases hcost
  norm_num

/-- The expression is accepted, and a request whose prompt is mostly cached is credited. -/
theorem discounted_credits :
    let usage : TokenUsage.Counts := { promptTokens := 1000, promptTokensDetails := { cachedTokens := 800 } }
    let snap : BillingSnapshot :=
      ⟨"tiered_expr", 1, 0, 500000, fun name => name = "cr", fun params => discounted params {}⟩
    smokeTestExpr discounted = .ok () ∧
      computeTieredQuota snap (buildTieredTokenParams usage false snap.usedVars) = .ok ⟨-1900, -1900⟩ := by
  intro usage snap
  have hsmoke : smokeTestExpr discounted = .ok () := by decide +kernel
  refine ⟨hsmoke, computeTieredQuota_eq_ok.2 ⟨-3800, ?_, ?_⟩⟩
  · decide +kernel
  · norm_num [snap]
    decide +kernel

end TokenEra.TextQuota
