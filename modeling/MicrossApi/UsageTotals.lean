/-
MicrossApi/UsageTotals.lean

Token counts between chat completions and Claude
(relaykit/relayconvert/internal/oai_chat/to_claude_messages_resp.go,
relaykit/relayconvert/internal/claude_messages/to_oai_chat_resp.go,
relaykit/dto/billing_usage.go).

In a chat usage the prompt includes what was read from a cache and written to
one, in a Claude usage the input does not.  The converter to Claude takes the
two off only where `cache_write_tokens` is reported, and fills the split of the
cache writes from the older field alone (`usage_totals_kept_iff`).  The way from
Claude and back leads through a copy of the usage that travels along, unless
another record is attached already.
-/
import MicrossApi.ClaudeStream

namespace MicrossApi

/-! ### From Claude -/

/-- `GetCacheCreation5mTokens`. -/
def ClaudeUsage.getCacheCreation5mTokens (u : ClaudeUsage) : Int :=
  (u.cacheCreation.map (·.ephemeral5mInputTokens)).getD 0

/-- `GetCacheCreation1hTokens`. -/
def ClaudeUsage.getCacheCreation1hTokens (u : ClaudeUsage) : Int :=
  (u.cacheCreation.map (·.ephemeral1hInputTokens)).getD 0

/-- The counts of a usage. -/
def ClaudeUsage.counts (u : ClaudeUsage) : List Int :=
  [u.inputTokens, u.outputTokens, u.cacheCreationInputTokens, u.cacheReadInputTokens,
    u.claudeCacheCreation5mTokens, u.claudeCacheCreation1hTokens, u.getCacheCreation5mTokens,
    u.getCacheCreation1hTokens]

/-- `NewClaudeMessagesBillingUsage`; a usage of zeros (`HasClaudeUsageTokens`) gets none. -/
def newClaudeMessagesBillingUsage (u : ClaudeUsage) : Option BillingUsage :=
  if ∃ n ∈ u.counts, n ≠ 0 then
    some { source := "claude_messages", semantic := "anthropic", claudeUsage := some u }
  else none

/-- `cacheCreationTokensForOpenAIUsage`. -/
def cacheCreationTokensForOpenAIUsage (u : Usage) : Int :=
  let split := u.claudeCacheCreation5mTokens + u.claudeCacheCreation1hTokens
  if split = 0 then u.cachedCreationTokens
  else if split < u.cachedCreationTokens then u.cachedCreationTokens
  else split

/-- `buildOpenAIStyleUsageFromClaudeUsage`. -/
def buildOpenAIStyleUsageFromClaudeUsage (u : Usage) : Usage :=
  let split := normalizeCacheCreationSplit u.cachedCreationTokens u.claudeCacheCreation5mTokens
    u.claudeCacheCreation1hTokens
  { u with
    claudeCacheCreation5mTokens := split.1
    claudeCacheCreation1hTokens := split.2
    cacheWriteTokens := cacheCreationTokensForOpenAIUsage u
    promptTokens := u.promptTokens + u.cachedTokens + cacheCreationTokensForOpenAIUsage u }

/-- `UsageFromClaudeAPIUsage`; `attached` is the usage's own `BillingUsage`. -/
def usageFromClaudeAPIUsage (u : ClaudeUsage) (attached : Option BillingUsage) : Usage :=
  buildOpenAIStyleUsageFromClaudeUsage
    { promptTokens := u.inputTokens
      completionTokens := u.outputTokens
      cachedTokens := u.cacheReadInputTokens
      cachedCreationTokens := u.cacheCreationInputTokens
      claudeCacheCreation5mTokens := u.getCacheCreation5mTokens
      claudeCacheCreation1hTokens := u.getCacheCreation1hTokens
      billingUsage := attached.or (newClaudeMessagesBillingUsage u) }

/-! ### What is kept -/

/-- The counts of a chat usage. -/
def Usage.counts (u : Usage) : List Int :=
  [u.promptTokens, u.completionTokens, u.cachedTokens, u.cachedCreationTokens, u.cacheWriteTokens,
    u.claudeCacheCreation5mTokens, u.claudeCacheCreation1hTokens]

/-- The totals of a chat usage are those of the Claude usage made of it. -/
def TotalsKept (u : Usage) : Prop :=
  ∃ r, buildClaudeUsageFromOpenAIUsage (some u) = some r ∧
    r.inputTokens + r.cacheReadInputTokens + r.cacheCreationInputTokens = u.promptTokens ∧
    r.outputTokens = u.completionTokens ∧
    (r.cacheCreation.isSome →
      r.getCacheCreation5mTokens + r.getCacheCreation1hTokens = r.cacheCreationInputTokens)

/-- The cache writes are what they are split into, and nothing is negative or
left out that the way back would miss. -/
def ClaudeUsage.FitTogether (c : ClaudeUsage) : Prop :=
  c.cacheCreationInputTokens = c.getCacheCreation5mTokens + c.getCacheCreation1hTokens ∧
    c.claudeCacheCreation5mTokens = 0 ∧ c.claudeCacheCreation1hTokens = 0 ∧
    (0 < c.cacheCreationInputTokens ∧ 0 ≤ c.inputTokens ∨
      c.cacheCreationInputTokens = 0 ∧ c.cacheReadInputTokens = 0)

/-- A Claude usage comes back as it was. -/
def CountsReturn (c : ClaudeUsage) (attached : Option BillingUsage) : Prop :=
  (buildClaudeUsageFromOpenAIUsage (some (usageFromClaudeAPIUsage c attached))).map
    ClaudeUsage.counts = some c.counts

/-- A record that is attached already has the counts, or leaves them to be computed. -/
def RecordFits (c : ClaudeUsage) (attached : Option BillingUsage) : Prop :=
  ∀ b ∈ attached,
    match Usage.claudeBilling { billingUsage := some b } with
    | some recorded => recorded.counts = c.counts
    | none => c.FitTogether

section Kept

variable {u : Usage} {c r : ClaudeUsage} {attached : Option BillingUsage}

theorem countsReturn_recorded (h : (usageFromClaudeAPIUsage c attached).claudeBilling = some r) :
    CountsReturn c attached ↔ r.counts = c.counts := by
  unfold CountsReturn buildClaudeUsageFromOpenAIUsage
  rw [Option.map_some, h, Option.map_some, Option.some_inj]

theorem countsReturn_computed (h : (usageFromClaudeAPIUsage c attached).claudeBilling = none) :
    CountsReturn c attached ↔ c.FitTogether := by
  unfold CountsReturn buildClaudeUsageFromOpenAIUsage
  rw [Option.map_some, h, Option.map_some]
  simp only [ClaudeUsage.counts, ClaudeUsage.FitTogether, usageFromClaudeAPIUsage,
    buildOpenAIStyleUsageFromClaudeUsage, normalizeCacheCreationSplit,
    cacheCreationTokensForOpenAIUsage, Usage.cacheCreationTokensTotal]
  generalize c.getCacheCreation5mTokens = m
  generalize c.getCacheCreation1hTokens = n
  simp only [ClaudeUsage.getCacheCreation5mTokens, ClaudeUsage.getCacheCreation1hTokens]
  split_ifs <;> simp <;> omega

theorem countsReturn_iff : CountsReturn c attached ↔ RecordFits c attached := by
  rcases attached with - | b
  · refine iff_of_true ?_ nofun
    -- the usage itself travels along, or there is nothing to lose
    have hown : (usageFromClaudeAPIUsage c none).claudeBilling
        = if ∃ n ∈ c.counts, n ≠ 0 then some c else none := by
      show (newClaudeMessagesBillingUsage c).bind _ = _
      unfold newClaudeMessagesBillingUsage
      split <;> rfl
    split at hown
    · exact (countsReturn_recorded hown).mpr rfl
    next hzero =>
      refine (countsReturn_computed hown).mpr ?_
      simp_all [ClaudeUsage.counts, ClaudeUsage.FitTogether]
  · unfold RecordFits
    simp only [Option.mem_def, Option.some.injEq, forall_eq']
    rcases hb : Usage.claudeBilling { billingUsage := some b } with - | r
    · exact countsReturn_computed hb
    · exact countsReturn_recorded hb

/-- **Token counts survive the conversions** just when a cache is told of in
`cache_write_tokens`, if at all, and split as it is told of there, and when no
other record travels with a Claude usage that does not fit it. -/
theorem usage_totals_kept_iff (hbilling : u.billingUsage = none) (hcounts : ∀ n ∈ u.counts, 0 ≤ n)
    (hprompt : u.cachedTokens + u.cacheCreationTokensTotal ≤ u.promptTokens) (c : ClaudeUsage)
    (attached : Option BillingUsage) : (TotalsKept u ↔
        (u.cacheWriteTokens = 0 → u.cachedTokens = 0 ∧ u.cachedCreationTokens = 0) ∧
          max u.cachedCreationTokens (u.claudeCacheCreation5mTokens + u.claudeCacheCreation1hTokens)
            ∈ [0, u.cacheCreationTokensTotal]) ∧
      (CountsReturn c attached ↔ RecordFits c attached) := by
  refine ⟨?_, countsReturn_iff⟩
  have hnone : u.claudeBilling = none := by
    rw [Usage.claudeBilling, hbilling]
    rfl
  simp only [Usage.counts, List.forall_mem_cons] at hcounts
  unfold TotalsKept buildClaudeUsageFromOpenAIUsage
  simp only [Option.map_some, hnone,
    ClaudeUsage.getCacheCreation5mTokens, ClaudeUsage.getCacheCreation1hTokens]
  rcases hsplit : normalizeCacheCreationSplit u.cachedCreationTokens u.claudeCacheCreation5mTokens
    u.claudeCacheCreation1hTokens with ⟨m, n⟩
  obtain ⟨rfl, rfl⟩ := Prod.mk.inj hsplit
  dsimp only [Usage.cacheCreationTokensTotal] at hprompt ⊢
  split_ifs <;> simp <;> omega

end Kept

/-- Half of the prompt was read from a cache. -/
def cachedHalf : Usage := { promptTokens := 100, completionTokens := 7, cachedTokens := 50 }

theorem usage_totals_kept_written : TotalsKept { cachedHalf with cacheWriteTokens := 20 } ∧
      CountsReturn { inputTokens := 30, cacheReadInputTokens := 50 } none := by
  obtain ⟨htotals, hcounts⟩ := usage_totals_kept_iff (u := { cachedHalf with cacheWriteTokens := 20 }) rfl
    (by decide) (by decide) { inputTokens := 30, cacheReadInputTokens := 50 } none
  exact ⟨htotals.mpr (by decide), hcounts.mpr nofun⟩

/-- What was read from the cache is counted twice. -/
theorem usage_totals_lost : ¬ TotalsKept cachedHalf := by
  rintro ⟨r, hr, htotal, -⟩
  obtain rfl := Option.some.inj hr
  exact absurd htotal (by decide)

end MicrossApi
