import CriKey.Query.Contained

/-! How high a match can score. Only an exact match and a match at the start of the label get
past the band of word prefixes; and what matches passes the test of the warm filter. -/
namespace CriKey.Query
open CriKey.Core List MatchMethod

/-! The first word of a text. -/

lemma trimText_head {text rest : Text} {c : Char} (h : trimText text = c :: rest) :
    ¬isWhitespace c := by
  have hfront : trimText text <+: trimStart text := rdropWhile_prefix _ _
  obtain ⟨trail, htrail⟩ := hfront
  rw [h] at htrail
  have hhead := head?_dropWhile_not isWhitespace text
  rw [← trimStart, ← htrail] at hhead
  simpa using hhead

lemma head_splitWhitespace {text token : Text} (h : (splitWhitespace text).head? = some token) :
    token <+: trimText text := by
  rw [← splitWhitespace_trimText] at h
  cases htext : trimText text with
  | nil =>
    rw [htext] at h
    cases h
  | cons c rest =>
    obtain ⟨first, more, hsplit, hfirst, -⟩ := splitOnP_infix isWhitespace rest
    rw [htext, splitWhitespace, splitOnP_cons_eq_if_modifyHead, hsplit,
      if_neg (trimText_head htext)] at h
    have hfound : c :: first = token := by simpa using h
    rw [← hfound]
    exact cons_prefix_cons.mpr ⟨rfl, hfirst⟩

/-! Bands. -/

lemma scoreFor_le (method : MatchMethod) (quality : ℚ) :
    scoreFor method quality ≤ (band method).2 := by
  have hband : (band method).1 ≤ (band method).2 := by
    cases method <;> norm_num [band]
  exact max_le hband (min_le_right _ _)

lemma band_le {method : MatchMethod} (h : 2 ≤ method.precedence) : (band method).2 ≤ 73 / 100 := by
  cases method with
  | exactPrefix | startsLabel => simp [precedence] at h
  | wordPrefix | substring | keyword | fuzzy => norm_num [band]

lemma precedence_le_weakest (found : List Found) (start : MatchMethod) :
    let weakest := found.foldl (fun weakest f =>
      if weakest.precedence < f.1.precedence then f.1 else weakest) start
    start.precedence ≤ weakest.precedence ∧ ∀ f ∈ found, f.1.precedence ≤ weakest.precedence := by
  induction found generalizing start with
  | nil => exact ⟨le_rfl, by simp⟩
  | cons first found ih =>
    simp only [foldl_cons, mem_cons, forall_eq_or_imp]
    by_cases hlt : start.precedence < first.1.precedence
    · rw [if_pos hlt]
      have hrest := ih first.1
      exact ⟨hlt.le.trans hrest.1, hrest⟩
    · rw [if_neg hlt]
      have hrest := ih start
      exact ⟨hrest.1, (Nat.le_of_not_lt hlt).trans hrest.1, hrest.2⟩

lemma matchLabel_precedence {label : PreparedLabel} {token : Text} {found : Found}
    (hfront : ¬token <+: label.normalized) (h : matchLabel label token = some found) :
    2 ≤ found.1.precedence := by
  rw [matchLabel, if_neg fun hp => hfront <| isPrefixOf_iff_prefix.mp hp] at h
  simp only at h
  split at h
  · cases h
    exact le_rfl
  rw [Option.bind_eq_bind, Option.bind_eq_some_iff] at h
  obtain ⟨before, -, hfound⟩ := h
  cases hfound
  exact (by decide : 2 ≤ substring.precedence)

variable [Unicode] {policy : MatchPolicy} {query : NormalizedQuery} {item : Item}
  {label : PreparedLabel}
variable {token : Text}

lemma matchToken_precedence {found : Found} (hfront : ¬token <+: label.normalized)
    (h : matchToken policy item label token = some found) : 2 ≤ found.1.precedence := by
  unfold matchToken at h
  split at h
  · cases h
  cases hlabel : matchLabel label token with
  | some reading =>
    rw [hlabel] at h
    cases h
    exact matchLabel_precedence hfront hlabel
  | none =>
    rw [hlabel] at h
    simp only at h
    split at h
    · cases h
      exact (by decide : 2 ≤ keyword.precedence)
    cases policy with
    | strict => cases h
    | subsequence =>
      obtain ⟨scored, -, hfound⟩ := Option.map_eq_some_iff.mp h
      rw [← hfound]
      exact (by decide : 2 ≤ fuzzy.precedence)

lemma scorePrepared_band {summary : MatchSummary} (hfirst : query.tokens.head? = some token)
    (hfront : ¬token <+: label.normalized)
    (hexact : trimText query.normalized ≠ trimText label.normalized)
    (h : scorePrepared policy query item label = some summary) :
    summary.score ≤ 73 / 100 ∧ summary.method ≠ .exactPrefix := by
  rw [scorePrepared] at h
  split at h
  · cases h
  rename_i husable
  rw [Bool.not_eq_true', Bool.not_eq_false] at husable
  have hphrase : token <+: trimText query.normalized := by
    apply head_splitWhitespace
    rw [(usable_iff.mp husable).2]
    exact hfirst
  simp only at h
  split at h
  · rename_i hsame
    rw [Bool.and_eq_true, decide_eq_true_iff, decide_eq_true_iff] at hsame
    exact absurd hsame.2 hexact
  · split at h
    · rename_i hstart
      exact absurd (hphrase.trans <| isPrefixOf_iff_prefix.mp hstart) hfront
    rw [Option.bind_eq_bind, Option.bind_eq_some_iff] at h
    obtain ⟨found, hfound, hsummary⟩ := h
    have hweak : ∃ f ∈ found, 2 ≤ f.1.precedence := by
      cases htokens : query.tokens with
      | nil =>
        rw [htokens] at hfirst
        cases hfirst
      | cons first tokens =>
        rw [htokens] at hfirst hfound
        have hsame : first = token := by simpa using hfirst
        simp only [matchTokens, Option.bind_eq_bind, Option.bind_eq_some_iff] at hfound
        obtain ⟨reading, hreading, more, -, hfound⟩ := hfound
        cases hfound
        exact ⟨reading, mem_cons_self, matchToken_precedence hfront (hsame ▸ hreading)⟩
    obtain ⟨f, hf, hprecedence⟩ := hweak
    have hweakest := hprecedence.trans ((precedence_le_weakest found .exactPrefix).2 f hf)
    cases hsummary
    refine ⟨(scoreFor_le _ _).trans (band_le hweakest), ?_⟩
    intro hmethod
    simp only at hmethod
    rw [hmethod] at hweakest
    cases hweakest

/-! The warm filter. -/

omit [Unicode] in
lemma isOrderedSubsequence_of_sublist {haystack : Text} (h : token.Sublist haystack) :
    isOrderedSubsequence haystack token := by
  induction haystack generalizing token with
  | nil =>
    rw [sublist_nil.mp h]
    rfl
  | cons c haystack ih =>
    cases token with
    | nil => rfl
    | cons needle token =>
      rw [isOrderedSubsequence]
      split
      · rename_i hc
        rw [hc] at h
        exact ih (cons_sublist_cons.mp h)
      · rename_i hc
        cases h with
        | cons _ hrest => exact ih hrest
        | cons_cons => exact absurd rfl hc

lemma matchToken_mayMatch {found : Found} (hwords : Ordered label.words)
    (h : matchToken policy item label token = some found) : tokenMayMatch label policy token := by
  unfold matchToken at h
  split at h
  · cases h
  rename_i hne
  rw [tokenMayMatch, if_neg hne]
  by_cases hin : (containsText label.normalized token || containsText label.keywords token) = true
  · rw [if_pos hin]
  rw [if_neg hin]
  rw [Bool.or_eq_true, not_or] at hin
  have hsub : token.Sublist label.normalized := by
    cases matchToken_contained hwords (show matchToken policy item label token = some found by
      unfold matchToken
      rw [if_neg hne]
      exact h) with
    | inl hlabel => exact hlabel
    | inr hkeywords => exact absurd (containsText_iff.mpr hkeywords) hin.2
  rw [if_neg (by simpa using isOrderedSubsequence_of_sublist hsub)]
  cases hlabel : matchLabel label token with
  | some reading =>
    -- neither at the front nor inside: the reading is a decomposition
    rw [matchLabel, if_neg fun hp =>
      hin.1 (containsText_iff.mpr <| IsPrefix.isInfix <| isPrefixOf_iff_prefix.mp hp)] at hlabel
    simp only at hlabel
    split at hlabel
    · rename_i hdecomposed
      split at hdecomposed
      · rename_i hmay
        rw [if_pos hmay]
      · cases hdecomposed
    · rw [Option.bind_eq_bind, Option.bind_eq_some_iff] at hlabel
      obtain ⟨before, hfind, -⟩ := hlabel
      exact absurd (Option.isSome_of_mem hfind) hin.1
  | none =>
    rw [hlabel] at h
    simp only [if_neg hin.2] at h
    cases policy with
    | strict => cases h
    | subsequence =>
      obtain ⟨scored, hscored, -⟩ := Option.map_eq_some_iff.mp h
      rw [subsequenceQuality] at hscored
      split at hscored
      · cases hscored
      rename_i hlen
      split
      · rfl
      · simpa using Nat.le_of_not_lt hlen

lemma mayMatchWith_of_scorePrepared (hwords : Ordered label.words)
    (h : (scorePrepared policy query item label).isSome) : mayMatchWith label query policy := by
  obtain ⟨husable, hcases⟩ := scorePrepared_cases h
  rw [mayMatchWith, husable, Bool.true_and, all_eq_true]
  intro token htoken
  have hne : token ≠ [] := by
    rw [← (usable_iff.mp husable).2] at htoken
    simpa using (mem_filter.mp htoken).2
  obtain hphrase | ⟨found, hfound⟩ := hcases
  · have hpart := containsText_iff.mpr (token_infix_of_phrase husable hphrase htoken)
    rw [tokenMayMatch, if_neg hne, hpart, Bool.true_or, if_pos rfl]
  · obtain ⟨reading, hreading⟩ := matchTokens_eq_some hfound token htoken
    exact matchToken_mayMatch hwords hreading

end CriKey.Query
