import CriKey.Query.Words

/-! What a match says about the text: every token of a query an item matches is a subsequence
of the folded label or stands whole in the keywords. -/
namespace CriKey.Query
open CriKey.Core List Option Bool

/-! Splitting at white space. -/

lemma splitWhitespace_append_cons {c : Char} (a b : Text) (hc : isWhitespace c) :
    splitWhitespace (a ++ c :: b) = splitWhitespace a ++ splitWhitespace b := by
  rw [splitWhitespace, splitOnP_append_cons _ _ hc, filter_append]
  rfl

lemma splitWhitespace_lead {lead : Text} (h : ∀ c ∈ lead, isWhitespace c) (text : Text) :
    splitWhitespace (lead ++ text) = splitWhitespace text := by
  induction lead with
  | nil => rfl
  | cons c lead ih =>
    have hc := splitWhitespace_append_cons [] (lead ++ text) (h c mem_cons_self)
    exact hc.trans (ih fun d hd => h d (mem_cons_of_mem c hd))

lemma splitWhitespace_trail {trail : Text} (h : ∀ c ∈ trail, isWhitespace c) (text : Text) :
    splitWhitespace (text ++ trail) = splitWhitespace text := by
  cases trail with
  | nil => rw [append_nil]
  | cons c trail =>
    have hnone := splitWhitespace_lead (fun d hd => h d (mem_cons_of_mem c hd)) []
    rw [append_nil] at hnone
    rw [splitWhitespace_append_cons _ _ (h c mem_cons_self), hnone]
    exact append_nil _

lemma trimText_split (text : Text) :
    ∃ lead trail, text = lead ++ trimText text ++ trail ∧ (∀ c ∈ lead, isWhitespace c) ∧
      ∀ c ∈ trail, isWhitespace c := by
  refine ⟨text.takeWhile isWhitespace, (trimStart text).rtakeWhile isWhitespace, ?_, ?_, ?_⟩
  · rw [trimText, append_assoc, rdropWhile_append_rtakeWhile, trimStart, takeWhile_append_dropWhile]
  · exact fun c hc => mem_takeWhile_imp hc
  · exact fun c hc => mem_rtakeWhile_imp hc

lemma splitWhitespace_trimText (text : Text) :
    splitWhitespace (trimText text) = splitWhitespace text := by
  obtain ⟨lead, trail, htext, hlead, htrail⟩ := trimText_split text
  conv_rhs => rw [htext]
  rw [splitWhitespace_trail htrail, splitWhitespace_lead hlead]

lemma trimText_infix (text : Text) : trimText text <:+: text := by
  obtain ⟨lead, trail, htext, -, -⟩ := trimText_split text
  exact ⟨lead, trail, htext.symm⟩

lemma splitOnP_infix (p : Char → Bool) (text : Text) :
    ∃ first more, text.splitOnP p = first :: more ∧ first <+: text ∧
      ∀ piece ∈ more, piece <:+: text := by
  induction text with
  | nil => exact ⟨[], [], rfl, prefix_rfl, by simp⟩
  | cons c text ih =>
    obtain ⟨first, more, hsplit, hfirst, hmore⟩ := ih
    rw [splitOnP_cons_eq_if_modifyHead, hsplit]
    split
    · refine ⟨[], first :: more, rfl, nil_prefix, ?_⟩
      intro piece hpiece
      rcases mem_cons.mp hpiece with rfl | hpiece
      · exact hfirst.isInfix.trans (suffix_cons c text).isInfix
      · exact (hmore piece hpiece).trans (suffix_cons c text).isInfix
    · refine ⟨c :: first, more, rfl, cons_prefix_cons.mpr ⟨rfl, hfirst⟩, ?_⟩
      exact fun piece hpiece => (hmore piece hpiece).trans (suffix_cons c text).isInfix

variable {token : Text}

lemma infix_of_mem_splitWhitespace {text : Text} (h : token ∈ splitWhitespace text) :
    token <:+: text := by
  obtain ⟨first, more, hsplit, hfirst, hmore⟩ := splitOnP_infix isWhitespace text
  have hmem := (mem_filter.mp h).1
  rw [hsplit] at hmem
  rcases mem_cons.mp hmem with rfl | hmem
  · exact hfirst.isInfix
  · exact hmore token hmem

/-! Word-prefix decomposition. -/

lemma commonPrefix_left (a b : Text) : commonPrefix a b <+: a := by
  induction a generalizing b with
  | nil => exact nil_prefix
  | cons x a ih =>
    cases b with
    | nil => exact nil_prefix
    | cons y b =>
      rw [commonPrefix]
      split
      · exact cons_prefix_cons.mpr ⟨rfl, ih b⟩
      · exact nil_prefix

lemma commonPrefix_right (a b : Text) : commonPrefix a b <+: b := by
  induction a generalizing b with
  | nil => exact nil_prefix
  | cons x a ih =>
    cases b with
    | nil => exact nil_prefix
    | cons y b =>
      rw [commonPrefix]
      split
      · rename_i hxy
        exact cons_prefix_cons.mpr ⟨hxy, ih b⟩
      · exact nil_prefix

lemma take_prefix_word {word : Text} {n : Nat} (h : n ≤ (commonPrefix token word).length) :
    token.take n <+: word := by
  have hcommon : token.take n = (commonPrefix token word).take n := by
    conv_rhs => rw [prefix_iff_eq_take.mp (commonPrefix_left token word)]
    rw [take_take, Nat.min_eq_left h]
  rw [hcommon]
  refine IsPrefix.trans ?_ (commonPrefix_right token word)
  exact take_prefix _ _

lemma takenLength_le {word : Text} {words : List Text} {n : Nat}
    (h : takenLength word words token = some n) : 0 < n ∧ n ≤ (commonPrefix token word).length := by
  rw [takenLength] at h
  split at h
  · cases h
  rw [map_eq_some_iff] at h
  obtain ⟨k, hfind, rfl⟩ := h
  have hk := mem_range.mp (mem_of_find?_eq_some hfind)
  omega

lemma replay_spec (words : List (Nat × Text)) (token : Text) :
    ((replay words token).1.map Prod.snd).flatten ++ (replay words token).2 = token ∧
      ((replay words token).1.map Prod.snd).flatten.Sublist (words.map Prod.snd).flatten := by
  induction words generalizing token with
  | nil =>
    cases token with
    | nil | cons c token => exact ⟨rfl, .refl _⟩
  | cons word words ih =>
    obtain ⟨start, word⟩ := word
    cases token with
    | nil => exact ⟨rfl, nil_sublist _⟩
    | cons c token =>
      rw [replay]
      cases htaken : takenLength word (words.map Prod.snd) (c :: token) with
      | none =>
        obtain ⟨hspell, hsub⟩ := ih (c :: token)
        exact ⟨hspell, hsub.trans (sublist_append_right _ _)⟩
      | some n =>
        obtain ⟨hspell, hsub⟩ := ih ((c :: token).drop n)
        have hchunk := take_prefix_word (takenLength_le htaken).2
        constructor
        · show ((c :: token).take n ++ _) ++ _ = _
          rw [append_assoc, hspell, take_append_drop]
        · exact hchunk.sublist.append hsub

lemma wordPrefixQuality_sublist {label : PreparedLabel} {found : ℚ × Spans}
    (hwords : Ordered label.words) (h : wordPrefixQuality label token = some found) :
    token.Sublist label.normalized := by
  rw [wordPrefixQuality] at h
  split at h
  · cases h
  simp only [bind_eq_bind, bind_eq_some_iff] at h
  obtain ⟨value, -, h⟩ := h
  split at h
  · cases h
  rename_i hleft
  have hnone : (replay (wordTexts label) token).2 = [] := by
    by_contra hne
    simp [hne] at hleft
  obtain ⟨hspell, hsub⟩ := replay_spec (wordTexts label) token
  rw [hnone, append_nil] at hspell
  rw [hspell, wordTexts, List.map_map] at hsub
  exact hsub.trans (words_sublist hwords label.normalized)

lemma matchLabel_sublist {label : PreparedLabel} {found : Found} (hwords : Ordered label.words)
    (h : matchLabel label token = some found) : token.Sublist label.normalized := by
  rw [matchLabel] at h
  split at h
  · rename_i hfront
    exact IsPrefix.sublist <| isPrefixOf_iff_prefix.mp hfront
  simp only at h
  split at h
  · rename_i quality spans hdecomposed
    split at hdecomposed
    · exact wordPrefixQuality_sublist hwords hdecomposed
    · cases hdecomposed
  · rw [bind_eq_bind, bind_eq_some_iff] at h
    obtain ⟨before, hfind, -⟩ := h
    exact (containsText_iff.mp (isSome_of_mem hfind)).sublist

lemma subsequenceHits_sublist {haystack : Text} {ordinal offset : Nat}
    (h : (subsequenceHits ordinal offset haystack token).isSome) : token.Sublist haystack := by
  induction haystack generalizing token ordinal offset with
  | nil =>
    cases token with
    | nil => exact .refl _
    | cons needle token => cases h
  | cons c haystack ih =>
    cases token with
    | nil => exact nil_sublist _
    | cons needle token =>
      rw [subsequenceHits] at h
      split at h
      · rename_i hc
        rw [isSome_map] at h
        exact hc ▸ (ih h).cons_cons c
      · exact (ih h).cons c

/-- What a matched token says about the text. -/
def Contained (label : PreparedLabel) (token : Text) : Prop :=
  token.Sublist label.normalized ∨ token <:+: label.keywords

lemma usable_iff {query : NormalizedQuery} :
    query.usable ↔ query.tokens ≠ [] ∧ splitWhitespace query.normalized = query.tokens := by
  rw [NormalizedQuery.usable, and_eq_true, bne_iff_ne, beq_iff_eq]

lemma token_infix_of_phrase {query : NormalizedQuery} (h : query.usable) {text : Text}
    (hphrase : trimText query.normalized <:+: text) (htoken : token ∈ query.tokens) :
    token <:+: text := by
  rw [← (usable_iff.mp h).2, ← splitWhitespace_trimText] at htoken
  exact (infix_of_mem_splitWhitespace htoken).trans hphrase

variable [Unicode]
variable {policy : MatchPolicy} {item : Item} {label : PreparedLabel}

lemma matchToken_contained {found : Found} (hwords : Ordered label.words)
    (h : matchToken policy item label token = some found) : Contained label token := by
  unfold matchToken at h
  split at h
  · cases h
  cases hlabel : matchLabel label token with
  | some _ => exact .inl (matchLabel_sublist hwords hlabel)
  | none =>
    rw [hlabel] at h
    by_cases hkey : containsText label.keywords token
    · exact .inr (containsText_iff.mp hkey)
    rw [if_neg hkey] at h
    cases policy with
    | strict => cases h
    | subsequence =>
      simp only [map_eq_some_iff] at h
      obtain ⟨scored, hscored, -⟩ := h
      rw [subsequenceQuality] at hscored
      split at hscored
      · cases hscored
      · rw [bind_eq_bind, bind_eq_some_iff] at hscored
        obtain ⟨hits, hhits, -⟩ := hscored
        exact .inl (subsequenceHits_sublist (isSome_of_mem hhits))

lemma matchTokens_eq_some {tokens : List Text} {found : List Found}
    (h : matchTokens policy item label tokens = some found) :
    ∀ token ∈ tokens, ∃ reading, matchToken policy item label token = some reading := by
  induction tokens generalizing found with
  | nil => simp
  | cons first tokens ih =>
    simp only [matchTokens, bind_eq_bind, bind_eq_some_iff] at h
    obtain ⟨reading, hreading, more, hmore, -⟩ := h
    intro token hmem
    rcases mem_cons.mp hmem with rfl | hmem
    · exact ⟨reading, hreading⟩
    · exact ih hmore token hmem

variable {query : NormalizedQuery}

/-- A score comes from the whole phrase in the label, or from every token. -/
lemma scorePrepared_cases (h : (scorePrepared policy query item label).isSome) :
    query.usable ∧ (trimText query.normalized <:+: label.normalized ∨
      ∃ found, matchTokens policy item label query.tokens = some found) := by
  rw [scorePrepared] at h
  split at h
  · cases h
  rename_i husable
  rw [not_eq_true', not_eq_false] at husable
  refine ⟨husable, ?_⟩
  simp only at h
  split at h
  · rename_i hexact
    rw [and_eq_true, decide_eq_true_iff, decide_eq_true_iff] at hexact
    exact .inl (hexact.2 ▸ trimText_infix _)
  · split at h
    · rename_i hfront
      exact .inl <| IsPrefix.isInfix <| isPrefixOf_iff_prefix.mp hfront
    · obtain ⟨summary, hsummary⟩ := isSome_iff_exists.mp h
      rw [bind_eq_bind, bind_eq_some_iff] at hsummary
      obtain ⟨found, hfound, -⟩ := hsummary
      exact .inr ⟨found, hfound⟩

lemma scorePrepared_contained (hwords : Ordered label.words)
    (h : (scorePrepared policy query item label).isSome) :
    query.usable ∧ ∀ token ∈ query.tokens, Contained label token := by
  obtain ⟨husable, hcases⟩ := scorePrepared_cases h
  refine ⟨husable, fun token htoken => ?_⟩
  obtain hphrase | ⟨found, hfound⟩ := hcases
  · exact .inl (token_infix_of_phrase husable hphrase htoken).sublist
  · obtain ⟨reading, hreading⟩ := matchTokens_eq_some hfound token htoken
    exact matchToken_contained hwords hreading

end CriKey.Query
