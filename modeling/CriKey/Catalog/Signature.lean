import CriKey.Catalog.Index
import CriKey.Query.Masks

/-! Ordered-pair signatures hold every pair a matching query can ask for: the pairs of
letters and digits in label order, and the adjacent pairs of the keywords. -/
namespace CriKey.Catalog
open CriKey.Base CriKey.Core CriKey.Query List Option

/-- The two characters are letters or digits, and `pair` is their pair. -/
def PairOf (a b : Char) (pair : Nat) : Prop :=
  ∃ before after, dedicatedIndex a = some before ∧ dedicatedIndex b = some after ∧
    pair = before * dedicatedBits + after

lemma pair_lt {before after : Nat} (hb : before < dedicatedBits) (ha : after < dedicatedBits) :
    before * dedicatedBits + after < orderedPairCount := by
  simp only [orderedPairCount, dedicatedBits] at *
  omega

lemma PairOf.lt {a b : Char} {pair : Nat} (h : PairOf a b pair) : pair < orderedPairCount := by
  obtain ⟨before, after, hb, ha, rfl⟩ := h
  exact pair_lt (dedicatedIndex_lt hb) (dedicatedIndex_lt ha)

lemma word_lt {pair : Nat} (h : pair < orderedPairCount) : pair / 64 < orderedPairWords := by
  simp only [orderedPairWords] at *
  omega

/-- What scanning more of the label does: pairs stay, and every pair with a character seen
before is added. -/
structure Scanned (text : Text) (state state' : Bits × Word) : Prop where
  length : state'.1.length = state.1.length
  kept : ∀ pair, state.1.test pair → state'.1.test pair
  mixed : ∀ before < dedicatedBits, state.2.getLsbD before → ∀ c ∈ text, ∀ after,
    dedicatedIndex c = some after → state'.1.test (before * dedicatedBits + after)
  within : ∀ a b pair, [a, b].Sublist text → PairOf a b pair → state'.1.test pair

lemma addPairs_scanned (text : Text) (state : Bits × Word)
    (hlen : state.1.length = orderedPairWords) :
    Scanned text state (text.foldl addPairs state) := by
  induction text generalizing state with
  | nil => exact ⟨rfl, fun _ h => h, by simp, by simp⟩
  | cons c text ih =>
    rw [foldl_cons]
    cases hc : dedicatedIndex c with
    | none =>
      have hsame : addPairs state c = state := by rw [addPairs, hc]
      rw [hsame]
      obtain ⟨hlength, hkept, hmixed, hwithin⟩ := ih state hlen
      refine ⟨hlength, hkept, ?_, ?_⟩
      · intro before hb hseen d hd after hafter
        rcases mem_cons.mp hd with rfl | hd
        · rw [hc] at hafter
          cases hafter
        · exact hmixed before hb hseen d hd after hafter
      · intro a b pair hsub hpair
        cases hsub with
        | cons _ hsub => exact hwithin a b pair hsub hpair
        | cons_cons _ hsub =>
          obtain ⟨before, after, ha, -, -⟩ := hpair
          rw [hc] at ha
          cases ha
    | some after =>
      have hafter := dedicatedIndex_lt hc
      obtain ⟨hput, hmono, hset⟩ := Bits.foldl_put (fun before => before * dedicatedBits + after)
        (bitsOf state.2) state.1
      have hnow : addPairs state c = ((bitsOf state.2).foldl (fun signature before =>
            signature.put true (before * dedicatedBits + after)) state.1,
            putBit true after state.2) := by rw [addPairs, hc]
      rw [hnow]
      obtain ⟨hlength, hkept, hmixed, hwithin⟩ := ih (_, putBit true after state.2)
        (hput.trans hlen)
      have hafter64 : after < 64 := hafter.trans (by decide)
      have hseen : ∀ before, state.2.getLsbD before →
          (putBit true after state.2).getLsbD before := by
        intro before hbefore
        rw [getLsbD_putBit _ hafter64]
        split
        · rfl
        · exact hbefore
      refine ⟨hlength.trans hput, fun pair hpair => hkept pair (hmono pair hpair), ?_, ?_⟩
      · intro before hb hbefore d hd after' hafter'
        rcases mem_cons.mp hd with rfl | hd
        · rw [hc, some.injEq] at hafter'
          subst hafter'
          exact hkept _ (hset before (mem_bitsOf.mpr hbefore) (hlen ▸ word_lt (pair_lt hb hafter)))
        · exact hmixed before hb (hseen before hbefore) d hd after' hafter'
      · intro a b pair hsub hpair
        cases hsub with
        | cons _ hsub => exact hwithin a b pair hsub hpair
        | cons_cons _ hsub =>
          -- the first of the two is the character just seen
          obtain ⟨before, after', ha, hb, rfl⟩ := hpair
          rw [hc, some.injEq] at ha
          subst ha
          refine hmixed after hafter ?_ b (singleton_sublist.mp hsub) after' hb
          rw [getLsbD_putBit _ hafter64, if_pos rfl]

/-- The adjacent pairs of a text, the first one with the character before the text. -/
def AdjacentPair (previous : Option Nat) (text : Text) (pair : Nat) : Prop :=
  (∃ before c after, previous = some before ∧ text.head? = some c ∧
    dedicatedIndex c = some after ∧ pair = before * dedicatedBits + after) ∨
  ∃ a b, [a, b] <:+: text ∧ PairOf a b pair

lemma adjacentPair_cons {previous : Option Nat} {c : Char} {text : Text} {pair : Nat} :
    AdjacentPair previous (c :: text) pair ↔
      (∃ before after, previous = some before ∧ dedicatedIndex c = some after ∧
        pair = before * dedicatedBits + after) ∨ AdjacentPair (dedicatedIndex c) text pair := by
  constructor
  · rintro (⟨before, d, after, hp, hd, hafter, rfl⟩ | ⟨a, b, hpart, hpair⟩)
    · rw [head?_cons, some.injEq] at hd
      exact .inl ⟨before, after, hp, hd ▸ hafter, rfl⟩
    · rcases infix_cons_iff.mp hpart with hfront | hpart
      · obtain ⟨rfl, hrest⟩ := cons_prefix_cons.mp hfront
        obtain ⟨rest, rfl⟩ := hrest
        obtain ⟨before, after, ha, hb, rfl⟩ := hpair
        exact .inr (.inl ⟨before, b, after, ha, rfl, hb, rfl⟩)
      · exact .inr (.inr ⟨a, b, hpart, hpair⟩)
  · rintro (⟨before, after, hp, hafter, rfl⟩ | ⟨before, d, after, hp, hd, hafter, rfl⟩ |
      ⟨a, b, hpart, hpair⟩)
    · exact .inl ⟨before, c, after, hp, rfl, hafter, rfl⟩
    · obtain ⟨rest, rfl⟩ := head?_eq_some_iff.mp hd
      exact .inr ⟨c, d, ⟨[], rest, rfl⟩, before, after, hp, hafter, rfl⟩
    · exact .inr ⟨a, b, hpart.trans (suffix_cons c text).isInfix, hpair⟩

lemma addAdjacent_scanned (text : Text) (state : Bits × Option Nat)
    (hlen : state.1.length = orderedPairWords)
    (hprev : ∀ before ∈ state.2, before < dedicatedBits) :
    (∀ pair, state.1.test pair → (text.foldl addAdjacent state).1.test pair) ∧
      ∀ pair, AdjacentPair state.2 text pair → (text.foldl addAdjacent state).1.test pair := by
  induction text generalizing state with
  | nil =>
    refine ⟨fun _ h => h, ?_⟩
    rintro pair (⟨before, c, after, -, hc, -, -⟩ | ⟨a, b, hpart, -⟩)
    · cases hc
    · cases eq_nil_of_infix_nil hpart
  | cons c text ih =>
    obtain ⟨bits, previous⟩ := state
    have hstate : (addAdjacent (bits, previous) c).2 = dedicatedIndex c := rfl
    have hone : (addAdjacent (bits, previous) c).1.length = orderedPairWords ∧
        (∀ pair, bits.test pair → (addAdjacent (bits, previous) c).1.test pair) ∧
        ∀ before after, previous = some before → dedicatedIndex c = some after →
          (addAdjacent (bits, previous) c).1.test (before * dedicatedBits + after) := by
      cases previous with
      | none => exact ⟨hlen, fun _ h => h, by simp⟩
      | some before =>
        cases hc : dedicatedIndex c with
        | none => exact ⟨by simpa [addAdjacent, hc] using hlen, by simp [addAdjacent, hc], by simp⟩
        | some after =>
          have hput : (addAdjacent (bits, some before) c).1 =
              bits.put true (before * dedicatedBits + after) := by simp [addAdjacent, hc]
          rw [hput]
          refine ⟨by rwa [Bits.length_put], fun pair hpair => Bits.test_put_mono _ hpair, ?_⟩
          intro before' after' hb ha
          rw [some.injEq] at hb ha
          subst hb ha
          have hlt := pair_lt (hprev before rfl) (dedicatedIndex_lt hc)
          exact Bits.test_put_self (by rw [hlen]; exact word_lt hlt)
    obtain ⟨hkept, hadded⟩ := ih (addAdjacent (bits, previous) c) hone.1 (by
      intro before hb
      exact dedicatedIndex_lt hb)
    refine ⟨fun pair hpair => hkept pair (hone.2.1 pair hpair), ?_⟩
    intro pair hpair
    rcases adjacentPair_cons.mp hpair with ⟨before, after, hp, hafter, rfl⟩ | hlater
    · exact hkept _ (hone.2.2 before after hp hafter)
    · exact hadded pair hlater

lemma signature_test (label : PreparedLabel) {a b : Char} {pair : Nat} (hpair : PairOf a b pair)
    (h : [a, b].Sublist label.normalized ∨ [a, b] <:+: label.keywords) :
    (orderedPairSignature label).test pair := by
  have hscan := addPairs_scanned label.normalized (replicate orderedPairWords 0, 0) length_replicate
  obtain ⟨hkept, hadded⟩ := addAdjacent_scanned label.keywords
    ((label.normalized.foldl addPairs (replicate orderedPairWords 0, 0)).1, none)
    (hscan.length.trans length_replicate) (by simp)
  rcases h with hlabel | hkeywords
  · exact hkept pair (hscan.within a b pair hlabel hpair)
  · exact hadded pair (.inr ⟨a, b, hkeywords, hpair⟩)

/-! The pairs of a query. -/

lemma mem_foldl_addTokenPair {text : Text} {state : List Nat × Option Nat} {pair : Nat}
    (h : pair ∈ (text.foldl addTokenPair state).1) :
    pair ∈ state.1 ∨ AdjacentPair state.2 text pair := by
  induction text generalizing state with
  | nil => exact .inl h
  | cons c text ih =>
    rcases ih h with hnow | hlater
    · cases hprev : state.2 with
      | none =>
        rw [addTokenPair, hprev] at hnow
        exact .inl hnow
      | some before =>
        cases hc : dedicatedIndex c with
        | none =>
          rw [addTokenPair, hprev, hc] at hnow
          exact .inl hnow
        | some after =>
          simp only [addTokenPair, hprev, hc] at hnow
          split at hnow
          · exact .inl hnow
          rcases mem_append.mp hnow with hold | hnew
          · exact .inl hold
          · exact .inr (adjacentPair_cons.mpr
              (.inl ⟨before, after, rfl, hc, mem_singleton.mp hnew⟩))
    · exact .inr (adjacentPair_cons.mpr (.inr hlater))

lemma mem_queryOrderedPairs {query : NormalizedQuery} {pair : Nat}
    (h : pair ∈ queryOrderedPairs query) :
    ∃ token ∈ query.tokens, ∃ a b, [a, b] <:+: token ∧ PairOf a b pair := by
  have hall (tokens : List Text) : ∀ pairs : List Nat, pair ∈ tokens.foldl addTokenPairs pairs →
      pair ∈ pairs ∨ ∃ token ∈ tokens, ∃ a b, [a, b] <:+: token ∧ PairOf a b pair := by
    induction tokens with
    | nil => exact fun pairs hmem => .inl hmem
    | cons token tokens ih =>
      intro pairs hmem
      rcases ih _ hmem with hnow | ⟨later, hlater, hadjacent⟩
      · rcases @mem_foldl_addTokenPair token (pairs, none) pair hnow with
          hold | ⟨before, c, after, hnone, -⟩ | hadjacent
        · exact .inl hold
        · cases hnone
        · exact .inr ⟨token, mem_cons_self, hadjacent⟩
      · exact .inr ⟨later, mem_cons_of_mem token hlater, hadjacent⟩
  rcases hall query.tokens [] h with hnil | hfound
  · cases hnil
  · exact hfound

end CriKey.Catalog
