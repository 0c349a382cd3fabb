import CriKey.Query.Contained

/-! Presence masks of normalized text: a bit is set exactly when a character carries it. What
is assumed of Unicode normalization is listed in `Laws`. -/
namespace CriKey.Query
open CriKey.Core List Char

lemma dedicatedIndex_lt {c : Char} {i : Nat} (h : dedicatedIndex c = some i) :
    i < dedicatedBits := by
  have ha : 'a'.toNat = 97 := rfl
  have hz : 'z'.toNat = 122 := rfl
  have h0 : '0'.toNat = 48 := rfl
  have h9 : '9'.toNat = 57 := rfl
  rw [dedicatedIndex, ha, hz, h0, h9] at h
  simp only [Bool.and_eq_true, decide_eq_true_eq, dedicatedBits] at h ⊢
  split at h
  · have := Option.some.inj h
    omega
  split at h
  · have := Option.some.inj h
    omega
  · cases h

lemma charBit_lt {c : Char} {i : Nat} (h : charBit c = some i) : i < 64 := by
  rw [charBit] at h
  split at h
  · rename_i bit hbit
    have hlt := dedicatedIndex_lt hbit
    have hi := Option.some.inj h
    simp only [dedicatedBits] at hlt
    omega
  · split at h
    · cases h
    · have hi := Option.some.inj h
      simp only [dedicatedBits] at hi
      omega

def charMask (c : Char) : BitVec 64 :=
  match charBit c with
  | some bit => BitVec.twoPow 64 bit
  | none => 0

lemma getLsbD_charMask (c : Char) (i : Nat) : (charMask c).getLsbD i ↔ charBit c = some i := by
  rw [charMask]
  cases hbit : charBit c with
  | none => simp
  | some bit =>
    have hlt := charBit_lt hbit
    rw [BitVec.getLsbD_twoPow, Bool.and_eq_true, decide_eq_true_iff, decide_eq_true_iff,
      Option.some.injEq]
    omega

lemma getLsbD_foldl_charMask (text : Text) (mask : BitVec 64) (i : Nat) :
    (text.foldl (fun mask c => mask ||| charMask c) mask).getLsbD i ↔
      mask.getLsbD i ∨ ∃ c ∈ text, charBit c = some i := by
  induction text generalizing mask with
  | nil => simp
  | cons c text ih =>
    rw [foldl_cons, ih, BitVec.getLsbD_or, Bool.or_eq_true, getLsbD_charMask,
      exists_mem_cons_iff, or_assoc]

lemma getLsbD_maskOf (text : Text) (i : Nat) :
    (maskOf text).getLsbD i ↔ ∃ c ∈ text, charBit c = some i := by
  have hzero : ¬(0 : BitVec 64).getLsbD i = true := by simp
  exact (getLsbD_foldl_charMask text 0 i).trans (or_iff_right hzero)

/-- What is assumed of normalization. -/
structure Laws [Unicode] : Prop where
  /-- ASCII folds to lower case. -/
  ascii : ∀ text, isAscii text → normalizeText text = text.map Char.toLower
  idempotent : ∀ text, normalizeText (normalizeText text) = normalizeText text
  /-- Parts of normalized text are normalized. -/
  part : ∀ text piece, normalizeText text = text → piece <:+: text → normalizeText piece = piece
  /-- Nothing combines across a space. -/
  join : ∀ a b, normalizeText (a ++ ' ' :: b) = normalizeText a ++ ' ' :: normalizeText b

lemma laws_ascii : @Laws Unicode.ascii :=
  letI := Unicode.ascii
  { ascii := fun _ _ => rfl
    idempotent := by
      intro text
      show (text.map toLower).map toLower = text.map toLower
      rw [map_map]
      exact map_congr_left fun c _ => toLower_toLower_eq_toLower c
    part := by
      intro text piece htext hpiece
      have hfixed : ∀ c ∈ text, c.toLower = c := by
        have hmap : text.map toLower = text.map id := htext.trans (map_id text).symm
        exact map_inj_left.mp hmap
      have hmap : piece.map toLower = piece.map id :=
        map_congr_left fun c hc => hfixed c (hpiece.subset hc)
      exact hmap.trans (map_id piece)
    join := by
      intro a b
      show (a ++ ' ' :: b).map toLower = a.map toLower ++ ' ' :: b.map toLower
      rw [map_append, map_cons]
      rfl }

variable [Unicode]

variable (laws : Laws)
include laws

lemma normalizeField_eq (raw : Text) : normalizeField raw = normalizeText raw := by
  rw [normalizeField]
  split
  · rename_i hascii
    exact (laws.ascii raw hascii).symm
  · rfl

lemma presenceMask_eq {text : Text} (h : normalizeText text = text) :
    presenceMask text = maskOf text := by
  rw [presenceMask]
  split
  · rename_i hascii
    rw [← laws.ascii text hascii, h]
  · rw [h]

lemma normalizeText_nil : normalizeText [] = [] := laws.ascii [] rfl

lemma pushSearchableField_fixed {out : Text} (h : normalizeText out = out) (raw : Text) :
    normalizeText (pushSearchableField out raw) = pushSearchableField out raw := by
  have hfield : normalizeText (normalizeField raw) = normalizeField raw := by
    rw [normalizeField_eq laws, laws.idempotent]
  rw [pushSearchableField]
  split
  · exact h
  split
  · rename_i hout
    rw [hout, nil_append, hfield]
  · rw [append_assoc, singleton_append, laws.join, h, hfield]

lemma searchableText_fixed (item : Item) :
    normalizeText (searchableTextWithLabel item).1 = (searchableTextWithLabel item).1 := by
  have hterms (terms : List String) : ∀ {out : Text}, normalizeText out = out →
      normalizeText (terms.foldl (fun out term => pushSearchableField out term.toList) out) =
        terms.foldl (fun out term => pushSearchableField out term.toList) out := by
    induction terms with
    | nil => exact fun h => h
    | cons term terms ih => exact fun h => ih (pushSearchableField_fixed laws h _)
  exact hterms item.searchTerms (pushSearchableField_fixed laws
    (pushSearchableField_fixed laws (normalizeText_nil laws) _) _)

end CriKey.Query
