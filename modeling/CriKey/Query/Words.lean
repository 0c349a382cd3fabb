import CriKey.Query.Matcher

/-! The words of a label stand in it one after another: whichever way the ranges are found,
they ascend without overlap as long as the folded label is shorter than four gigabytes. -/
namespace CriKey.Query
open CriKey.Core List Option List.Pairwise PreparedLabel Nat

/-- Every range ends before the next ones start. -/
def Ordered (ranges : List (Nat × Nat)) : Prop := ranges.Pairwise fun a b => a.2 ≤ b.1

variable {ranges : List (Nat × Nat)}

lemma Ordered.concat {start stop : Nat} (h : Ordered ranges)
    (hlast : ∀ range ∈ ranges, range.2 ≤ start) : Ordered (ranges ++ [(start, stop)]) := by
  refine pairwise_append.mpr ⟨h, pairwise_singleton _ _, ?_⟩
  intro a ha b hb
  rw [mem_singleton.mp hb]
  exact hlast a ha

lemma flatten_wordText_sublist (h : Ordered ranges) (before rest : Text)
    (hstart : ∀ range ∈ ranges, byteLen before ≤ range.1) :
    (ranges.map (wordText (before ++ rest))).flatten.Sublist rest := by
  induction ranges generalizing before rest with
  | nil => exact nil_sublist rest
  | cons range ranges ih =>
    obtain ⟨hfirst, hrest⟩ := pairwise_cons.mp h
    have hafter : ∀ r ∈ ranges, byteLen before ≤ r.1 := fun r hr =>
      hstart r (mem_cons_of_mem _ hr)
    rw [map_cons, wordText]
    cases hget : getRange (before ++ rest) range.1 range.2 with
    | none => exact ih hrest before rest hafter
    | some middle =>
      obtain ⟨lead, after, htext, hlead, hstop⟩ := getRange_eq_some.mp hget
      -- the range starts behind `before`
      have hle : byteLen before ≤ byteLen lead := hlead ▸ hstart range mem_cons_self
      have hfront : before <+: lead := by
        have hone : before <+: before ++ rest := prefix_append _ _
        have htwo : lead <+: before ++ rest := ⟨middle ++ after, by rw [htext]; simp⟩
        rcases prefix_or_prefix_of_prefix hone htwo with hp | hp
        · exact hp
        obtain ⟨more, rfl⟩ := hp
        rw [byteLen_append] at hle
        have hzero : byteLen more = 0 := by omega
        rw [byteLen_eq_zero.mp hzero, append_nil]
      obtain ⟨gap, rfl⟩ := hfront
      have hsplit : rest = gap ++ middle ++ after := by
        have hcancel : before ++ rest = before ++ (gap ++ middle ++ after) := by
          rw [htext]
          simp
        exact append_cancel_left hcancel
      have hlater := ih hrest (before ++ gap ++ middle) after (by
        intro r hr
        have hr' := hfirst r hr
        rw [byteLen_append]
        omega)
      have hwhole : before ++ gap ++ middle ++ after = before ++ rest := by rw [hsplit]; simp
      rw [hwhole] at hlater
      have hfit : (middle ++ after).Sublist rest := by
        rw [hsplit, append_assoc]
        exact sublist_append_right _ _
      exact ((List.Sublist.refl middle).append hlater).trans hfit

lemma words_sublist (h : Ordered ranges) (label : Text) :
    (ranges.map (wordText label)).flatten.Sublist label :=
  flatten_wordText_sublist h [] label fun _ _ => zero_le _

lemma asU32_of_lt {n : Nat} (h : n < 2 ^ 32) : asU32 n = n := mod_eq_of_lt h

variable [Unicode]
variable {ranges : List (Nat × Nat)}

lemma asciiWords_ordered {labelLen : Nat} (hlen : labelLen < 2 ^ 32) (fuel : Nat)
    (previous : Option Char) (index : Nat) (bytes : Text) (h : Ordered ranges)
    (hlast : ∀ range ∈ ranges, range.2 ≤ index) :
    Ordered (asciiWords labelLen fuel previous index bytes ranges) := by
  induction fuel generalizing previous index bytes ranges with
  | zero => exact h
  | succ fuel ih =>
    cases bytes with
    | nil => exact h
    | cons current bytes =>
      rw [asciiWords]
      split
      · exact h
      split
      · apply ih
        · split
          · rw [asU32_of_lt (by omega)]
            exact h.concat hlast
          · exact h
        · intro range hrange
          split at hrange
          · rw [asU32_of_lt (by omega), asU32_of_lt (by omega)] at hrange
            rcases mem_append.mp hrange with hold | hnew
            · have := hlast range hold
              omega
            · rw [mem_singleton.mp hnew]
          · have := hlast range hrange
            omega
      · exact ih _ _ _ h fun range hrange => (hlast range hrange).trans (le_succ index)

lemma foldedWords_ordered {labelLen : Nat} (hlen : labelLen < 2 ^ 32) (text : Text) (offset : Nat)
    (started : Option Nat) (hoffset : offset + byteLen text = labelLen)
    (hstarted : ∀ start ∈ started, start ≤ offset) (h : Ordered ranges)
    (hlast : ∀ range ∈ ranges, range.2 ≤ started.getD offset) :
    Ordered (foldedWords labelLen offset text started ranges) := by
  induction text generalizing offset started ranges with
  | nil =>
    cases started with
    | none => exact h
    | some start =>
      have hstart := hstarted start rfl
      show Ordered (ranges ++ [(asU32 start, asU32 labelLen)])
      rw [asU32_of_lt (by omega)]
      exact h.concat hlast
  | cons current text ih =>
    rw [byteLen_cons] at hoffset
    unfold foldedWords
    split
    · refine ih _ _ (by omega) ?_ h ?_
      · intro start hstart
        rw [mem_some_iff] at hstart
        subst hstart
        cases started with
        | none => exact le_add_right _ _
        | some start => exact (hstarted start rfl).trans (le_add_right _ _)
      · simpa using hlast
    · cases started with
      | none =>
        refine ih _ _ (by omega) (by simp) h ?_
        intro range hrange
        exact (hlast range hrange).trans (le_add_right _ _)
      | some start =>
        have hstart := hstarted start rfl
        simp only
        rw [asU32_of_lt (by omega), asU32_of_lt (by omega)]
        have hpush : Ordered (ranges ++ [(start, offset)]) := h.concat hlast
        split
        · exact hpush
        refine ih _ _ (by omega) (by simp) hpush ?_
        intro range hrange
        rcases mem_append.mp hrange with hold | hnew
        · have hend := hlast range hold
          simp only [getD_some, getD_none] at hend ⊢
          omega
        · rw [mem_singleton.mp hnew]
          exact le_add_right _ _

variable {started : Option Nat}

omit [Unicode] in
lemma closeWord_ordered {mappedEnd : Nat} (h : Ordered ranges)
    (hlast : ∀ start ∈ started, ∀ range ∈ ranges, range.2 ≤ start) :
    Ordered (closeWord mappedEnd started ranges) := by
  cases started with
  | none => exact h
  | some start =>
    rw [closeWord]
    split
    · exact h.concat (hlast start rfl)
    · exact h

omit [Unicode] in
lemma pushWord_ordered {stop : Nat} (h : Ordered ranges)
    (hlast : ∀ start ∈ started, ∀ range ∈ ranges, range.2 ≤ start) :
    Ordered (pushWord started stop ranges) := by
  cases started with
  | none => exact h
  | some start => exact h.concat (hlast start rfl)

/-- Everything found so far lies below `bound`; an open word started there. -/
structure Below (bound : Nat) (started : Option Nat) (ranges : List (Nat × Nat)) : Prop where
  ordered : Ordered ranges
  closed : ∀ range ∈ ranges, range.2 ≤ bound
  opened : ∀ start ∈ started, start ≤ bound ∧ ∀ range ∈ ranges, range.2 ≤ start

variable {bound : Nat}

omit [Unicode] in
lemma Below.mono {bound' : Nat} (h : Below bound started ranges) (hle : bound ≤ bound') :
    Below bound' started ranges where
  ordered := h.ordered
  closed := fun range hrange => (h.closed range hrange).trans hle
  opened := fun start hstart => ⟨(h.opened start hstart).1.trans hle, (h.opened start hstart).2⟩

omit [Unicode] in
lemma Below.push (h : Below bound started ranges) :
    Below bound none (pushWord started bound ranges) where
  ordered := pushWord_ordered h.ordered fun start hstart => (h.opened start hstart).2
  closed := by
    cases started with
    | none => exact h.closed
    | some start =>
      intro range hrange
      rcases mem_append.mp hrange with hold | hnew
      · exact h.closed range hold
      · rw [mem_singleton.mp hnew]
  opened := by simp

omit [Unicode] in
lemma Below.open (h : Below bound none ranges) : Below bound (some bound) ranges where
  ordered := h.ordered
  closed := h.closed
  opened := by
    intro start hstart
    rw [mem_some_iff] at hstart
    exact hstart ▸ ⟨le_refl bound, h.closed⟩

lemma markWords_ordered (raw : Text) (mappedEnd : Nat) (marks : List Mark) (started : Option Nat)
    (previous : Option Char) (hmarks : (marks.map Mark.norm).Pairwise (· ≤ ·))
    (hbound : ∀ mark ∈ marks, bound ≤ mark.norm) (h : Below bound started ranges) :
    Ordered (markWords raw mappedEnd marks started previous ranges) := by
  induction marks generalizing started previous ranges bound with
  | nil => exact closeWord_ordered h.ordered fun start hstart => (h.opened start hstart).2
  | cons mark marks ih =>
    rw [map_cons, pairwise_cons] at hmarks
    have hlater : ∀ m ∈ marks, mark.norm ≤ m.norm := fun m hm =>
      hmarks.1 _ (mem_map_of_mem hm)
    have hat := h.mono (hbound mark mem_cons_self)
    rw [markWords]
    split
    · exact closeWord_ordered h.ordered fun start hstart => (h.opened start hstart).2
    cases hchar : markChar raw mark with
    | none => exact ih _ _ hmarks.2 hlater hat
    | some current =>
      simp only
      -- first a word that ends here is closed
      generalize hcloses : (opensWord previous current (marks.head?.bind (markChar raw)) ||
        !isWordChar current) = closes
      have hclosed : Below mark.norm (if closes then none else started)
          (if closes then pushWord started mark.norm ranges else ranges) := by
        cases closes with
        | true => exact hat.push
        | false => exact hat
      generalize (if closes then pushWord started mark.norm ranges else ranges) = now at hclosed ⊢
      split
      · exact hclosed.ordered
      -- then one may open
      have hopened : Below mark.norm
          (if opensWord previous current (marks.head?.bind (markChar raw)) then some mark.norm
            else if closes then none else started) now := by
        split
        · rename_i hopens
          rw [hopens] at hcloses
          rw [← hcloses] at hclosed
          exact Below.open hclosed
        · exact hclosed
      generalize (if opensWord previous current (marks.head?.bind (markChar raw)) then
        some mark.norm else if closes then none else started) = open_ at hopened ⊢
      split
      · rename_i hend
        rw [Bool.and_eq_true, List.isEmpty_iff] at hend
        rw [hend.2]
        exact closeWord_ordered (pushWord_ordered hopened.ordered
          fun start hstart => (hopened.opened start hstart).2) (by simp)
      · exact ih _ _ hmarks.2 hlater hopened

omit [Unicode] in
lemma runMarks_norms {cursor runStart runEnd : Nat} (offset : Nat) (scratch : Text)
    (hlen : cursor + offset + byteLen scratch < 2 ^ 32) :
    ((runMarks cursor runStart runEnd offset scratch).map Mark.norm).Pairwise (· ≤ ·) ∧
      ∀ mark ∈ runMarks cursor runStart runEnd offset scratch,
        cursor + offset ≤ mark.norm ∧ mark.norm ≤ cursor + offset + byteLen scratch := by
  induction scratch generalizing offset with
  | nil => exact ⟨nil, by simp [runMarks]⟩
  | cons c scratch ih =>
    rw [byteLen_cons] at hlen
    obtain ⟨hpair, hbounds⟩ := ih (offset + c.utf8Size) (by omega)
    rw [runMarks, asU32_of_lt (by omega), map_cons, byteLen_cons]
    constructor
    · refine pairwise_cons.mpr ⟨?_, hpair⟩
      intro norm hnorm
      obtain ⟨mark, hmark, rfl⟩ := mem_map.mp hnorm
      have hlow := (hbounds mark hmark).1
      show cursor + offset ≤ mark.norm
      omega
    · intro mark hmark
      rcases mem_cons.mp hmark with rfl | hmark
      · simp only
        omega
      · have := hbounds mark hmark
        omega

lemma alignLoop_norms (raw run : Text) (runStart index cursor : Nat) (rest : Text)
    {marks : List Mark} (hlen : cursor + byteLen rest < 2 ^ 32)
    (h : (marks.map Mark.norm).Pairwise (· ≤ ·)) (hlast : ∀ mark ∈ marks, mark.norm ≤ cursor) :
    ((alignLoop raw run runStart index cursor rest marks).1.map Mark.norm).Pairwise (· ≤ ·) := by
  induction raw generalizing run runStart index cursor rest marks with
  | nil => exact h
  | cons c raw ih =>
    rw [alignLoop]
    split
    · rename_i hscratch
      obtain ⟨after, rfl⟩ := isPrefixOf_iff_prefix.mp hscratch
      rw [byteLen_append] at hlen
      obtain ⟨hpair, hbounds⟩ := @runMarks_norms cursor runStart
        (index + c.utf8Size) 0 (normalizeText (run ++ [c])) (by omega)
      rw [drop_left]
      apply ih
      · omega
      · rw [map_append]
        refine pairwise_append.mpr ⟨h, hpair, ?_⟩
        intro a ha b hb
        obtain ⟨mark, hmark, rfl⟩ := mem_map.mp ha
        obtain ⟨mark', hmark', rfl⟩ := mem_map.mp hb
        exact (hlast mark hmark).trans (hbounds mark' hmark').1
      · intro mark hmark
        rcases mem_append.mp hmark with hold | hnew
        · exact (hlast mark hold).trans (le_add_right _ _)
        · exact (hbounds mark hnew).2
    · split
      · exact h
      · exact ih _ _ _ _ _ hlen h hlast

lemma build_ordered (raw text label : Text) (labelBytes : Nat) (hlen : byteLen label < 2 ^ 32) :
    Ordered (PreparedLabel.build raw text label labelBytes).words := by
  have hnil : Ordered [] := nil
  show Ordered (wordRanges raw label _)
  apply sublist (take_sublist _ _)
  by_cases hascii : isAscii raw
  · rw [if_pos hascii]
    exact asciiWords_ordered hlen _ _ _ _ hnil (by simp)
  rw [if_neg hascii]
  split
  · rename_i hnone
    split at hnone <;> cases hnone
  · rename_i marks mappedEnd hmarks
    split at hmarks
    · cases hmarks
      refine markWords_ordered raw _ _ none none ?_ (fun _ _ => zero_le _) ⟨hnil, by simp, by simp⟩
      exact alignLoop_norms raw [] 0 0 0 label (by omega) nil (by simp)
    · cases hmarks
  · exact foldedWords_ordered hlen label 0 none (by omega) (by simp) hnil (by simp)

/-! The prepared label of an item. -/

lemma prefix_pushSearchableField (out raw : Text) : out <+: pushSearchableField out raw := by
  rw [pushSearchableField]
  split
  · exact prefix_rfl
  split
  · rename_i hout
    exact hout ▸ nil_prefix
  · rw [append_assoc]
    exact prefix_append _ _

lemma pushSearchableField_nil (raw : Text) : pushSearchableField [] raw = normalizeField raw := by
  rw [pushSearchableField]
  split
  · rename_i hraw
    rw [hraw]
    rfl
  · rfl

lemma prefix_foldl_pushSearchableField (terms : List String) (out : Text) :
    out <+: terms.foldl (fun out term => pushSearchableField out term.toList) out := by
  induction terms generalizing out with
  | nil => exact prefix_rfl
  | cons term terms ih => exact (prefix_pushSearchableField out _).trans (ih _)

variable (item : Item)

lemma searchableText_split :
    ∃ tail, (searchableTextWithLabel item).1 = normalizeField item.label.toList ++ tail ∧
      (searchableTextWithLabel item).2 = byteLen (normalizeField item.label.toList) := by
  have hlabel := pushSearchableField_nil item.label.toList
  have hfront : normalizeField item.label.toList <+: (searchableTextWithLabel item).1 := by
    rw [← hlabel]
    exact (prefix_pushSearchableField _ _).trans (prefix_foldl_pushSearchableField _ _)
  obtain ⟨tail, htail⟩ := hfront
  exact ⟨tail, htail.symm, congrArg byteLen hlabel⟩

lemma preparedLabel_eq :
    preparedLabel item = PreparedLabel.build item.label.toList (searchableTextWithLabel item).1
      (normalizeField item.label.toList) (byteLen (normalizeField item.label.toList)) := by
  obtain ⟨tail, htext, hbytes⟩ := searchableText_split item
  show fromSearchableText _ (searchableTextWithLabel item).1 (searchableTextWithLabel item).2 = _
  rw [fromSearchableText, hbytes, htext, splitAtByte_append]

lemma preparedLabel_normalized :
    (preparedLabel item).normalized = normalizeField item.label.toList := by
  obtain ⟨tail, htext, -⟩ := searchableText_split item
  rw [preparedLabel_eq, normalized]
  show ((splitAtByte (byteLen (normalizeField item.label.toList))
    (searchableTextWithLabel item).1).map Prod.fst).getD [] = _
  rw [htext, splitAtByte_append]
  rfl

lemma preparedLabel_ordered (hlen : byteLen (normalizeField item.label.toList) < 2 ^ 32) :
    Ordered (preparedLabel item).words := by
  rw [preparedLabel_eq]
  exact build_ordered _ _ _ _ hlen

lemma keywords_suffix : (preparedLabel item).keywords <:+ (searchableTextWithLabel item).1 := by
  obtain ⟨tail, htext, -⟩ := searchableText_split item
  have htail : tail <:+ (searchableTextWithLabel item).1 := ⟨_, htext.symm⟩
  have hget : ((splitAtByte (preparedLabel item).labelBytes (preparedLabel item).text).map
      Prod.snd).getD [] = tail := by
    rw [preparedLabel_eq]
    show ((splitAtByte (byteLen (normalizeField item.label.toList))
      (searchableTextWithLabel item).1).map Prod.snd).getD [] = _
    rw [htext, splitAtByte_append]
    rfl
  rw [keywords]
  simp only [hget]
  split
  · exact (suffix_cons _ _).trans htail
  · exact htail

end CriKey.Query
