import CriKey.Base.Precedence
import CriKey.Packages.Loader

/-! Extractions: the name of one tells its package and its digest, and a new one displaces the
earlier extractions of its package only. -/
namespace CriKey.Packages
open CriKey.Base List Nat Table

/-! ### Names of extractions -/

lemma length_hexDigits (width n : Nat) : (hexDigits width n).length = width := by
  induction width generalizing n with
  | zero => rfl
  | succ width ih => rw [hexDigits, length_append, ih, length_singleton]

variable {a : Nat}

lemma hexDigit_injective {b : Nat} (ha : a < 16) (hb : b < 16) (h : hexDigit a = hexDigit b) :
    a = b := by
  have hall : ∀ a b : Fin 16, hexDigit a = hexDigit b → a = b := by decide
  exact congrArg Fin.val (hall ⟨a, ha⟩ ⟨b, hb⟩ h)

lemma isAsciiHexdigit_hexDigit (ha : a < 16) : isAsciiHexdigit (hexDigit a) = true := by
  have hall : ∀ a : Fin 16, isAsciiHexdigit (hexDigit a) = true := by decide
  exact hall ⟨a, ha⟩

lemma all_hexDigits (width n : Nat) : (hexDigits width n).all isAsciiHexdigit = true := by
  induction width generalizing n with
  | zero => rfl
  | succ width ih =>
    rw [hexDigits, all_append, ih]
    simp [isAsciiHexdigit_hexDigit (mod_lt n (by decide : 0 < 16))]

lemma hexDigits_injective {width b : Nat} (ha : a < 16 ^ width) (hb : b < 16 ^ width)
    (h : hexDigits width a = hexDigits width b) : a = b := by
  induction width generalizing a b with
  | zero =>
    omega
  | succ width ih =>
    obtain ⟨hhigh, hlow⟩ := append_inj' h rfl
    have hmod : a % 16 = b % 16 :=
      hexDigit_injective (mod_lt _ (by decide)) (mod_lt _ (by decide)) (singleton_inj.mp hlow)
    have hdiv : a / 16 = b / 16 :=
      ih (Nat.div_lt_of_lt_mul (by omega)) (Nat.div_lt_of_lt_mul (by omega)) hhigh
    omega

lemma toList_extractionName (id : String) (digest : UInt64) : (extractionName id digest).toList =
      (id.toList ++ ['-']) ++ hexDigits digestHexWidth digest.toNat := by
  rw [extractionName, String.toList_ofList, append_assoc]
  rfl

variable {id id' : String}

lemma extractionName_injective {digest digest' : UInt64}
    (h : extractionName id digest = extractionName id' digest') : id = id' ∧ digest = digest' := by
  have hlist := congrArg String.toList h
  rw [toList_extractionName, toList_extractionName] at hlist
  obtain ⟨hid, hdigest⟩ := append_inj' hlist (by rw [length_hexDigits, length_hexDigits])
  refine ⟨String.toList_injective (append_inj' hid rfl).1, UInt64.toNat_inj.mp ?_⟩
  have hbound : ∀ d : UInt64, d.toNat < 16 ^ digestHexWidth := fun d => d.toNat_lt
  exact hexDigits_injective (hbound digest) (hbound digest') hdigest

lemma isExtractionDirectory_iff {name : String} : isExtractionDirectory name id = true ↔
    ∃ digest : List Char, name.toList = (id.toList ++ ['-']) ++ digest ∧
      digest.length = digestHexWidth ∧ digest.all isAsciiHexdigit = true := by
  simp only [isExtractionDirectory, Bool.and_eq_true, decide_eq_true_eq, isPrefixOf_iff_prefix]
  constructor
  · rintro ⟨⟨digest, hname⟩, hlen, hall⟩
    have hdrop : name.toList.drop (id.toList.length + 1) = digest := by
      rw [← hname]
      exact drop_left' (by simp)
    rw [hdrop] at hlen hall
    exact ⟨digest, hname.symm, hlen, hall⟩
  · rintro ⟨digest, hname, hlen, hall⟩
    have hdrop : name.toList.drop (id.toList.length + 1) = digest := by
      rw [hname]
      exact drop_left' (by simp)
    exact ⟨⟨digest, hname.symm⟩, hdrop ▸ hlen, hdrop ▸ hall⟩

lemma isExtractionDirectory_unique {name : String} (h : isExtractionDirectory name id = true)
    (h' : isExtractionDirectory name id' = true) : id = id' := by
  obtain ⟨digest, hname, hlen, -⟩ := isExtractionDirectory_iff.mp h
  obtain ⟨digest', hname', hlen', -⟩ := isExtractionDirectory_iff.mp h'
  obtain ⟨hid, -⟩ := append_inj' (hname.symm.trans hname') (hlen.trans hlen'.symm)
  exact String.toList_injective (append_inj' hid rfl).1

lemma isExtractionDirectory_extractionName (id : String) (digest : UInt64) :
    isExtractionDirectory (extractionName id digest) id = true :=
  isExtractionDirectory_iff.mpr
    ⟨_, toList_extractionName id digest, length_hexDigits _ _, all_hexDigits _ _⟩

/-! ### The cache -/

lemma get?_sweepSuperseded (id keep : String) (cache : Cache) (name : String) :
    (sweepSuperseded id keep cache).get? name =
      if name ≠ keep ∧ isExtractionDirectory name id = true then none else cache.get? name := by
  have hfold : ∀ (names : List String) (cache : Cache), (names.foldl (fun cache name =>
        if name = keep || !isExtractionDirectory name id then cache else cache.erase name)
          cache).get? name =
        if name ∈ names ∧ name ≠ keep ∧ isExtractionDirectory name id = true then none
        else cache.get? name := by
    intro names
    induction names with
    | nil => simp
    | cons n names ih =>
      intro cache
      rw [foldl_cons, ih]
      by_cases hn : name = n
      · subst hn
        by_cases hdoomed : name ≠ keep ∧ isExtractionDirectory name id = true
        · have hkeep : (name = keep || !isExtractionDirectory name id) = false := by
            simp [hdoomed.1, hdoomed.2]
          rw [hkeep, if_pos (⟨mem_cons_self, hdoomed⟩ : name ∈ name :: names ∧ _)]
          split
          · rfl
          · simp [get?_erase]
        · have hkeep : (name = keep || !isExtractionDirectory name id) = true := by
            simp only [not_and] at hdoomed
            by_cases heq : name = keep
            · simp [heq]
            · simp [hdoomed heq]
          simp only [hdoomed, hkeep, and_false, if_true]
      · have hget : (if (n = keep || !isExtractionDirectory n id) = true then cache
            else cache.erase n).get? name = cache.get? name := by
          split
          · rfl
          · rw [get?_erase, if_neg hn]
        rw [hget]
        simp only [mem_cons, hn, false_or]
  rw [sweepSuperseded, hfold]
  by_cases hmem : name ∈ cache.keys
  · simp only [hmem, true_and]
  · simp [(get?_eq_none_iff cache name).mpr hmem]

/-- The extractions of a package that the cache holds. -/
def present (id : String) (cache : Cache) : Set String :=
  {name | isExtractionDirectory name id = true ∧ isRealDirectory cache name = true}

lemma isRealDirectory_extracted (id keep : String) (files : Files) (cache : Cache) (name : String) :
    isRealDirectory (sweepSuperseded id keep (cache.insert keep (.directory files))) name = true ↔
      name = keep ∨ isExtractionDirectory name id = false ∧ isRealDirectory cache name = true := by
  rw [isRealDirectory, get?_sweepSuperseded, get?_insert, isRealDirectory]
  by_cases hkeep : name = keep
  · simp [hkeep]
  · cases hid : isExtractionDirectory name id <;> simp [hkeep]

lemma present_extracted {digest : UInt64} {files : Files} {cache : Cache}
    (hnew : isRealDirectory cache (extractionName id digest) = false) :
    present id' (sweepSuperseded id (extractionName id digest)
        (cache.insert (extractionName id digest) (.directory files))) =
      if id' = id then displace (present id cache) (extractionName id digest)
      else present id' cache := by
  have hown := isExtractionDirectory_extractionName id digest
  generalize extractionName id digest = keep at hnew hown
  ext name
  rw [present, Set.mem_ofPred_eq, isRealDirectory_extracted]
  by_cases hid : id' = id
  · subst hid
    have hmissing : keep ∉ present id' cache := fun hmem => by simp [hmem.2] at hnew
    rw [if_pos rfl, displace, if_neg hmissing]
    constructor
    · rintro ⟨hname, heq | ⟨hother, -⟩⟩
      · exact heq
      · simp [hname] at hother
    · intro heq
      exact ⟨heq ▸ hown, Or.inl heq⟩
  · rw [if_neg hid, present]
    refine and_congr_right fun hname => ?_
    have hne : name ≠ keep := fun heq => hid (isExtractionDirectory_unique hname (heq ▸ hown))
    have hother : isExtractionDirectory name id = false :=
      Bool.eq_false_iff.mpr fun h => hid (isExtractionDirectory_unique hname h)
    simp only [hne, hother, false_or, true_and]

end CriKey.Packages
