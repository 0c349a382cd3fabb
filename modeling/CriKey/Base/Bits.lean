import Mathlib

/-! Sets of numbers as bits in 64-bit words. -/
namespace CriKey.Base
open List

abbrev Word := BitVec 64

abbrev Bits := List Word

/-- The bits set in a word, lowest first, as `trailing_zeros` finds them. -/
def bitsOf (word : Word) : List Nat := (List.range 64).filter word.getLsbD

def Bits.test (bits : Bits) (i : Nat) : Bool := (bits.getD (i / 64) 0).getLsbD (i % 64)

/-- At least `word + 1` words. -/
def Bits.grow (bits : Bits) (word : Nat) : Bits :=
  bits ++ List.replicate (word + 1 - bits.length) 0

def putBit (present : Bool) (i : Nat) (word : Word) : Word :=
  if present then word ||| BitVec.twoPow 64 i else word &&& ~~~BitVec.twoPow 64 i

/-- Writes one bit, in a word that is there. -/
def Bits.put (bits : Bits) (present : Bool) (i : Nat) : Bits :=
  bits.modify (i / 64) (putBit present (i % 64))

/-- Everything set, word by word and lowest first. -/
def Bits.elements (bits : Bits) : List Nat :=
  bits.zipIdx.flatMap fun (word, index) => (bitsOf word).map (index * 64 + ·)

variable {i : Nat}

lemma mem_bitsOf {word : Word} : i ∈ bitsOf word ↔ word.getLsbD i := by
  rw [bitsOf, mem_filter, mem_range]
  constructor
  · exact fun h => h.2
  · intro h
    exact ⟨BitVec.lt_of_getLsbD h, h⟩

lemma getLsbD_putBit {present : Bool} (j : Nat) (hi : i < 64) (word : Word) :
    (putBit present i word).getLsbD j = if j = i then present else word.getLsbD j := by
  by_cases hlt : j < 64
  · cases present <;> by_cases hj : i = j
    · simp [putBit, hj]
    · simp [putBit, hlt, Ne.symm hj]
    · simp [putBit, hlt, hj]
    · simp [putBit, hlt, Ne.symm hj]
  · have hj : j ≠ i := by omega
    rw [if_neg hj, BitVec.getLsbD_of_ge _ _ (Nat.le_of_not_lt hlt),
      BitVec.getLsbD_of_ge _ _ (Nat.le_of_not_lt hlt)]

lemma bitsOf_lt {word : Word} (h : i ∈ bitsOf word) : i < 64 :=
  mem_range.mp (mem_filter.mp h).1

lemma bitsOf_ascending (word : Word) : (bitsOf word).Pairwise (· < ·) :=
  pairwise_lt_range.filter _

/-- A loop that intersects words keeps the bits that are in all of them. -/
lemma foldlM_and {g : Word → Nat → Option Word} (w : Nat → Word) (xs : List Nat) (start : Word)
    (h : ∀ x ∈ xs, ∀ word, g word x = some (word &&& w x)) :
    ∃ result, xs.foldlM g start = some result ∧
      ∀ i, result.getLsbD i ↔ start.getLsbD i ∧ ∀ x ∈ xs, (w x).getLsbD i := by
  induction xs generalizing start with
  | nil => exact ⟨start, rfl, by simp⟩
  | cons x xs ih =>
    obtain ⟨result, hfold, hbits⟩ := ih (start &&& w x) fun y hy => h y (mem_cons_of_mem x hy)
    refine ⟨result, ?_, fun i => ?_⟩
    · rw [foldlM_cons, h x mem_cons_self]
      exact hfold
    · rw [hbits, BitVec.getLsbD_and, Bool.and_eq_true, and_assoc, forall_mem_cons]

namespace Bits
variable {bits : Bits}
variable {i : Nat}

lemma test_word (bits : Bits) {word : Nat} (hi : i < 64) :
    bits.test (word * 64 + i) = (bits.getD word 0).getLsbD i := by
  have hdiv : (word * 64 + i) / 64 = word := by omega
  have hmod : (word * 64 + i) % 64 = i := by omega
  rw [test, hdiv, hmod]

@[simp] lemma length_grow (word : Nat) : (bits.grow word).length = max bits.length (word + 1) := by
  rw [grow, length_append, length_replicate]
  omega

@[simp] lemma length_put (present : Bool) (i : Nat) :
    (bits.put present i).length = bits.length := by
  rw [put, length_modify]

@[simp] lemma test_grow (word i : Nat) : (bits.grow word).test i = bits.test i := by
  rw [test, test, grow, getD_eq_getElem?_getD, getD_eq_getElem?_getD]
  by_cases h : i / 64 < bits.length
  · rw [getElem?_append_left h]
  · rw [getElem?_append_right (Nat.le_of_not_lt h), getElem?_replicate,
      getElem?_eq_none (Nat.le_of_not_lt h)]
    split <;> rfl

lemma test_put (present : Bool) (h : i / 64 < bits.length) (j : Nat) :
    (bits.put present i).test j = if j = i then present else bits.test j := by
  have hi : i % 64 < 64 := Nat.mod_lt i (by decide)
  rw [test, test, put, getD_eq_getElem?_getD, getD_eq_getElem?_getD, getElem?_modify]
  by_cases hw : i / 64 = j / 64
  · have hiff : j % 64 = i % 64 ↔ j = i := by omega
    simp only [hw, if_true]
    rw [← hw, List.getElem?_eq_getElem h, Option.map_eq_map, Option.map_some, Option.getD_some,
      Option.getD_some, getLsbD_putBit _ hi]
    simp only [hiff]
  · have hne : j ≠ i := fun he => hw (he ▸ rfl)
    simp only [hw, if_false, id_map', hne]

/-- Clearing a bit of a word that is not there leaves it clear. -/
lemma test_clear (i j : Nat) :
    (bits.put false i).test j = if j = i then false else bits.test j := by
  by_cases h : i / 64 < bits.length
  · exact test_put false h j
  have hput : bits.put false i = bits := by
    rw [put, modify_eq_self (Nat.le_of_not_lt h)]
  rw [hput]
  split
  · rename_i hj
    rw [hj, test, getD_eq_default _ _ (Nat.le_of_not_lt h)]
    simp
  · rfl

lemma test_put_mono (i : Nat) {j : Nat} (h : bits.test j) : (bits.put true i).test j := by
  by_cases hi : i / 64 < bits.length
  · rw [test_put true hi]
    split
    · rfl
    · exact h
  · rwa [put, modify_eq_self (Nat.le_of_not_lt hi)]

lemma test_put_self (h : i / 64 < bits.length) : (bits.put true i).test i := by
  rw [test_put true h, if_pos rfl]

lemma foldl_put (f : Nat → Nat) (xs : List Nat) (bits : Bits) :
    (xs.foldl (fun bits x => bits.put true (f x)) bits).length = bits.length ∧
      (∀ j, bits.test j → (xs.foldl (fun bits x => bits.put true (f x)) bits).test j) ∧
      ∀ x ∈ xs, f x / 64 < bits.length →
        (xs.foldl (fun bits x => bits.put true (f x)) bits).test (f x) := by
  induction xs generalizing bits with
  | nil => exact ⟨rfl, fun _ h => h, by simp⟩
  | cons y xs ih =>
    obtain ⟨hlen, hmono, hset⟩ := ih (bits.put true (f y))
    rw [length_put] at hlen hset
    refine ⟨hlen, fun j hj => hmono j (test_put_mono _ hj), ?_⟩
    intro x hx hlt
    rcases mem_cons.mp hx with rfl | hx
    · exact hmono _ (test_put_self hlt)
    · exact hset x hx hlt

lemma mem_elements : i ∈ bits.elements ↔ bits.test i := by
  rw [elements, mem_flatMap, test, getD_eq_getElem?_getD]
  constructor
  · rintro ⟨⟨word, index⟩, hword, hi⟩
    obtain ⟨bit, hbit, rfl⟩ := mem_map.mp hi
    have hlt : bit < 64 := BitVec.lt_of_getLsbD (mem_bitsOf.mp hbit)
    have hdiv : (index * 64 + bit) / 64 = index := by omega
    have hmod : (index * 64 + bit) % 64 = bit := by omega
    rw [hdiv, hmod, mem_zipIdx_iff_getElem?.mp hword]
    exact mem_bitsOf.mp hbit
  · intro h
    cases hword : bits[i / 64]? with
    | none =>
      rw [hword] at h
      exact absurd h (by simp)
    | some word =>
      rw [hword] at h
      refine ⟨(word, i / 64), mem_zipIdx_iff_getElem?.mpr hword, mem_map.mpr
        ⟨i % 64, mem_bitsOf.mpr h, ?_⟩⟩
      omega

end Bits
end CriKey.Base
