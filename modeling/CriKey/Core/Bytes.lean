import Mathlib

/-! Strings as the bytes of their UTF-8 encoding. -/
namespace CriKey.Core
open List

/-- `str::as_bytes`. -/
def bytesOf (s : String) : List UInt8 := s.toList.flatMap String.utf8EncodeChar

/-- `String::from_utf8`, with the failure as `none`. -/
def fromUtf8 (bytes : List UInt8) : Option String := String.fromUTF8? bytes.toByteArray

lemma toByteArray_bytesOf (s : String) : (bytesOf s).toByteArray = s.toByteArray := by
  conv_rhs => rw [← String.ofList_toList (s := s)]
  rfl

lemma fromUtf8_eq_some {bytes : List UInt8} {s : String} :
    fromUtf8 bytes = some s ↔ bytes = bytesOf s := by
  rw [← toByteArray_inj, toByteArray_bytesOf, fromUtf8, String.fromUTF8?]
  constructor
  · intro h
    split at h
    · rw [← Option.some.inj h]
      rfl
    · exact absurd h (by simp)
  · intro h
    rw [dif_pos (h ▸ s.isValidUTF8), Option.some.injEq, ← String.toByteArray_inj]
    exact h

lemma bytesOf_ofList (cs : List Char) :
    bytesOf (String.ofList cs) = cs.flatMap String.utf8EncodeChar := by
  rw [bytesOf, String.toList_ofList]

lemma byte_cases {P : UInt8 → Prop} (h : ∀ n : Fin 256, P (UInt8.ofNat n)) (b : UInt8) : P b := by
  have hb := h ⟨b.toNat, b.toNat_lt⟩
  rwa [UInt8.ofNat_toNat] at hb

/-! ASCII characters are their own byte; every other character is made of high bytes. -/

lemma utf8EncodeChar_ascii {c : Char} (h : c.toNat < 128) :
    String.utf8EncodeChar c = [c.toUInt8] := by
  have hs : c.utf8Size = 1 := by
    rw [Char.utf8Size, if_pos]
    show c.val.toNat ≤ 127
    have : c.val.toNat < 128 := h
    omega
  rw [String.utf8EncodeChar_eq_singleton hs]
  rfl

lemma high_ofNat (v m k : Nat) (hm : 0 < m) (hk : 128 ≤ k) (hmk : m + k ≤ 256) :
    128 ≤ UInt8.ofNat (v % m + k) := by
  have hlt : v % m < m := Nat.mod_lt v hm
  rw [UInt8.le_iff_toNat_le, UInt8.toNat_ofNat', Nat.mod_eq_of_lt (by omega)]
  exact hk.trans (Nat.le_add_left k (v % m))

lemma high_of_mem_utf8EncodeChar {c : Char} (h : 128 ≤ c.toNat) :
    ∀ b ∈ String.utf8EncodeChar c, 128 ≤ b := by
  have hv : ¬ c.val.toNat ≤ 0x7f := Nat.not_le.mpr h
  intro b hb
  simp only [String.utf8EncodeChar, if_neg hv] at hb
  split at hb
  · simp only [mem_cons, not_mem_nil, or_false] at hb
    rcases hb with rfl | rfl <;> exact high_ofNat _ _ _ (by omega) (by omega) (by omega)
  split at hb
  · simp only [mem_cons, not_mem_nil, or_false] at hb
    rcases hb with rfl | rfl | rfl <;> exact high_ofNat _ _ _ (by omega) (by omega) (by omega)
  · simp only [mem_cons, not_mem_nil, or_false] at hb
    rcases hb with rfl | rfl | rfl | rfl <;>
      exact high_ofNat _ _ _ (by omega) (by omega) (by omega)

lemma bytesOf_ascii {cs : List Char} (h : ∀ c ∈ cs, c.toNat < 128) :
    bytesOf (String.ofList cs) = cs.map Char.toUInt8 := by
  rw [bytesOf_ofList]
  induction cs with
  | nil => rfl
  | cons c cs ih =>
    rw [flatMap_cons, utf8EncodeChar_ascii (h c mem_cons_self), map_cons,
      ih fun d hd => h d (mem_cons_of_mem c hd), singleton_append]

end CriKey.Core
