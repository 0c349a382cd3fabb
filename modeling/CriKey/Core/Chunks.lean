import CriKey.Core.Bytes

/-! Byte strings cut into chunks: text as far as it is UTF-8, then the bytes that broke it off. -/
namespace CriKey.Core
open List

/-- The first character, when the bytes start with one, and the bytes after it. -/
def nextChar (bytes : List UInt8) : Option (Char × List UInt8) :=
  (bytes.toByteArray.utf8DecodeChar? 0).map fun c => (c, bytes.drop c.utf8Size)

variable {bytes rest : List UInt8}

lemma eq_of_nextChar {c : Char} (h : nextChar bytes = some (c, rest)) :
    bytes = String.utf8EncodeChar c ++ rest := by
  obtain ⟨d, hd, hrest⟩ := Option.map_eq_some_iff.mp h
  obtain ⟨rfl, rfl⟩ := Prod.mk.inj hrest
  obtain ⟨tail, htail⟩ := ByteArray.exists_of_utf8DecodeChar?_eq_some hd
  have hbytes : bytes = String.utf8EncodeChar d ++ tail.data.toList := by
    rw [← toByteArray_inj, htail, toByteArray_append]
    exact congrArg _ (ByteArray.ext (by simp))
  rw [hbytes, ← String.length_utf8EncodeChar, drop_left]

lemma nextChar_append (c : Char) (rest : List UInt8) :
    nextChar (String.utf8EncodeChar c ++ rest) = some (c, rest) := by
  rw [nextChar, toByteArray_append, ByteArray.utf8DecodeChar?_utf8EncodeChar_append,
    Option.map_some, ← String.length_utf8EncodeChar, drop_left]

lemma length_of_nextChar {c : Char} (h : nextChar bytes = some (c, rest)) :
    rest.length < bytes.length := by
  have hsize := c.utf8Size_pos
  rw [eq_of_nextChar h, length_append, String.length_utf8EncodeChar]
  omega

lemma high_of_nextChar_none {byte : UInt8} (h : nextChar (byte :: rest) = none) : 128 ≤ byte := by
  by_contra hlow
  have hsmall : byte.toNat < 128 := by
    have := UInt8.not_le.mp hlow
    exact this
  have hchar : (Char.ofUInt8 byte).toNat < 128 := hsmall
  have hself : (Char.ofUInt8 byte).toUInt8 = byte := by
    apply UInt8.toNat_inj.mp
    show byte.toNat % 256 = byte.toNat
    omega
  have hone := nextChar_append (Char.ofUInt8 byte) rest
  rw [utf8EncodeChar_ascii hchar, hself, singleton_append, h] at hone
  cases hone

def isContinuation (byte : UInt8) : Bool := byte &&& 0xC0 == 0x80

/-- The second bytes that a three-byte or four-byte lead admits. -/
def admits (lead second : UInt8) : Bool :=
  (lead == 0xE0 && 0xA0 ≤ second && second ≤ 0xBF) ||
  (0xE1 ≤ lead && lead ≤ 0xEC && 0x80 ≤ second && second ≤ 0xBF) ||
  (lead == 0xED && 0x80 ≤ second && second ≤ 0x9F) ||
  (0xEE ≤ lead && lead ≤ 0xEF && 0x80 ≤ second && second ≤ 0xBF) ||
  (lead == 0xF0 && 0x90 ≤ second && second ≤ 0xBF) ||
  (0xF1 ≤ lead && lead ≤ 0xF3 && 0x80 ≤ second && second ≤ 0xBF) ||
  (lead == 0xF4 && 0x80 ≤ second && second ≤ 0x8F)

/-- How many bytes are given up where no character starts: those of the longest start of one. -/
def invalidLength : List UInt8 → Nat
  | [] => 0
  | lead :: second :: third :: _ =>
    if admits lead second then
      if 0xF0 ≤ lead && isContinuation third then 3 else 2
    else 1
  | [lead, second] => if admits lead second then 2 else 1
  | [_] => 1

lemma invalidLength_pos (h : bytes ≠ []) : 0 < invalidLength bytes := by
  fun_cases invalidLength bytes <;> simp_all

lemma high_of_admits {lead second : UInt8} (h : admits lead second = true) : 128 ≤ second := by
  simp only [admits, Bool.or_eq_true, Bool.and_eq_true, decide_eq_true_eq] at h
  simp only [UInt8.le_iff_toNat_le] at h ⊢
  simp only [UInt8.reduceToNat] at h ⊢
  omega

lemma high_of_isContinuation {byte : UInt8} : isContinuation byte = true → 128 ≤ byte :=
  byte_cases (P := fun byte => isContinuation byte = true → 128 ≤ byte) (by decide +kernel) byte

lemma high_of_invalid (h : nextChar bytes = none) :
    ∀ byte ∈ bytes.take (invalidLength bytes), 128 ≤ byte := by
  fun_cases invalidLength bytes with
  | case1 => simp
  | case2 lead second third rest hadmits hthird =>
    rw [Bool.and_eq_true] at hthird
    simp [high_of_nextChar_none h, high_of_admits hadmits, high_of_isContinuation hthird.2]
  | case3 lead second third rest hadmits _ | case5 lead second hadmits =>
    simp [high_of_nextChar_none h, high_of_admits hadmits]
  | case4 | case6 | case7 => simp [high_of_nextChar_none h]

/-- `str` up to the first byte at which no character starts, and the bytes from there. -/
def validRun (bytes : List UInt8) : List Char × List UInt8 :=
  match _hnext : nextChar bytes with
  | none => ([], bytes)
  | some (c, rest) => ((validRun rest).1.cons c, (validRun rest).2)
termination_by bytes.length
decreasing_by all_goals exact length_of_nextChar _hnext

lemma validRun_spec (bytes : List UInt8) :
    bytes = (validRun bytes).1.flatMap String.utf8EncodeChar ++ (validRun bytes).2 ∧
      nextChar (validRun bytes).2 = none := by
  fun_induction validRun bytes with
  | case1 bytes h => exact ⟨rfl, h⟩
  | case2 bytes c rest h ih =>
    refine ⟨?_, ih.2⟩
    rw [flatMap_cons, append_assoc, ← ih.1]
    exact eq_of_nextChar h

/-- `Utf8Chunk` of the standard library. -/
structure Utf8Chunk where
  valid : String
  invalid : List UInt8
deriving DecidableEq, Repr

/-- `utf8_chunks`. -/
def utf8Chunks (bytes : List UInt8) : List Utf8Chunk :=
  if bytes = [] then []
  else
    let left := (validRun bytes).2
    let length := invalidLength left
    ⟨String.ofList (validRun bytes).1, left.take length⟩ :: utf8Chunks (left.drop length)
termination_by bytes.length
decreasing_by
  have hlength := congrArg List.length (validRun_spec bytes).1
  rw [List.length_append] at hlength
  have hpos : 0 < bytes.length := List.length_pos_of_ne_nil (by assumption)
  rw [List.length_drop]
  by_cases hleft : (validRun bytes).2 = []
  · rw [hleft]
    simpa using hpos
  · have hsome := invalidLength_pos hleft
    omega

lemma utf8Chunks_spec (bytes : List UInt8) :
    (utf8Chunks bytes).flatMap (fun chunk => bytesOf chunk.valid ++ chunk.invalid) = bytes ∧
      ∀ chunk ∈ utf8Chunks bytes, ∀ byte ∈ chunk.invalid, 128 ≤ byte := by
  fun_induction utf8Chunks bytes with
  | case1 => simp
  | case2 bytes hne left length ih =>
    obtain ⟨hbytes, hstop⟩ := validRun_spec bytes
    constructor
    · rw [flatMap_cons, ih.1, bytesOf_ofList, append_assoc, take_append_drop]
      exact hbytes.symm
    · intro chunk hchunk
      cases mem_cons.mp hchunk with
      | inl heq => exact heq ▸ high_of_invalid hstop
      | inr hrest => exact ih.2 chunk hrest

end CriKey.Core
