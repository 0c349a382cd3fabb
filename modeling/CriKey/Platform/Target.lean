import CriKey.Base.Escaped
import CriKey.Core.Chunks

/-! Launch targets. A path is an arbitrary byte string; the item field that carries it is text, so
the bytes UTF-8 cannot spell are escaped, and a tag says whose bytes they are. -/
namespace CriKey.Platform
open CriKey.Base CriKey.Core List Option ReadsAs String

structure PlatformPath where
  bytes : List UInt8
deriving DecidableEq, Repr

inductive TargetError where
  | foreignPlatform (tag : String)
  | malformedEscape (offset : Nat)
  | missingPlatformTag (offset : Nat)
deriving DecidableEq, Repr

def unixTag : String := "%unix;"

def windowsTag : String := "%windows;"

def tags : List String := [unixTag, windowsTag]

def platformTag : String := unixTag

def percentEscape : String := "%25"

def percent : UInt8 := 0x25

def hexDigits : List Char :=
  ['0', '1', '2', '3', '4', '5', '6', '7', '8', '9', 'A', 'B', 'C', 'D', 'E', 'F']

/-- Digits are uppercase, so that a path has one spelling. -/
def hexDigit (digit : UInt8) : Option UInt8 :=
  if 0x30 ≤ digit && digit ≤ 0x39 then some (digit - 0x30)
  else if 0x41 ≤ digit && digit ≤ 0x46 then some (digit - 0x41 + 10)
  else none

/-! ## Encoding -/

def escapedChar (c : Char) : List Char := if c = '%' then percentEscape.toList else [c]

/-- `push_escaped` onto an empty text. -/
def escapedText (text : String) : List Char := text.toList.flatMap escapedChar

/-- `push_byte_escape`. -/
def byteEscape (byte : UInt8) : List Char :=
  ['%', hexDigits.getD (byte >>> 4).toNat '0', hexDigits.getD (byte &&& 0x0f).toNat '0']

/-- `platform_target::encode`. -/
def encodeBytes (bytes : List UInt8) : String :=
  String.ofList (platformTag.toList ++ (utf8Chunks bytes).flatMap fun chunk =>
      escapedText chunk.valid ++ chunk.invalid.flatMap byteEscape)

def encodeTarget (target : PlatformPath) : String :=
  match fromUtf8 target.bytes with
  | none => encodeBytes target.bytes
  | some text =>
    if text.toList.contains '%' then String.ofList (escapedText text) else text

/-! ## Decoding -/

/-- `digits` opens with `count` hex digits. -/
def opensWithHex (digits : List UInt8) (count : Nat) : Bool :=
  count ≤ digits.length && (digits.take count).all fun digit => (hexDigit digit).isSome

def looksLikePlatformEscape : List UInt8 → Bool
  | 0x75 :: digits => opensWithHex digits 4
  | digits => opensWithHex digits 2

variable (escape : List UInt8) (offset : Nat)

def untaggedEscapeError : TargetError :=
  if looksLikePlatformEscape (escape.drop 1) then .missingPlatformTag offset
  else .malformedEscape offset

def untaggedEscape : Except TargetError UInt8 :=
  if (bytesOf percentEscape).isPrefixOf escape then .ok percent
  else .error (untaggedEscapeError escape offset)

def decodeUntagged (body : List UInt8) : Except TargetError PlatformPath :=
  (unescape percent 2 untaggedEscape 0 body).map PlatformPath.mk

def firstEscapedByte : UInt8 := 0x80

/-- The byte that `%XX` names: a byte with no spelling of its own. -/
def escapedByte : Except TargetError UInt8 :=
  match escape.drop 1 with
  | high :: low :: _ =>
    match hexDigit high, hexDigit low with
    | some high, some low =>
      let byte := high <<< 4 ||| low
      if byte < firstEscapedByte && byte != percent then .error (.malformedEscape offset)
      else .ok byte
    | _, _ => .error (.malformedEscape offset)
  | _ => .error (.malformedEscape offset)

/-- `platform_target::decode`. -/
def decodeBytes (body : List UInt8) (base : Nat) : Except TargetError PlatformPath :=
  (unescape percent 2 escapedByte base body).map PlatformPath.mk

def decodeTarget (encoded : String) : Except TargetError PlatformPath :=
  let tagged := tags.findSome? fun tag =>
    ((bytesOf encoded).dropPrefix? (bytesOf tag)).map (tag, ·)
  match tagged with
  | some (tag, body) =>
    if tag = platformTag then decodeBytes body (bytesOf tag).length
    else .error (.foreignPlatform tag)
  | none => decodeUntagged (bytesOf encoded)

example : encodeTarget ⟨[0x25, 0xff, 0x61]⟩ = "%unix;%25%FFa" := by decide +kernel

/-! ## Characters and bytes are read back -/

lemma percent_notMem_utf8EncodeChar {c : Char} (h : c ≠ '%') :
    percent ∉ String.utf8EncodeChar c := by
  intro hmem
  by_cases hlow : c.toNat < 128
  · rw [utf8EncodeChar_ascii hlow, mem_singleton] at hmem
    refine h (Char.ext (UInt32.toNat_inj.mp ?_))
    have hbyte := congrArg UInt8.toNat hmem
    have hmod : c.toUInt8.toNat = c.toNat % 256 := rfl
    have hvalue : c.toNat = 37 := by
      have hpercent : percent.toNat = 37 := rfl
      omega
    exact hvalue
  · have hhigh := high_of_mem_utf8EncodeChar (Nat.le_of_not_lt hlow) percent hmem
    exact absurd hhigh (by decide)

section
variable {read : List UInt8 → Nat → Except TargetError UInt8}

lemma reads_escapedText
    (hread : ∀ offset rest, read ([percent, 0x32, 0x35] ++ rest) offset = .ok percent)
    (text : String) :
    ReadsAs percent 2 read ((escapedText text).flatMap String.utf8EncodeChar) (bytesOf text) := by
  rw [escapedText, flatMap_assoc]
  refine flatMap fun c _ => ?_
  by_cases hc : c = '%'
  · subst hc
    exact escape rfl hread
  · rw [escapedChar, if_neg hc, flatMap_singleton]
    exact verbatim (percent_notMem_utf8EncodeChar hc)

end

lemma untaggedEscape_percent (offset : Nat) (rest : List UInt8) :
    untaggedEscape ([percent, 0x32, 0x35] ++ rest) offset = .ok percent := by
  rfl

lemma escapedByte_percent (offset : Nat) (rest : List UInt8) :
    escapedByte ([percent, 0x32, 0x35] ++ rest) offset = .ok percent := by
  rfl

/-- The character of a hex digit is one byte. -/
def digitByte (digit : UInt8) : UInt8 := (hexDigits.getD digit.toNat '0').toUInt8

lemma bytes_byteEscape (byte : UInt8) : (byteEscape byte).flatMap String.utf8EncodeChar =
    [percent, digitByte (byte >>> 4), digitByte (byte &&& 0x0f)] :=
  byte_cases (P := fun byte => (byteEscape byte).flatMap utf8EncodeChar =
    [percent, digitByte (byte >>> 4), digitByte (byte &&& 0x0f)]) (by decide +kernel) byte

lemma hexDigit_high (byte : UInt8) : hexDigit (digitByte (byte >>> 4)) = some (byte >>> 4) :=
  byte_cases (P := fun byte => hexDigit (digitByte (byte >>> 4)) = some (byte >>> 4))
    (by decide +kernel) byte

lemma hexDigit_low (byte : UInt8) : hexDigit (digitByte (byte &&& 0x0f)) = some (byte &&& 0x0f) :=
  byte_cases (P := fun byte => hexDigit (digitByte (byte &&& 0x0f)) = some (byte &&& 0x0f))
    (by decide +kernel) byte

lemma join_nibbles (byte : UInt8) : byte >>> 4 <<< 4 ||| byte &&& 0x0f = byte :=
  byte_cases (P := fun byte => byte >>> 4 <<< 4 ||| byte &&& 0x0f = byte) (by decide +kernel) byte

lemma reads_byteEscape {byte : UInt8} (h : 128 ≤ byte) :
    ReadsAs percent 2 escapedByte ((byteEscape byte).flatMap String.utf8EncodeChar) [byte] := by
  rw [bytes_byteEscape]
  refine escape rfl fun offset rest => ?_
  have hspelled : ¬ byte < firstEscapedByte := UInt8.not_lt.mpr h
  simp only [escapedByte, cons_append, drop_succ_cons, drop_zero, hexDigit_high,
    hexDigit_low, join_nibbles, hspelled, decide_false, Bool.false_and, Bool.false_eq_true,
    if_false]

/-! ## Round trip -/

lemma bytesOf_encodeBytes (bytes : List UInt8) : bytesOf (encodeBytes bytes) =
    bytesOf platformTag ++ (utf8Chunks bytes).flatMap fun chunk =>
      (escapedText chunk.valid).flatMap String.utf8EncodeChar ++
        chunk.invalid.flatMap fun byte => (byteEscape byte).flatMap String.utf8EncodeChar := by
  rw [encodeBytes, bytesOf_ofList, flatMap_append]
  simp only [flatMap_append, flatMap_assoc]
  rfl

lemma decodeBytes_chunks (bytes : List UInt8) (base : Nat) :
    decodeBytes ((utf8Chunks bytes).flatMap fun chunk =>
      (escapedText chunk.valid).flatMap String.utf8EncodeChar ++
        chunk.invalid.flatMap fun byte => (byteEscape byte).flatMap String.utf8EncodeChar) base =
      .ok ⟨bytes⟩ := by
  obtain ⟨hjoined, hhigh⟩ := utf8Chunks_spec bytes
  have hreads := flatMap fun chunk hchunk =>
    (reads_escapedText escapedByte_percent (Utf8Chunk.valid chunk)).append
      (flatMap fun byte hbyte => reads_byteEscape (hhigh chunk hchunk byte hbyte))
  simp only [flatMap_singleton', hjoined] at hreads
  rw [decodeBytes, hreads.whole]
  rfl

lemma decode_encodeBytes (bytes : List UInt8) : decodeTarget (encodeBytes bytes) = .ok ⟨bytes⟩ := by
  have htag (body : List UInt8) : (bytesOf platformTag ++ body).dropPrefix? (bytesOf unixTag) =
      some body :=
    dropPrefix?_append_of_beq body (beq_self_eq_true _)
  rw [decodeTarget, bytesOf_encodeBytes]
  simp only [tags, findSome?_cons, htag]
  exact decodeBytes_chunks bytes _

lemma escapedText_ne_cons (text : String) {second : UInt8} (h : second ≠ 0x32)
    (rest : List UInt8) :
    bytesOf (String.ofList (escapedText text)) ≠ percent :: second :: rest := by
  rw [bytesOf_ofList, escapedText]
  intro heq
  cases htext : text.toList with
  | nil =>
    rw [htext] at heq
    cases heq
  | cons c cs =>
    rw [htext, flatMap_cons, flatMap_append] at heq
    by_cases hc : c = '%'
    · rw [hc] at heq
      exact h (cons.inj (cons.inj heq).2).1.symm
    obtain ⟨byte, bytes, hbytes⟩ := exists_cons_of_ne_nil (utf8EncodeChar_ne_nil (c := c))
    have hplain := percent_notMem_utf8EncodeChar hc
    rw [escapedChar, if_neg hc, flatMap_singleton, hbytes] at heq
    rw [hbytes, ← (cons.inj heq).1] at hplain
    exact hplain mem_cons_self

lemma dropTag_escapedText (text : String) {tag : String} {second : UInt8} {rest : List UInt8}
    (htag : bytesOf tag = percent :: second :: rest) (h : second ≠ 0x32) :
    (bytesOf (String.ofList (escapedText text))).dropPrefix? (bytesOf tag) = none := by
  rw [eq_none_iff_forall_ne_some]
  intro body hbody
  obtain ⟨start, hstart, htagged⟩ := dropPrefix?_eq_some_iff.mp hbody
  rw [eq_of_beq htagged, htag] at hstart
  exact escapedText_ne_cons text h (rest ++ body) hstart

lemma decode_escapedText (text : String) :
    decodeTarget (String.ofList (escapedText text)) = .ok ⟨bytesOf text⟩ := by
  have hunix : (bytesOf (ofList (escapedText text))).dropPrefix? (bytesOf unixTag) = none :=
    dropTag_escapedText text rfl (by decide)
  have hwindows : (bytesOf (ofList (escapedText text))).dropPrefix? (bytesOf windowsTag) = none :=
    dropTag_escapedText text rfl (by decide)
  have hreads := reads_escapedText untaggedEscape_percent text
  rw [decodeTarget]
  simp only [tags, findSome?_cons, hunix, hwindows]
  rw [decodeUntagged, bytesOf_ofList, hreads.whole]
  rfl

lemma encodeTarget_text {target : PlatformPath} {text : String}
    (h : fromUtf8 target.bytes = some text) :
    encodeTarget target = String.ofList (escapedText text) := by
  rw [encodeTarget, h]
  dsimp only
  split
  case isTrue => rfl
  case isFalse hnone =>
    have hplain : escapedText text = text.toList.flatMap fun c => [c] := by
      refine flatMap_congr fun c hc => ?_
      rw [escapedChar, if_neg]
      rintro rfl
      exact hnone (contains_iff_mem.mpr hc)
    rw [hplain, flatMap_singleton', ofList_toList]

lemma decode_encodeTarget (path : PlatformPath) : decodeTarget (encodeTarget path) = .ok path := by
  cases htext : fromUtf8 path.bytes with
  | none =>
    rw [encodeTarget, htext]
    exact decode_encodeBytes path.bytes
  | some text =>
    rw [encodeTarget_text htext, decode_escapedText, ← fromUtf8_eq_some.mp htext]

/-- Every path comes back from its target, so no two paths share one. -/
theorem target_round_trip :
    (∀ path, decodeTarget (encodeTarget path) = .ok path) ∧ Function.Injective encodeTarget := by
  refine ⟨decode_encodeTarget, fun a b h => ?_⟩
  have hpath := congrArg decodeTarget h
  rw [decode_encodeTarget, decode_encodeTarget] at hpath
  exact Except.ok.inj hpath

end CriKey.Platform
