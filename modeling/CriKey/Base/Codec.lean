import Mathlib

/-! Binary formats. A writer gives the bytes of a value, or nothing when a length does not
fit its field; a reader takes a value off the front of the input. A reader and a writer
belong together when the reader accepts exactly what the writer writes. -/
namespace CriKey.Base
open List Option Nat

abbrev Bytes := List UInt8

/-- Bytes to append to the output, or `none` for a value that cannot be written. -/
abbrev Chunk := Option Bytes

/-- One chunk after the other. -/
instance : AndThen Chunk := ⟨fun x y => do
  let first ← x
  let second ← y ()
  some (first ++ second)⟩

def concat : List Chunk → Chunk
  | [] => some []
  | x :: xs => x >> concat xs

lemma andThen_eq_some {x y : Chunk} {bs : Bytes} :
    x >> y = some bs ↔ ∃ a b, x = some a ∧ y = some b ∧ a ++ b = bs := by
  cases x with
  | none =>
    constructor
    · intro h
      cases h
    · rintro ⟨a, b, h, -⟩
      cases h
  | some a =>
    cases y with
    | none =>
      constructor
      · intro h
        cases h
      · rintro ⟨a, b, -, h, -⟩
        cases h
    | some b =>
      constructor
      · intro h
        exact ⟨a, b, rfl, rfl, some.inj h⟩
      · rintro ⟨a', b', ha, hb, rfl⟩
        cases ha
        cases hb
        rfl

abbrev Reader (α : Type) := StateT Bytes Option α

/-- `split_at_checked`, with the rest left as the input. -/
def take (len : Nat) : Reader Bytes := fun bytes =>
  if len ≤ bytes.length then some (bytes.take len, bytes.drop len) else none

/-- One byte. -/
def tag : Reader UInt8
  | [] => none
  | first :: rest => some (first, rest)

/-- A value given by one byte. -/
def tagged {α : Type} (value : UInt8 → Option α) : Reader α := do
  let byte ← tag
  value byte

def times {α : Type} : Nat → Reader α → Reader (List α)
  | 0, _ => pure []
  | n + 1, r => do
    let x ← r
    let xs ← times n r
    pure (x :: xs)

/-- The `width` low bytes of a number, least significant first. -/
def toLeBytes : Nat → Nat → Bytes
  | 0, _ => []
  | width + 1, n => UInt8.ofNat n :: toLeBytes width (n / 256)

def fromLeBytes : Bytes → Nat
  | [] => 0
  | byte :: bytes => byte.toNat + 256 * fromLeBytes bytes

def word (width : Nat) : Reader Nat := do
  let bytes ← take width
  pure (fromLeBytes bytes)

/-- The reader accepts what the writer writes for a value of `D`, and nothing else. -/
def CodesOn {α : Type} (D : α → Prop) (put : α → Chunk) (r : Reader α) : Prop :=
  ∀ input a rest, r input = some (a, rest) ↔ D a ∧ ∃ bytes, put a = some bytes ∧
    input = bytes ++ rest

variable {α β γ : Type}
variable {input : Bytes}

lemma bind_eq_some {r : Reader α} {k : α → Reader β} {out : β × Bytes} :
    (r >>= k) input = some out ↔ ∃ a rest, r input = some (a, rest) ∧ k a rest = some out := by
  have hbind : (r >>= k) input = (r input).bind fun p => k p.1 p.2 := rfl
  rw [hbind, bind_eq_some_iff]
  constructor
  · rintro ⟨⟨a, rest⟩, ha, hk⟩
    exact ⟨a, rest, ha, hk⟩
  · rintro ⟨a, rest, ha, hk⟩
    exact ⟨(a, rest), ha, hk⟩

lemma pure_eq_some {a c : α} {rest : Bytes} :
    (pure a : Reader α) input = some (c, rest) ↔ c = a ∧ input = rest := by
  show some (a, input) = some (c, rest) ↔ _
  simp [eq_comm]

lemma lift_eq_some {x : Option α} {c : α} {rest : Bytes} :
    (liftM x : Reader α) input = some (c, rest) ↔ x = some c ∧ input = rest := by
  cases x with
  | none =>
    constructor
    · intro h
      cases h
    · rintro ⟨h, -⟩
      cases h
  | some a =>
    show some (a, input) = some (c, rest) ↔ _
    simp

namespace CodesOn
variable {D P : α → Prop} {put : α → Chunk} {r : Reader α}

lemma congr {D' : α → Prop} (h : CodesOn D put r) (hD : ∀ a, D' a ↔ D a) : CodesOn D' put r := by
  intro input a rest
  rw [h input a rest, hD a]

lemma read (h : CodesOn D put r) {a : α} {bytes : Bytes} (ha : D a) (hp : put a = some bytes)
    (rest : Bytes) : r (bytes ++ rest) = some (a, rest) :=
  (h _ a rest).mpr ⟨ha, bytes, hp, rfl⟩

variable (h : CodesOn P put r)
include h

/-- One field of a record: `E` holds what earlier fields were read as. -/
lemma field {E : γ → Prop} {D : α → γ → Prop} {π : γ → α} {putRest : γ → Chunk} {k : α → Reader γ}
    (hk : ∀ a, CodesOn (fun c => (E c ∧ π c = a) ∧ D a c) putRest (k a)) :
    CodesOn (fun c => E c ∧ P (π c) ∧ D (π c) c) (fun c => put (π c) >> putRest c) (r >>= k) := by
  intro input c rest
  rw [bind_eq_some]
  constructor
  · rintro ⟨a, middle, hr, hc⟩
    obtain ⟨ha, bytes, hput, rfl⟩ := (h _ _ _).mp hr
    obtain ⟨⟨⟨hE, rfl⟩, hD⟩, bytes', hput', rfl⟩ := (hk a _ _ _).mp hc
    exact ⟨⟨hE, ha, hD⟩, bytes ++ bytes', andThen_eq_some.mpr ⟨_, _, hput, hput', rfl⟩,
      (append_assoc _ _ _).symm⟩
  · rintro ⟨⟨hE, ha, hD⟩, bytes, hput, rfl⟩
    obtain ⟨first, second, hfirst, hsecond, rfl⟩ := andThen_eq_some.mp hput
    refine ⟨π c, second ++ rest, ?_, (hk (π c)).read ⟨⟨hE, rfl⟩, hD⟩ hsecond rest⟩
    rw [append_assoc]
    exact h.read ha hfirst (second ++ rest)

lemma last {E : γ → Prop} {π : γ → α} {mk : α → γ} (hmk : ∀ a c, (E c ∧ π c = a) ↔ c = mk a) :
    CodesOn (fun c => E c ∧ P (π c)) (fun c => put (π c)) (do let a ← r; pure (mk a)) := by
  intro input c rest
  rw [bind_eq_some]
  constructor
  · rintro ⟨a, middle, hr, hc⟩
    obtain ⟨rfl, rfl⟩ := pure_eq_some.mp hc
    obtain ⟨ha, bytes, hput, rfl⟩ := (h _ _ _).mp hr
    obtain ⟨hE, he⟩ := (hmk a (mk a)).mpr rfl
    refine ⟨⟨hE, ?_⟩, bytes, ?_, rfl⟩
    · rwa [he]
    · show put (π (mk a)) = some bytes
      rwa [he]
  · rintro ⟨⟨hE, ha⟩, bytes, hput, rfl⟩
    exact ⟨π c, rest, h.read ha hput rest, pure_eq_some.mpr ⟨(hmk _ c).mp ⟨hE, rfl⟩, rfl⟩⟩

/-- A format seen through a partial conversion of the values read. -/
lemma convert {Q : γ → Prop} {f : α → Option γ} {g : γ → α}
    (hfg : ∀ a c, (P a ∧ f a = some c) ↔ (Q c ∧ g c = a)) :
    CodesOn Q (fun c => put (g c)) (do let a ← r; f a) := by
  intro input c rest
  rw [bind_eq_some]
  constructor
  · rintro ⟨a, middle, hr, hc⟩
    obtain ⟨hf, rfl⟩ := lift_eq_some.mp hc
    obtain ⟨ha, bytes, hput, rfl⟩ := (h _ _ _).mp hr
    obtain ⟨hQ, rfl⟩ := (hfg a c).mp ⟨ha, hf⟩
    exact ⟨hQ, bytes, hput, rfl⟩
  · rintro ⟨hQ, bytes, hput, rfl⟩
    obtain ⟨ha, hf⟩ := (hfg (g c) c).mpr ⟨hQ, rfl⟩
    exact ⟨g c, rest, h.read ha hput rest, lift_eq_some.mpr ⟨hf, rfl⟩⟩

lemma times {n : Nat} :
    CodesOn (fun xs => xs.length = n ∧ ∀ x ∈ xs, P x) (fun xs => concat (xs.map put))
      (times n r) := by
  induction n with
  | zero =>
    intro input xs rest
    rw [Base.times, pure_eq_some]
    constructor
    · rintro ⟨rfl, rfl⟩
      exact ⟨⟨rfl, by simp⟩, [], rfl, rfl⟩
    · rintro ⟨⟨hlen, -⟩, bytes, hput, rfl⟩
      obtain rfl := length_eq_zero_iff.mp hlen
      rw [← some.inj hput]
      exact ⟨rfl, rfl⟩
  | succ n ih =>
    intro input xs rest
    rw [Base.times, bind_eq_some]
    constructor
    · rintro ⟨x, middle, hx, hxs⟩
      obtain ⟨ys, last, hys, hlast⟩ := bind_eq_some.mp hxs
      obtain ⟨rfl, rfl⟩ := pure_eq_some.mp hlast
      obtain ⟨hP, bytes, hput, rfl⟩ := (h _ _ _).mp hx
      obtain ⟨⟨hlen, hall⟩, bytes', hput', rfl⟩ := (ih _ _ _).mp hys
      refine ⟨⟨by rw [length_cons, hlen], ?_⟩, bytes ++ bytes', ?_, by simp⟩
      · exact forall_mem_cons.mpr ⟨hP, hall⟩
      · exact andThen_eq_some.mpr ⟨_, _, hput, hput', rfl⟩
    · rintro ⟨⟨hlen, hall⟩, bytes, hput, rfl⟩
      cases xs with
      | nil => cases hlen
      | cons x xs =>
        rw [forall_mem_cons] at hall
        obtain ⟨first, second, hfirst, hsecond, rfl⟩ := andThen_eq_some.mp hput
        have hrest := ih.read ⟨succ.inj hlen, hall.2⟩ hsecond rest
        refine ⟨x, second ++ rest, ?_, bind_eq_some.mpr ⟨xs, rest, hrest, rfl⟩⟩
        rw [append_assoc]
        exact h.read hall.1 hfirst (second ++ rest)

end CodesOn

lemma codes_take (len : Nat) : CodesOn (·.length = len) some (take len) := by
  intro input bytes rest
  constructor
  · intro h
    rw [take] at h
    split at h
    · rename_i hle
      cases h
      exact ⟨length_take_of_le hle, _, rfl, (take_append_drop len input).symm⟩
    · cases h
  · rintro ⟨rfl, _, hb, rfl⟩
    cases hb
    rw [take, if_pos (by simp), take_left, drop_left]

lemma codes_tag : CodesOn (fun _ => True) (fun byte => some [byte]) tag := by
  intro input byte rest
  cases input with
  | nil | cons first input => simp [tag]

lemma codes_tagged {value : UInt8 → Option α} {byteOf : α → UInt8}
    (h : ∀ byte a, value byte = some a ↔ byteOf a = byte) :
    CodesOn (fun _ => True) (fun a => some [byteOf a]) (tagged value) :=
  codes_tag.convert fun byte a => by rw [true_and, true_and, h]

/-! Readers that convert what another reader reads. -/

def Converts (f : α → Option β) (r : Reader α) (r' : Reader β) : Prop :=
  ∀ input b rest, r' input = some (b, rest) ↔ ∃ a, r input = some (a, rest) ∧ f a = some b

namespace Converts
variable {f : α → Option β} {r : Reader α} {r' : Reader β}

lemma bind {k : γ → Reader α} {k' : γ → Reader β} (first : Reader γ)
    (h : ∀ c, Converts f (k c) (k' c)) : Converts f (first >>= k) (first >>= k') := by
  intro input b rest
  rw [bind_eq_some]
  constructor
  · rintro ⟨c, middle, hfirst, hk⟩
    obtain ⟨a, ha, hf⟩ := (h c _ _ _).mp hk
    exact ⟨a, bind_eq_some.mpr ⟨c, middle, hfirst, ha⟩, hf⟩
  · rintro ⟨a, hread, hf⟩
    obtain ⟨c, middle, hfirst, ha⟩ := bind_eq_some.mp hread
    exact ⟨c, middle, hfirst, (h c _ _ _).mpr ⟨a, ha, hf⟩⟩

lemma times (n : Nat) (h : Converts f r r') : Converts (List.mapM f) (times n r) (times n r') := by
  induction n with
  | zero =>
    intro input ys rest
    rw [Base.times, pure_eq_some]
    constructor
    · rintro ⟨rfl, rfl⟩
      exact ⟨[], rfl, rfl⟩
    · rintro ⟨xs, hxs, hf⟩
      obtain ⟨rfl, rfl⟩ := pure_eq_some.mp hxs
      exact ⟨(some.inj hf).symm, rfl⟩
  | succ n ih =>
    intro input ys rest
    rw [Base.times, bind_eq_some]
    constructor
    · rintro ⟨y, middle, hy, hloop⟩
      obtain ⟨ys', last, hys, hlast⟩ := bind_eq_some.mp hloop
      obtain ⟨rfl, rfl⟩ := pure_eq_some.mp hlast
      obtain ⟨x, hx, hfx⟩ := (h _ _ _).mp hy
      obtain ⟨xs, hxs, hfxs⟩ := (ih _ _ _).mp hys
      refine ⟨x :: xs, ?_, ?_⟩
      · exact bind_eq_some.mpr ⟨x, middle, hx, bind_eq_some.mpr ⟨xs, last, hxs, rfl⟩⟩
      · rw [mapM_cons, hfx, hfxs]
        rfl
    · rintro ⟨xs, hxs, hf⟩
      obtain ⟨x, middle, hx, hloop⟩ := bind_eq_some.mp hxs
      obtain ⟨xs', last, hxs', hlast⟩ := bind_eq_some.mp hloop
      obtain ⟨rfl, rfl⟩ := pure_eq_some.mp hlast
      rw [mapM_cons, bind_eq_bind, bind_eq_some_iff] at hf
      obtain ⟨y, hfx, hf⟩ := hf
      rw [bind_eq_bind, bind_eq_some_iff] at hf
      obtain ⟨ys', hfxs, hf⟩ := hf
      cases hf
      exact ⟨y, middle, (h _ _ _).mpr ⟨x, hx, hfx⟩,
        bind_eq_some.mpr ⟨ys', last, (ih _ _ _).mpr ⟨xs', hxs', hfxs⟩, rfl⟩⟩

end Converts

lemma mapM_eq_some {f : α → Option β} {xs : List α} {ys : List β} :
    xs.mapM f = some ys ↔ List.Forall₂ (fun a b => f a = some b) xs ys := by
  induction xs generalizing ys with
  | nil =>
    rw [forall₂_nil_left_iff]
    exact ⟨fun h => (some.inj h).symm, fun h => h ▸ rfl⟩
  | cons x xs ih =>
    simp only [mapM_cons, bind_eq_bind, bind_eq_some_iff,
      List.forall₂_cons_left_iff, ih, Option.pure_def, Option.some.injEq]
    constructor
    · rintro ⟨y, hx, ys, hxs, rfl⟩
      exact ⟨y, ys, hx, hxs, rfl⟩
    · rintro ⟨y, ys, hx, hxs, rfl⟩
      exact ⟨y, hx, ys, hxs, rfl⟩

lemma exists_of_forall₂ {R : α → β → Prop} {xs : List α} {ys : List β}
    (h : List.Forall₂ R xs ys) : ∀ y ∈ ys, ∃ x ∈ xs, R x y := by
  induction h with
  | nil => simp
  | cons hxy _ ih =>
    refine forall_mem_cons.mpr ⟨⟨_, mem_cons_self, hxy⟩, fun y hy => ?_⟩
    obtain ⟨x, hx, hr⟩ := ih y hy
    exact ⟨x, mem_cons_of_mem _ hx, hr⟩

/-! Whether a value can be written, and in how many bytes. -/

lemma isSome_andThen (x y : Chunk) : (x >> y).isSome ↔ x.isSome ∧ y.isSome := by
  simp only [isSome_iff_exists, andThen_eq_some]
  constructor
  · rintro ⟨_, a, b, hx, hy, -⟩
    exact ⟨⟨a, hx⟩, b, hy⟩
  · rintro ⟨⟨a, hx⟩, b, hy⟩
    exact ⟨_, a, b, hx, hy, rfl⟩

lemma isSome_concat (xs : List Chunk) : (concat xs).isSome ↔ ∀ x ∈ xs, x.isSome := by
  induction xs with
  | nil => simp [concat]
  | cons x xs ih => rw [concat, isSome_andThen, ih, forall_mem_cons]

/-- Equally long chunks, or both impossible. -/
def SameSize (x y : Chunk) : Prop := x.map List.length = y.map List.length

namespace SameSize
variable {x x' y y' : Chunk}

lemma refl (x : Chunk) : SameSize x x := Eq.refl _

lemma trans {z : Chunk} (h : SameSize x y) (h' : SameSize y z) : SameSize x z := Eq.trans h h'

lemma map_length_andThen (x y : Chunk) : (x >> y).map List.length =
      (x.map List.length).bind fun n => (y.map List.length).map (n + ·) := by
  cases x with
  | none => rfl
  | some a =>
    cases y with
    | none => rfl
    | some b => exact congrArg some length_append

lemma andThen (h : SameSize x x') (h' : SameSize y y') : SameSize (x >> y) (x' >> y') := by
  rw [SameSize, map_length_andThen, map_length_andThen, h, h']

lemma concat_map {put : α → Chunk} {xs ys : List α}
    (h : List.Forall₂ (fun a b => SameSize (put a) (put b)) xs ys) :
    SameSize (concat (xs.map put)) (concat (ys.map put)) := by
  induction h with
  | nil => exact refl _
  | cons hab _ ih => exact hab.andThen ih

lemma concat_perm {xs ys : List Chunk} (h : xs.Perm ys) : SameSize (concat xs) (concat ys) := by
  induction h with
  | nil => exact refl _
  | cons x _ ih => exact (refl x).andThen ih
  | swap x y l =>
    rw [SameSize]
    simp only [concat, map_length_andThen]
    cases x.map length with
    | none => cases y.map length <;> rfl
    | some n =>
      cases y.map length with
      | none => rfl
      | some m =>
        cases (concat l).map length with
        | none => rfl
        | some k => simp [add_left_comm]
  | trans _ _ ih ih' => exact ih.trans ih'

end SameSize

/-! Numbers, least significant byte first. -/

@[simp] lemma length_toLeBytes (width n : Nat) : (toLeBytes width n).length = width := by
  induction width generalizing n with
  | zero => rfl
  | succ width ih => rw [toLeBytes, length_cons, ih]

lemma fromLeBytes_toLeBytes {width n : Nat} (h : n < 256 ^ width) :
    fromLeBytes (toLeBytes width n) = n := by
  induction width generalizing n with
  | zero =>
    rw [toLeBytes, fromLeBytes]
    omega
  | succ width ih =>
    have hdiv : n / 256 < 256 ^ width := Nat.div_lt_of_lt_mul (by rwa [Nat.pow_succ'] at h)
    rw [toLeBytes, fromLeBytes, ih hdiv, UInt8.toNat_ofNat']
    omega

lemma toLeBytes_fromLeBytes (bytes : Bytes) :
    toLeBytes bytes.length (fromLeBytes bytes) = bytes := by
  induction bytes with
  | nil => rfl
  | cons byte bytes ih =>
    have hlt := byte.toNat_lt
    have hdiv : (byte.toNat + 256 * fromLeBytes bytes) / 256 = fromLeBytes bytes := by omega
    have hbyte : UInt8.ofNat (byte.toNat + 256 * fromLeBytes bytes) = byte := by
      apply UInt8.toNat_inj.mp
      rw [UInt8.toNat_ofNat']
      omega
    rw [length_cons, fromLeBytes, toLeBytes, hdiv, hbyte, ih]

lemma fromLeBytes_lt (bytes : Bytes) : fromLeBytes bytes < 256 ^ bytes.length := by
  induction bytes with
  | nil => decide
  | cons byte bytes ih =>
    have hlt := byte.toNat_lt
    rw [fromLeBytes, length_cons]
    omega

lemma codes_word (width : Nat) :
    CodesOn (· < 256 ^ width) (fun n => some (toLeBytes width n)) (word width) := by
  refine (codes_take width).convert (f := fun bytes => some (fromLeBytes bytes)) ?_
  intro bytes n
  rw [some.injEq]
  constructor
  · rintro ⟨rfl, rfl⟩
    exact ⟨fromLeBytes_lt bytes, toLeBytes_fromLeBytes bytes⟩
  · rintro ⟨hn, rfl⟩
    exact ⟨length_toLeBytes width n, fromLeBytes_toLeBytes hn⟩

end CriKey.Base
