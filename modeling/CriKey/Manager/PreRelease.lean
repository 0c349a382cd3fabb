import CriKey.Manager.Resolve

/-! Pre-releases of one release: which spellings are read, and whether the order is the
published one. -/
namespace CriKey.Manager
open CriKey.Base List Option Nat Ordering Except
open CriKey.Core (trim isWhitespace)

/-! ### Spellings -/

inductive Label where
  | dev
  | a
  | alpha
  | b
  | beta
  | c
  | rc
  | pre
  | preview
  | final
  | post
deriving DecidableEq, Repr

def Label.text : Label → String
  | .dev => "dev"
  | .a => "a"
  | .alpha => "alpha"
  | .b => "b"
  | .beta => "beta"
  | .c => "c"
  | .rc => "rc"
  | .pre => "pre"
  | .preview => "preview"
  | .final => ""
  | .post => "post"

/-- Development releases, the alpha, beta and candidate classes, the release itself, and what
comes after it. -/
def Label.stage : Label → Nat
  | .dev => 0
  | .a | .alpha => 1
  | .b | .beta => 2
  | .c | .rc | .pre | .preview => 3
  | .final => 4
  | .post => 5

def Label.dots : Label → List Char
  | .dev | .post => ['.']
  | _ => []

def Label.tail (n : Nat) : Label → List Char
  | .final => []
  | l => l.text.toList ++ Nat.toDigits 10 n

def dotted (r : List Nat) : List Char := ['.'].intercalate (r.map (Nat.toDigits 10))

def spelled (r : List Nat) (l : Label) (n : Nat) : String :=
  String.ofList (dotted r ++ l.dots ++ l.tail n)

/-- The published order of two versions of one release. -/
def publishedOrder (l₁ : Label) (n₁ : Nat) (l₂ : Label) (n₂ : Nat) : Ordering :=
  (compare l₁.stage l₂.stage).then (if l₁ = .final then .eq else compare n₁ n₂)

/-- What the spelling of a version is read as. -/
def versionOf (r : List Nat) (n : Nat) : Label → Version
  | .dev => ⟨0, r, none, none, some n⟩
  | .post => ⟨0, r, none, some n, none⟩
  | .final => ⟨0, r, none, none, none⟩
  | l => ⟨0, r, some [.text l.text, .numeric n], none, none⟩

/-! ### Reading a release -/

def isVersionChar (c : Char) : Bool := c.isAlphanum || c = '.'

variable {c : Char}

lemma not_whitespace_of_versionChar (h : isVersionChar c = true) : isWhitespace c = false := by
  have hrange : (65 ≤ c.toNat ∧ c.toNat ≤ 90) ∨ (97 ≤ c.toNat ∧ c.toNat ≤ 122) ∨
      (48 ≤ c.toNat ∧ c.toNat ≤ 57) ∨ c.toNat = 46 := by
    simp only [isVersionChar, Char.isAlphanum, Char.isAlpha, Char.isUpper, Char.isLower,
      Char.isDigit, Bool.or_eq_true, Bool.and_eq_true, decide_eq_true_eq] at h
    obtain ((h | h) | h) | rfl := h
    · exact .inl h
    · exact .inr (.inl h)
    · exact .inr (.inr (.inl h))
    · exact .inr (.inr (.inr rfl))
  simp only [isWhitespace, Bool.or_eq_false_iff, Bool.and_eq_false_iff,
    decide_eq_false_iff_not, beq_eq_false_iff_ne]
  omega

lemma trim_of_versionChars {text : List Char} (h : ∀ c ∈ text, isVersionChar c = true) :
    trim (String.ofList text) = String.ofList text := by
  have hdrop : ∀ xs : List Char, (∀ c ∈ xs, c ∈ text) → xs.dropWhile isWhitespace = xs := by
    intro xs hxs
    cases xs with
    | nil => rfl
    | cons c xs =>
      have hc := not_whitespace_of_versionChar (h c (hxs c mem_cons_self))
      simp [hc]
  rw [trim, String.toList_ofList, hdrop text fun _ hc => hc,
    hdrop text.reverse fun _ hc => mem_reverse.mp hc, reverse_reverse]

lemma splitOnce_eq_none {text : List Char} (h : c ∉ text) : splitOnce c text = none := by
  have hdrop : text.dropWhile (· ≠ c) = [] := by
    rw [dropWhile_eq_nil_iff]
    intro x hx
    have hne : x ≠ c := fun heq => h (heq ▸ hx)
    simp [hne]
  simp only [splitOnce, hdrop]

variable {n : Nat}

lemma isDigit_of_mem_digits (h : c ∈ Nat.toDigits 10 n) : c.isDigit = true :=
  isDigit_of_mem_toDigits (by omega) (by omega) h

variable {r : List Nat}

lemma isReleaseChar_of_mem_dotted (h : c ∈ dotted r) : isReleaseChar c = true := by
  cases r with
  | nil => simp [dotted] at h
  | cons x r =>
    rw [dotted, map_cons, intercalate_cons, mem_append, mem_flatMap] at h
    obtain hfirst | ⟨part, hpart, hc⟩ := h
    · simp [isReleaseChar, isDigit_of_mem_digits hfirst]
    obtain ⟨y, -, rfl⟩ := mem_map.mp hpart
    cases mem_cons.mp hc with
    | inl heq => simp [isReleaseChar, heq]
    | inr hmem => simp [isReleaseChar, isDigit_of_mem_digits hmem]

section
variable (hr : r ≠ [])
include hr

lemma dotted_head : ∃ c rest, c.isDigit = true ∧ dotted r = c :: rest := by
  obtain ⟨x, r, rfl⟩ := exists_cons_of_ne_nil hr
  obtain ⟨c, rest, hdigits⟩ := exists_cons_of_ne_nil (toDigits_ne_nil (b := 10) (n := x))
  refine ⟨c, rest ++ (r.map (toDigits 10)).flatMap ('.' :: ·),
    isDigit_of_mem_digits (n := x) (hdigits ▸ mem_cons_self), ?_⟩
  rw [dotted, map_cons, intercalate_cons, hdigits, cons_append]

lemma dotted_last : ∃ c rest, c.isDigit = true ∧ (dotted r).reverse = c :: rest := by
  obtain ⟨r, x, rfl⟩ := eq_nil_or_concat r |>.resolve_left hr
  obtain ⟨c, rest, hdigits⟩ :=
    exists_cons_of_ne_nil (mt reverse_eq_nil_iff.mp (toDigits_ne_nil (b := 10) (n := x)))
  have hc : c.isDigit = true := by
    refine isDigit_of_mem_digits (n := x) ?_
    rw [← mem_reverse, hdigits]
    exact mem_cons_self
  cases r with
  | nil =>
    refine ⟨c, rest, hc, ?_⟩
    rw [dotted]
    simpa using hdigits
  | cons y r =>
    have hsplit : dotted (y :: r ++ [x]) =
        toDigits 10 y ++ (r.map (toDigits 10)).flatMap ('.' :: ·) ++ '.' :: toDigits 10 x := by
      rw [dotted, cons_append, map_cons, intercalate_cons, map_append]
      simp
    refine ⟨c, rest ++ ['.'] ++
      (toDigits 10 y ++ (r.map (toDigits 10)).flatMap ('.' :: ·)).reverse, hc, ?_⟩
    rw [concat_eq_append, hsplit, reverse_append, reverse_cons, hdigits, cons_append, cons_append]

lemma trimEndDots_dotted {dots : List Char} (hdots : ∀ c ∈ dots, c = '.') :
    trimEndDots (dotted r ++ dots) = dotted r := by
  obtain ⟨c, rest, hc, hlast⟩ := dotted_last hr
  have hdrop : dots.reverse.dropWhile (· = '.') = [] := by
    rw [dropWhile_eq_nil_iff]
    intro x hx
    simpa using hdots x (mem_reverse.mp hx)
  have hne : c ≠ '.' := by
    rintro rfl
    exact absurd hc (by decide)
  rw [trimEndDots, reverse_append, dropWhile_append, hdrop, isEmpty_nil,
    if_pos rfl, hlast, dropWhile_cons_of_neg (by simpa using hne), ← hlast, reverse_reverse]

lemma releases_dotted (hbound : ∀ x ∈ r, x < 2 ^ 64) :
    ((dotted r).splitOn '.').mapM releaseSegment = .ok r := by
  have hsplit : (dotted r).splitOn '.' = r.map (toDigits 10) := by
    refine splitOn_intercalate _ ?_ (by simpa using hr)
    intro part hpart hmem
    obtain ⟨x, -, rfl⟩ := mem_map.mp hpart
    exact absurd (isDigit_of_mem_digits hmem) (by decide)
  rw [hsplit]
  clear hsplit hr
  induction r with
  | nil => rfl
  | cons x r ih =>
    have hx : releaseSegment (toDigits 10 x) = .ok x := by
      simp only [releaseSegment, toDigits_ne_nil, if_false,
        parseUnsigned_toDigits (hbound x mem_cons_self)]
    have hrest := ih fun y hy => hbound y (mem_cons_of_mem _ hy)
    rw [map_cons, mapM_cons, hx, hrest]
    rfl

lemma parseVersion_dotted (hbound : ∀ x ∈ r, x < 2 ^ 64) {dots tail : List Char}
    (hdots : ∀ c ∈ dots, c = '.') (htail : ∀ c ∈ tail, c.isAlphanum = true)
    (hhead : tail.head?.all (!isReleaseChar ·) = true) :
    parseVersion (String.ofList (dotted r ++ dots ++ tail)) =
      (parseSuffix tail false).map fun suffix => ⟨0, r, suffix.1, suffix.2.1, suffix.2.2⟩ := by
  have hrelease : ∀ c ∈ dotted r ++ dots, isReleaseChar c = true := by
    intro c hc
    cases mem_append.mp hc with
    | inl hc => exact isReleaseChar_of_mem_dotted hc
    | inr hc => simp [isReleaseChar, hdots c hc]
  have hchars : ∀ c ∈ dotted r ++ dots ++ tail, isVersionChar c = true := by
    intro c hc
    cases mem_append.mp hc with
    | inl hc =>
      have := hrelease c hc
      simp only [isReleaseChar, Bool.or_eq_true] at this
      cases this with
      | inl hdigit => simp [isVersionChar, Char.isAlphanum, hdigit]
      | inr hdot => simp [isVersionChar, hdot]
    | inr hc => simp [isVersionChar, htail c hc]
  have hnot : ∀ d, isVersionChar d = false → splitOnce d (dotted r ++ dots ++ tail) = none :=
    fun d hd => splitOnce_eq_none fun hmem => by simp [hchars d hmem] at hd
  obtain ⟨c, rest, hc, hfirst⟩ := dotted_head hr
  have hV : dropV (dotted r ++ dots ++ tail) = dotted r ++ dots ++ tail := by
    rw [hfirst, dropV]
    rintro _ heq
    rw [(cons.inj heq).1] at hc
    exact absurd hc (by decide)
  have hnotNil : tail.dropWhile isReleaseChar = tail ∧ tail.takeWhile isReleaseChar = [] := by
    cases tail with
    | nil => exact ⟨rfl, rfl⟩
    | cons c tail =>
      have hstop : isReleaseChar c = false := by simpa using hhead
      simp [hstop]
  have htake : (dotted r ++ dots ++ tail).takeWhile isReleaseChar = dotted r ++ dots := by
    rw [takeWhile_append_of_pos hrelease, hnotNil.2, append_nil]
  have hdropped : (dotted r ++ dots ++ tail).dropWhile isReleaseChar = tail := by
    rw [dropWhile_append_of_pos hrelease, hnotNil.1]
  have hne : dotted r ≠ [] := by simp [hfirst]
  have htext : dotted r ++ dots ++ tail ≠ [] := by simp [hne]
  unfold parseVersion
  simp only [trim_of_versionChars hchars, String.toList_ofList, htext, publicPart,
    epochPart, hnot '+' rfl, hnot '-' rfl, hnot '!' rfl, hV, htake, hdropped,
    trimEndDots_dotted hr hdots, hne, releases_dotted hr hbound, bind, Except.bind, pure,
    Except.pure]
  cases tail <;> rw [isSome_none] <;> cases parseSuffix _ false <;> rfl

end

/-! ### Reading a suffix -/

lemma toLower_of_isDigit (h : c.isDigit = true) : c.toLower = c := by
  have hupper : ¬ (c.val ≥ 'A'.val ∧ c.val ≤ 'Z'.val) := by
    simp only [Char.isDigit, Bool.and_eq_true, decide_eq_true_eq, UInt32.le_iff_toNat_le] at h ⊢
    have h9 : '9'.val.toNat = 57 := rfl
    have hA : 'A'.val.toNat = 65 := rfl
    omega
  rw [Char.toLower, dif_neg hupper]

lemma map_toLower_digits (n : Nat) : (Nat.toDigits 10 n).map Char.toLower = Nat.toDigits 10 n :=
  (map_congr_left fun _ hc => toLower_of_isDigit (isDigit_of_mem_digits hc)).trans (map_id _)

lemma map_toLower_spelled (l : Label) (n : Nat) :
    (l.text.toList ++ Nat.toDigits 10 n).map Char.toLower = l.text.toList ++ Nat.toDigits 10 n := by
  have hletters : l.text.toList.map Char.toLower = l.text.toList := by cases l <;> decide
  rw [map_append, map_toLower_digits, hletters]

lemma suffixNumber_digits (hn : n < 2 ^ 64) : suffixNumber (Nat.toDigits 10 n) = .ok n := by
  simp only [suffixNumber, toDigits_ne_nil, if_false, parseUnsigned_toDigits hn]

lemma preParts_label {label : List Char} (hne : label ≠ [])
    (hlabel : ∀ c ∈ label, c.isDigit = false) (hn : n < 2 ^ 64) :
    preParts (label ++ Nat.toDigits 10 n) = .ok [.text (String.ofList label), .numeric n] := by
  obtain ⟨d, ds, hdigits⟩ := exists_cons_of_ne_nil (toDigits_ne_nil (b := 10) (n := n))
  have hd : d.isDigit = true := isDigit_of_mem_digits (n := n) (hdigits ▸ mem_cons_self)
  have hletters : ∀ c ∈ label, (!c.isDigit) = true := fun c hc => by simp [hlabel c hc]
  have htake : (label ++ toDigits 10 n).takeWhile (!Char.isDigit ·) = label := by
    rw [takeWhile_append_of_pos hletters, hdigits]
    simp [hd]
  have hdrop : (label ++ toDigits 10 n).dropWhile (!Char.isDigit ·) = toDigits 10 n := by
    rw [dropWhile_append_of_pos hletters, hdigits]
    simp [hd]
  have hall : (toDigits 10 n).all Char.isDigit = true :=
    all_eq_true.mpr fun _ => isDigit_of_mem_digits
  have hnot : (label ++ toDigits 10 n).all Char.isDigit = false := by
    obtain ⟨c, label, rfl⟩ := exists_cons_of_ne_nil hne
    simp [hlabel c mem_cons_self]
  have hnumber : preNumber (toDigits 10 n) = .ok (.numeric n) := by
    simp only [preNumber, parseUnsigned_toDigits hn]
  simp [preParts, htake, hdrop, hall, hnot, hnumber, Except.map]

/-- The labels that are read as pre-releases: all but those an earlier attempt takes. -/
def Label.isPre : Label → Bool
  | .a | .alpha | .b | .beta | .c | .pre | .preview => true
  | _ => false

lemma stripLabel_self (label : String) (rest : List Char) :
    stripLabel label (label.toList ++ rest) = some rest :=
  dropPrefix?_append_of_beq rest (beq_self_eq_true _)

variable {l : Label}

lemma parseSuffix_pre (hl : l.isPre = true) (hn : n < 2 ^ 64) :
    parseSuffix (l.text.toList ++ Nat.toDigits 10 n) false =
      .ok (some [.text l.text, .numeric n], none, none) := by
  have hne : l.text.toList ≠ [] := by
    revert hl
    cases l <;> decide
  have hearlier : (numberedSuffixes.findSome? fun entry =>
      (stripLabel entry.1 (l.text.toList ++ toDigits 10 n)).map fun number =>
        (number, entry.2)) = none := by
    cases l <;> first | exact absurd hl (by decide) | rfl
  have hknown : (preLabels.any fun label =>
      (stripLabel label (l.text.toList ++ toDigits 10 n)).any fun rest =>
        rest.all Char.isDigit) = true := by
    refine any_eq_true.mpr ⟨l.text, ?_, ?_⟩
    · revert hl
      cases l <;> decide
    · rw [stripLabel_self, any_some]
      exact all_eq_true.mpr fun _ => isDigit_of_mem_digits
  have hsplit : (l.text.toList ++ toDigits 10 n).splitOn '.' =
      [l.text.toList ++ toDigits 10 n] := by
    refine splitOn_of_notMem ?_
    rw [mem_append, not_or]
    exact ⟨by cases l <;> decide, fun hmem => absurd (isDigit_of_mem_digits hmem) (by decide)⟩
  have hletters : l.text.toList.all (!Char.isDigit ·) = true := by cases l <;> rfl
  have hparts := preParts_label hne (by simpa using hletters) hn
  rw [String.ofList_toList] at hparts
  rw [parseSuffix, if_neg (by simp [hne])]
  simp only [map_toLower_spelled, hearlier, hknown, hsplit, mapM_cons, hparts]
  rfl

lemma parseSuffix_taken {number : List Char} {isPost : Bool} (hne : l.text.toList ≠ [])
    (htaken : (numberedSuffixes.findSome? fun entry =>
      (stripLabel entry.1 (l.text.toList ++ Nat.toDigits 10 n)).map fun number =>
        (number, entry.2)) = some (number, isPost)) :
    parseSuffix (l.text.toList ++ Nat.toDigits 10 n) false = (suffixNumber number).map fun value =>
        if isPost then (none, some value, none) else (none, none, some value) := by
  rw [parseSuffix, if_neg (by simp [hne])]
  simp only [map_toLower_spelled, htaken]
  cases suffixNumber number <;> rfl

lemma parseSuffix_dev (hn : n < 2 ^ 64) :
    parseSuffix (Label.dev.text.toList ++ Nat.toDigits 10 n) false = .ok (none, none, some n) := by
  have hself := stripLabel_self "dev" (toDigits 10 n)
  have htaken : (numberedSuffixes.findSome? fun entry =>
      (stripLabel entry.1 ("dev".toList ++ toDigits 10 n)).map fun number =>
        (number, entry.2)) = some (toDigits 10 n, false) := by
    have hpost : stripLabel "post" ("dev".toList ++ toDigits 10 n) = none := rfl
    have hrev : stripLabel "rev" ("dev".toList ++ toDigits 10 n) = none := rfl
    have hr : stripLabel "r" ("dev".toList ++ toDigits 10 n) = none := rfl
    simp only [numberedSuffixes, findSome?_cons, hpost, hrev, hr, hself, map_none, map_some]
  rw [parseSuffix_taken (l := .dev) (by decide) htaken, suffixNumber_digits hn]
  rfl

lemma parseSuffix_post (hn : n < 2 ^ 64) :
    parseSuffix (Label.post.text.toList ++ Nat.toDigits 10 n) false = .ok (none, some n, none) := by
  have hself := stripLabel_self "post" (toDigits 10 n)
  have htaken : (numberedSuffixes.findSome? fun entry =>
      (stripLabel entry.1 ("post".toList ++ toDigits 10 n)).map fun number =>
        (number, entry.2)) = some (toDigits 10 n, true) := by
    simp only [numberedSuffixes, findSome?_cons, hself, map_some]
  rw [parseSuffix_taken (l := .post) (by decide) htaken, suffixNumber_digits hn]
  rfl

lemma parseSuffix_rc (n : Nat) : parseSuffix (Label.rc.text.toList ++ Nat.toDigits 10 n) false =
      .error "suffix number is not a valid integer" := by
  rfl

/-! ### Reading a spelling -/

lemma Label.dots_eq : ∀ c ∈ l.dots, c = '.' := by
  cases l <;> simp [Label.dots]

lemma Label.tail_eq (hl : l ≠ .final) (n : Nat) :
    l.tail n = l.text.toList ++ Nat.toDigits 10 n := by
  cases l <;> first | exact absurd rfl hl | rfl

lemma Label.tail_alphanum : ∀ c ∈ l.tail n, c.isAlphanum = true := by
  by_cases hl : l = .final
  · subst hl
    simp [Label.tail]
  intro c hc
  rw [Label.tail_eq hl, mem_append] at hc
  cases hc with
  | inl hc =>
    have hletters : l.text.toList.all Char.isAlphanum = true := by cases l <;> rfl
    exact all_eq_true.mp hletters c hc
  | inr hc => simp [Char.isAlphanum, isDigit_of_mem_digits hc]

lemma Label.tail_head : (l.tail n).head?.all (!isReleaseChar ·) = true := by
  cases l <;> rfl

section
variable (hr : r ≠ []) (hbound : ∀ x ∈ r, x < 2 ^ 64)
include hr hbound

lemma parseVersion_spelled (l : Label) (n : Nat) : parseVersion (spelled r l n) =
      (parseSuffix (l.tail n) false).map fun suffix => ⟨0, r, suffix.1, suffix.2.1, suffix.2.2⟩ :=
  parseVersion_dotted hr hbound Label.dots_eq Label.tail_alphanum Label.tail_head

lemma parseVersion_of_ne_rc (hl : l ≠ .rc) (hn : n < 2 ^ 64) :
    parseVersion (spelled r l n) = .ok (versionOf r n l) := by
  rw [parseVersion_spelled hr hbound]
  cases l with
  | rc => exact absurd rfl hl
  | final => rfl
  | dev =>
    rw [Label.tail_eq (by decide), parseSuffix_dev hn]
    rfl
  | post =>
    rw [Label.tail_eq (by decide), parseSuffix_post hn]
    rfl
  | _ =>
    rw [Label.tail_eq (by decide), parseSuffix_pre rfl hn]
    rfl

lemma parseVersion_rc (n : Nat) :
    parseVersion (spelled r .rc n) = .error "suffix number is not a valid integer" := by
  rw [parseVersion_spelled hr hbound, Label.tail_eq (by decide), parseSuffix_rc]
  rfl

end

/-! ### Order -/

lemma cmpRelease_self (r : List Nat) : cmpRelease r r = .eq := by
  rw [cmpRelease]
  induction range (max r.length r.length) with
  | nil => rfl
  | cons index rest ih => rw [foldr_cons, ih, compare_eq_iff_eq.mpr rfl, eq_then]

lemma Label.kinds (hl : l ≠ .rc) : l = .dev ∨ l.isPre = true ∨ l = .final ∨ l = .post := by
  cases l <;> first | exact absurd rfl hl | decide

lemma versionOf_pre (hl : l.isPre = true) (r : List Nat) (n : Nat) :
    versionOf r n l = ⟨0, r, some [.text l.text, .numeric n], none, none⟩ := by
  cases l <;> first | exact absurd hl (by decide) | rfl

lemma Label.stage_pre (hl : l.isPre = true) :
    l.stage = preLabelRank l.text + 1 ∧ preLabelRank l.text < 3 ∧ l ≠ .final := by
  revert hl
  cases l <;> decide

variable {l₁ l₂ : Label}

lemma cmp_pre (r : List Nat) (h₁ : l₁.isPre = true) (h₂ : l₂.isPre = true) (n₁ n₂ : Nat) :
    (versionOf r n₁ l₁).cmp (versionOf r n₂ l₂) =
      (compare l₁.stage l₂.stage).then ((compare l₁.text l₂.text).then (compare n₁ n₂)) := by
  have hstage : compare l₁.stage l₂.stage =
      compare (preLabelRank l₁.text) (preLabelRank l₂.text) := by
    rw [(Label.stage_pre h₁).1, (Label.stage_pre h₂).1]
    simp only [compare, compareOfLessAndEq, add_lt_add_iff_right, add_right_cancel_iff]
  rw [versionOf_pre h₁, versionOf_pre h₂, hstage]
  simp [Version.cmp, cmpRelease_self, cmpComponent, cmpPreRelease, PrePart.cmp, then_assoc]

lemma cmp_stages (r : List Nat) (h₁ : l₁ ≠ .rc) (h₂ : l₂ ≠ .rc) (n₁ n₂ : Nat)
    (hpre : ¬ (l₁.isPre = true ∧ l₂.isPre = true)) (hne : l₁ ≠ l₂) :
    (versionOf r n₁ l₁).cmp (versionOf r n₂ l₂) = compare l₁.stage l₂.stage ∧
      l₁.stage ≠ l₂.stage := by
  obtain rfl | hp₁ | rfl | rfl := Label.kinds h₁ <;> obtain rfl | hp₂ | rfl | rfl := Label.kinds h₂
  case inr.inl.inr.inl => exact absurd ⟨hp₁, hp₂⟩ hpre
  case inl.inl | inr.inr.inl.inr.inr.inl | inr.inr.inr.inr.inr.inr => exact absurd rfl hne
  case inl.inr.inl | inr.inr.inl.inr.inl | inr.inr.inr.inr.inl =>
    obtain ⟨hstage, hrank, -⟩ := Label.stage_pre hp₂
    generalize preLabelRank l₂.text = rank at hstage hrank
    rw [versionOf_pre hp₂, hstage]
    interval_cases rank <;>
      simp [versionOf, Version.cmp, cmpRelease_self, Label.stage] <;> rfl
  case inr.inl.inl | inr.inl.inr.inr.inl | inr.inl.inr.inr.inr =>
    obtain ⟨hstage, hrank, -⟩ := Label.stage_pre hp₁
    generalize preLabelRank l₁.text = rank at hstage hrank
    rw [versionOf_pre hp₁, hstage]
    interval_cases rank <;>
      simp [versionOf, Version.cmp, cmpRelease_self, Label.stage] <;> rfl
  all_goals
    simp [versionOf, Version.cmp, cmpRelease_self, Label.stage]
    rfl

/-- The order the code computes: labels of one stage are compared as texts before their numbers. -/
lemma cmp_versionOf (r : List Nat) (h₁ : l₁ ≠ .rc) (h₂ : l₂ ≠ .rc) (n₁ n₂ : Nat) :
    (versionOf r n₁ l₁).cmp (versionOf r n₂ l₂) = (compare l₁.stage l₂.stage).then
        (if l₁ = .final then .eq else (compare l₁.text l₂.text).then (compare n₁ n₂)) := by
  by_cases hpre : l₁.isPre = true ∧ l₂.isPre = true
  · rw [if_neg (Label.stage_pre hpre.1).2.2, cmp_pre r hpre.1 hpre.2]
  by_cases hne : l₁ = l₂
  · subst hne
    have hself : (versionOf r n₁ l₁).cmp (versionOf r n₂ l₁) =
        if l₁ = .final then .eq else compare n₁ n₂ := by
      obtain rfl | hp | rfl | rfl := Label.kinds h₁
      · simp [versionOf, Version.cmp, cmpRelease_self, cmpComponent]
      · exact absurd ⟨hp, hp⟩ hpre
      · simp [versionOf, Version.cmp, cmpRelease_self, cmpComponent]
      · simp [versionOf, Version.cmp, cmpRelease_self, cmpComponent]
    rw [hself, compare_eq_iff_eq.mpr rfl, eq_then, compare_eq_iff_eq.mpr rfl, eq_then]
  · obtain ⟨hcmp, hstages⟩ := cmp_stages r h₁ h₂ n₁ n₂ hpre hne
    rw [hcmp]
    cases hstage : compare l₁.stage l₂.stage with
    | lt => rfl
    | eq => exact absurd (compare_eq_iff_eq.mp hstage) hstages
    | gt => rfl

/-! ### The published law -/

/-- Adding a version to the index keeps every resolution that succeeds without it. -/
def Tolerated (version : String) : Prop :=
  ∀ (requiresPython : String) (dependencies : List String) (before after : PackageIndex)
    (name hash : String),
    (∀ c ∈ before ++ ⟨name, version, hash⟩ :: after, isHexSha256 c.hash = true) →
    (∃ lockfile, resolve requiresPython dependencies (before ++ after) = .ok lockfile) →
    ∃ lockfile, resolve requiresPython dependencies (before ++ ⟨name, version, hash⟩ :: after) =
      .ok lockfile

/-- Two versions of one release are read, ordered as published, and harmless in an index. -/
def Lawful (r : List Nat) (l₁ : Label) (n₁ : Nat) (l₂ : Label) (n₂ : Nat) : Prop :=
  (∃ v₁ v₂, parseVersion (spelled r l₁ n₁) = .ok v₁ ∧ parseVersion (spelled r l₂ n₂) = .ok v₂ ∧
    v₁.cmp v₂ = publishedOrder l₁ n₁ l₂ n₂) ∧
  Tolerated (spelled r l₁ n₁) ∧ Tolerated (spelled r l₂ n₂)

lemma tolerated_of_parseVersion {version : String} {v : Version}
    (h : parseVersion version = .ok v) : Tolerated version := by
  intro requiresPython dependencies before after name hash hhashes hresolved
  exact exists_resolve_insert hhashes h hresolved

lemma Label.text_injective (h : l₁.text = l₂.text) : l₁ = l₂ := by
  revert h
  cases l₁ <;> cases l₂ <;> decide

/-- The computed order is the published one unless two spellings of one class disagree with
their numbers. -/
lemma order_eq_published_iff (l₁ l₂ : Label) (n₁ n₂ : Nat) : (compare l₁.stage l₂.stage).then
        (if l₁ = .final then .eq else (compare l₁.text l₂.text).then (compare n₁ n₂)) =
      publishedOrder l₁ n₁ l₂ n₂ ↔
    (l₁.stage = l₂.stage → l₁ = l₂ ∨ compare n₁ n₂ = compare l₁.text l₂.text) := by
  rw [publishedOrder]
  cases hstage : compare l₁.stage l₂.stage with
  | lt => exact ⟨fun _ heq => absurd heq (compare_lt_iff_lt.mp hstage).ne, fun _ => rfl⟩
  | gt => exact ⟨fun _ heq => absurd heq (compare_gt_iff_gt.mp hstage).ne', fun _ => rfl⟩
  | eq =>
    have hsame := compare_eq_iff_eq.mp hstage
    simp only [hsame, true_imp_iff]
    by_cases heq : l₁ = l₂
    · subst heq
      simp
    have hfinal : l₁ ≠ .final := by
      rintro rfl
      refine heq ?_
      revert hsame
      cases l₂ <;> decide
    simp only [hfinal, heq, false_or]
    cases htext : compare l₁.text l₂.text with
    | lt | gt => exact eq_comm
    | eq => exact absurd (Label.text_injective (compare_eq_iff_eq.mp htext)) heq

theorem prerelease_lawful_iff {r : List Nat} (hr : r ≠ []) (hbound : ∀ x ∈ r, x < 2 ^ 64)
    (l₁ l₂ : Label) {n₁ n₂ : Nat} (hn₁ : n₁ < 2 ^ 64) (hn₂ : n₂ < 2 ^ 64) :
    Lawful r l₁ n₁ l₂ n₂ ↔ l₁ ≠ .rc ∧ l₂ ≠ .rc ∧
      (l₁.stage = l₂.stage → l₁ = l₂ ∨ compare n₁ n₂ = compare l₁.text l₂.text) := by
  constructor
  · rintro ⟨⟨v₁, v₂, hv₁, hv₂, horder⟩, -, -⟩
    have h₁ : l₁ ≠ .rc := by
      rintro rfl
      rw [parseVersion_rc hr hbound] at hv₁
      cases hv₁
    have h₂ : l₂ ≠ .rc := by
      rintro rfl
      rw [parseVersion_rc hr hbound] at hv₂
      cases hv₂
    obtain rfl := ok.inj ((parseVersion_of_ne_rc hr hbound h₁ hn₁).symm.trans hv₁)
    obtain rfl := ok.inj ((parseVersion_of_ne_rc hr hbound h₂ hn₂).symm.trans hv₂)
    rw [cmp_versionOf r h₁ h₂, order_eq_published_iff] at horder
    exact ⟨h₁, h₂, horder⟩
  · intro ⟨h₁, h₂, hagree⟩
    have hv₁ := parseVersion_of_ne_rc hr hbound h₁ hn₁
    have hv₂ := parseVersion_of_ne_rc hr hbound h₂ hn₂
    refine ⟨⟨_, _, hv₁, hv₂, ?_⟩, tolerated_of_parseVersion hv₁, tolerated_of_parseVersion hv₂⟩
    rw [cmp_versionOf r h₁ h₂, order_eq_published_iff]
    exact hagree

theorem alpha_before_beta_lawful : Lawful [1, 0] .a 2 .beta 1 :=
  (prerelease_lawful_iff (by decide) (by decide) .a .beta (by decide) (by decide)).mpr (by decide)

/-- A release candidate is refused and takes the whole resolution with it, and two spellings of
one beta are not equal. -/
theorem candidate_breaks_resolution :
    let acme : IndexedPackage := ⟨"acme", "1.0", "".pushn '0' 64⟩
    (resolve ">=3.10" ["acme>=1.0"] [acme]).toOption.isSome = true ∧
      resolve ">=3.10" ["acme>=1.0"] [acme, { acme with version := spelled [1, 1] .rc 1 }] =
        .error (.resolution ("indexed package `acme==1.1rc1` has an invalid version: " ++
          "suffix number is not a valid integer")) ∧
      ¬ Lawful [1, 1] .rc 1 .final 0 ∧ ¬ Lawful [1, 1] .b 1 .beta 1 := by
  refine ⟨by decide +kernel, by decide +kernel, ?_, ?_⟩
  · rintro ⟨⟨v₁, v₂, hv₁, -, -⟩, -, -⟩
    cases hv₁
  · rintro ⟨⟨v₁, v₂, hv₁, hv₂, horder⟩, -, -⟩
    rw [parseVersion_of_ne_rc (by decide) (by decide) (by decide) (by decide)] at hv₁ hv₂
    obtain rfl := ok.inj hv₁
    obtain rfl := ok.inj hv₂
    exact absurd horder (by decide)

end CriKey.Manager
