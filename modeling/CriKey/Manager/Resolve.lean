import CriKey.Base.Fallible
import CriKey.Base.SortedMap
import CriKey.Manager.Version

/-! Resolution of declared dependencies against an offline index. -/
namespace CriKey.Manager
open CriKey.Base List Except
open CriKey.Core (trim)

inductive ResolveError where
  | resolution (detail : String)
  | hashMismatch (detail : String)
deriving DecidableEq, Repr

/-! ### The index -/

structure IndexedPackage where
  name : String
  version : String
  hash : String
deriving DecidableEq, Repr

abbrev PackageIndex := List IndexedPackage

def toAsciiLowercase (byte : UInt8) : UInt8 := if 65 ≤ byte && byte ≤ 90 then byte + 32 else byte

def isSeparator (byte : UInt8) : Bool := byte = 45 || byte = 95 || byte = 46

/-- Runs of separators become one dash, except at the start. Every other byte becomes the
character with its number. -/
def normalizeBytes : List UInt8 → Bool → List Char → List Char
  | [], _, normalized => normalized
  | byte :: bytes, pendingSeparator, normalized =>
    if isSeparator byte then normalizeBytes bytes true normalized
    else
      let normalized :=
        if pendingSeparator && normalized ≠ [] then normalized ++ ['-'] else normalized
      normalizeBytes bytes false (normalized ++ [Char.ofNat (toAsciiLowercase byte).toNat])

def normalizeName (name : String) : String :=
  String.ofList (normalizeBytes name.toUTF8.toList false [])

def PackageIndex.versions (index : PackageIndex) (name : String) : List IndexedPackage :=
  index.filter (·.name = normalizeName name)

/-! ### Requirements -/

inductive Op where
  | eq
  | ge
  | gt
  | le
  | lt
deriving DecidableEq, Repr

structure Clause where
  op : Op
  version : Version
deriving DecidableEq, Repr

def Clause.matches (clause : Clause) (candidate : Version) : Bool :=
  let ord := candidate.cmp clause.version
  match clause.op with
  | .eq => ord.isEq
  | .ge => ord.isGE
  | .gt => ord.isGT
  | .le => ord.isLE
  | .lt => ord.isLT

def trimChars (text : List Char) : List Char := (trim (String.ofList text)).toList

/-- The operators, in the order they are tried. -/
def operators : List (String × Op) :=
  [("==", .eq), (">=", .ge), ("<=", .le), (">", .gt), ("<", .lt)]

def parseClause (spec : List Char) (raw : List Char) : Except ResolveError Clause :=
  match operators.findSome? fun entry =>
      (stripLabel entry.1 raw).map fun rest => (entry.2, rest) with
  | none =>
    .error (.resolution ("requirement `" ++ String.ofList spec ++
      "` has an unsupported operator in `" ++ String.ofList raw ++ "`"))
  | some (op, rest) =>
    if trimChars rest = [] then
      .error (.resolution ("requirement `" ++ String.ofList spec ++ "` has an empty version"))
    else
      match parseVersion (String.ofList (trimChars rest)) with
      | .error reason =>
        .error (.resolution ("requirement `" ++ String.ofList spec ++
          "` has an invalid version: " ++ reason))
      | .ok version => .ok ⟨op, version⟩

def isOperatorChar (c : Char) : Bool := c = '<' || c = '>' || c = '='

def parseRequirement (spec : String) : Except ResolveError (String × List Clause) := do
  let spec := (trim spec).toList
  if spec.all (!isOperatorChar ·) then
    throw (.resolution ("requirement `" ++ String.ofList spec ++ "` has no version specifier"))
  let name := normalizeName (String.ofList (trimChars (spec.takeWhile (!isOperatorChar ·))))
  if name = "" then
    throw (.resolution ("requirement `" ++ String.ofList spec ++ "` has an empty name"))
  let raws := (((spec.dropWhile (!isOperatorChar ·)).splitOn ',').map trimChars).filter (· ≠ [])
  let clauses ← raws.mapM (parseClause spec)
  if clauses = [] then
    throw (.resolution ("requirement `" ++ String.ofList spec ++ "` has no clauses"))
  return (name, clauses)

/-! ### The lockfile -/

structure LockedPackage where
  name : String
  version : String
  hash : String
deriving DecidableEq, Repr

structure Lockfile where
  requiresPython : String
  packages : List LockedPackage
deriving DecidableEq, Repr

def isHexDigitByte (byte : UInt8) : Bool :=
  (48 ≤ byte && byte ≤ 57) || (65 ≤ byte && byte ≤ 70) || (97 ≤ byte && byte ≤ 102)

def isHexSha256 (value : String) : Bool :=
  value.toUTF8.toList.length = 64 && value.toUTF8.toList.all isHexDigitByte

/-- One package is checked; the names seen so far are carried along. -/
def validatePackage (names : List String) (package : LockedPackage) :
    Except ResolveError (List String) :=
  let name := normalizeName package.name
  if name = "" || trim package.version = "" then
    .error (.resolution "lockfile packages require non-empty name and version")
  else if !isHexSha256 package.hash then
    .error (.hashMismatch ("lockfile package `" ++ package.name ++
      "` has a missing or invalid SHA-256 digest"))
  else if name ∈ names then
    .error (.resolution ("lockfile contains more than one version of `" ++ name ++ "`"))
  else .ok (name :: names)

def Lockfile.validate (lockfile : Lockfile) : Except ResolveError Unit := do
  if trim lockfile.requiresPython = "" then
    throw (.resolution "lockfile requires_python must not be empty")
  let _ ← lockfile.packages.foldlM validatePackage []

/-! ### Resolution -/

abbrev Grouped := List (String × List Clause × List String)

/-- Requirements are grouped by canonical name. -/
def group (grouped : Grouped) (dep : String) : Except ResolveError Grouped := do
  let (name, clauses) ← parseRequirement dep
  let (known, declarations) := (grouped.lookup name).getD ([], [])
  return insertEntry name (known ++ clauses, declarations ++ [dep]) grouped

def parseCandidate (name : String) (candidate : IndexedPackage) :
    Except ResolveError (IndexedPackage × Version) :=
  match parseVersion candidate.version with
  | .error reason =>
    .error (.resolution ("indexed package `" ++ name ++ "==" ++ candidate.version ++
      "` has an invalid version: " ++ reason))
  | .ok parsed => .ok (candidate, parsed)

/-- The last of the greatest candidates. -/
def maxByVersion : List (IndexedPackage × Version) → Option (IndexedPackage × Version)
  | [] => none
  | first :: rest =>
    some (rest.foldl (fun best next => if best.2.cmp next.2 = .gt then best else next) first)

def resolveOne (index : PackageIndex) (entry : String × List Clause × List String) :
    Except ResolveError LockedPackage := do
  let (name, clauses, declarations) := entry
  let parsed ← (index.versions name).mapM (parseCandidate name)
  let found := parsed.filter fun candidate => clauses.all (·.matches candidate.2)
  let stableExists := found.any (!·.2.isPrerelease)
  match maxByVersion (found.filter fun candidate => !stableExists || !candidate.2.isPrerelease) with
  | some (candidate, _) => return ⟨name, candidate.version, candidate.hash⟩
  | none =>
    throw (.resolution ("conflicting or unsatisfied requirements for `" ++ name ++ "`: " ++
      ", ".intercalate declarations))

def resolve (requiresPython : String) (dependencies : List String) (index : PackageIndex) :
    Except ResolveError Lockfile := do
  let grouped ← dependencies.foldlM group []
  let packages ← grouped.mapM (resolveOne index)
  let lockfile : Lockfile := ⟨requiresPython, packages⟩
  lockfile.validate
  return lockfile

/-! ### What resolution needs -/

variable {candidates : List (IndexedPackage × Version)}

lemma maxByVersion_eq_none : maxByVersion candidates = none ↔ candidates = [] := by
  cases candidates with
  | nil | cons first rest => simp [maxByVersion]

lemma mem_of_maxByVersion {best : IndexedPackage × Version}
    (h : maxByVersion candidates = some best) :
    best ∈ candidates := by
  cases candidates with
  | nil => cases h
  | cons first rest =>
    obtain rfl := Option.some.inj h
    clear h
    induction rest generalizing first with
    | nil => exact mem_cons_self
    | cons next rest ih =>
      rw [foldl_cons]
      cases mem_cons.mp (ih (if first.2.cmp next.2 = .gt then first else next)) with
      | inl hhead =>
        rw [hhead]
        split
        · exact mem_cons_self
        · exact mem_cons_of_mem _ mem_cons_self
      | inr hrest => exact mem_cons_of_mem _ (mem_cons_of_mem _ hrest)

lemma parseCandidate_eq_ok {name : String} {candidate : IndexedPackage}
    {parsed : IndexedPackage × Version} : parseCandidate name candidate = .ok parsed ↔
      parsed.1 = candidate ∧ parseVersion candidate.version = .ok parsed.2 := by
  rw [parseCandidate]
  cases parseVersion candidate.version with
  | error reason => simp
  | ok version =>
    simp only [ok.injEq]
    constructor
    · rintro rfl
      exact ⟨rfl, rfl⟩
    · intro ⟨hcandidate, hversion⟩
      rw [← hcandidate, hversion]

lemma mem_parsed {name : String} {candidates : List IndexedPackage}
    {parsed : List (IndexedPackage × Version)}
    (h : candidates.mapM (parseCandidate name) = .ok parsed) (c : IndexedPackage) (v : Version) :
    (c, v) ∈ parsed ↔ c ∈ candidates ∧ parseVersion c.version = .ok v := by
  rw [mapM_eq_ok] at h
  induction h with
  | nil => simp
  | cons hhead _ ih =>
    obtain ⟨hcandidate, hversion⟩ := parseCandidate_eq_ok.mp hhead
    rw [mem_cons, mem_cons, ih]
    constructor
    · rintro (rfl | ⟨hc, hv⟩)
      · dsimp only at hcandidate hversion
        exact ⟨.inl hcandidate, by rw [hcandidate, hversion]⟩
      · exact ⟨.inr hc, hv⟩
    · rintro ⟨rfl | hc, hv⟩
      · left
        rw [hv] at hversion
        exact Prod.ext hcandidate.symm (ok.inj hversion)
      · exact .inr ⟨hc, hv⟩

lemma preferred_eq_nil {found : List (IndexedPackage × Version)} :
    found.filter (fun candidate => !found.any (!·.2.isPrerelease) ||
      !candidate.2.isPrerelease) = [] ↔
      found = [] := by
  constructor
  · intro h
    rw [filter_eq_nil_iff] at h
    by_contra hne
    obtain ⟨first, hfirst⟩ := exists_mem_of_ne_nil _ hne
    have hstable := h first hfirst
    simp only [Bool.or_eq_true, Bool.not_eq_true', not_or, Bool.not_eq_false,
      List.any_eq_true] at hstable
    obtain ⟨⟨stable, hmem, hstable⟩, -⟩ := hstable
    exact h stable hmem (by simp [hstable])
  · rintro rfl
    rfl

section One
variable {index : PackageIndex} {name : String} {clauses : List Clause} {declarations : List String}

lemma resolveOne_eq_ok {locked : LockedPackage}
    (h : resolveOne index (name, clauses, declarations) = .ok locked) :
    ∃ c ∈ index.versions name, locked = ⟨name, c.version, c.hash⟩ ∧
      ∃ v, parseVersion c.version = .ok v ∧ clauses.all (·.matches v) = true := by
  obtain ⟨parsed, hparsed, h⟩ := bind_eq_ok.mp h
  dsimp only at h
  split at h
  case h_1 candidate version hbest =>
    obtain rfl := ok.inj h
    obtain ⟨hmem, hmatch⟩ := mem_filter.mp (mem_filter.mp (mem_of_maxByVersion hbest)).1
    obtain ⟨hc, hv⟩ := (mem_parsed hparsed candidate version).mp hmem
    exact ⟨candidate, hc, rfl, version, hv, hmatch⟩
  case h_2 => cases h

lemma exists_resolveOne : (∃ locked, resolveOne index (name, clauses, declarations) = .ok locked) ↔
    (∀ c ∈ index.versions name, ∃ v, parseVersion c.version = .ok v) ∧
      ∃ c ∈ index.versions name, ∃ v, parseVersion c.version = .ok v ∧
        clauses.all (·.matches v) = true := by
  have hall : (∀ c ∈ index.versions name, ∃ v, parseVersion c.version = .ok v) ↔
      ∃ parsed, (index.versions name).mapM (parseCandidate name) = .ok parsed := by
    rw [exists_mapM_eq_ok]
    refine forall₂_congr fun c _ => ?_
    constructor
    · intro ⟨v, hv⟩
      exact ⟨(c, v), parseCandidate_eq_ok.mpr ⟨rfl, hv⟩⟩
    · intro ⟨parsed, hparsed⟩
      exact ⟨parsed.2, (parseCandidate_eq_ok.mp hparsed).2⟩
  rw [hall]
  constructor
  · intro ⟨locked, h⟩
    obtain ⟨c, hc, -, v, hv, hmatch⟩ := resolveOne_eq_ok h
    obtain ⟨parsed, hparsed, -⟩ := bind_eq_ok.mp h
    exact ⟨⟨parsed, hparsed⟩, c, hc, v, hv, hmatch⟩
  · intro ⟨⟨parsed, hparsed⟩, c, hc, v, hv, hmatch⟩
    have hfound : (c, v) ∈ parsed.filter fun candidate => clauses.all (·.matches candidate.2) :=
      mem_filter.mpr ⟨(mem_parsed hparsed c v).mpr ⟨hc, hv⟩, hmatch⟩
    have hsome := mt (maxByVersion_eq_none.trans preferred_eq_nil).mp (ne_nil_of_mem hfound)
    obtain ⟨best, hbest⟩ := Option.ne_none_iff_exists'.mp hsome
    refine ⟨⟨name, best.1.version, best.1.hash⟩, bind_eq_ok.mpr ⟨parsed, hparsed, ?_⟩⟩
    simp only [hbest]
    rfl

lemma exists_resolveOne_insert {before after : PackageIndex} {p : IndexedPackage} {v : Version}
    (hp : parseVersion p.version = .ok v)
    (h : ∃ locked, resolveOne (before ++ after) (name, clauses, declarations) = .ok locked) :
    ∃ locked, resolveOne (before ++ p :: after) (name, clauses, declarations) = .ok locked := by
  rw [exists_resolveOne] at h ⊢
  obtain ⟨hall, c, hc, hfound⟩ := h
  simp only [PackageIndex.versions, mem_filter, mem_append, mem_cons] at hall hc ⊢
  refine ⟨?_, c, ⟨hc.1.imp_right .inr, hc.2⟩, hfound⟩
  rintro d ⟨hbefore | rfl | hafter, hname⟩
  · exact hall d ⟨.inl hbefore, hname⟩
  · exact ⟨v, hp⟩
  · exact hall d ⟨.inr hafter, hname⟩

end One

lemma validatePackage_eq_ok {names : List String} {package : LockedPackage} {seen : List String} :
    validatePackage names package = .ok seen ↔
      (normalizeName package.name ≠ "" ∧ trim package.version ≠ "") ∧
        isHexSha256 package.hash = true ∧ normalizeName package.name ∉ names ∧
        normalizeName package.name :: names = seen := by
  simp only [validatePackage, check_eq_ok, Bool.or_eq_true, decide_eq_true_eq, not_or,
    Bool.not_eq_true', Bool.not_eq_false, ok.injEq]

lemma validatePackages_congr {packages others : List LockedPackage} {names seen : List String}
    (hnames : packages.map (·.name) = others.map (·.name))
    (hothers : ∀ p ∈ others, trim p.version ≠ "" ∧ isHexSha256 p.hash = true)
    (h : packages.foldlM validatePackage names = .ok seen) :
    others.foldlM validatePackage names = .ok seen := by
  induction others generalizing packages names with
  | nil =>
    obtain rfl := map_eq_nil_iff.mp hnames
    exact h
  | cons other others ih =>
    cases packages with
    | nil => cases hnames
    | cons package packages =>
      obtain ⟨hname, hrest⟩ := cons.inj hnames
      obtain ⟨hother, hothers⟩ := forall_mem_cons.mp hothers
      rw [foldlM_cons, bind_eq_ok] at h ⊢
      obtain ⟨next, hnext, h⟩ := h
      refine ⟨next, ?_, ih hrest hothers h⟩
      obtain ⟨⟨hnonempty, -⟩, -, hnew, hseen⟩ := validatePackage_eq_ok.mp hnext
      dsimp only at hname
      rw [hname] at hnonempty hnew hseen
      exact validatePackage_eq_ok.mpr ⟨⟨hnonempty, hother.1⟩, hother.2, hnew, hseen⟩

lemma validate_eq_ok {lockfile : Lockfile} : lockfile.validate = .ok () ↔
    trim lockfile.requiresPython ≠ "" ∧
      ∃ seen, lockfile.packages.foldlM validatePackage [] = .ok seen := by
  unfold Lockfile.validate
  by_cases hpython : trim lockfile.requiresPython = ""
  · rw [if_pos hpython]
    exact ⟨nofun, fun h => absurd hpython h.1⟩
  simp only [hpython, ne_eq, not_false_eq_true, true_and]
  constructor
  · intro h
    obtain ⟨seen, hseen, -⟩ := bind_eq_ok.mp h
    exact ⟨seen, hseen⟩
  · intro ⟨seen, hseen⟩
    exact bind_eq_ok.mpr ⟨seen, hseen, rfl⟩

lemma trim_ne_of_parseVersion {version : String} {v : Version}
    (h : parseVersion version = .ok v) : trim version ≠ "" := by
  intro hempty
  rw [parseVersion, hempty] at h
  cases h

lemma resolved_spec {index : PackageIndex} {entries : Grouped} {locked : List LockedPackage}
    (h : entries.mapM (resolveOne index) = .ok locked) : locked.map (·.name) = entries.map (·.1) ∧
      ∀ p ∈ locked, trim p.version ≠ "" ∧ ∃ c ∈ index, p.hash = c.hash := by
  rw [mapM_eq_ok] at h
  induction h with
  | nil => simp
  | @cons entry package entries locked hhead _ ih =>
    obtain ⟨c, hc, rfl, v, hv, -⟩ := resolveOne_eq_ok hhead
    refine ⟨by rw [map_cons, map_cons, ih.1], forall_mem_cons.mpr ⟨?_, ih.2⟩⟩
    exact ⟨trim_ne_of_parseVersion hv, c, (mem_filter.mp hc).1, rfl⟩

lemma exists_resolve_insert {requiresPython : String} {dependencies : List String}
    {before after : PackageIndex} {p : IndexedPackage} {v : Version}
    (hhashes : ∀ c ∈ before ++ p :: after, isHexSha256 c.hash = true)
    (hp : parseVersion p.version = .ok v)
    (h : ∃ lockfile, resolve requiresPython dependencies (before ++ after) = .ok lockfile) :
    ∃ lockfile, resolve requiresPython dependencies (before ++ p :: after) = .ok lockfile := by
  obtain ⟨lockfile, h⟩ := h
  obtain ⟨grouped, hgrouped, h⟩ := bind_eq_ok.mp h
  obtain ⟨packages, hpackages, h⟩ := bind_eq_ok.mp h
  obtain ⟨⟨⟩, hvalid, -⟩ := bind_eq_ok.mp h
  obtain ⟨others, hothers⟩ : ∃ others,
      grouped.mapM (resolveOne (before ++ p :: after)) = .ok others := by
    refine exists_mapM_eq_ok.mpr fun (name, clauses, declarations) hentry => ?_
    exact exists_resolveOne_insert hp (exists_mapM_eq_ok.mp ⟨packages, hpackages⟩ _ hentry)
  have hnames : packages.map (·.name) = others.map (·.name) :=
    (resolved_spec hpackages).1.trans (resolved_spec hothers).1.symm
  have hsound : ∀ q ∈ others, trim q.version ≠ "" ∧ isHexSha256 q.hash = true := by
    intro q hq
    obtain ⟨hversion, c, hc, hhash⟩ := (resolved_spec hothers).2 q hq
    exact ⟨hversion, hhash ▸ hhashes c hc⟩
  have hvalid' : (⟨requiresPython, others⟩ : Lockfile).validate = .ok () := by
    obtain ⟨hpython, seen, hseen⟩ := validate_eq_ok.mp hvalid
    exact validate_eq_ok.mpr ⟨hpython, seen, validatePackages_congr hnames hsound hseen⟩
  exact ⟨⟨requiresPython, others⟩, bind_eq_ok.mpr ⟨grouped, hgrouped,
    bind_eq_ok.mpr ⟨others, hothers, bind_eq_ok.mpr ⟨(), hvalid', rfl⟩⟩⟩⟩

end CriKey.Manager
