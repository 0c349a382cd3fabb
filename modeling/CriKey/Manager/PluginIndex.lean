import CriKey.Base.Machine

/-! The cache of plugin indexes: a signed document for each URL, refreshed from the network and
published in several file operations, any of which may fail. -/
namespace CriKey.Manager
open CriKey.Base Function

inductive IndexError where
  | sourceUnavailable
  | io
  | indexSignature
  | malformedIndex
deriving DecidableEq, Repr

/-- The bytes did not arrive, rather than were unacceptable. -/
def isTransportFailure : IndexError → Bool
  | .sourceUnavailable | .io => true
  | .indexSignature | .malformedIndex => false

def indexMaxBytes : Nat := 8 * 1024 * 1024

/-- The fixed trust store and the parser of index documents. -/
class IndexVerifier (σ δ : Type) where
  signer : String → List UInt8 → List UInt8 → Option σ
  parse : List UInt8 → Option δ

section
variable {σ δ : Type} [IndexVerifier σ δ]

/-- The document is parsed only once its signature holds. -/
def verify (url : String) (bytes : List UInt8) (signature : Option (List UInt8)) :
    Except IndexError (δ × σ) :=
  match signature with
  | none => .error .indexSignature
  | some signature =>
    match IndexVerifier.signer δ url bytes signature with
    | none => .error .indexSignature
    | some signer =>
      match IndexVerifier.parse σ bytes with
      | none => .error .malformedIndex
      | some document => .ok (document, signer)

structure CacheEntry where
  document : Option (List UInt8 × Nat)
  signature : Option (List UInt8)
deriving DecidableEq, Repr

inductive Freshness where
  | fresh
  | stale (age : Nat) (reason : IndexError)
deriving DecidableEq, Repr

structure IndexSnapshot (σ δ : Type) where
  url : String
  document : δ
  signer : σ
  freshness : Freshness
deriving DecidableEq, Repr

/-- One load of one URL, with all that the network, the clock and the file system make of it. A
fetched document comes with the time its file was written. -/
structure LoadInput where
  url : String
  refresh : Bool
  now : Nat
  statWorks : Bool
  scratchWorks : Bool
  document : Except IndexError (List UInt8 × Nat)
  signature : Except IndexError (List UInt8)
  readFetched : Except IndexError Unit
  readFetchedSignature : Bool
  makeDirectory : Bool
  renameDocument : Bool
  renameSignature : Bool
  writeUrl : Bool
  readDocument : Except IndexError Unit
  readSignature : Bool

variable (input : LoadInput)

/-- How old the cached document is, unless its time cannot be read or lies in the future. -/
def age (entry : CacheEntry) : Option Nat :=
  match entry.document with
  | none => none
  | some (_, modified) =>
    if input.statWorks && modified ≤ input.now then some (input.now - modified) else none

/-- A file over the limit is refused. -/
def readCapped (read : Except IndexError Unit) (bytes : List UInt8) :
    Except IndexError (List UInt8) :=
  match read with
  | .error e => .error e
  | .ok () => if indexMaxBytes < bytes.length then .error .malformedIndex else .ok bytes

def readCached (freshness : Freshness) (entry : CacheEntry) :
    Except IndexError (IndexSnapshot σ δ) :=
  match entry.document with
  | none => .error .sourceUnavailable
  | some (bytes, _) =>
    match readCapped input.readDocument bytes with
    | .error e => .error e
    | .ok bytes =>
      match verify input.url bytes (if input.readSignature then entry.signature else none) with
      | .error e => .error e
      | .ok (document, signer) => .ok ⟨input.url, document, signer, freshness⟩

/-- The fetched pair, once it is verified. A missing signature is a refusal, whatever the reason. -/
def fetchVerified : Except IndexError ((List UInt8 × Nat) × List UInt8 × δ × σ) :=
  match input.document with
  | .error e => .error e
  | .ok (bytes, modified) =>
    match input.signature with
    | .error _ => .error .indexSignature
    | .ok signature =>
      match readCapped input.readFetched bytes with
      | .error e => .error e
      | .ok bytes =>
        match verify input.url bytes
            (if input.readFetchedSignature then some signature else none) with
        | .error e => .error e
        | .ok accepted => .ok ((bytes, modified), signature, accepted)

/-- The document is moved into place first, then its signature, then the URL is noted. -/
def publish (document : List UInt8 × Nat) (signature : List UInt8)
    (entry : CacheEntry) : Except IndexError Unit × CacheEntry :=
  if !input.makeDirectory then (.error .io, entry)
  else if !input.renameDocument then (.error .io, entry)
  else if !input.renameSignature then (.error .io, { entry with document := some document })
  else if !input.writeUrl then (.error .io, ⟨some document, some signature⟩)
  else (.ok (), ⟨some document, some signature⟩)

def fetchIntoCache (entry : CacheEntry) : Except IndexError (IndexSnapshot σ δ) × CacheEntry :=
  if !input.scratchWorks then (.error .io, entry)
  else
    match (fetchVerified input : Except IndexError (_ × _ × δ × σ)) with
    | .error e => (.error e, entry)
    | .ok (document, signature, accepted, signer) =>
      match publish input document signature entry with
      | (.error e, entry) => (.error e, entry)
      | (.ok (), entry) => (.ok ⟨input.url, accepted, signer, .fresh⟩, entry)

/-- A lifetime of zero refreshes always. -/
def isStale (maxAge : Nat) (input : LoadInput) (entry : CacheEntry) : Bool :=
  match age input entry with
  | none => true
  | some age => maxAge ≤ age

def loadOne (maxAge : Nat) (input : LoadInput) (entry : CacheEntry) :
    Except IndexError (IndexSnapshot σ δ) × CacheEntry :=
  if !input.refresh && !isStale maxAge input entry then (readCached input .fresh entry, entry)
  else
    match fetchIntoCache input entry with
    | (.ok snapshot, entry) => (.ok snapshot, entry)
    | (.error e, after) =>
      if !isTransportFailure e then (.error e, after)
      else
        match age input entry with
        | none => (.error e, after)
        | some age => (readCached input (.stale age e) after, after)

/-- The directory of a URL in the cache: half of the digest of the URL. -/
class UrlDigest where
  directory : String → String

export UrlDigest (directory)

/-- The cache holds an entry for each directory. -/
def loadStep [UrlDigest] (maxAge : Nat) (cache : String → CacheEntry) (input : LoadInput) :
    Option ((String → CacheEntry) × Except IndexError (IndexSnapshot σ δ)) :=
  let loaded := loadOne maxAge input (cache (directory input.url))
  some (update cache (directory input.url) loaded.2, loaded.1)

def emptyCache : String → CacheEntry := fun _ => ⟨none, none⟩

end

/-! ## The guarantee -/

section
variable (σ δ : Type) [IndexVerifier σ δ]

/-- Nothing is cached, or a pair that is accepted. -/
def Intact (url : String) (entry : CacheEntry) : Prop :=
  entry = ⟨none, none⟩ ∨ ∃ bytes modified signature,
    entry = ⟨some (bytes, modified), some signature⟩ ∧ bytes.length ≤ indexMaxBytes ∧
    ∃ accepted : δ × σ, verify url bytes (some signature) = .ok accepted

/-- The load goes to the network and gets an error before anything is published. -/
def FetchFails (maxAge : Nat) (input : LoadInput) (entry : CacheEntry) (e : IndexError) : Prop :=
  (input.refresh = true ∨ isStale maxAge input entry = true) ∧
    (input.scratchWorks = false ∧ e = .io ∨ input.scratchWorks = true ∧
      (fetchVerified input : Except IndexError (_ × _ × δ × σ)) = .error e)

/-- The signature follows its document into the cache, and a load that has to fall back on the
cached pair finds its time usable and its files readable. -/
def Publishes (maxAge : Nat) (entry : CacheEntry) (input : LoadInput) : Prop :=
  (input.makeDirectory = true → input.renameDocument = true → input.renameSignature = true) ∧
    ∀ e, FetchFails σ δ maxAge input entry e → isTransportFailure e = true →
      entry.document ≠ none →
      age input entry ≠ none ∧ input.readDocument = .ok () ∧ input.readSignature = true

/-- A load of one of the URLs. -/
def Loads [UrlDigest] (urls : Set String) (maxAge : Nat) (cache : String → CacheEntry)
    (input : LoadInput) : Prop :=
  input.url ∈ urls ∧ Publishes σ δ maxAge (cache (directory input.url)) input

end

section
variable {σ δ : Type} [IndexVerifier σ δ] {maxAge : Nat} {input : LoadInput} {entry : CacheEntry}
  {e : IndexError}
variable {signature : List UInt8}

lemma fetchVerified_eq_ok {document : List UInt8 × Nat} {accepted : δ × σ}
    (h : fetchVerified input = .ok (document, signature, accepted)) :
    document.1.length ≤ indexMaxBytes ∧
      verify input.url document.1 (some signature) = .ok accepted := by
  rw [fetchVerified] at h
  split at h
  · cases h
  split at h
  · cases h
  split at h
  · cases h
  case h_2 bytes hbytes =>
    split at h
    · cases h
    case h_2 accepted' hverify =>
      obtain ⟨rfl, rest⟩ := Prod.mk.inj (Except.ok.inj h)
      obtain ⟨rfl, rfl⟩ := Prod.mk.inj rest
      have hread : input.readFetchedSignature = true := by
        by_contra hnot
        rw [if_neg hnot] at hverify
        cases hverify
      rw [if_pos hread] at hverify
      refine ⟨?_, hverify⟩
      rw [readCapped.eq_def] at hbytes
      split at hbytes
      · cases hbytes
      · split at hbytes
        · cases hbytes
        case isFalse hle => exact Except.ok.inj hbytes ▸ Nat.not_lt.mp hle

lemma fetchIntoCache_of_fails (h : FetchFails σ δ maxAge input entry e) :
    (fetchIntoCache input entry : Except IndexError (IndexSnapshot σ δ) × _) =
      (.error e, entry) := by
  rw [fetchIntoCache]
  rcases h.2 with ⟨hscratch, rfl⟩ | ⟨hscratch, hfetch⟩
  · rw [hscratch]
    rfl
  · rw [hscratch, hfetch]
    rfl

lemma loadOne_fetches (h : input.refresh = true ∨ isStale maxAge input entry = true) :
    (!input.refresh && !isStale maxAge input entry) = false := by
  rcases h with h | h
  · rw [h]
    rfl
  · rw [h, Bool.not_true, Bool.and_false]

lemma loadOne_of_fails (h : FetchFails σ δ maxAge input entry e) :
    (loadOne maxAge input entry : Except IndexError (IndexSnapshot σ δ) × _).2 = entry := by
  rw [loadOne, loadOne_fetches h.1, fetchIntoCache_of_fails h]
  simp only [Bool.false_eq_true, if_false]
  split
  · rfl
  · split
    · rfl
    · rfl

section
variable (hrename : input.makeDirectory = true → input.renameDocument = true →
  input.renameSignature = true)
include hrename

lemma publish_intact {document : List UInt8 × Nat} {accepted : δ × σ}
    (hlength : document.1.length ≤ indexMaxBytes)
    (hverify : verify input.url document.1 (some signature) = .ok accepted)
    (h : Intact σ δ input.url entry) :
    Intact σ δ input.url (publish input document signature entry).2 := by
  have hnew : Intact σ δ input.url ⟨some document, some signature⟩ :=
    .inr ⟨document.1, document.2, signature, rfl, hlength, accepted, hverify⟩
  rw [publish]
  split
  · exact h
  case isFalse hmake =>
    split
    · exact h
    case isFalse hdocument =>
      split
      case isTrue hsignature =>
        have hworks := hrename (by simpa using hmake) (by simpa using hdocument)
        rw [hworks] at hsignature
        cases hsignature
      · split
        · exact hnew
        · exact hnew

lemma loadOne_intact (h : Intact σ δ input.url entry) :
    Intact σ δ input.url
      (loadOne maxAge input entry : Except IndexError (IndexSnapshot σ δ) × _).2 := by
  have hfetch : Intact σ δ input.url
      (fetchIntoCache input entry : Except IndexError (IndexSnapshot σ δ) × _).2 := by
    rw [fetchIntoCache]
    split
    · exact h
    split
    · exact h
    case h_2 document signature accepted signer hverified =>
      obtain ⟨hlength, hverify⟩ := fetchVerified_eq_ok hverified
      have hpublished := publish_intact hrename hlength hverify h
      split
      case h_1 heq =>
        rw [heq] at hpublished
        exact hpublished
      case h_2 heq =>
        rw [heq] at hpublished
        exact hpublished
  rw [loadOne]
  split
  · exact h
  split
  case h_1 heq =>
    rw [heq] at hfetch
    exact hfetch
  case h_2 heq =>
    rw [heq] at hfetch
    split
    · exact hfetch
    · split
      · exact hfetch
      · exact hfetch

end

lemma loadOne_stale {bytes : List UInt8} {modified days : Nat} {accepted : δ × σ}
    (h : FetchFails σ δ maxAge input ⟨some (bytes, modified), some signature⟩ e)
    (htransport : isTransportFailure e = true)
    (hage : age input ⟨some (bytes, modified), some signature⟩ = some days)
    (hread : input.readDocument = .ok ()) (hreadSignature : input.readSignature = true)
    (hlength : bytes.length ≤ indexMaxBytes)
    (hverify : verify input.url bytes (some signature) = .ok accepted) :
    (loadOne maxAge input ⟨some (bytes, modified), some signature⟩).1 =
      .ok ⟨input.url, accepted.1, accepted.2, .stale days e⟩ := by
  rw [loadOne, loadOne_fetches h.1, fetchIntoCache_of_fails h]
  simp only [Bool.false_eq_true, if_false, htransport, Bool.not_true, hage, readCached, readCapped,
    hread, if_neg (Nat.not_lt.mpr hlength), hreadSignature, if_true, hverify]

end

/-- In every run of loads, of URLs with different digests, whose signatures follow their documents
into the cache, and which find the cached copy usable when they fall back on it: every URL has no
entry or an accepted pair; whatever makes a fetch fail, the cached pair stays; and a transport
failure answers with that pair, marked stale. -/
theorem index_cache_intact {σ δ : Type} [IndexVerifier σ δ] [UrlDigest] (maxAge : Nat)
    (urls : Set String) (hdigests : Set.InjOn directory urls)
    {tr : List (LoadInput × Except IndexError (IndexSnapshot σ δ))} {cache : String → CacheEntry}
    (h : ExecWhen (loadStep maxAge) (Loads σ δ urls maxAge) emptyCache tr cache) :
    (∀ url ∈ urls, Intact σ δ url (cache (directory url))) ∧
      ∀ input after (outcome : Except IndexError (IndexSnapshot σ δ)),
        Loads σ δ urls maxAge cache input →
        loadStep maxAge cache input = some (after, outcome) →
        ∀ e, FetchFails σ δ maxAge input (cache (directory input.url)) e → after = cache ∧
          (isTransportFailure e = true → ∀ bytes modified signature,
              cache (directory input.url) = ⟨some (bytes, modified), some signature⟩ →
              ∃ accepted days, verify input.url bytes (some signature) = .ok accepted ∧
                outcome = .ok ⟨input.url, accepted.1, accepted.2, .stale days e⟩) := by
  have hintact : ∀ url ∈ urls, Intact σ δ url (cache (directory url)) := by
    refine h.invariant (fun _ cache => ∀ url ∈ urls, Intact σ δ url (cache (directory url)))
      (fun url _ => .inl rfl) ?_
    intro tr cache input after outcome hcache ⟨hin, hpublishes⟩ hstep url hurl
    obtain ⟨rfl, -⟩ := Prod.mk.inj (Option.some.inj hstep)
    by_cases hsame : directory url = directory input.url
    · rw [hdigests hurl hin hsame, update_self]
      exact loadOne_intact hpublishes.1 (hcache input.url hin)
    · rw [update_of_ne hsame]
      exact hcache url hurl
  refine ⟨hintact, fun input after outcome ⟨hin, hpublishes⟩ hstep e hfails => ?_⟩
  cases hstep
  refine ⟨?_, fun htransport bytes modified signature hentry => ?_⟩
  · rw [loadOne_of_fails hfails, update_eq_self]
  · have hcached : (cache (directory input.url)).document ≠ none := by simp [hentry]
    obtain ⟨hage, hread, hreadSignature⟩ := hpublishes.2 e hfails htransport hcached
    obtain ⟨days, hdays⟩ := Option.ne_none_iff_exists'.mp hage
    have hpair := hintact input.url hin
    rw [hentry] at hpair hfails hdays
    rcases hpair with hnone | ⟨bytes', modified', signature', heq, hlength, accepted, hverify⟩
    · cases hnone
    obtain ⟨hdocument, hsignature⟩ := CacheEntry.mk.inj heq
    cases hdocument
    cases hsignature
    refine ⟨accepted, days, hverify, ?_⟩
    rw [hentry]
    exact loadOne_stale hfails htransport hdays hread hreadSignature hlength hverify

/-! ## One index -/

/-- A signature is good when it repeats the document. -/
@[reducible] def echoVerifier : IndexVerifier Unit Nat where
  signer _ bytes signature := if signature = bytes then some () else none
  parse bytes := bytes.head?.map UInt8.toNat

/-- The directories of two URLs. -/
@[reducible] def twoDigests : UrlDigest where
  directory url :=
    if url = "index.json" then "7aebb122a6ea8a2749d60cb05b7e103c"
    else if url = "extra.json" then "d8afb96a5fc81b9b33418cab098a063e"
    else ""

/-- Everything works, and the document is written at this time. -/
def goodLoad (url : String) (written now : Nat) : LoadInput where
  url := url
  refresh := true
  now := now
  statWorks := true
  scratchWorks := true
  document := .ok ([7], written)
  signature := .ok [7]
  readFetched := .ok ()
  readFetchedSignature := true
  makeDirectory := true
  renameDocument := true
  renameSignature := true
  writeUrl := true
  readDocument := .ok ()
  readSignature := true

def offlineLoad (now : Nat) : LoadInput :=
  { goodLoad "index.json" now now with document := .error .sourceUnavailable }

def filledCache : String → CacheEntry :=
  update (update emptyCache (twoDigests.directory "index.json") ⟨some ([7], 100), some [7]⟩)
    (twoDigests.directory "extra.json") ⟨some ([7], 110), some [7]⟩

lemma good_publishes (url : String) (written now : Nat) (entry : CacheEntry) :
    @Publishes Unit Nat echoVerifier 60 entry (goodLoad url written now) := by
  refine ⟨fun _ _ => rfl, ?_⟩
  rintro e ⟨-, ⟨hscratch, -⟩ | ⟨-, hfetch⟩⟩
  · cases hscratch
  · cases hfetch

/-- Two loads fill the cache; the next one is offline and answers with the cached pair. -/
theorem offline_answers_stale : ∃ accepted days,
    (@loadStep Unit Nat echoVerifier twoDigests 60 filledCache (offlineLoad 130)).map Prod.snd =
      some (.ok ⟨"index.json", accepted, (), .stale days .sourceUnavailable⟩) := by
  let _ := echoVerifier
  let _ := twoDigests
  have hrun : ExecWhen (loadStep 60) (Loads Unit Nat {"index.json", "extra.json"} 60) emptyCache
      [(goodLoad "index.json" 100 100, .ok ⟨"index.json", 7, (), .fresh⟩),
        (goodLoad "extra.json" 110 110, .ok ⟨"extra.json", 7, (), .fresh⟩)] filledCache :=
    .next (.next .start ⟨.inl rfl, good_publishes ..⟩ rfl) ⟨.inr rfl, good_publishes ..⟩ rfl
  have hdigests : Set.InjOn directory {"index.json", "extra.json"} := by
    rintro a (rfl | rfl) b (rfl | rfl) h
    · rfl
    · exact absurd h (by decide)
    · exact absurd h (by decide)
    · rfl
  obtain ⟨-, hsteps⟩ := index_cache_intact 60 _ hdigests hrun
  have hfalls : Loads Unit Nat {"index.json", "extra.json"} 60 filledCache (offlineLoad 130) :=
    ⟨.inl rfl, fun _ _ => rfl, fun _ _ _ _ => ⟨by decide +kernel, rfl, rfl⟩⟩
  have hfails : FetchFails Unit Nat 60 (offlineLoad 130)
      (filledCache (directory "index.json")) .sourceUnavailable := ⟨.inl rfl, .inr ⟨rfl, rfl⟩⟩
  obtain ⟨-, hstale⟩ := hsteps _ _ _ hfalls rfl _ hfails
  obtain ⟨accepted, days, -, houtcome⟩ := hstale rfl [7] 100 [7] (by decide +kernel)
  exact ⟨accepted.1, days, congrArg some houtcome⟩

/-- The signature cannot be moved after its document: the cache holds a document without a
signature, and the next load, offline, fails. And a cached document whose time lies in the future is
no help to a load that is offline. -/
theorem publication_breaks_the_pair :
    let torn := (@loadOne Unit Nat echoVerifier 60
      { goodLoad "index.json" 100 100 with renameSignature := false } ⟨none, none⟩).2
    torn = ⟨some ([7], 100), none⟩ ∧ ¬ @Intact Unit Nat echoVerifier "index.json" torn ∧
      (@loadOne Unit Nat echoVerifier 60 (offlineLoad 130) torn).1 = .error .indexSignature ∧
      (@loadOne Unit Nat echoVerifier 60 (offlineLoad 90) ⟨some ([7], 100), some [7]⟩).1 =
        .error .sourceUnavailable := by
  refine ⟨rfl, ?_, rfl, rfl⟩
  rintro (hnone | ⟨bytes, modified, signature, heq, -⟩)
  · cases hnone
  · cases heq

end CriKey.Manager
