import CriKey.Base.Decimal
import CriKey.Base.SortedMap
import CriKey.Catalog.Updates
import CriKey.Core.Generation
import CriKey.Core.Identity
import CriKey.Platform.Target

/-! Discovered applications as catalog items, and what a launch reads back from an item. -/
namespace CriKey.Platform
open CriKey.Base CriKey.Core CriKey.Catalog List Option

structure DiscoveredApplication where
  name : String
  target : PlatformPath
  arguments : List String
  iconReference : Option String
  platformId : Option String
  workingDirectory : Option PlatformPath
deriving DecidableEq, Repr

def applicationLaunchActionId : String := "crikey.application.launch"

def maxApplicationArguments : Nat := 4096

def argumentCountKey : String := "application.argument.count"

def applicationWorkingDirectoryKey : String := "application.working_directory"

/-- `ARGUMENT_KEY_PREFIX`. -/
def argumentKeyStart : String := "application.argument."

def argumentKey (index : Nat) : String := argumentKeyStart ++ toString index

/-! ## Items -/

/-- The text after the last character that `cut` marks. -/
def afterLast (cut : Char → Bool) (text : List Char) : List Char := text.rtakeWhile (!cut ·)

/-- The name of the executable, without what follows its last dot. -/
def executableStem (target : PlatformPath) : Option String :=
  (fromUtf8 target.bytes).map fun text =>
    let name := afterLast (fun c => c == '/' || c == '\\') text.toList
    let extension := afterLast (· == '.') name
    if extension.length < name.length then
      String.ofList (name.take (name.length - extension.length - 1))
    else String.ofList name

def platformIdentifierAlias (platformId : String) : String :=
  let text := platformId.toList
  let ending := ".desktop".toList
  let identifier := if ending.isSuffixOf text then text.take (text.length - ending.length) else text
  String.ofList (afterLast (· == '.') identifier)

/-- Terms are trimmed; empty ones and repetitions are dropped. -/
def pushTerm (terms : List String) (term : String) : List String :=
  if trim term = "" || terms.contains (trim term) then terms else terms ++ [trim term]

def applicationSearchTerms (application : DiscoveredApplication) : List String :=
  let terms := pushTerm [] application.name
  let terms := ((executableStem application.target).map (pushTerm terms)).getD terms
  ((application.platformId.map platformIdentifierAlias).map (pushTerm terms)).getD terms

/-- The entries of `argument_metadata` in the order in which they are inserted. -/
def argumentEntries (arguments : List String) (workingDirectory : Option PlatformPath) :
    List (String × String) :=
  (argumentCountKey, toString arguments.length) ::
    (arguments.zipIdx.map (fun entry => (argumentKey entry.2, entry.1)) ++
      workingDirectory.toList.map fun path => (applicationWorkingDirectoryKey, encodeTarget path))

def argumentMetadata (arguments : List String) (workingDirectory : Option PlatformPath) :
    List (String × String) :=
  ofEntries (argumentEntries arguments workingDirectory)

def launchAction : Core.Action where
  actionId := ⟨applicationLaunchActionId⟩
  label := "Launch"
  description := "Open this application"
  applicableCategories := [.application]
  iconReference := none
  executionPolicy := .hostMediated

def applicationItem (plugin : PluginId) (application : DiscoveredApplication) : Item :=
  let target := encodeTarget application.target
  { stableId := .derived plugin .application target
    pluginId := plugin
    category := .application
    label := application.name
    description := ""
    searchTerms := applicationSearchTerms application
    target := target
    iconReference := application.iconReference
    argumentPolicy := .forbidden
    metadata := argumentMetadata application.arguments application.workingDirectory
    hitPolicy := .recorded
    scoreHint := 0
    actions := [launchAction] }

def applicationItems (plugin : PluginId) (discovered : List DiscoveredApplication) : List Item :=
  discovered.map (applicationItem plugin)

/-! ## Reading an item back -/

/-- The error texts of `TargetError`. -/
def TargetError.text : TargetError → String
  | .foreignPlatform tag =>
    "the target is tagged \"" ++ tag ++ "\", an encoding this build cannot reconstruct"
  | .malformedEscape offset =>
    "the % at byte " ++ toString offset ++ " introduces no valid escape"
  | .missingPlatformTag offset => "the % at byte " ++ toString offset ++
    " is shaped like a platform escape, but the target has no tag"

/-- The arguments from `index` on, each under its own key. -/
def readArguments (item : Item) (index : Nat) : Nat → Except CoreError (List String)
  | 0 => .ok []
  | count + 1 =>
    match item.metadata.lookup (argumentKey index) with
    | none => .error (.invalid ("application item is missing argument " ++ toString index))
    | some argument => do
      let arguments ← readArguments item (index + 1) count
      .ok (argument :: arguments)

def applicationArguments (item : Item) : Except CoreError (List String) :=
  match item.metadata.lookup argumentCountKey with
  | none => .error (.invalid "application item has no argument count")
  | some count =>
    match parseUnsigned (2 ^ 64) count.toList with
    | none => .error (.invalid "application argument count is not a whole number")
    | some count =>
      if maxApplicationArguments < count then
        .error (.capacityExceeded "application launch arguments")
      else readArguments item 0 count

def applicationWorkingDirectory (item : Item) : Except CoreError (Option PlatformPath) :=
  match item.metadata.lookup applicationWorkingDirectoryKey with
  | none => .ok none
  | some encoded =>
    match decodeTarget encoded with
    | .ok path => .ok (some path)
    | .error error => .error (.invalid ("application working directory is invalid: " ++ error.text))

/-! ## The metadata of one application -/

section
variable {arguments : List String} {workingDirectory : Option PlatformPath}

lemma argumentKey_injective : Function.Injective argumentKey := by
  intro i j h
  have hchars := congrArg String.toList h
  rw [argumentKey, argumentKey, String.toList_append, String.toList_append] at hchars
  have hdigits := append_cancel_left hchars
  rw [Nat.toString_eq_ofList_toDigits, Nat.toString_eq_ofList_toDigits, String.toList_ofList,
    String.toList_ofList] at hdigits
  rw [← Nat.ofDigitChars_ten_toDigits (n := i), hdigits, Nat.ofDigitChars_ten_toDigits]

lemma argumentKey_ne_count (index : Nat) : argumentKey index ≠ argumentCountKey := by
  intro h
  have hcount : argumentCountKey = argumentKeyStart ++ "count" := by decide
  have hchars := congrArg String.toList (h.trans hcount)
  rw [argumentKey, String.toList_append, String.toList_append] at hchars
  have hdigits := append_cancel_left hchars
  rw [Nat.toString_eq_ofList_toDigits, String.toList_ofList] at hdigits
  have hletter : 'c' ∈ Nat.toDigits 10 index := by
    rw [hdigits]
    decide
  exact absurd (Nat.isDigit_of_mem_toDigits (by omega) (by omega) hletter) (by decide)

lemma argumentKey_ne_directory (index : Nat) :
    argumentKey index ≠ applicationWorkingDirectoryKey := by
  intro h
  -- the keys part after "application."
  have hchars := congrArg (fun key => key.toList.take 13) h
  simp only [argumentKey, String.toList_append] at hchars
  rw [take_append_of_le_length (by decide)] at hchars
  exact absurd hchars (by decide)

lemma mem_argumentEntries {key value : String} :
    (key, value) ∈ argumentEntries arguments workingDirectory ↔
      (key = argumentCountKey ∧ value = toString arguments.length) ∨
      (∃ index, arguments[index]? = some value ∧ key = argumentKey index) ∨
      ∃ path, workingDirectory = some path ∧ key = applicationWorkingDirectoryKey ∧
        value = encodeTarget path := by
  simp only [argumentEntries, List.mem_cons, List.mem_append, List.mem_map, Prod.mk.injEq,
    Prod.exists, mem_toList, mem_zipIdx_iff_getElem?]
  constructor
  · rintro (hcount | ⟨argument, index, hget, rfl, rfl⟩ | ⟨path, hpath, rfl, rfl⟩)
    · exact .inl hcount
    · exact .inr (.inl ⟨index, hget, rfl⟩)
    · exact .inr (.inr ⟨path, hpath, rfl, rfl⟩)
  · rintro (hcount | ⟨index, hget, rfl⟩ | ⟨path, hpath, rfl, rfl⟩)
    · exact .inl hcount
    · exact .inr (.inl ⟨value, index, hget, rfl, rfl⟩)
    · exact .inr (.inr ⟨path, hpath, rfl, rfl⟩)

lemma lookup_argumentCount : (argumentMetadata arguments workingDirectory).lookup argumentCountKey =
    some (toString arguments.length) := by
  refine lookup_ofEntries (mem_argumentEntries.mpr (.inl ⟨rfl, rfl⟩)) fun entry hentry hkey => ?_
  rcases mem_argumentEntries.mp hentry with hcount | ⟨index, -, hindex⟩ | ⟨path, -, hdirectory, -⟩
  · exact hcount.2
  · exact absurd (hindex.symm.trans hkey) (argumentKey_ne_count index)
  · exact absurd (hkey.symm.trans hdirectory) (by decide)

lemma lookup_argument {index : Nat} {argument : String} (h : arguments[index]? = some argument) :
    (argumentMetadata arguments workingDirectory).lookup (argumentKey index) = some argument := by
  refine lookup_ofEntries (mem_argumentEntries.mpr (.inr (.inl ⟨index, h, rfl⟩)))
    fun entry hentry hkey => ?_
  rcases mem_argumentEntries.mp hentry with hcount | ⟨other, hget, hother⟩ |
    ⟨path, -, hdirectory, -⟩
  · exact absurd (hkey.symm.trans hcount.1) (argumentKey_ne_count index)
  · obtain rfl := argumentKey_injective (hkey.symm.trans hother)
    exact some.inj (hget.symm.trans h)
  · exact absurd (hkey.symm.trans hdirectory) (argumentKey_ne_directory index)

lemma lookup_workingDirectory :
    (argumentMetadata arguments workingDirectory).lookup applicationWorkingDirectoryKey =
      workingDirectory.map encodeTarget := by
  cases workingDirectory with
  | none =>
    refine lookup_ofEntries_of_notMem fun hmem => ?_
    obtain ⟨entry, hentry, hkey⟩ := mem_map.mp hmem
    rcases mem_argumentEntries.mp hentry with hcount | ⟨index, -, hindex⟩ | ⟨path, hpath, -, -⟩
    · exact absurd (hkey.symm.trans hcount.1) (by decide)
    · exact absurd (hindex.symm.trans hkey) (argumentKey_ne_directory index)
    · cases hpath
  | some path =>
    refine lookup_ofEntries (mem_argumentEntries.mpr (.inr (.inr ⟨path, rfl, rfl, rfl⟩)))
      fun entry hentry hkey => ?_
    rcases mem_argumentEntries.mp hentry with hcount | ⟨index, -, hindex⟩ |
      ⟨other, hother, -, hvalue⟩
    · exact absurd (hkey.symm.trans hcount.1) (by decide)
    · exact absurd (hindex.symm.trans hkey) (argumentKey_ne_directory index)
    · rw [hvalue, some.inj hother]

lemma readArguments_eq {item : Item}
    (hmetadata : item.metadata = argumentMetadata arguments workingDirectory)
    {index count : Nat} (h : index + count = arguments.length) :
    readArguments item index count = .ok (arguments.drop index) := by
  induction count generalizing index with
  | zero => rw [readArguments, drop_of_length_le (by omega)]
  | succ count ih =>
    have hlt : index < arguments.length := by omega
    have hnext : readArguments item (index + 1) count = .ok (arguments.drop (index + 1)) :=
      ih (by omega)
    rw [readArguments, hmetadata, lookup_argument (getElem?_eq_getElem hlt), hnext,
      drop_eq_getElem_cons hlt]
    rfl

end

/-! ## What is kept of a list of applications -/

section
variable (plugin : PluginId) (application : DiscoveredApplication)

lemma arguments_applicationItem (h : application.arguments.length ≤ maxApplicationArguments) :
    applicationArguments (applicationItem plugin application) = .ok application.arguments := by
  have hbound : application.arguments.length < 2 ^ 64 := by
    have hmax : maxApplicationArguments < 2 ^ 64 := by decide
    omega
  have hcount : parseUnsigned (2 ^ 64) (toString application.arguments.length).toList =
      some application.arguments.length := by
    rw [Nat.toString_eq_ofList_toDigits, String.toList_ofList, parseUnsigned_toDigits hbound]
  have hlookup : (applicationItem plugin application).metadata.lookup argumentCountKey =
      some (toString application.arguments.length) := lookup_argumentCount
  have hread : readArguments (applicationItem plugin application) 0 application.arguments.length =
      .ok (application.arguments.drop 0) := readArguments_eq rfl (Nat.zero_add _)
  rw [applicationArguments, hlookup]
  dsimp only
  rw [hcount]
  dsimp only
  rw [if_neg (Nat.not_lt.mpr h), hread, drop_zero]

lemma workingDirectory_applicationItem :
    applicationWorkingDirectory (applicationItem plugin application) =
      .ok application.workingDirectory := by
  have hlookup :
      (applicationItem plugin application).metadata.lookup applicationWorkingDirectoryKey =
      application.workingDirectory.map encodeTarget := lookup_workingDirectory
  rw [applicationWorkingDirectory, hlookup]
  cases application.workingDirectory with
  | none => rfl
  | some path =>
    dsimp only [map_some]
    rw [decode_encodeTarget]

end

lemma stableId_eq_iff (plugin : PluginId) (a b : DiscoveredApplication) :
    (applicationItem plugin a).stableId = (applicationItem plugin b).stableId ↔
      a.target = b.target := by
  constructor
  · intro h
    have htarget := congrArg decodeTarget (derived_inj h).2.2
    rw [decode_encodeTarget, decode_encodeTarget] at htarget
    exact Except.ok.inj htarget
  · intro h
    rw [applicationItem, applicationItem, h]

/-- An accepted publication holds one item for each target, where the target was first discovered
and with the application discovered last; each item gives back the target, the arguments and the
working directory of its application. Applications with different targets are therefore all there.
-/
theorem applications_by_target [Query.Unicode] {limits : CatalogLimits}
    {tr : List (Op × Except CatalogError Unit)} {catalog catalog' : MemoryCatalog}
    {owner : PluginId} {instanceId : Nat} {discovered : List DiscoveredApplication}
    (h : Exec step (.withLimits limits) tr catalog)
    (haccepted :
      step catalog (.apply owner instanceId .replace (applicationItems owner discovered)) =
      some (catalog', .ok ()))
    (harguments : ∀ application ∈ discovered, application.arguments.length ≤ 4096) :
    catalog'.slice owner =
        applicationItems owner (firstLast DiscoveredApplication.target discovered) ∧
      ((discovered.map DiscoveredApplication.target).Nodup →
        catalog'.slice owner = applicationItems owner discovered) ∧
      ∀ application ∈ discovered,
        decodeTarget (applicationItem owner application).target = .ok application.target ∧
        applicationArguments (applicationItem owner application) = .ok application.arguments ∧
        applicationWorkingDirectory (applicationItem owner application) =
          .ok application.workingDirectory := by
  obtain ⟨hsound, -, -⟩ := reachable limits h
  have hslice := (change_of_step hsound haccepted).accepted.1
  have hkept : catalog'.slice owner =
      applicationItems owner (firstLast DiscoveredApplication.target discovered) := by
    rw [hslice, reference, applicationItems, applicationItems]
    exact firstLast_map (stableId_eq_iff owner) discovered
  refine ⟨hkept, fun hnodup => ?_, fun application hmem => ?_⟩
  · rw [hkept, firstLast_of_nodup hnodup]
  · exact ⟨decode_encodeTarget application.target,
      arguments_applicationItem owner application (harguments application hmem),
      workingDirectory_applicationItem owner application⟩

/-- An application that the program at `path` starts when it is told which one. -/
def hosted (path name : String) : DiscoveredApplication where
  name := name
  target := ⟨bytesOf path⟩
  arguments := ["run", name]
  iconReference := none
  platformId := none
  workingDirectory := some ⟨bytesOf "/"⟩

/-- The first publication of a list of applications. -/
def publication (discovered : List DiscoveredApplication) : Op :=
  .apply ⟨"apps"⟩ 1 .replace (applicationItems ⟨"apps"⟩ discovered)

def accepted : Except CatalogError Unit → Bool
  | .ok () => true
  | .error _ => false

lemma publication_accepted (discovered : List DiscoveredApplication) (p : MemoryCatalog → Bool)
    (h : (@step Query.Unicode.ascii
      ((MemoryCatalog.withLimits .default).activateInstance ⟨"apps"⟩ 1).1
      (publication discovered)).any (fun r => accepted r.2 && p r.1) = true) :
    ∃ tr catalog catalog', Exec (@step Query.Unicode.ascii) (.withLimits .default) tr catalog ∧
      @step Query.Unicode.ascii catalog (publication discovered) = some (catalog', .ok ()) ∧
      p catalog' = true := by
  rw [Option.any_eq_true] at h
  obtain ⟨⟨catalog', answer⟩, hstep, hcheck⟩ := h
  rw [Bool.and_eq_true] at hcheck
  have hstart : Exec (@step Query.Unicode.ascii) (.withLimits .default) [] (.withLimits .default) :=
    .start
  have hactive := hstart.next (i := .activate ⟨"apps"⟩ 1) rfl
  cases answer with
  | error e => cases hcheck.1
  | ok u => exact ⟨_, _, catalog', hactive, hstep, hcheck.2⟩

/-- Two programs with one application each. -/
theorem two_programs_kept : ∃ tr catalog catalog',
    Exec (@step Query.Unicode.ascii) (.withLimits .default) tr catalog ∧
    @step Query.Unicode.ascii catalog
      (publication [hosted "/bin/a" "mail", hosted "/bin/b" "maps"]) =
      some (catalog', .ok ()) ∧
    catalog'.slice ⟨"apps"⟩ =
      applicationItems ⟨"apps"⟩ [hosted "/bin/a" "mail", hosted "/bin/b" "maps"] := by
  obtain ⟨tr, catalog, catalog', hexec, hstep, -⟩ :=
    publication_accepted [hosted "/bin/a" "mail", hosted "/bin/b" "maps"] (fun _ => true)
      (by decide +kernel)
  have hkept :=
    (@applications_by_target Query.Unicode.ascii _ _ _ _ _ _ _ hexec hstep (by decide)).2.1
  exact ⟨tr, catalog, catalog', hexec, hstep, hkept (by decide)⟩

/-- Two applications of one program have different arguments and one identity: the first is lost. -/
theorem shared_program_loses_one : ∃ tr catalog catalog',
    ((hosted "/bin/flatpak" "mail").target, (hosted "/bin/flatpak" "mail").arguments) ≠
      ((hosted "/bin/flatpak" "maps").target, (hosted "/bin/flatpak" "maps").arguments) ∧
    Exec (@step Query.Unicode.ascii) (.withLimits .default) tr catalog ∧
    @step Query.Unicode.ascii catalog
      (publication [hosted "/bin/flatpak" "mail", hosted "/bin/flatpak" "maps"]) =
        some (catalog', .ok ()) ∧
    catalog'.slice ⟨"apps"⟩ = [applicationItem ⟨"apps"⟩ (hosted "/bin/flatpak" "maps")] := by
  obtain ⟨tr, catalog, catalog', hexec, hstep, hslice⟩ :=
    publication_accepted [hosted "/bin/flatpak" "mail", hosted "/bin/flatpak" "maps"]
      (fun catalog => catalog.slice ⟨"apps"⟩ =
        [applicationItem ⟨"apps"⟩ (hosted "/bin/flatpak" "maps")]) (by decide +kernel)
  exact ⟨tr, catalog, catalog', by decide, hexec, hstep, of_decide_eq_true hslice⟩

end CriKey.Platform
