import CriKey.Store.HistoryFile

/-! The startup journal: a failure count and the active plugins, carried from one process to the
next through a file that is read only up to a size. -/
namespace CriKey.Store
open CriKey.Core CriKey.Query List Option Nat UInt32

def safeModeAfterFailures : Nat := 3

inductive StartupMode where
  | normal
  | safeMode (consecutiveFailures : UInt32)
deriving DecidableEq

structure StartupJournal where
  consecutiveFailures : UInt32 := 0
  active : List PluginId := []
  admitted : Option StartupMode := none
deriving DecidableEq

def journalMaxBytes : Nat := 64 * 1024

/-! The file. -/

def writePlugin (plugin : PluginId) : Text := writeJsonString plugin.name.toList

/-- The record of a failure count and a list of plugins. -/
def journalText (failures : UInt32) (active : List PluginId) : Text :=
  '\x7b' :: (writeKey "consecutive_failures" ++ (writeNumber failures.toNat ++
    ',' :: (writeKey "active" ++ (writeArray (active.map writePlugin) ++ ['\x7d']))))

def StartupJournal.serialize (journal : StartupJournal) : Text :=
  journalText journal.consecutiveFailures journal.active

def pluginString (cursor : Cursor) : Option (PluginId × Cursor) := do
  let (name, cursor) ← string cursor
  some (⟨String.ofList name⟩, cursor)

def stringArray : Cursor → Option (List PluginId × Cursor) := array pluginString

structure JournalFields where
  failures : Option UInt32 := none
  active : Option (List PluginId) := none

def journalField (key : Text) (fields : JournalFields) (cursor : Cursor) :
    Option (JournalFields × Cursor) :=
  if key = "consecutive_failures".toList && fields.failures.isNone then do
    let (failures, cursor) ← number cursor
    some ({ fields with failures := some failures }, cursor)
  else if key = "active".toList && fields.active.isNone then do
    let (active, cursor) ← stringArray cursor
    some ({ fields with active := some active }, cursor)
  else none

def parseJournal (text : Text) : Option (UInt32 × List PluginId) := do
  let cursor ← expect '\x7b' text
  let (fields, cursor) ← match consume '\x7d' cursor with
    | (true, cursor) => some ({}, cursor)
    | (false, cursor) => do
      let (fields, cursor) ← fieldLoop journalField cursor.length {} cursor
      let cursor ← expect '\x7d' cursor
      some (fields, cursor)
  if skipWhitespace cursor ≠ [] then none
  else do
  let failures ← fields.failures
  let active ← fields.active
  some (failures, active)

def readBounded (file : Option Text) (maxBytes : Nat) : Option Text := do
  let text ← file
  if byteLen text ≤ maxBytes then some text else none

namespace StartupJournal

def load (file : Option Text) : StartupJournal :=
  match (readBounded file journalMaxBytes).bind parseJournal with
  | some (failures, active) => { consecutiveFailures := failures, active }
  | none => {}

variable (journal : StartupJournal)

/-- `u32::saturating_add(1)`. -/
def nextFailures (failures : UInt32) : UInt32 := ofNat (min (failures.toNat + 1) (2 ^ 32 - 1))

def recordActivePlugins (plugins : List PluginId) : StartupJournal :=
  { journal with active := plugins }

/-- The mode the failures so far imply. -/
def impliedMode : StartupMode :=
  if safeModeAfterFailures ≤ journal.consecutiveFailures.toNat then
    .safeMode journal.consecutiveFailures
  else .normal

def beginStartup (plugins : List PluginId) : StartupJournal × StartupMode :=
  match journal.admitted with
  | some mode => (journal.recordActivePlugins plugins, mode)
  | none =>
    let mode := journal.impliedMode
    ({ consecutiveFailures := nextFailures journal.consecutiveFailures, active := plugins,
       admitted := some mode }, mode)

def markReady : StartupJournal := { journal with consecutiveFailures := 0, admitted := none }

def markCleanShutdown : StartupJournal := { journal with active := [] }

end StartupJournal

/-! Processes. -/

/-- The journal of the running process, and the file. -/
structure Host where
  journal : StartupJournal
  file : Option Text

inductive StartupOp where
  | begin (plugins : List PluginId)
  | record (plugins : List PluginId)
  | ready
  | cleanShutdown
  | save
  | restart

namespace Host

def step (host : Host) : StartupOp → Host
  | .begin plugins => { host with journal := (host.journal.beginStartup plugins).1 }
  | .record plugins => { host with journal := host.journal.recordActivePlugins plugins }
  | .ready => { host with journal := host.journal.markReady }
  | .cleanShutdown => { host with journal := host.journal.markCleanShutdown }
  | .save => { host with file := some host.journal.serialize }
  | .restart => { host with journal := .load host.file }

def run (host : Host) (ops : List StartupOp) : Host := ops.foldl step host

end Host

/-- A process that begins, saves and never gets ready, for each set of plugins. -/
def unfinishedStartups (sets : List (List PluginId)) : List StartupOp :=
  sets.flatMap fun plugins => [.begin plugins, .save, .restart]

/-! Reading the record back. -/

lemma pluginString_write (plugin : PluginId) : Reads pluginString (writePlugin plugin) plugin := by
  intro rest
  rw [pluginString, writePlugin, string_write]
  simp only [bind_eq_bind, bind_some, String.ofList_toList]

lemma stringArray_write (plugins : List PluginId) :
    Reads stringArray (writeArray (plugins.map writePlugin)) plugins := by
  refine array_write (fun plugin _ => pluginString_write plugin) fun plugin _ => ?_
  exact ⟨_, _, rfl, by decide, by decide⟩

lemma journalField_failures {fields : JournalFields} (h : fields.failures = none)
    (failures : UInt32) {rest : Text} (hr : NoDigit rest) :
    journalField "consecutive_failures".toList fields (writeNumber failures.toNat ++ rest) =
      some ({ fields with failures := some failures }, rest) := by
  rw [journalField, if_pos (by simp [h]), writeNumber, number_write failures hr]
  rfl

lemma journalField_active {fields : JournalFields} (h : fields.active = none)
    (active : List PluginId) (rest : Text) :
    journalField "active".toList fields (writeArray (active.map writePlugin) ++ rest) =
      some ({ fields with active := some active }, rest) := by
  rw [journalField, if_neg (by simp), if_pos (by simp [h]), stringArray_write]
  rfl

lemma parseJournal_write (failures : UInt32) (active : List PluginId) :
    parseJournal (journalText failures active) = some (failures, active) := by
  have hkey (rest : Text) : ∃ n, (writeKey "consecutive_failures" ++ rest).length = n + 2 := by
    have hlength : (writeKey "consecutive_failures").length = 23 := by decide
    refine ⟨rest.length + 21, ?_⟩
    rw [length_append]
    omega
  have hopen (rest : Text) : consume '\x7d' (writeKey "consecutive_failures" ++ rest) =
      (false, writeKey "consecutive_failures" ++ rest) := by
    rw [writeKey]
    exact consume_other (by decide) (by decide) _
  obtain ⟨fuel, hfuel⟩ := hkey (writeNumber failures.toNat ++
    ',' :: (writeKey "active" ++ (writeArray (active.map writePlugin) ++ ['\x7d'])))
  rw [journalText, parseJournal, expect_self (by decide)]
  simp only [bind_eq_bind, bind_some, hopen, hfuel]
  rw [fieldLoop_more (journalField_failures rfl _ (noDigit_cons (by decide) _)),
    fieldLoop_last (journalField_active rfl _ _)]
  rfl

namespace StartupJournal

lemma load_fits {failures : UInt32} {active : List PluginId}
    (h : byteLen (journalText failures active) ≤ journalMaxBytes) :
    load (some (journalText failures active)) = { consecutiveFailures := failures, active } := by
  rw [load, readBounded]
  simp only [bind_eq_bind, bind_some, if_pos h, parseJournal_write]

lemma load_oversized {text : Text} (h : journalMaxBytes < byteLen text) :
    load (some text) = {} := by
  rw [load, readBounded]
  simp only [bind_eq_bind, bind_some, if_neg (not_le.mpr h), bind_none]

lemma load_admitted (file : Option Text) : (load file).admitted = none := by
  rw [load]
  split <;> rfl

end StartupJournal

open StartupJournal

/-! Unfinished startups. -/

def failuresAfter (failures : UInt32) (n : Nat) : UInt32 :=
  ofNat (min (failures.toNat + n) (2 ^ 32 - 1))

lemma saturated_lt (n : Nat) : min n (2 ^ 32 - 1) < UInt32.size := by
  show min n (2 ^ 32 - 1) < 4294967296
  omega

lemma failuresAfter_toNat (failures : UInt32) (n : Nat) :
    (failuresAfter failures n).toNat = min (failures.toNat + n) (2 ^ 32 - 1) := by
  rw [failuresAfter, toNat_ofNat_of_lt' (saturated_lt _)]

lemma failuresAfter_zero (failures : UInt32) : failuresAfter failures 0 = failures := by
  apply UInt32.toNat_inj.mp
  have hlt := failures.toNat_lt
  rw [failuresAfter_toNat]
  omega

lemma nextFailures_failuresAfter (failures : UInt32) (n : Nat) :
    nextFailures (failuresAfter failures n) = failuresAfter failures (n + 1) := by
  apply UInt32.toNat_inj.mp
  rw [nextFailures, UInt32.toNat_ofNat_of_lt' (saturated_lt _), failuresAfter_toNat,
    failuresAfter_toNat]
  omega

lemma run_unfinished_concat (host : Host) (sets : List (List PluginId)) (plugins : List PluginId) :
    host.run (unfinishedStartups (sets ++ [plugins])) =
      (host.run (unfinishedStartups sets)).run [.begin plugins, .save, .restart] := by
  rw [unfinishedStartups, flatMap_append, Host.run, foldl_append]
  rfl

variable {host : Host}

lemma run_round (h : host.journal.admitted = none) (plugins : List PluginId) :
    (host.run [.begin plugins, .save, .restart]).journal =
      .load (some (journalText (nextFailures host.journal.consecutiveFailures) plugins)) := by
  simp only [Host.run, foldl_cons, foldl_nil, Host.step, beginStartup, h]
  rfl

/-- After every unfinished startup the next process reads the count and the plugins. -/
def Survives (host : Host) (sets : List (List PluginId)) : Prop :=
  ∀ before plugins after, sets = before ++ plugins :: after →
    (host.run (unfinishedStartups (before ++ [plugins]))).journal =
      { consecutiveFailures := failuresAfter host.journal.consecutiveFailures (before.length + 1),
        active := plugins }

/-- Every record that is to be saved is small enough to be read back. -/
def Readable (failures : UInt32) (sets : List (List PluginId)) : Prop :=
  ∀ before plugins after, sets = before ++ plugins :: after →
    byteLen (journalText (failuresAfter failures (before.length + 1)) plugins) ≤ journalMaxBytes

lemma journal_after (hloaded : host.journal.admitted = none) {sets : List (List PluginId)}
    (h : Survives host sets) : (host.run (unfinishedStartups sets)).journal.admitted = none ∧
      (host.run (unfinishedStartups sets)).journal.consecutiveFailures =
        failuresAfter host.journal.consecutiveFailures sets.length := by
  cases sets using reverseRecOn with
  | nil => exact ⟨hloaded, (failuresAfter_zero _).symm⟩
  | append_singleton earlier last =>
    rw [h earlier last [] rfl, length_append]
    exact ⟨rfl, rfl⟩

lemma Survives.before {sets before after : List (List PluginId)} (h : Survives host sets)
    (hsets : sets = before ++ after) : Survives host before := by
  intro earlier plugins later hbefore
  apply h earlier plugins (later ++ after)
  rw [hsets, hbefore, append_assoc, cons_append]

lemma journal_round (hloaded : host.journal.admitted = none) {before : List (List PluginId)}
    (h : Survives host before) (plugins : List PluginId) :
    (host.run (unfinishedStartups (before ++ [plugins]))).journal = .load (some (journalText
        (failuresAfter host.journal.consecutiveFailures (before.length + 1)) plugins)) := by
  obtain ⟨hadmitted, hfailures⟩ := journal_after hloaded h
  rw [run_unfinished_concat, run_round hadmitted, hfailures, nextFailures_failuresAfter]

lemma failuresAfter_succ_ne_zero (failures : UInt32) (n : Nat) :
    failuresAfter failures (n + 1) ≠ 0 := by
  intro hzero
  have hnat := congrArg toNat hzero
  rw [failuresAfter_toNat] at hnat
  simp only [UInt32.toNat_zero] at hnat
  omega

lemma survives_iff_readable (hloaded : host.journal.admitted = none) (sets : List (List PluginId)) :
    Survives host sets ↔ Readable host.journal.consecutiveFailures sets := by
  constructor
  · intro h before plugins after hsets
    by_contra hbig
    have hround := journal_round hloaded (h.before hsets) plugins
    rw [h before plugins after hsets, load_oversized (Nat.lt_of_not_le hbig)] at hround
    exact failuresAfter_succ_ne_zero _ _ (congrArg consecutiveFailures hround)
  · intro h
    induction sets using reverseRecOn with
    | nil =>
      intro before plugins after hsets
      exact absurd hsets.symm (by simp)
    | append_singleton sets last ih =>
      have hold : Survives host sets := by
        apply ih
        intro before plugins after hsets
        apply h before plugins (after ++ [last])
        rw [hsets, append_assoc, cons_append]
      intro before plugins after hsets
      cases after using reverseRecOn with
      | nil =>
        obtain ⟨hbefore, hlast⟩ := append_inj' hsets rfl
        have hplugins : last = plugins := singleton_inj.mp hlast
        subst hbefore hplugins
        rw [journal_round hloaded hold]
        exact load_fits (h sets last [] rfl)
      | append_singleton after final =>
        have hinit : sets = before ++ plugins :: after := by
          rw [← cons_append, ← append_assoc] at hsets
          exact (append_inj' hsets rfl).1
        exact hold before plugins after hinit

/-- From whatever a process loads, unfinished startups are counted and their plugins remembered
exactly as long as every record is small enough to be read back; and then the startup after the
threshold is in safe mode. -/
theorem unfinished_startups_survive (host : Host) (sets : List (List PluginId)) :
    (Survives (host.step .restart) sets ↔
      Readable (host.step .restart).journal.consecutiveFailures sets) ∧
    (Readable (host.step .restart).journal.consecutiveFailures sets → safeModeAfterFailures ≤
        (host.step .restart).journal.consecutiveFailures.toNat + sets.length →
      ∀ plugins, (((host.step .restart).run (unfinishedStartups sets)).journal.beginStartup
        plugins).2 = .safeMode (failuresAfter
          (host.step .restart).journal.consecutiveFailures sets.length)) := by
  have hloaded : (host.step .restart).journal.admitted = none := load_admitted _
  refine ⟨survives_iff_readable hloaded sets, ?_⟩
  intro hreadable hthreshold plugins
  have hsurvives := (survives_iff_readable hloaded sets).mpr hreadable
  obtain ⟨hadmitted, hfailures⟩ := journal_after hloaded hsurvives
  have hcount : safeModeAfterFailures ≤ (failuresAfter
      (host.step .restart).journal.consecutiveFailures sets.length).toNat := by
    rw [failuresAfter_toNat]
    simp only [safeModeAfterFailures] at hthreshold ⊢
    omega
  simp only [beginStartup, hadmitted, impliedMode, hfailures,
    if_pos hcount]

/-! Too many plugins. -/

lemma byteLen_writePlugins (plugins : List PluginId) (h : ∀ plugin ∈ plugins, plugin.name ≠ "") :
    4 * plugins.length ≤ costFrom writePlugin false plugins := by
  induction plugins with
  | nil => exact zero_le _
  | cons plugin plugins ih =>
    have hrest := ih fun p hp => h p (mem_cons_of_mem plugin hp)
    have hname : plugin.name.toList ≠ [] := by
      intro hnil
      exact h plugin mem_cons_self (String.toList_eq_nil_iff.mp hnil)
    have hbytes : 3 ≤ byteLen (writePlugin plugin) := by
      obtain ⟨c, name, hc⟩ := exists_cons_of_ne_nil hname
      have hescape : 1 ≤ byteLen (escapeChar c) := by
        have hne : escapeChar c ≠ [] := by
          unfold escapeChar
          split_ifs <;> simp
        exact pos_of_ne_zero fun hzero => hne (byteLen_eq_zero.mp hzero)
      have hquote : ('\x22' : Char).utf8Size = 1 := by decide
      rw [writePlugin, writeJsonString, hc]
      simp only [byteLen_cons, byteLen_append, flatMap_cons]
      omega
    rw [costFrom, length_cons]
    simp only [Bool.false_eq_true, if_false]
    omega

lemma journalText_oversized {failures : UInt32} {plugins : List PluginId}
    (h : ∀ plugin ∈ plugins, plugin.name ≠ "") (hmany : 16384 ≤ plugins.length) :
    journalMaxBytes < byteLen (journalText failures plugins) := by
  have hcost := byteLen_writePlugins plugins h
  have hfirst : costFrom writePlugin false plugins ≤ costFrom writePlugin true plugins + 1 := by
    cases plugins with
    | nil => exact zero_le _
    | cons plugin plugins =>
      simp only [costFrom, Bool.false_eq_true, if_false]
      omega
  have hkey : byteLen (writeKey "active") = 9 := by decide
  rw [journalText, writeArray]
  simp only [byteLen_cons, byteLen_append, byteLen_writeElements, journalMaxBytes]
  omega

lemma oversized_forgotten (hfresh : host.journal = {}) {plugins : List PluginId}
    (h : ∀ failures, journalMaxBytes < byteLen (journalText failures plugins)) (n : Nat) :
    (host.run (unfinishedStartups (List.replicate n plugins))).journal = {} := by
  induction n with
  | zero => exact hfresh
  | succ n ih =>
    rw [replicate_succ', run_unfinished_concat, run_round (by rw [ih])]
    exact load_oversized (h _)

/-- Twenty thousand plugins, named by their numbers. -/
def manyPlugins : List PluginId := (List.range 20000).map fun n => ⟨toString n⟩

/-- After three unfinished startups with many plugins nothing is remembered, and the next one
is not in safe mode. -/
theorem many_plugins_forgotten :
    let host := (Host.step ⟨{}, none⟩ .restart).run
      (unfinishedStartups (replicate 3 manyPlugins))
    host.journal.consecutiveFailures = 0 ∧ host.journal.active = [] ∧
      (host.journal.beginStartup manyPlugins).2 = .normal := by
  have hnames : ∀ plugin ∈ manyPlugins, plugin.name ≠ "" := by
    intro plugin hplugin
    obtain ⟨n, -, hn⟩ := List.mem_map.mp hplugin
    rw [← hn]
    intro hempty
    have hdigits := congrArg String.toList hempty
    rw [toString_eq_ofList_toDigits, String.toList_ofList] at hdigits
    exact toDigits_ne_nil hdigits
  have hlength : 16384 ≤ manyPlugins.length := by
    rw [manyPlugins, length_map, length_range]
    omega
  have hlarge : ∀ failures, journalMaxBytes < byteLen (journalText failures manyPlugins) :=
    fun _ => journalText_oversized hnames hlength
  intro host
  have hjournal : host.journal = {} := oversized_forgotten rfl hlarge 3
  rw [hjournal]
  exact ⟨rfl, rfl, rfl⟩

end CriKey.Store
