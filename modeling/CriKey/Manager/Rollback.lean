import CriKey.Manager.CrashSafety
import CriKey.Manager.Installer

/-! Rolling back what an install did. The version that was installed is retained under its own
name, so it comes back when the new one took the same name and nothing else that is retained
carries the id. -/
namespace CriKey.Manager
open CriKey.Base Function List Option Slots SwapFates Volume Removal Fate Ending

/-! ## What a working swap does -/

/-- The target has the replacement, the hold what is kept of the old version, and only the journal
may be touched besides. -/
structure Swapped (parent : FilePath) (name : String) (replacement hold : FilePath)
    (kept : Option Artifact) (v after : Volume) : Prop where
  placed : after (parent ++ [name]) = v replacement
  held : after hold = kept
  taken : after replacement = none
  unlogged : v (parent ++ [journalName name]) = none → after (parent ++ [journalName name]) = none
  same : ∀ path, path ≠ parent ++ [name] → path ≠ hold → path ≠ replacement →
    path ≠ parent ++ [journalName name] → after path = v path

section
variable {parent replacement hold scratch : FilePath} {name : String} {v after : Volume}
  {discard displaced : Bool}

lemma Removal.left_whole (artifact : Option Artifact) :
    Removal.left ⟨none, false⟩ artifact = none := by
  cases artifact with
  | none | some artifact => rfl

/-- What a working swap keeps of the old version: an empty directory is not worth keeping. -/
def keptOf (discard : Bool) : Option Artifact → Option Artifact
  | some (.dir []) => none
  | some artifact => if discard then none else some artifact
  | none => none

lemma keptOf_some {installed : Artifact} (h : installed ≠ .dir []) :
    keptOf discard (some installed) = if discard then none else some installed := by
  rw [keptOf.eq_def]
  split
  case h_1 heq => exact absurd (some.inj heq) h
  case h_2 heq => rw [some.inj heq]
  case h_3 heq => cases heq

variable (hplaced : Placed parent name replacement hold)
include hplaced

lemma Swapped.dropJournal {kept : Option Artifact}
    (h : Swapped parent name replacement hold kept v after) :
    Swapped parent name replacement hold kept v
      (Function.update after (parent ++ [journalName name]) none) where
  placed := by rw [update_of_ne journal_ne_target.symm, h.placed]
  held := by rw [update_of_ne hplaced.hold_ne_journal, h.held]
  taken := by rw [update_of_ne hplaced.replacement_ne_journal, h.taken]
  unlogged _ := update_self ..
  same path htarget hhold hrepl hjournal := by
    rw [update_of_ne hjournal, h.same path htarget hhold hrepl hjournal]

lemma Swapped.discardHold {kept : Option Artifact}
    (h : Swapped parent name replacement hold kept v after) :
    Swapped parent name replacement hold none v
      (Function.update after hold (Removal.left ⟨none, false⟩ (after hold))) where
  placed := by rw [update_of_ne hplaced.hold_ne_target.symm, h.placed]
  held := by rw [update_self, left_whole]
  taken := by rw [update_of_ne hplaced.replacement_ne_hold, h.taken]
  unlogged hnone := by rw [update_of_ne hplaced.hold_ne_journal.symm, h.unlogged hnone]
  same path htarget hhold hrepl hjournal := by
    rw [update_of_ne hhold, h.same path htarget hhold hrepl hjournal]

lemma exchange_swapped
    (h : exchange .working (parent ++ [name]) replacement hold
      (parent ++ [journalName name]) discard
      v = .returned after (.ok displaced)) :
    Swapped parent name replacement hold (if discard then none else v (parent ++ [name])) v after ∧
      after (parent ++ [journalName name]) = none := by
  -- either rename that fails ends the swap with an error
  rw [exchange] at h
  cases hdisplace : v.rename (parent ++ [name]) hold with
  | none =>
    rw [hdisplace] at h
    cases h
  | some aside =>
    rw [hdisplace] at h
    cases hactivate : aside.rename replacement (parent ++ [name]) with
    | none =>
      simp only [working, works_perform, hactivate, works_perform_none] at h
      cases hrestore : aside.rename hold (parent ++ [name]) with
      | none | some back => rw [hrestore] at h; cases h
    | some active =>
      simp only [working, works_perform, hactivate] at h
      obtain rfl := rename_eq_some hdisplace
      obtain rfl := rename_eq_some hactivate
      have hactive : Swapped parent name replacement hold (v (parent ++ [name])) v
          (move (move v (parent ++ [name]) hold) replacement (parent ++ [name])) := by
        refine ⟨?_, ?_, move_source, fun hnone => ?_, fun path htarget hhold hrepl _ => ?_⟩
        · rw [move_target hplaced.replacement_ne_target.symm,
            move_of_ne hplaced.replacement_ne_target hplaced.replacement_ne_hold]
        · rw [move_of_ne hplaced.replacement_ne_hold.symm hplaced.hold_ne_target,
            move_target hplaced.hold_ne_target]
        · rw [move_of_ne hplaced.replacement_ne_journal.symm journal_ne_target,
            move_of_ne journal_ne_target hplaced.hold_ne_journal.symm, hnone]
        · rw [move_of_ne hrepl htarget, move_of_ne htarget hhold]
      have hdropped := hactive.dropJournal hplaced
      cases discard with
      | false =>
        obtain rfl := (returned.inj h).1
        exact ⟨hdropped, update_self ..⟩
      | true =>
        obtain rfl := (returned.inj h).1
        refine ⟨hdropped.discardHold hplaced, ?_⟩
        rw [update_of_ne hplaced.hold_ne_journal.symm, update_self]

lemma swapOver_swapped (hfree : v hold = none)
    (h : swapOver .working parent name replacement hold discard v =
      .returned after (.ok displaced)) :
    Swapped parent name replacement hold (keptOf discard (v (parent ++ [name]))) v after := by
  have hsimple : ∀ u : Volume, (∀ path, path ≠ parent ++ [name] → u path = v path) →
      u.rename replacement (parent ++ [name]) = some after →
      Swapped parent name replacement hold none v after := by
    intro u hu hrename
    obtain rfl := rename_eq_some hrename
    refine ⟨?_, ?_, move_source, fun hnone => ?_, fun path htarget _ hrepl _ => ?_⟩
    · rw [move_target hplaced.replacement_ne_target.symm, hu _ hplaced.replacement_ne_target]
    · rw [move_of_ne hplaced.replacement_ne_hold.symm hplaced.hold_ne_target,
        hu _ hplaced.hold_ne_target, hfree]
    · rw [move_of_ne hplaced.replacement_ne_journal.symm journal_ne_target,
        hu _ journal_ne_target, hnone]
    · rw [move_of_ne hrepl htarget, hu _ htarget]
  rw [swapOver] at h
  cases hv : v (parent ++ [name]) with
  | none =>
    have hstate : inspectTarget v (parent ++ [name]) = .missing := by rw [inspectTarget, hv]
    simp only [working, works_perform, hstate] at h
    cases hrename : v.rename replacement (parent ++ [name]) with
    | none => rw [hrename] at h; cases h
    | some u =>
      rw [hrename] at h
      obtain rfl := (returned.inj h).1
      exact hsimple v (fun _ _ => rfl) hrename
  | some installed =>
    by_cases hempty : installed = .dir []
    · have hstate : inspectTarget v (parent ++ [name]) = .emptyDirectory := by
        rw [inspectTarget, hv, hempty]
      simp only [working, works_perform, hstate] at h
      cases hrename : rename (update v (parent ++ [name]) none) replacement (parent ++ [name]) with
      | none => rw [hrename] at h; cases h
      | some u =>
        rw [hrename] at h
        obtain rfl := (returned.inj h).1
        rw [hempty]
        exact hsimple _ (fun path hne => update_of_ne hne ..) hrename
    · simp only [working, works_perform, inspectTarget_present hv hempty, writeSwapJournal] at h
      cases hjournal : v (parent ++ [journalName name]) with
      | some a =>
        rw [createNew, hjournal] at h
        cases h
      | none =>
        rw [createNew, hjournal] at h
        obtain ⟨hswapped, hunlogged⟩ := exchange_swapped hplaced h
        rw [update_idem] at hswapped
        rw [keptOf_some hempty]
        refine ⟨?_, ?_, hswapped.taken, fun _ => hunlogged, fun path htarget hhold hrepl hlog => ?_⟩
        · rw [hswapped.placed, update_of_ne hplaced.replacement_ne_journal]
        · rw [hswapped.held, update_of_ne journal_ne_target.symm, hv]
        · rw [hswapped.same path htarget hhold hrepl hlog, update_of_ne hlog]

lemma swapIntoPlace_some_swapped
    (h : swapIntoPlace .working parent name replacement (some hold) scratch v =
      .returned after (.ok displaced)) :
    Swapped parent name replacement hold (keptOf false (v (parent ++ [name]))) v after := by
  have hcleared : update v hold (left ⟨none, false⟩ (v hold)) hold = none := by
    rw [update_self, left_whole]
  have hsame : ∀ path, path ≠ hold → update v hold (left ⟨none, false⟩ (v hold)) path = v path :=
    fun path hne => update_of_ne hne ..
  have hswapped := swapOver_swapped hplaced hcleared h
  rw [hsame _ hplaced.hold_ne_target.symm] at hswapped
  refine ⟨?_, hswapped.held, hswapped.taken, fun hnone => hswapped.unlogged ?_,
    fun path htarget hhold hrepl hlog => ?_⟩
  · rw [hswapped.placed, hsame _ hplaced.replacement_ne_hold]
  · rw [hsame _ hplaced.hold_ne_journal.symm, hnone]
  · rw [hswapped.same path htarget hhold hrepl hlog, hsame path hhold]

end

/-! ## The store -/

section
variable {data : FilePath} {kind : PluginKind} {id name : String} {artifact : Artifact}
  {v after : Volume}

/-- No swap of the store's plugins is unfinished. -/
def Quiet (data : FilePath) (v : Volume) : Prop :=
  ∀ kind journal name, targetName journal = some name → v (pluginDir data kind ++ [journal]) = none

lemma recoverInterruptedSwaps_quiet (kind : PluginKind) (h : Quiet data v)
    (listing : List String) : recoverInterruptedSwaps (pluginDir data kind) listing v = v := by
  induction listing with
  | nil => rfl
  | cons journal listing ih =>
    have hsame : recoverJournal (pluginDir data kind) v journal = v := by
      rw [recoverJournal]
      split
      case h_1 bytes name hbytes hname =>
        rw [h kind journal name hname] at hbytes
        cases hbytes
      case h_2 => rfl
    rw [recoverInterruptedSwaps, foldl_cons, hsame]
    exact ih

lemma acquire_quiet (h : Quiet data v) (listing : PluginKind → List String) :
    acquire data listing v = v := by
  rw [acquire]
  induction PluginKind.all with
  | nil => rfl
  | cons kind kinds ih => rw [foldl_cons, recoverInterruptedSwaps_quiet kind h, ih]

/-- A hidden name that is free and is no journal's. -/
structure Temporary (data : FilePath) (kind : PluginKind) (v : Volume) (name : String) : Prop where
  hidden : isHidden name = true
  plain : targetName name = none
  free : v (pluginDir data kind ++ [name]) = none

lemma pluginDir_ne_previousRoot {kind' : PluginKind} {a b : String} :
    pluginDir data kind ++ [a] ≠ previousRoot data kind' ++ [b] := by
  intro heq
  have hlength := congrArg length heq
  simp [pluginDir, previousRoot] at hlength

lemma entry_of_path {kind' : PluginKind} {a b : String}
    (h : pluginDir data kind ++ [a] = pluginDir data kind' ++ [b]) : a = b := by
  have hlast := congrArg getLast? h
  simpa using hlast

lemma isHidden_journalName (name : String) : isHidden (journalName name) = true := by
  rw [isHidden, journalName]
  simp

lemma hidden_of_targetName {journal : String} (h : targetName journal = some name) :
    isHidden journal = true := by
  rw [journalName_of_targetName h, isHidden_journalName]

lemma targetName_of_not_hidden (h : isHidden name = false) : targetName name = none := by
  cases htarget : targetName name with
  | none => rfl
  | some entry =>
    rw [hidden_of_targetName htarget] at h
    cases h

lemma Temporary.ne_journal (h : Temporary data kind v name) {entry : String} (hne : entry ≠ "") :
    name ≠ journalName entry := by
  intro heq
  have hplain := h.plain
  rw [heq, targetName_journalName hne] at hplain
  cases hplain

lemma Temporary.ne_of_not_hidden (h : Temporary data kind v name) {entry : String}
    (hentry : isHidden entry = false) : name ≠ entry := by
  intro heq
  have hhidden := h.hidden
  rw [heq, hentry] at hhidden
  cases hhidden

lemma safeIdComponent_iff (h : safeIdComponent id = true) : id ≠ "" ∧ isHidden id = false := by
  simp only [safeIdComponent, Bool.and_eq_true, decide_eq_true_eq, Bool.not_eq_true'] at h
  exact ⟨h.1.1.1, h.1.1.2⟩

lemma rootName_plain (kind : PluginKind) (artifact : Artifact) (h : safeIdComponent id = true) :
    rootName kind id artifact ≠ "" ∧ isHidden (rootName kind id artifact) = false := by
  obtain ⟨hne, hvisible⟩ := safeIdComponent_iff h
  have hsuffixed : id ++ legacySuffix ≠ "" ∧ isHidden (id ++ legacySuffix) = false := by
    have hchars : id.toList ≠ [] := by simpa using hne
    refine ⟨by simp [hne], ?_⟩
    rw [isHidden, String.toList_append, head?_append_of_ne_nil _ hchars]
    exact hvisible
  rw [rootName.eq_def]
  split
  · split
    · exact hsuffixed
    · exact ⟨hne, hvisible⟩
  · exact ⟨hne, hvisible⟩

lemma alternate_ne_rootName {other : String} (h : alternate kind id artifact = some other) :
    other ≠ rootName kind id artifact := by
  have hlonger : id ≠ id ++ legacySuffix := by
    intro heq
    have hlength := congrArg String.length heq
    rw [String.length_append] at hlength
    have hsuffix : legacySuffix.length = 19 := by decide +kernel
    omega
  rw [alternate.eq_def] at h
  split at h
  · split at h
    · exact some.inj h ▸ hlonger
    · cases h
  · split at h
    · exact some.inj h ▸ hlonger.symm
    · cases h

lemma install_placed {staging : String} (artifact : Artifact) (hsafe : safeIdComponent id = true)
    (hstaging : Temporary data kind v staging) :
    Placed (pluginDir data kind) (rootName kind id artifact) (pluginDir data kind ++ [staging])
      (previousRoot data kind ++ [rootName kind id artifact]) := by
  obtain ⟨hne, hvisible⟩ := rootName_plain kind artifact hsafe
  refine ⟨hne, targetName_of_not_hidden hvisible, fun entry heq => ?_, ?_, ?_, ?_, ?_, ?_⟩
  · exact absurd heq.symm pluginDir_ne_previousRoot
  · exact pluginDir_ne_previousRoot.symm
  · exact pluginDir_ne_previousRoot.symm
  · exact fun heq => hstaging.ne_of_not_hidden hvisible (entry_of_path heq)
  · exact fun heq => hstaging.ne_journal hne (entry_of_path heq)
  · exact pluginDir_ne_previousRoot

lemma rollback_placed {scratch : String} (hne : name ≠ "") (hvisible : isHidden name = false)
    (hscratch : Temporary data kind v scratch) :
    Placed (pluginDir data kind) name (previousRoot data kind ++ [name])
      (pluginDir data kind ++ [scratch]) := by
  refine ⟨hne, targetName_of_not_hidden hvisible, fun entry heq => ?_, ?_, ?_, ?_, ?_, ?_⟩
  · exact entry_of_path heq ▸ hscratch.plain
  · exact fun heq => hscratch.ne_of_not_hidden hvisible (entry_of_path heq)
  · exact fun heq => hscratch.ne_journal hne (entry_of_path heq)
  · exact pluginDir_ne_previousRoot.symm
  · exact pluginDir_ne_previousRoot.symm
  · exact pluginDir_ne_previousRoot.symm

lemma artifactId_visible (h : artifactId name = some id) : isHidden name = false := by
  cases hhidden : isHidden name with
  | false => rfl
  | true =>
    rw [artifactId, if_pos hhidden] at h
    cases h

lemma artifactId_ne_empty (hid : id ≠ "") (h : artifactId name = some id) : name ≠ "" := by
  rintro rfl
  have hempty : artifactId "" = some "" := by decide +kernel
  rw [hempty] at h
  exact hid (some.inj h).symm

lemma findPrevious_eq_some {retained : List String} : findPrevious id retained = some name ↔
    name ∈ retained ∧ artifactId name = some id ∧
      ∀ a ∈ retained.takeWhile (· ≠ name), artifactId a ≠ some id := by
  induction retained with
  | nil => simp [findPrevious]
  | cons a rest ih =>
    rw [findPrevious] at ih ⊢
    by_cases hname : a = name
    · subst hname
      by_cases hid : artifactId a = some id
      · simp [hid]
      · simp [hid, ih]
    · by_cases hid : artifactId a = some id
      · simp [hid, hname]
      · simp [hid, hname, Ne.symm hname, ih]

structure Installed (data : FilePath) (kind : PluginKind) (id : String) (artifact : Artifact)
    (v after : Volume) : Prop where
  safe : safeIdComponent id = true
  placed : after (pluginDir data kind ++ [rootName kind id artifact]) = some artifact
  retained : after (previousRoot data kind ++ [rootName kind id artifact]) =
    keptOf false (v (pluginDir data kind ++ [rootName kind id artifact]))
  removed : ∀ other, alternate kind id artifact = some other →
    after (pluginDir data kind ++ [other]) = none
  same : ∀ other, other ≠ rootName kind id artifact → alternate kind id artifact ≠ some other →
    isHidden other = false →
      after (pluginDir data kind ++ [other]) = v (pluginDir data kind ++ [other])
  others : ∀ other, other ≠ rootName kind id artifact →
    after (previousRoot data kind ++ [other]) = v (previousRoot data kind ++ [other])
  quiet : Quiet data after

lemma dropAlternate_same {path : FilePath}
    (h : ∀ other, alternate kind id artifact = some other → path ≠ pluginDir data kind ++ [other]) :
    dropAlternate data kind id artifact v path = v path := by
  cases halt : alternate kind id artifact with
  | some other =>
    rw [dropAlternate, halt]
    exact update_of_ne (h other halt) ..
  | none => rw [dropAlternate, halt]

lemma dropAlternate_removed {other : String} (h : alternate kind id artifact = some other) :
    dropAlternate data kind id artifact v (pluginDir data kind ++ [other]) = none := by
  rw [dropAlternate, h]
  exact update_self ..

lemma install_installed {listing : PluginKind → List String} {staging : String}
    (hquiet : Quiet data v) (hstaging : Temporary data kind v staging)
    (h : install data listing kind id artifact staging v = .ok after) :
    Installed data kind id artifact v after := by
  rw [install, acquire_quiet hquiet] at h
  split at h
  case isTrue => cases h
  case isFalse hsafe =>
    have hsafe : safeIdComponent id = true := by simpa using hsafe
    obtain ⟨hne, hvisible⟩ := rootName_plain kind artifact hsafe
    have hplaced := install_placed artifact hsafe hstaging
    simp only at h
    split at h
    case h_1 swapped displaced hswap =>
      obtain rfl := Except.ok.inj h
      have hswapped := swapIntoPlace_some_swapped hplaced hswap
      have hstaged : ∀ path, path ≠ pluginDir data kind ++ [staging] →
          update v (pluginDir data kind ++ [staging]) (some artifact) path = v path :=
        fun path hpath => update_of_ne hpath ..
      have hroot : pluginDir data kind ++ [rootName kind id artifact] ≠
          pluginDir data kind ++ [staging] :=
        fun heq => hstaging.ne_of_not_hidden hvisible (entry_of_path heq).symm
      refine ⟨hsafe, ?_, ?_, fun other hother => dropAlternate_removed hother,
        fun other hother halt hshown => ?_, fun other hother => ?_,
        fun kind' journal entry hjournal => ?_⟩
      · rw [dropAlternate_same fun other hother heq =>
          alternate_ne_rootName hother (entry_of_path heq).symm, hswapped.placed, update_self]
      · rw [dropAlternate_same fun other _ => pluginDir_ne_previousRoot.symm,
          hswapped.held, hstaged _ hroot]
      · rw [dropAlternate_same fun other' hother' heq =>
          halt (by rw [hother', entry_of_path heq])]
        rw [hswapped.same, hstaged]
        · exact fun heq => hstaging.ne_of_not_hidden hshown (entry_of_path heq).symm
        · exact fun heq => hother (entry_of_path heq)
        · exact pluginDir_ne_previousRoot
        · exact fun heq => hstaging.ne_of_not_hidden hshown (entry_of_path heq).symm
        · intro heq
          rw [entry_of_path heq, isHidden_journalName] at hshown
          cases hshown
      · rw [dropAlternate_same fun other' _ => pluginDir_ne_previousRoot.symm,
          hswapped.same, hstaged]
        · exact pluginDir_ne_previousRoot.symm
        · exact pluginDir_ne_previousRoot.symm
        · exact fun heq => hother (by simpa using heq)
        · exact pluginDir_ne_previousRoot.symm
        · exact pluginDir_ne_previousRoot.symm
      · -- whatever is named like a journal was not there, or is this swap's own
        have hpath : pluginDir data kind' ++ [journal] ≠ pluginDir data kind ++ [staging] := by
          intro heq
          rw [entry_of_path heq, hstaging.plain] at hjournal
          cases hjournal
        have hbefore := hquiet kind' journal entry hjournal
        by_cases halt : ∃ other, alternate kind id artifact = some other ∧
            pluginDir data kind' ++ [journal] = pluginDir data kind ++ [other]
        · obtain ⟨other, hother, heq⟩ := halt
          rw [heq, dropAlternate_removed hother]
        rw [dropAlternate_same fun other hother heq => halt ⟨other, hother, heq⟩]
        by_cases hown : pluginDir data kind' ++ [journal] =
            pluginDir data kind ++ [journalName (rootName kind id artifact)]
        · rw [hown] at hpath hbefore ⊢
          exact hswapped.unlogged ((hstaged _ hpath).trans hbefore)
        rw [hswapped.same _ ?_ pluginDir_ne_previousRoot hpath hown, hstaged _ hpath, hbefore]
        intro heq
        rw [← entry_of_path heq, hidden_of_targetName hjournal] at hvisible
        cases hvisible
    case h_2 => cases h

end

/-! ## Rolling back -/

section
variable [ManifestIds] {data : FilePath} {kind : PluginKind} {id name scratch : String}
  {listing : PluginKind → List String} {retained : List String} {artifact old : Artifact}
  {v after : Volume}

/-- An entry of the store is a plugin with this id. -/
def Carries (data : FilePath) (kind : PluginKind) (id : String) (v : Volume)
    (name : String) : Prop :=
  describe kind name (v (pluginDir data kind ++ [name])) = .ok (some id)

/-- At most one entry has the id, and a rollback brings back exactly the artifact that was installed
under this name before. -/
def RollsBack (data : FilePath) (listing : PluginKind → List String) (kind : PluginKind)
    (id : String) (retained : List String) (scratch name : String) (old : Artifact) (v : Volume) :
    Prop :=
  (∀ a b, Carries data kind id v a → Carries data kind id v b → a = b) ∧
    ∃ after, rollback data listing kind id retained scratch v = .ok (name, after) ∧
      after (pluginDir data kind ++ [name]) = some old ∧
      ∀ a, Carries data kind id after a ↔ a = name

lemma Carries.visible (h : Carries data kind id v name) : isHidden name = false := by
  cases hhidden : isHidden name with
  | false => rfl
  | true =>
    rw [Carries, describe, artifactId, if_pos hhidden] at h
    cases h

lemma describe_none (h : describe kind name none = .ok (some id)) : False := by
  rw [describe] at h
  split at h
  · cases h
  · cases kind with
    | legacy | modern | native => cases h

lemma rollback_restored (hquiet : Quiet data v) (hid : id ≠ "")
    (hscratch : Temporary data kind v scratch)
    (h : rollback data listing kind id retained scratch v = .ok (name, after)) :
    findPrevious id retained = some name ∧
      after (pluginDir data kind ++ [name]) = v (previousRoot data kind ++ [name]) ∧
      ∀ other, other ≠ name → isHidden other = false →
        after (pluginDir data kind ++ [other]) = v (pluginDir data kind ++ [other]) := by
  rw [rollback, acquire_quiet hquiet] at h
  split at h
  case h_1 => cases h
  case h_2 found hfound =>
    split at h
    case h_2 => cases h
    case h_1 swapped displaced hswap =>
      split at h
      case h_2 => cases h
      case h_1 =>
        obtain ⟨rfl, rfl⟩ := Prod.mk.inj (Except.ok.inj h)
        obtain ⟨-, hartifact, -⟩ := findPrevious_eq_some.mp hfound
        have hvisible := artifactId_visible hartifact
        have hplaced := rollback_placed (artifactId_ne_empty hid hartifact) hvisible hscratch
        have hswapped := swapOver_swapped hplaced hscratch.free hswap
        refine ⟨hfound, hswapped.placed, fun other hother hshown => ?_⟩
        refine hswapped.same _ (fun heq => hother (entry_of_path heq))
          (fun heq => hscratch.ne_of_not_hidden hshown (entry_of_path heq).symm)
          pluginDir_ne_previousRoot fun heq => ?_
        rw [entry_of_path heq, isHidden_journalName] at hshown
        cases hshown

lemma exists_rollback {installed : Artifact} {found : String}
    (listing : PluginKind → List String) (hquiet : Quiet data v)
    (hid : id ≠ "") (hscratch : Temporary data kind v scratch)
    (hfound : findPrevious id retained = some name)
    (hinstalled : v (pluginDir data kind ++ [name]) = some installed)
    (hretained : v (previousRoot data kind ++ [name]) = some old)
    (hdescribe : describe kind name (some old) = .ok (some found)) :
    ∃ after, rollback data listing kind id retained scratch v = .ok (name, after) := by
  obtain ⟨-, hartifact, -⟩ := findPrevious_eq_some.mp hfound
  have hne := artifactId_ne_empty hid hartifact
  have hvisible := artifactId_visible hartifact
  have hplaced := rollback_placed hne hvisible hscratch
  have hjournal := hquiet kind _ _ (targetName_journalName hne)
  obtain ⟨after, displaced, hswap, hplace⟩ : ∃ after displaced, swapOver .working
      (pluginDir data kind) name (previousRoot data kind ++ [name])
      (pluginDir data kind ++ [scratch])
      true v = .returned after (.ok displaced) ∧ after (pluginDir data kind ++ [name]) = some old :=
    swapOver_working hplaced hinstalled hjournal hscratch.free hretained
  refine ⟨after, ?_⟩
  have hgoes : swapIntoPlace .working (pluginDir data kind) name (previousRoot data kind ++ [name])
      none (pluginDir data kind ++ [scratch]) v = .returned after (.ok displaced) := hswap
  rw [rollback, acquire_quiet hquiet, hfound]
  simp only [hgoes, hplace, hdescribe]

/-- Installing a new artifact and rolling back brings back the one that was installed exactly when
the new one took its name, it is more than an empty directory, no artifact of the id was installed
under a third name, and the name carries the id, which none of a retained one listed before does. -/
theorem rollback_restores_iff (data : FilePath) (before later : PluginKind → List String)
    (kind : PluginKind) (id : String) (new : Artifact) (staging scratch name : String)
    (old : Artifact) (retained : List String) (v after : Volume) (hquiet : Quiet data v)
    (hinstalled : v (pluginDir data kind ++ [name]) = some old)
    (hcarries : Carries data kind id v name)
    (hnew : describe kind (rootName kind id new) (some new) = .ok (some id))
    (hstaging : Temporary data kind v staging)
    (hinstall : install data before kind id new staging v = .ok after)
    (hscratch : Temporary data kind after scratch)
    (hretained : ∀ a, a ∈ retained ↔ after (previousRoot data kind ++ [a]) ≠ none) :
    RollsBack data later kind id retained scratch name old after ↔
      name = rootName kind id new ∧ old ≠ .dir [] ∧
        (∀ a, Carries data kind id v a → a = name ∨ alternate kind id new = some a) ∧
        artifactId name = some id ∧
        ∀ a ∈ retained.takeWhile (· ≠ name), artifactId a ≠ some id := by
  have hafter := install_installed hquiet hstaging hinstall
  have hid := (safeIdComponent_iff hafter.safe).1
  have hroot : Carries data kind id after (rootName kind id new) := by
    rw [Carries, hafter.placed, hnew]
  constructor
  · rintro ⟨hunique, rolled, hrollback, hold, hrolled⟩
    obtain ⟨hfound, hplace, hsame⟩ := rollback_restored hafter.quiet hid hscratch hrollback
    have hname : name = rootName kind id new := by
      by_contra hne
      -- the new artifact is still there after the rollback
      have hstill : Carries data kind id rolled (rootName kind id new) := by
        rw [Carries, hsame _ (Ne.symm hne) hroot.visible]
        exact hroot
      exact hne ((hrolled _).mp hstill).symm
    obtain ⟨hmem, hfirst⟩ := findPrevious_eq_some.mp hfound
    refine ⟨hname, fun hempty => ?_, fun a ha => ?_, hfirst⟩
    · have hgone := hafter.retained
      rw [← hname, hinstalled, hempty] at hgone
      exact (hretained name).mp hmem hgone
    · by_contra hthird
      obtain ⟨hne, halt⟩ := not_or.mp hthird
      have hstays : Carries data kind id after a := by
        rw [Carries, hafter.same a (hname ▸ hne) halt ha.visible]
        exact ha
      exact hne ((hunique a _ hstays hroot).trans hname.symm)
  · rintro ⟨hname, hcomplete, hthird, hfirst⟩
    have hkeeps := hafter.retained
    rw [← hname, hinstalled, keptOf_some hcomplete, if_neg Bool.false_ne_true] at hkeeps
    have hfound := findPrevious_eq_some.mpr ⟨(hretained name).mpr (by simp [hkeeps]), hfirst⟩
    have hdescribe : describe kind name (some old) = .ok (some id) := by
      rw [← hinstalled]
      exact hcarries
    have hplaced := hafter.placed
    rw [← hname] at hplaced
    -- every other entry is as it was before the install, or gone
    have hothers : ∀ a, Carries data kind id after a → a = name := by
      intro a ha
      by_contra hne
      by_cases halt : alternate kind id new = some a
      · rw [Carries, hafter.removed a halt] at ha
        exact describe_none ha
      · have hbefore := hafter.same a (hname ▸ hne) halt ha.visible
        rw [Carries, hbefore] at ha
        exact (hthird a ha).elim hne halt
    refine ⟨fun a b ha hb => (hothers a ha).trans (hothers b hb).symm, ?_⟩
    obtain ⟨rolled, hrollback⟩ := exists_rollback later hafter.quiet hid hscratch hfound
      hplaced hkeeps hdescribe
    obtain ⟨-, hplace, hsame⟩ := rollback_restored hafter.quiet hid hscratch hrollback
    rw [hkeeps] at hplace
    refine ⟨rolled, hrollback, hplace, fun a => ⟨fun ha => ?_, ?_⟩⟩
    · by_contra hne
      have hshown := ha.visible
      rw [Carries, hsame a hne hshown] at ha
      exact hne (hothers a ha)
    · rintro rfl
      rw [Carries, hplace, hdescribe]

end

/-! ## The legacy package `notes` -/

/-- Legacy packages carry no manifest. -/
@[reducible] def noManifests : ManifestIds := ⟨fun _ => .error ()⟩

def notesData : FilePath := ["data"]

def notesDir : FilePath := pluginDir notesData .legacy

def storeWith (name : String) (artifact : Artifact) : Volume := fun path =>
  if path = notesDir ++ [name] then some artifact else none

def notesArchive : Artifact := .file [1]

def newerArchive : Artifact := .file [2]

def notesStore : Volume := storeWith "notes.keypirinha-package" notesArchive

def upgradedStore : Volume :=
  match install notesData (fun _ => []) .legacy "notes" newerArchive ".staging" notesStore with
  | .ok after => after
  | .error _ => notesStore

lemma storeWith_quiet {name : String} {artifact : Artifact} (h : isHidden name = false) :
    Quiet notesData (storeWith name artifact) := by
  intro kind journal entry hjournal
  refine if_neg fun heq => ?_
  rw [← entry_of_path heq, hidden_of_targetName hjournal] at h
  cases h

lemma storeWith_retains {name : String} {artifact : Artifact} (a : String) :
    storeWith name artifact (previousRoot notesData .legacy ++ [a]) = none :=
  if_neg pluginDir_ne_previousRoot.symm

lemma storeWith_carries [ManifestIds] {name id a : String} {artifact : Artifact}
    (h : Carries notesData .legacy id (storeWith name artifact) a) : a = name := by
  by_contra hne
  have hnone : storeWith name artifact (pluginDir notesData .legacy ++ [a]) = none :=
    if_neg fun heq => hne (entry_of_path heq)
  rw [Carries, hnone] at h
  exact describe_none h

/-- An archive replaced by an archive comes back. -/
theorem notes_archive_rolls_back :
    @RollsBack noManifests notesData (fun _ => []) .legacy "notes" ["notes.keypirinha-package"]
      ".displaced" "notes.keypirinha-package" notesArchive upgradedStore := by
  have hinstall :
      install notesData (fun _ => []) .legacy "notes" newerArchive ".staging" notesStore =
      .ok upgradedStore := rfl
  have hquiet : Quiet notesData notesStore := storeWith_quiet (by decide +kernel)
  have hstaging : Temporary notesData .legacy notesStore ".staging" :=
    ⟨by decide +kernel, by decide +kernel, by decide +kernel⟩
  have hafter := install_installed hquiet hstaging hinstall
  refine (@rollback_restores_iff noManifests notesData _ _ .legacy "notes" newerArchive ".staging"
    ".displaced" "notes.keypirinha-package" notesArchive _ notesStore upgradedStore hquiet
    (by decide +kernel) (by rfl) (by decide +kernel) hstaging hinstall
    ⟨by decide +kernel, by decide +kernel, by decide +kernel⟩ fun a => ?_).mpr
    ⟨by decide +kernel, by decide +kernel,
      fun a ha => .inl (@storeWith_carries noManifests _ _ _ _ ha), by decide +kernel, by decide⟩
  rw [mem_singleton]
  constructor
  · rintro rfl
    decide +kernel
  · intro hsome
    by_contra hne
    refine hsome ((hafter.others a fun heq => hne (heq.trans (by decide +kernel))).trans ?_)
    exact storeWith_retains a

def notesDirectory : Artifact := .dir [(["notes.py"], [1])]

def directoryStore : Volume := storeWith "notes" notesDirectory

def changedStore : Volume :=
  match install notesData (fun _ => []) .legacy "notes" newerArchive ".staging" directoryStore with
  | .ok after => after
  | .error _ => directoryStore

/-- An archive takes the place of the directory: the install removes the directory without
retaining it, nothing is left to go back to, and the rollback fails. -/
theorem directory_is_not_retained :
    install notesData (fun _ => []) .legacy "notes" newerArchive ".staging" directoryStore =
        .ok changedStore ∧
      changedStore (notesDir ++ ["notes"]) = none ∧
      (∀ a, changedStore (previousRoot notesData .legacy ++ [a]) = none) ∧
      @rollback noManifests notesData (fun _ => []) .legacy "notes" [] ".displaced" changedStore =
        .error .notRetained := by
  have hinstall : install notesData (fun _ => []) .legacy "notes" newerArchive ".staging"
      directoryStore = .ok changedStore := rfl
  have hafter := install_installed (storeWith_quiet (by decide +kernel))
    ⟨by decide +kernel, by decide +kernel, by decide +kernel⟩ hinstall
  refine ⟨hinstall, by decide +kernel, fun a => ?_, rfl⟩
  by_cases hroot : a = rootName .legacy "notes" newerArchive
  · rw [hroot]
    decide +kernel
  · rw [hafter.others a hroot]
    exact storeWith_retains a

end CriKey.Manager
