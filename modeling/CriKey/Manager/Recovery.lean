import CriKey.Manager.Swap

/-! What an interrupted swap leaves, and what recovery makes of it. A journal that was written
whole leads back to a complete tree; one that was cut short is skipped for good. -/
namespace CriKey.Manager
open CriKey.Base Function List Option String Slots

variable (parent : FilePath) (name : String)

/-- The paths of a swap are different places, and neither the target nor the hold is named like a
journal. -/
structure Placed (replacement hold : FilePath) : Prop where
  named : name ≠ ""
  target_plain : targetName name = none
  hold_plain : ∀ entry, hold = parent ++ [entry] → targetName entry = none
  hold_ne_target : hold ≠ parent ++ [name]
  hold_ne_journal : hold ≠ parent ++ [journalName name]
  replacement_ne_target : replacement ≠ parent ++ [name]
  replacement_ne_journal : replacement ≠ parent ++ [journalName name]
  replacement_ne_hold : replacement ≠ hold

/-- Read as the journal of any entry, the file leads to other paths than those of this swap. -/
def LeadsElsewhere (hold : FilePath) (a : Artifact) : Prop :=
  ∀ bytes, a = .file bytes → ∀ entry led, readJournal parent entry bytes = some led →
    parent ++ [entry] ≠ parent ++ [journalName name] ∧
      led ≠ parent ++ [name] ∧ led ≠ hold ∧ led ≠ parent ++ [journalName name]

/-- No file but the swap's own journal leads to its paths. -/
def Foreign (hold : FilePath) (v : Volume) : Prop :=
  ∀ path, path ≠ parent ++ [journalName name] → ∀ a, v path = some a →
    LeadsElsewhere parent name hold a

/-- The target holds one of the two complete trees. -/
def Standing (old new : Artifact) (v : Volume) : Prop :=
  v (parent ++ [name]) = some old ∨ v (parent ++ [name]) = some new

/-- A state that recovery brings back to a complete tree. -/
inductive Recoverable (hold : FilePath) (old new : Artifact)
    (v : Volume) : Prop where
  | settled (journal : v (parent ++ [journalName name]) = none)
      (standing : Standing parent name old new v)
  | logged (bytes : List UInt8) (led : FilePath)
      (journal : v (parent ++ [journalName name]) = some (.file bytes))
      (reads : readJournal parent name bytes = some led)
      (standing : Standing parent name old new v)
  | displaced (bytes : List UInt8) (journal : v (parent ++ [journalName name]) = some (.file bytes))
      (reads : readJournal parent name bytes = some hold)
      (missing : v (parent ++ [name]) = none) (held : v hold = some old)

/-- A journal that recovery does not accept. -/
def Stuck (v : Volume) : Prop :=
  ∃ a, v (parent ++ [journalName name]) = some a ∧
    ∀ bytes, a = .file bytes → readJournal parent name bytes = none

variable {parent replacement hold : FilePath} {name : String} {old new : Artifact} {v w : Volume}

lemma journalName_ne : journalName name ≠ name := by
  intro heq
  have hlen := congrArg String.length heq
  simp only [journalName, swapJournalSuffix, String.length_append] at hlen
  have hdot : (".".length) = 1 := rfl
  omega

lemma journal_ne_target : parent ++ [journalName name] ≠ parent ++ [name] := by
  simpa using journalName_ne

lemma targetName_journalName (h : name ≠ "") : targetName (journalName name) = some name := by
  have hname : name.toList ≠ [] := by simpa using h
  have hdot : (journalName name).toList.dropPrefix? ['.'] =
      some (name.toList ++ swapJournalSuffix.toList) := by
    rw [dropPrefix?_eq_some_iff]
    exact ⟨['.'], by simp [journalName], by simp⟩
  have hrest : (name.toList ++ swapJournalSuffix.toList).dropSuffix? swapJournalSuffix.toList =
      some name.toList := by
    rw [dropSuffix?_eq_some_iff]
    exact ⟨_, rfl, by simp⟩
  rw [targetName, hdot]
  simp only [hrest, if_neg hname, ofList_toList]

variable {journal : String}

lemma journalName_of_targetName (h : targetName journal = some name) :
    journal = journalName name := by
  rw [targetName] at h
  split at h
  · cases h
  case h_2 rest hrest =>
    split at h
    · cases h
    case h_2 entry hentry =>
      split at h
      · cases h
      obtain ⟨dot, hdot, hbeq⟩ := dropPrefix?_eq_some_iff.mp hrest
      obtain ⟨suffix, hsuffix, hbeq'⟩ := dropSuffix?_eq_some_iff.mp hentry
      have hname := some.inj h
      have hlist : journal.toList = (journalName name).toList := by
        rw [hdot, hsuffix, eq_of_beq hbeq, eq_of_beq hbeq', ← hname]
        simp [journalName]
      exact toList_injective hlist

/-! ## A whole journal leads to its hold -/

/-- A path of ordinary names that do not break a line. -/
def PlainPath (path : FilePath) : Prop :=
  path ≠ [] ∧ ∀ part ∈ path, part ≠ "" ∧ part ≠ "." ∧ '/' ∉ part.toList ∧ '\n' ∉ part.toList ∧
    '\r' ∉ part.toList

lemma textOf_bytesOf (text : List Char) : textOf (bytesOf text) = some text := by
  have hvalid : ByteArray.IsValidUTF8 ⟨(ofList text).toUTF8.data⟩ :=
    (ofList text).isValidUTF8
  simp only [textOf, bytesOf]
  rw [fromUTF8?, dif_pos hvalid]
  exact congrArg some toList_ofList

lemma pathOf_pathText {path : FilePath} (h : PlainPath path) :
    pathOf (pathText path) = some path := by
  obtain ⟨hne, hparts⟩ := h
  obtain ⟨first, rest, rfl⟩ := exists_cons_of_ne_nil hne
  have hjoined : first.toList ++ rest.flatMap (fun part => '/' :: part.toList) =
      ['/'].intercalate ((first :: rest).map String.toList) := by
    rw [map_cons, intercalate_cons, flatMap_map]
  have hslash : ∀ part ∈ (first :: rest).map String.toList, '/' ∉ part := by
    intro part hpart
    obtain ⟨name, hname, rfl⟩ := mem_map.mp hpart
    exact (hparts name hname).2.2.1
  rw [pathText, flatMap_cons, cons_append, pathOf, hjoined,
    List.splitOn_intercalate _ hslash (by simp), List.filter_eq_self.mpr]
  · simp
  · intro part hpart
    obtain ⟨name, hname, rfl⟩ := mem_map.mp hpart
    obtain ⟨hempty, hdot, -⟩ := hparts name hname
    have hdot' : name.toList ≠ ['.'] := fun heq => hdot (toList_injective heq)
    simp [hempty, hdot']

lemma notMem_pathText {path : FilePath} {c : Char} (hc : c ≠ '/')
    (h : ∀ part ∈ path, c ∉ part.toList) : c ∉ pathText path := by
  rw [pathText, mem_flatMap]
  rintro ⟨part, hpart, hmem⟩
  cases mem_cons.mp hmem with
  | inl heq => exact hc heq
  | inr hmem => exact h part hpart hmem

lemma stripReturn_of_notMem {line : List Char} (h : '\r' ∉ line) : stripReturn line = line :=
  if_neg fun hlast => h (mem_of_getLast? hlast)

lemma linesOf_pair {first second : List Char} (hfirst : '\n' ∉ first) (hsecond : '\n' ∉ second)
    (hreturn : '\r' ∉ first) (hreturn' : '\r' ∉ second) :
    linesOf (first ++ '\n' :: (second ++ ['\n'])) = [first, second] := by
  have hsplit : (first ++ '\n' :: (second ++ ['\n'])).splitOn '\n' = [first, second, []] := by
    rw [splitOn_append_cons_self, splitOn_append_cons_self, splitOn_of_notMem hfirst,
      splitOn_of_notMem hsecond]
    rfl
  rw [linesOf, hsplit]
  simp [stripReturn_of_notMem hreturn, stripReturn_of_notMem hreturn']

lemma readJournal_journalText (htarget : PlainPath (parent ++ [name])) (hhold : PlainPath hold)
    (hplace : (directChild parent hold || retainedChild parent name hold) = true) :
    readJournal parent name (bytesOf (journalText (parent ++ [name]) hold)) = some hold := by
  have hlines : linesOf (journalText (parent ++ [name]) hold) =
      [pathText (parent ++ [name]), pathText hold] :=
    linesOf_pair (notMem_pathText (by decide) fun part hp => (htarget.2 part hp).2.2.2.1)
      (notMem_pathText (by decide) fun part hp => (hhold.2 part hp).2.2.2.1)
      (notMem_pathText (by decide) fun part hp => (htarget.2 part hp).2.2.2.2)
      (notMem_pathText (by decide) fun part hp => (hhold.2 part hp).2.2.2.2)
  have hchild : directChild parent (parent ++ [name]) = true := by simp [directChild, parentOf]
  simp only [readJournal, textOf_bytesOf, map_some, hlines, pathOf_pathText htarget,
    pathOf_pathText hhold, hchild, hplace, decide_true, Bool.and_self, if_true]

variable {a b : FilePath}

lemma Volume.rename_eq_some (h : v.rename a b = some w) : w = Slots.move v a b := by
  rw [Volume.rename] at h
  split at h
  · cases h
  · exact (some.inj h).symm
  · split at h
    · exact (some.inj h).symm
    · cases h

lemma Volume.rename_of_none {moved : Artifact} (ha : v a = some moved) (hb : v b = none) :
    v.rename a b = some (Slots.move v a b) := by
  rw [Volume.rename, ha, hb]

/-! ## Recovery -/

lemma Foreign.move (ha : a ≠ parent ++ [journalName name]) (h : Foreign parent name hold v) :
    Foreign parent name hold (Slots.move v a b) :=
  move_invariant (p := (· ≠ parent ++ [journalName name]))
    (q := LeadsElsewhere parent name hold) ha h

lemma Foreign.update_none (h : Foreign parent name hold v) :
    Foreign parent name hold (Function.update v a none) :=
  update_invariant (p := (· ≠ parent ++ [journalName name]))
    (q := LeadsElsewhere parent name hold) (fun _ _ hx => nomatch hx) h

lemma Foreign.update_journal {a : Option Artifact} (h : Foreign parent name hold v) :
    Foreign parent name hold (Function.update v (parent ++ [journalName name]) a) :=
  update_invariant (p := (· ≠ parent ++ [journalName name]))
    (q := LeadsElsewhere parent name hold) (fun hne => absurd rfl hne) h

/-- Between the two states neither the paths of the swap nor what leads to them changed. -/
def Spared (parent : FilePath) (name : String) (hold : FilePath) (v w : Volume) : Prop :=
  Foreign parent name hold w ∧ w (parent ++ [journalName name]) = v (parent ++ [journalName name]) ∧
    w (parent ++ [name]) = v (parent ++ [name]) ∧ ∀ a, v hold = some a → w hold = some a

lemma restoreFrom_other {entry : String} {led : FilePath} (hne : entry ≠ name)
    (htarget : journalName entry ≠ name) (hhold : hold ≠ parent ++ [journalName entry])
    (hforeign : Foreign parent name hold v)
    (hentry : parent ++ [entry] ≠ parent ++ [journalName name]) (hled : led ≠ parent ++ [name])
    (hledHold : led ≠ hold) (hledJournal : led ≠ parent ++ [journalName name])
    (hw : w = restoreFrom parent (journalName entry) entry led v) :
    Spared parent name hold v w := by
  have htarget' : parent ++ [name] ≠ parent ++ [entry] := by simpa using fun h => hne h.symm
  have hmoved : ∃ u : Volume, (u = v ∨ (v (parent ++ [entry]) = none ∧
      u = move v led (parent ++ [entry]))) ∧
      (w = u ∨ w = update u (parent ++ [journalName entry]) none) := by
    rw [hw, restoreFrom]
    by_cases hmissing : v (parent ++ [entry]) = none ∧ v led ≠ none
    · rw [if_pos hmissing]
      exact ⟨_, .inr ⟨hmissing.1, rfl⟩, (ite_eq_or_eq _ _ _).symm⟩
    · rw [if_neg hmissing]
      exact ⟨_, .inl rfl, (ite_eq_or_eq _ _ _).symm⟩
  obtain ⟨u, hu, hw⟩ := hmoved
  have hkeeps : Spared parent name hold v u := by
    rcases hu with rfl | ⟨hmissing, rfl⟩
    · exact ⟨hforeign, rfl, rfl, fun _ h => h⟩
    refine ⟨hforeign.move hledJournal, move_of_ne hledJournal.symm hentry.symm,
      move_of_ne hled.symm htarget', fun a ha => ?_⟩
    have hfree : hold ≠ parent ++ [entry] := by
      intro heq
      rw [← heq, ha] at hmissing
      cases hmissing
    rw [move_of_ne hledHold.symm hfree, ha]
  rcases hw with rfl | rfl
  · exact hkeeps
  obtain ⟨huForeign, huJournal, huTarget, huHold⟩ := hkeeps
  refine ⟨huForeign.update_none, ?_, ?_, fun a ha => ?_⟩
  · rw [update_of_ne, huJournal]
    intro heq
    have hjournal : journalName name = journalName entry := by simpa using heq
    have hnames : name = entry := by simpa [journalName] using hjournal
    exact hne hnames.symm
  · rw [update_of_ne, huTarget]
    simpa using htarget.symm
  · rw [update_of_ne hhold, huHold a ha]

lemma recoverJournal_other (hplaced : Placed parent name replacement hold)
    (hne : journal ≠ journalName name) (hforeign : Foreign parent name hold v)
    (hw : w = recoverJournal parent v journal) : Spared parent name hold v w := by
  rw [recoverJournal] at hw
  split at hw
  case h_1 bytes entry hbytes hentry =>
    split at hw
    case h_1 led hled =>
      have hjournal := journalName_of_targetName hentry
      have hpath : parent ++ [journal] ≠ parent ++ [journalName name] := by simpa using hne
      obtain ⟨hsite, hledTarget, hledHold, hledJournal⟩ :=
        hforeign _ hpath _ hbytes bytes rfl entry led hled
      have hother : entry ≠ name := fun heq => hne (by rw [hjournal, heq])
      have hplain : journal ≠ name := fun heq => by
        rw [heq, hplaced.target_plain] at hentry
        cases hentry
      have hhold : hold ≠ parent ++ [journal] := fun heq => by
        rw [hplaced.hold_plain journal heq] at hentry
        cases hentry
      rw [hjournal] at hw hplain hhold
      exact restoreFrom_other hother hplain hhold hforeign hsite hledTarget hledHold hledJournal hw
    case h_2 =>
      rw [hw]
      exact ⟨hforeign, rfl, rfl, fun _ h => h⟩
  case h_2 =>
    rw [hw]
    exact ⟨hforeign, rfl, rfl, fun _ h => h⟩

lemma recoverJournal_own {bytes : List UInt8} {led : FilePath} (hnamed : name ≠ "")
    (hjournal : v (parent ++ [journalName name]) = some (.file bytes))
    (hreads : readJournal parent name bytes = some led) :
    recoverJournal parent v (journalName name) =
      restoreFrom parent (journalName name) name led v := by
  rw [recoverJournal, hjournal, targetName_journalName hnamed]
  simp only [hreads]

variable (hplaced : Placed parent name replacement hold)
include hplaced

lemma Recoverable.recoverJournal_own
    (hforeign : Foreign parent name hold v) (h : Recoverable parent name hold old new v)
    (hw : w = recoverJournal parent v (journalName name)) :
    Foreign parent name hold w ∧ w (parent ++ [journalName name]) = none ∧
      Standing parent name old new w := by
  cases h with
  | settled hjournal hstanding =>
    have hsame : w = v := by rw [hw, recoverJournal, hjournal]
    rw [hsame]
    exact ⟨hforeign, hjournal, hstanding⟩
  | logged bytes led hjournal hreads hstanding =>
    have hthere : v (parent ++ [name]) ≠ none := by
      rcases hstanding with h | h <;> simp [h]
    have hgone : w = update v (parent ++ [journalName name]) none := by
      rw [hw, Manager.recoverJournal_own hplaced.named hjournal hreads, restoreFrom]
      simp [hthere]
    rw [hgone]
    refine ⟨hforeign.update_none, update_self .., ?_⟩
    rw [Standing, update_of_ne journal_ne_target.symm]
    exact hstanding
  | displaced bytes hjournal hreads hmissing hheld =>
    have hback : move v hold (parent ++ [name]) (parent ++ [name]) = some old := by
      rw [move_target hplaced.hold_ne_target.symm, hheld]
    have hgone : w = update (move v hold (parent ++ [name]))
        (parent ++ [journalName name]) none := by
      rw [hw, Manager.recoverJournal_own hplaced.named hjournal hreads, restoreFrom]
      simp [hmissing, hheld, hback]
    rw [hgone]
    refine ⟨(hforeign.move hplaced.hold_ne_journal).update_none, update_self .., ?_⟩
    rw [Standing, update_of_ne journal_ne_target.symm]
    exact .inl hback

lemma Recoverable.recoverJournal_other
    (hne : journal ≠ journalName name) (hforeign : Foreign parent name hold v)
    (h : Recoverable parent name hold old new v) (hw : w = recoverJournal parent v journal) :
    Foreign parent name hold w ∧ Recoverable parent name hold old new w := by
  obtain ⟨hforeign', hjournal', htarget', hhold'⟩ :=
    Manager.recoverJournal_other hplaced hne hforeign hw
  refine ⟨hforeign', ?_⟩
  cases h with
  | settled hjournal hstanding =>
    exact .settled (hjournal' ▸ hjournal) (by rwa [Standing, htarget'])
  | logged bytes led hjournal hreads hstanding =>
    exact .logged bytes led (hjournal' ▸ hjournal) hreads (by rwa [Standing, htarget'])
  | displaced bytes hjournal hreads hmissing hheld =>
    exact .displaced bytes (hjournal' ▸ hjournal) hreads (htarget' ▸ hmissing) (hhold' old hheld)

lemma recover_settles (listing : List String)
    (hforeign : Foreign parent name hold v) (h : Recoverable parent name hold old new v)
    (hlisted : v (parent ++ [journalName name]) ≠ none → journalName name ∈ listing) :
    recoverInterruptedSwaps parent listing v (parent ++ [journalName name]) = none ∧
      Standing parent name old new (recoverInterruptedSwaps parent listing v) := by
  induction listing generalizing v with
  | nil =>
    have hnone : v (parent ++ [journalName name]) = none := by
      by_contra hsome
      cases hlisted hsome
    cases h with
    | settled hjournal hstanding => exact ⟨hjournal, hstanding⟩
    | logged bytes led hjournal => rw [hjournal] at hnone; cases hnone
    | displaced bytes hjournal => rw [hjournal] at hnone; cases hnone
  | cons entry listing ih =>
    by_cases hown : entry = journalName name
    · obtain ⟨hforeign', hjournal', hstanding'⟩ := h.recoverJournal_own hplaced hforeign rfl
      rw [← hown] at hforeign' hstanding'
      refine ih hforeign' (.settled (hown ▸ hjournal') hstanding') fun hsome => ?_
      exact absurd (hown ▸ hjournal') hsome
    · obtain ⟨hforeign', hrecoverable'⟩ := h.recoverJournal_other hplaced hown hforeign rfl
      have hjournal' := (recoverJournal_other hplaced hown hforeign rfl).2.1
      rw [recoverInterruptedSwaps]
      refine ih hforeign' hrecoverable' fun hsome => ?_
      rw [hjournal'] at hsome
      cases mem_cons.mp (hlisted hsome) with
      | inl heq => exact absurd heq.symm hown
      | inr hmem => exact hmem

lemma recover_stuck (listing : List String)
    (hforeign : Foreign parent name hold v) (h : Stuck parent name v) :
    Stuck parent name (recoverInterruptedSwaps parent listing v) := by
  induction listing generalizing v with
  | nil => exact h
  | cons entry listing ih =>
    rw [recoverInterruptedSwaps, foldl_cons]
    obtain ⟨a, hjournal, hreads⟩ := h
    by_cases hown : entry = journalName name
    · have hsame : recoverJournal parent v entry = v := by
        rw [hown, recoverJournal, hjournal]
        split
        case h_1 bytes entry' hbytes hentry =>
          rw [targetName_journalName hplaced.named] at hentry
          rw [← some.inj hentry, hreads bytes (some.inj hbytes)]
        case h_2 => rfl
      rw [hsame]
      exact ih hforeign ⟨a, hjournal, hreads⟩
    · obtain ⟨hforeign', hjournal', -⟩ := recoverJournal_other hplaced hown hforeign rfl
      exact ih hforeign' ⟨a, hjournal'.trans hjournal, hreads⟩

end CriKey.Manager
