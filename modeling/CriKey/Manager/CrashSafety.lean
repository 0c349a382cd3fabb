import CriKey.Manager.Recovery

/-! The swap at every point where it can fail or stop. It leaves a state that recovery settles,
unless it is cut short between creating its journal and finishing it. -/
namespace CriKey.Manager
open CriKey.Base Volume Function Option Slots SwapFates Fate Removal

section
variable {parent replacement hold : FilePath} {name : String} {old new : Artifact} {v : Volume}
  {f : SwapFates}

/-- One of the two trees stands at the target, with a finished journal or none. -/
structure Safe (parent : FilePath) (name : String) (hold : FilePath) (old new : Artifact)
    (bytes : List UInt8) (v : Volume) : Prop where
  foreign : Foreign parent name hold v
  standing : Standing parent name old new v
  journal : v (parent ++ [journalName name]) = none ∨
    v (parent ++ [journalName name]) = some (.file bytes)

/-- Between the two renames the old tree is at the hold. -/
structure Displaced (parent : FilePath) (name : String) (hold replacement : FilePath)
    (old new : Artifact) (bytes : List UInt8) (v : Volume) : Prop where
  foreign : Foreign parent name hold v
  journal : v (parent ++ [journalName name]) = some (.file bytes)
  missing : v (parent ++ [name]) = none
  held : v hold = some old
  staged : v replacement = some new

/-- What the exchange of the two trees leaves. -/
def Ended (parent : FilePath) (name : String) (hold : FilePath) (old new : Artifact)
    (bytes : List UInt8) (e : SwapEnding) : Prop :=
  Safe parent name hold old new bytes e.state ∨
    ∃ replacement, Displaced parent name hold replacement old new bytes e.state

variable {bytes : List UInt8} {next : Volume → SwapEnding}

lemma Safe.recoverable (h : Safe parent name hold old new bytes v)
    (hreads : readJournal parent name bytes = some hold) :
    Recoverable parent name hold old new v := by
  rcases h.journal with hjournal | hjournal
  · exact .settled hjournal h.standing
  · exact .logged bytes hold hjournal hreads h.standing

lemma Ended.recoverable {e : SwapEnding} (h : Ended parent name hold old new bytes e) :
    Foreign parent name hold e.state ∧ (readJournal parent name bytes = some hold →
      Recoverable parent name hold old new e.state) := by
  rcases h with h | ⟨_, h⟩
  · exact ⟨h.foreign, h.recoverable⟩
  · exact ⟨h.foreign, fun hreads => .displaced bytes h.journal hreads h.missing h.held⟩

lemma Safe.withoutJournal (h : Safe parent name hold old new bytes v) :
    Safe parent name hold old new bytes
      (Function.update v (parent ++ [journalName name]) none) where
  foreign := h.foreign.update_none
  standing := by
    rw [Standing, update_of_ne journal_ne_target.symm]
    exact h.standing
  journal := .inl (update_self ..)

lemma Safe.dropJournal (h : Safe parent name hold old new bytes v)
    (hnext : ∀ u, Safe parent name hold old new bytes u →
      Ended parent name hold old new bytes (next u)) :
    Ended parent name hold old new bytes (dropJournal f (parent ++ [journalName name]) v next) := by
  refine perform_rule (.inl h) (fun t ht _ => ?_) (hnext v h) fun t ht _ => ?_
  · cases ht
    exact .inl h.withoutJournal
  · cases ht
    exact hnext _ h.withoutJournal

section
variable (hplaced : Placed parent name replacement hold)
include hplaced

lemma Foreign.removed {removal : Removal} (h : Foreign parent name hold v) :
    Foreign parent name hold (Function.update v hold (removal.left (v hold))) := by
  refine update_invariant (p := (· ≠ parent ++ [journalName name]))
    (q := LeadsElsewhere parent name hold) (fun _ a ha => ?_) h
  rw [left.eq_def] at ha
  split at ha
  case h_1 => cases ha
  case h_2 artifact hv =>
    split at ha
    case h_1 => cases ha
    case h_2 => exact some.inj ha ▸ h hold hplaced.hold_ne_journal _ hv
    case h_3 =>
      rw [← some.inj ha]
      exact fun bytes hbytes => nomatch hbytes

lemma Safe.finishSwap {discard : Bool} (h : Safe parent name hold old new bytes v) :
    Ended parent name hold old new bytes (finishSwap f hold discard v) := by
  have hremoved : Safe parent name hold old new bytes
      (update v hold (f.discardHold.left (v hold))) := by
    refine ⟨h.foreign.removed hplaced, ?_, ?_⟩
    · rw [Standing, update_of_ne hplaced.hold_ne_target.symm]
      exact h.standing
    · rw [update_of_ne hplaced.hold_ne_journal.symm]
      exact h.journal
  rw [Manager.finishSwap, removePath]
  split
  · split
    · exact .inl hremoved
    · exact .inl hremoved
  · exact .inl h

variable (h : Displaced parent name hold replacement old new bytes v)
include h

lemma Displaced.activated :
    Safe parent name hold old new bytes (Slots.move v replacement (parent ++ [name])) where
  foreign := h.foreign.move hplaced.replacement_ne_journal
  standing := .inr (by rw [move_target hplaced.replacement_ne_target.symm, h.staged])
  journal := .inr (by
    rw [move_of_ne hplaced.replacement_ne_journal.symm journal_ne_target, h.journal])

lemma Displaced.restored :
    Safe parent name hold old new bytes (Slots.move v hold (parent ++ [name])) where
  foreign := h.foreign.move hplaced.hold_ne_journal
  standing := .inl (by rw [move_target hplaced.hold_ne_target.symm, h.held])
  journal := .inr (by
    rw [move_of_ne hplaced.hold_ne_journal.symm journal_ne_target, h.journal])

end

/-- The exchange starts from the old tree at the target and a finished journal. -/
structure Logged (parent : FilePath) (name : String) (hold replacement : FilePath)
    (old new : Artifact) (bytes : List UInt8) (v : Volume) : Prop where
  foreign : Foreign parent name hold v
  journal : v (parent ++ [journalName name]) = some (.file bytes)
  installed : v (parent ++ [name]) = some old
  staged : v replacement = some new

lemma Logged.safe (h : Logged parent name hold replacement old new bytes v) :
    Safe parent name hold old new bytes v :=
  ⟨h.foreign, .inl h.installed, .inr h.journal⟩

lemma Logged.displaced (hplaced : Placed parent name replacement hold)
    (h : Logged parent name hold replacement old new bytes v) :
    Displaced parent name hold replacement old new bytes
      (Slots.move v (parent ++ [name]) hold) where
  foreign := h.foreign.move journal_ne_target.symm
  journal := by
    rw [move_of_ne journal_ne_target hplaced.hold_ne_journal.symm, h.journal]
  missing := move_source
  held := by rw [move_target hplaced.hold_ne_target, h.installed]
  staged := by
    rw [move_of_ne hplaced.replacement_ne_target hplaced.replacement_ne_hold, h.staged]

lemma Displaced.ended (h : Displaced parent name hold replacement old new bytes v)
    {e : SwapEnding} (he : e.state = v) : Ended parent name hold old new bytes e :=
  .inr ⟨replacement, he ▸ h⟩

/-- Wherever the two renames fail or stop, one complete tree is at the target or the journal leads
to it. -/
lemma Logged.exchange {discard : Bool} (hplaced : Placed parent name replacement hold)
    (h : Logged parent name hold replacement old new bytes v) : Ended parent name hold old new bytes
      (exchange f (parent ++ [name]) replacement hold (parent ++ [journalName name])
        discard v) := by
  have hfailed : ∀ u, Safe parent name hold old new bytes u →
      Ended parent name hold old new bytes (ioFailed u) := fun u hu => .inl hu
  refine perform_rule (.inl h.safe) (fun t ht _ => ?_) (h.safe.dropJournal hfailed) fun t ht _ => ?_
  · obtain rfl := rename_eq_some ht
    exact (h.displaced hplaced).ended rfl
  · obtain rfl := rename_eq_some ht
    have haside := h.displaced hplaced
    refine perform_rule (haside.ended rfl) (fun t ht _ => ?_) ?_ fun t ht _ => ?_
    · obtain rfl := rename_eq_some ht
      exact .inl (haside.activated hplaced)
    · refine perform_rule (haside.ended rfl) (fun t ht _ => ?_) (haside.ended rfl) fun t ht _ => ?_
      · obtain rfl := rename_eq_some ht
        exact .inl (haside.restored hplaced)
      · obtain rfl := rename_eq_some ht
        exact (haside.restored hplaced).dropJournal hfailed
    · obtain rfl := rename_eq_some ht
      exact (haside.activated hplaced).dropJournal fun u hu => hu.finishSwap hplaced

end

/-! ## The whole swap -/

def SwapFates.ReachesJournal (f : SwapFates) (previous : Option FilePath) : Prop :=
  f.makeParent = .works ∧ (previous ≠ none → f.makeHolder = .works ∧ f.clearHold.stops = false) ∧
    f.inspect = .works

instance (f : SwapFates) (previous : Option FilePath) : Decidable (f.ReachesJournal previous) :=
  inferInstanceAs (Decidable (_ ∧ _ ∧ _))

/-- How many bytes of the journal are in its file when the swap is cut short while writing it. -/
def SwapFates.tornAt (f : SwapFates) (previous : Option FilePath) : Option Nat :=
  if f.ReachesJournal previous then
    match f.createJournal, f.writeJournal with
    | .works, .torn count _ => some count
    | .stopsAfter, _ => some 0
    | _, _ => none
  else none

/-- The journal at the target's side never gets in recovery's way: one that is there beforehand
reads as a journal, and so does what a cut leaves of the new one. -/
def JournalReads (f : SwapFates) (parent : FilePath) (name : String) (previous : Option FilePath)
    (hold : FilePath) (v : Volume) : Prop :=
  match v (parent ++ [journalName name]) with
  | some a => ∃ bytes led, a = .file bytes ∧ readJournal parent name bytes = some led
  | none => ∀ count, f.tornAt previous = some count → ∃ led, readJournal parent name
        ((bytesOf (journalText (parent ++ [name]) hold)).take count) = some led

/-- Once it is finished, the journal of the swap leads back to its hold. -/
def Legible (parent : FilePath) (name : String) (hold : FilePath) : Prop :=
  readJournal parent name (bytesOf (journalText (parent ++ [name]) hold)) = some hold

/-- After recovery the target holds a complete tree, its journal is gone, and the next swap whose
operations work puts its replacement in place. -/
def Recovered (parent : FilePath) (name : String) (old new : Artifact) (v : Volume) : Prop :=
  Standing parent name old new v ∧ v (parent ++ [journalName name]) = none ∧
    ∀ replacement previous scratch artifact,
      Placed parent name replacement (previous.getD scratch) →
      (previous = none → v scratch = none) →
      ∃ after displaced, swapIntoPlace .working parent name replacement previous scratch
          (Function.update v replacement (some artifact)) = .returned after (.ok displaced) ∧
        after (parent ++ [name]) = some artifact

section
variable {parent replacement scratch : FilePath} {name : String} {previous : Option FilePath}
  {old new : Artifact} {v w : Volume} {f : SwapFates}

lemma inspectTarget_present {target : FilePath} (h : v target = some old)
    (hcomplete : old ≠ .dir []) : inspectTarget v target = .present := by
  rw [inspectTarget, h]
  split
  case h_1 heq => cases heq
  case h_2 heq => exact absurd (some.inj heq) hcomplete
  case h_3 => rfl

/-- The swap begins with nothing changed but the hold. It is over, or it writes its journal. -/
inductive Begun (f : SwapFates) (parent : FilePath) (name : String) (replacement hold : FilePath)
    (reaches : Prop) (v : Volume) (e : SwapEnding) : Prop where
  | early (hreaches : ¬ reaches) (foreign : Foreign parent name hold e.state)
      (same : ∀ path, path ≠ hold → e.state path = v path)
  | journal (hreaches : reaches) (u : Volume) (discard : Bool)
      (foreign : Foreign parent name hold u) (same : ∀ path, path ≠ hold → u path = v path)
      (writes : e = writeSwapJournal f (parent ++ [journalName name]) (parent ++ [name]) hold u
        (exchange f (parent ++ [name]) replacement hold (parent ++ [journalName name]) discard))

variable {hold : FilePath}

lemma swapOver_begun (discard : Bool) (hforeign : Foreign parent name hold w)
    (hsame : ∀ path, path ≠ hold → w path = v path) (h : w (parent ++ [name]) = some old)
    (hcomplete : old ≠ .dir []) : Begun f parent name replacement hold (f.inspect = .works) v
      (swapOver f parent name replacement hold discard w) := by
  rw [swapOver]
  cases hinspect : f.inspect with
  | works =>
    refine .journal rfl w discard hforeign hsame ?_
    rw [works_perform, inspectTarget_present h hcomplete]
  | fails | stopsBefore | stopsAfter => exact .early nofun hforeign hsame

lemma Begun.imp {reaches reaches' : Prop} {e : SwapEnding} (hiff : reaches ↔ reaches')
    (h : Begun f parent name replacement hold reaches v e) :
    Begun f parent name replacement hold reaches' v e :=
  propext hiff ▸ h

lemma swapIntoPlace_begun (hplaced : Placed parent name replacement (previous.getD scratch))
    (hforeign : Foreign parent name (previous.getD scratch) v)
    (hinstalled : v (parent ++ [name]) = some old) (hcomplete : old ≠ .dir []) :
    Begun f parent name replacement (previous.getD scratch) (f.ReachesJournal previous) v
      (swapIntoPlace f parent name replacement previous scratch v) := by
  rw [swapIntoPlace, SwapFates.ReachesJournal]
  cases hparent : f.makeParent with
  | fails | stopsBefore | stopsAfter => exact .early (by simp) hforeign fun _ _ => rfl
  | works =>
    cases previous with
    | none =>
      exact (swapOver_begun true hforeign (fun _ _ => rfl) hinstalled hcomplete).imp (by simp)
    | some path =>
      cases hholder : f.makeHolder with
      | fails | stopsBefore | stopsAfter => exact .early (by simp) hforeign fun _ _ => rfl
      | works =>
        have hcleared : Foreign parent name path
            (update v path (f.clearHold.left (v path))) := hforeign.removed hplaced
        have hsame : ∀ other, other ≠ path →
            update v path (f.clearHold.left (v path)) other = v other :=
          fun other hne => update_of_ne hne ..
        simp only [removePath]
        cases hstops : f.clearHold.stops with
        | true => exact .early (by simp) hcleared hsame
        | false =>
          have htarget : update v path (f.clearHold.left (v path)) (parent ++ [name]) =
              some old := by rw [hsame _ hplaced.hold_ne_target.symm, hinstalled]
          exact (swapOver_begun false hcleared hsame htarget hcomplete).imp (by simp)

variable {discard : Bool}

/-- A journal that is written whole takes the swap to its renames; one that is not stays torn. -/
lemma writeSwapJournal_ends (hplaced : Placed parent name replacement hold)
    (hforeign : Foreign parent name hold v) (hfree : v (parent ++ [journalName name]) = none)
    (hinstalled : v (parent ++ [name]) = some old) (hstaged : v replacement = some new)
    (hw : w = (writeSwapJournal f (parent ++ [journalName name]) (parent ++ [name]) hold v
      (exchange f (parent ++ [name]) replacement hold (parent ++ [journalName name])
        discard)).state) :
    Foreign parent name hold w ∧
      match (match f.createJournal, f.writeJournal with
        | .works, .torn count _ => some count
        | .stopsAfter, _ => some 0
        | _, _ => none) with
      | none => Legible parent name hold → Recoverable parent name hold old new w
      | some count => w (parent ++ [name]) = some old ∧ w (parent ++ [journalName name]) =
          some (.file ((bytesOf (journalText (parent ++ [name]) hold)).take count)) := by
  have hcreate : v.createNew (parent ++ [journalName name]) =
      some (update v (parent ++ [journalName name]) (some (.file []))) := by
    rw [createNew, hfree]
  have hkeeps : ∀ a, update v (parent ++ [journalName name]) a (parent ++ [name]) =
      some old := fun a => by rw [update_of_ne journal_ne_target.symm, hinstalled]
  rw [writeSwapJournal, hcreate] at hw
  cases hfate : f.createJournal with
  | fails | stopsBefore =>
    rw [hfate] at hw
    exact hw ▸ ⟨hforeign, fun _ => .settled hfree (.inl hinstalled)⟩
  | stopsAfter =>
    rw [hfate] at hw
    exact hw ▸ ⟨hforeign.update_journal, hkeeps _, update_self ..⟩
  | works =>
    rw [hfate, works_perform] at hw
    cases hwrite : f.writeJournal with
    | torn count stops =>
      have hleft : w = update v (parent ++ [journalName name])
          (some (.file ((bytesOf (journalText (parent ++ [name]) hold)).take count))) := by
        rw [hw, hwrite]
        cases stops with
        | true | false => exact update_idem ..
      exact hleft ▸ ⟨hforeign.update_journal, hkeeps _, update_self ..⟩
    | whole =>
      have hlogged : Logged parent name hold replacement old new
          (bytesOf (journalText (parent ++ [name]) hold))
          (update v (parent ++ [journalName name])
            (some (.file (bytesOf (journalText (parent ++ [name]) hold))))) :=
        ⟨hforeign.update_journal, update_self .., hkeeps _, by
          rw [update_of_ne hplaced.replacement_ne_journal, hstaged]⟩
      simp only [hwrite, update_idem] at hw
      rw [hw]
      refine Ended.recoverable ?_
      refine perform_rule (.inl hlogged.safe) (fun t ht _ => ?_) (.inl hlogged.safe)
        fun t ht _ => ?_
      · exact some.inj ht ▸ .inl hlogged.safe
      · exact some.inj ht ▸ hlogged.exchange hplaced

section
variable (hplaced : Placed parent name replacement (previous.getD scratch))
  (hforeign : Foreign parent name (previous.getD scratch) v)
  (hinstalled : v (parent ++ [name]) = some old) (hcomplete : old ≠ .dir [])
include hplaced hforeign hinstalled hcomplete

lemma swap_ends (hstaged : v replacement = some new)
    (hfree : v (parent ++ [journalName name]) = none)
    (hw : w = (swapIntoPlace f parent name replacement previous scratch v).state) :
    Foreign parent name (previous.getD scratch) w ∧
      match f.tornAt previous with
      | none => Legible parent name (previous.getD scratch) →
          Recoverable parent name (previous.getD scratch) old new w
      | some count => w (parent ++ [name]) = some old ∧ w (parent ++ [journalName name]) =
          some (.file ((bytesOf (journalText (parent ++ [name]) (previous.getD scratch))).take
            count)) := by
  cases swapIntoPlace_begun (f := f) hplaced hforeign hinstalled hcomplete with
  | early hreaches hleft hsame =>
    rw [← hw] at hleft hsame
    refine ⟨hleft, ?_⟩
    rw [tornAt, if_neg hreaches]
    refine fun _ => .settled ((hsame _ hplaced.hold_ne_journal.symm).trans hfree) (.inl ?_)
    exact (hsame _ hplaced.hold_ne_target.symm).trans hinstalled
  | journal hreaches u discard hu hsame hwrites =>
    have huJournal := (hsame _ hplaced.hold_ne_journal.symm).trans hfree
    have huTarget := (hsame _ hplaced.hold_ne_target.symm).trans hinstalled
    have huStaged := (hsame _ hplaced.replacement_ne_hold).trans hstaged
    rw [hwrites] at hw
    rw [tornAt, if_pos hreaches]
    exact writeSwapJournal_ends hplaced hu huJournal huTarget huStaged hw

lemma swap_blocked {a : Artifact} (hjournal : v (parent ++ [journalName name]) = some a)
    (hw : w = (swapIntoPlace f parent name replacement previous scratch v).state) :
    Foreign parent name (previous.getD scratch) w ∧ w (parent ++ [name]) = some old ∧
      w (parent ++ [journalName name]) = some a := by
  cases swapIntoPlace_begun (f := f) hplaced hforeign hinstalled hcomplete with
  | early hreaches hleft hsame =>
    rw [← hw] at hleft hsame
    exact ⟨hleft, (hsame _ hplaced.hold_ne_target.symm).trans hinstalled,
      (hsame _ hplaced.hold_ne_journal.symm).trans hjournal⟩
  | journal hreaches u discard hu hsame hwrites =>
    have huJournal := (hsame _ hplaced.hold_ne_journal.symm).trans hjournal
    have hcreate : u.createNew (parent ++ [journalName name]) = none := by
      rw [createNew, huJournal]
    have hstays : w = u := by
      rw [hw, hwrites, writeSwapJournal, hcreate]
      cases f.createJournal with
      | works | fails | stopsBefore | stopsAfter => rfl
    rw [hstays]
    exact ⟨hu, (hsame _ hplaced.hold_ne_target.symm).trans hinstalled, huJournal⟩

end

variable {artifact : Artifact}

section
variable (hplaced : Placed parent name replacement hold)
  (hinstalled : v (parent ++ [name]) = some old)
include hplaced hinstalled

lemma exchange_working (hfree : v hold = none) (hstaged : v replacement = some artifact) :
    ∃ after, exchange .working (parent ++ [name]) replacement hold (parent ++ [journalName name])
        discard v = .returned after (.ok true) ∧ after (parent ++ [name]) = some artifact := by
  have haside : (move v (parent ++ [name]) hold) replacement = some artifact := by
    rw [move_of_ne hplaced.replacement_ne_target hplaced.replacement_ne_hold, hstaged]
  have hplace : move (move v (parent ++ [name]) hold) replacement (parent ++ [name])
      (parent ++ [name]) = some artifact := by
    rw [move_target hplaced.replacement_ne_target.symm, haside]
  have hdisplace := rename_of_none hinstalled hfree
  have hactivate := rename_of_none (b := parent ++ [name]) haside move_source
  simp only [exchange, dropJournal, working, hdisplace, hactivate, works_perform]
  cases discard with
  | true =>
    refine ⟨_, rfl, ?_⟩
    rw [update_of_ne hplaced.hold_ne_target.symm, update_of_ne journal_ne_target.symm, hplace]
  | false =>
    refine ⟨_, rfl, ?_⟩
    rw [update_of_ne journal_ne_target.symm, hplace]

lemma swapOver_working (hjournal : v (parent ++ [journalName name]) = none) (hfree : v hold = none)
    (hstaged : v replacement = some artifact) :
    ∃ after displaced, swapOver .working parent name replacement hold discard v =
      .returned after (.ok displaced) ∧ after (parent ++ [name]) = some artifact := by
  rw [swapOver]
  by_cases hempty : old = .dir []
  · have hstate : inspectTarget v (parent ++ [name]) = .emptyDirectory := by
      rw [inspectTarget, hinstalled, hempty]
    have hgone : update v (parent ++ [name]) none replacement = some artifact := by
      rw [update_of_ne hplaced.replacement_ne_target, hstaged]
    have hactivate := rename_of_none (b := parent ++ [name]) hgone (update_self ..)
    simp only [working, works_perform, hstate, hactivate]
    refine ⟨_, _, rfl, ?_⟩
    rw [move_target hplaced.replacement_ne_target.symm, hgone]
  · have hcreate : v.createNew (parent ++ [journalName name]) =
        some (update v (parent ++ [journalName name]) (some (.file []))) := by
      rw [createNew, hjournal]
    have hlogged : ∀ path, path ≠ parent ++ [journalName name] →
        update v (parent ++ [journalName name])
          (some (.file (bytesOf (journalText (parent ++ [name]) hold)))) path = v path :=
      fun path hne => update_of_ne hne ..
    have hinstalled' := (hlogged _ journal_ne_target.symm).trans hinstalled
    have hfree' := (hlogged _ hplaced.hold_ne_journal).trans hfree
    have hstaged' := (hlogged _ hplaced.replacement_ne_journal).trans hstaged
    obtain ⟨after, hexchange, hafter⟩ : ∃ after, exchange .working (parent ++ [name]) replacement
        hold (parent ++ [journalName name]) discard (update v (parent ++ [journalName name])
          (some (.file (bytesOf (journalText (parent ++ [name]) hold))))) =
        .returned after (.ok true) ∧ after (parent ++ [name]) = some artifact :=
      exchange_working hplaced hinstalled' hfree' hstaged'
    refine ⟨after, true, ?_, hafter⟩
    rw [← hexchange]
    simp only [working, works_perform, inspectTarget_present hinstalled hempty,
      writeSwapJournal, hcreate, update_idem]

end

lemma swap_working (hinstalled : v (parent ++ [name]) = some old)
    (hjournal : v (parent ++ [journalName name]) = none)
    (hplaced : Placed parent name replacement (previous.getD scratch))
    (hfree : previous = none → v scratch = none) :
    ∃ after displaced, swapIntoPlace .working parent name replacement previous scratch
        (Function.update v replacement (some artifact)) = .returned after (.ok displaced) ∧
      after (parent ++ [name]) = some artifact := by
  have hstaged : update v replacement (some artifact) replacement = some artifact :=
    update_self ..
  have hinstalled' : update v replacement (some artifact) (parent ++ [name]) = some old := by
    rw [update_of_ne hplaced.replacement_ne_target.symm, hinstalled]
  have hjournal' : update v replacement (some artifact) (parent ++ [journalName name]) =
      none := by rw [update_of_ne hplaced.replacement_ne_journal.symm, hjournal]
  cases previous with
  | none =>
    refine swapOver_working hplaced hinstalled' hjournal' ?_ hstaged
    have hne : scratch ≠ replacement := hplaced.replacement_ne_hold.symm
    exact (update_of_ne hne ..).trans (hfree rfl)
  | some path =>
    have hcleared : ∀ a : Option Artifact, working.clearHold.left a = none := by
      intro a
      cases a with
      | none | some a => rfl
    have hother : ∀ other, other ≠ path → update (update v replacement
        (some artifact)) path (working.clearHold.left
          (update v replacement (some artifact) path)) other =
        update v replacement (some artifact) other :=
      fun other hne => update_of_ne hne ..
    refine swapOver_working hplaced ((hother _ hplaced.hold_ne_target.symm).trans hinstalled')
      ((hother _ hplaced.hold_ne_journal.symm).trans hjournal') ?_
      ((hother _ hplaced.replacement_ne_hold).trans hstaged)
    exact (update_self ..).trans (hcleared _)

section
variable (hplaced : Placed parent name replacement hold) (hforeign : Foreign parent name hold v)
include hplaced hforeign

lemma Recoverable.recovered (h : Recoverable parent name hold old new v) {listing : List String}
    (hlisted : v (parent ++ [journalName name]) ≠ none → journalName name ∈ listing) :
    Recovered parent name old new (recoverInterruptedSwaps parent listing v) := by
  obtain ⟨hjournal, hstanding⟩ := recover_settles hplaced listing hforeign h hlisted
  refine ⟨hstanding, hjournal, fun replacement' previous' scratch' artifact hplaced' hfree => ?_⟩
  rcases hstanding with hinstalled | hinstalled
  · exact swap_working hinstalled hjournal hplaced' hfree
  · exact swap_working hinstalled hjournal hplaced' hfree

lemma Stuck.not_recovered (h : Stuck parent name v) {listing : List String} :
    ¬ Recovered parent name old new (recoverInterruptedSwaps parent listing v) := by
  obtain ⟨a, hjournal, -⟩ := recover_stuck hplaced listing hforeign h
  rintro ⟨-, hnone, -⟩
  rw [hjournal] at hnone
  cases hnone

end

end

/-! ## A swap of the plugin `notes` -/

def notesParent : FilePath := ["data", "plugins", "native"]

def notesHold : FilePath := ["data", "plugins", ".previous", "native", "notes"]

def notesStaging : FilePath := notesParent ++ [".notes.staging-7-0"]

def notesOld : Artifact := .dir [(["plugin.toml"], [1])]

def notesNew : Artifact := .dir [(["plugin.toml"], [2])]

def notesVolume : Volume := fun path =>
  if path = notesParent ++ ["notes"] then some notesOld
  else if path = notesStaging then some notesNew
  else none

lemma notes_placed : Placed notesParent "notes" notesStaging notesHold where
  named := by decide
  target_plain := by decide +kernel
  hold_plain := by
    intro entry heq
    have hlength := congrArg List.length heq
    simp [notesHold, notesParent] at hlength
  hold_ne_target := by decide
  hold_ne_journal := by decide +kernel
  replacement_ne_target := by decide +kernel
  replacement_ne_journal := by decide +kernel
  replacement_ne_hold := by decide +kernel

lemma notes_foreign : Foreign notesParent "notes" notesHold notesVolume := by
  intro path _ a ha bytes hbytes
  rw [notesVolume, hbytes] at ha
  split at ha
  · cases ha
  · split at ha
    · cases ha
    · cases ha

/-- What recovery makes of `notes` when the process stopped after creating the journal and before
writing a line of it. -/
def notesTorn : Volume :=
  recoverInterruptedSwaps notesParent ["notes", journalName "notes"]
    (swapIntoPlace { SwapFates.working with writeJournal := .torn 0 true } notesParent "notes"
      notesStaging (some notesHold) [] notesVolume).state

end CriKey.Manager
