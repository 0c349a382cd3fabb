import CriKey.Store.History

/-! The history file is read back as it was written, and what the budget keeps is as large as
the budget says. -/
namespace CriKey.Store
open CriKey.Base CriKey.Core CriKey.Query List Option QueryAffinityRecord

/-! Objects. -/

section
variable {α : Type} {value : Text → α → Cursor → Option (α × Cursor)} {name : String}
  {record record' : α} {written rest : Text} {fuel : Nat}

lemma fieldLoop_more
    (h : value name.toList record (written ++ ',' :: rest) = some (record', ',' :: rest)) :
    fieldLoop value (fuel + 1) record (writeKey name ++ (written ++ ',' :: rest)) =
      fieldLoop value fuel record' rest := by
  rw [fieldLoop, field_write h]
  simp only [bind_eq_bind, bind_some, consume_self (c := ',') (by decide)]

lemma fieldLoop_last
    (h : value name.toList record (written ++ '\x7d' :: rest) = some (record', '\x7d' :: rest)) :
    fieldLoop value (fuel + 1) record (writeKey name ++ (written ++ '\x7d' :: rest)) =
      some (record', '\x7d' :: rest) := by
  rw [fieldLoop, field_write h]
  simp only [bind_eq_bind, bind_some,
    consume_other (c := ',') (d := '\x7d') (by decide) (by decide)]

lemma length_plugin (rest : Text) : (writeKey "plugin" ++ rest).length = rest.length + 5 + 4 := by
  have hkey : (writeKey "plugin").length = 9 := by decide
  rw [length_append]
  omega

end

lemma noDigit_cons {c : Char} (h : c.isDigit = false) (rest : Text) : NoDigit (c :: rest) := by
  intro d hd
  cases hd
  exact h

/-! The fields of a selection. -/

variable {fields : SelectionFields}

lemma selectionField_plugin (h : fields.plugin = none) (plugin : PluginId) (rest : Text) :
    selectionField "plugin".toList fields (writeJsonString plugin.name.toList ++ rest) =
      some ({ fields with plugin := some plugin }, rest) := by
  rw [selectionField, if_pos (by simp [h]), string_write]
  simp only [bind_eq_bind, bind_some, String.ofList_toList]

lemma selectionField_item (h : fields.item = none) (item : ItemId) (rest : Text) :
    selectionField "item".toList fields (writeJsonString item.name.toList ++ rest) =
      some ({ fields with item := some item }, rest) := by
  rw [selectionField, if_neg (by simp), if_pos (by simp [h]), string_write]
  simp only [bind_eq_bind, bind_some, String.ofList_toList]

variable {rest : Text}

lemma selectionField_frequency (h : fields.frequency = none) (frequency : UInt32)
    (hr : NoDigit rest) :
    selectionField "frequency".toList fields (writeNumber frequency.toNat ++ rest) =
      some ({ fields with frequency := some frequency }, rest) := by
  rw [selectionField, if_neg (by simp), if_neg (by simp), if_pos (by simp [h]), writeNumber,
    number_write frequency hr]
  rfl

lemma null_digits (n : Nat) (rest : Text) :
    null (writeNumber n ++ rest) = (false, writeNumber n ++ rest) := by
  cases hn : writeNumber n with
  | nil => exact absurd hn Nat.toDigits_ne_nil
  | cons c digits =>
    have hdigit : c.isDigit := by
      apply Nat.isDigit_of_mem_toDigits (b := 10) (n := n) (by omega) (by omega)
      rw [← writeNumber, hn]
      exact mem_cons_self
    have hne : c ≠ 'n' := by
      intro he
      rw [he] at hdigit
      cases hdigit
    rw [cons_append, null]
    simp only [skipWhitespace_cons (not_space_of_isDigit hdigit)]
    simp [hne.symm]

lemma selectionField_secs (h : fields.lastSelectedSecs = none) (secs : Option UInt64)
    (hr : NoDigit rest) :
    selectionField "last_selected_secs".toList fields (writeSecs secs ++ rest) =
      some ({ fields with lastSelectedSecs := some secs }, rest) := by
  rw [selectionField, if_neg (by simp), if_neg (by simp), if_neg (by simp), if_pos (by simp [h])]
  cases secs with
  | none => rfl
  | some secs =>
    rw [writeSecs, null_digits]
    simp only
    rw [writeNumber, numberU64_write secs.toNat_lt hr]
    simp only [bind_eq_bind, bind_some, UInt64.ofNat_toNat]

lemma parseSelection_push (record : SelectionRecord) :
    Reads parseSelection (pushSelection record) record := by
  intro rest
  rw [pushSelection, cons_append, parseSelection, expect_self (by decide)]
  simp only [bind_eq_bind, bind_some, append_assoc, cons_append, nil_append]
  rw [length_plugin, fieldLoop_more (selectionField_plugin rfl _ _),
    fieldLoop_more (selectionField_item rfl _ _),
    fieldLoop_more (selectionField_frequency rfl _ (noDigit_cons (by decide) _)),
    fieldLoop_last (selectionField_secs rfl _ (noDigit_cons (by decide) _))]
  simp only [bind_some, expect_self (c := '\x7d') (by decide)]

/-! The fields of an affinity. -/

variable {fields : AffinityFields}

lemma affinityField_plugin (h : fields.plugin = none) (plugin : PluginId) (rest : Text) :
    affinityField "plugin".toList fields (writeJsonString plugin.name.toList ++ rest) =
      some ({ fields with plugin := some plugin }, rest) := by
  rw [affinityField, if_pos (by simp [h]), string_write]
  simp only [bind_eq_bind, bind_some, String.ofList_toList]

lemma affinityField_item (h : fields.item = none) (item : ItemId) (rest : Text) :
    affinityField "item".toList fields (writeJsonString item.name.toList ++ rest) =
      some ({ fields with item := some item }, rest) := by
  rw [affinityField, if_neg (by simp), if_pos (by simp [h]), string_write]
  simp only [bind_eq_bind, bind_some, String.ofList_toList]

lemma affinityField_query (h : fields.query = none) (query : String) (rest : Text) :
    affinityField "query".toList fields (writeJsonString query.toList ++ rest) =
      some ({ fields with query := some query }, rest) := by
  rw [affinityField, if_neg (by simp), if_neg (by simp), if_pos (by simp [h]), string_write]
  simp only [bind_eq_bind, bind_some, String.ofList_toList]

lemma affinityField_count (h : fields.count = none) (count : UInt32) (hr : NoDigit rest) :
    affinityField "count".toList fields (writeNumber count.toNat ++ rest) =
      some ({ fields with count := some count }, rest) := by
  rw [affinityField, if_neg (by simp), if_neg (by simp), if_neg (by simp), if_pos (by simp [h]),
    writeNumber, number_write count hr]
  rfl

lemma parseQueryAffinity_push (record : QueryAffinityRecord) :
    Reads parseQueryAffinity (pushAffinity record) record := by
  intro rest
  rw [pushAffinity, cons_append, parseQueryAffinity, expect_self (by decide)]
  simp only [bind_eq_bind, bind_some, append_assoc, cons_append, nil_append]
  rw [length_plugin, fieldLoop_more (affinityField_plugin rfl _ _),
    fieldLoop_more (affinityField_item rfl _ _), fieldLoop_more (affinityField_query rfl _ _),
    fieldLoop_last (affinityField_count rfl _ (noDigit_cons (by decide) _))]
  simp only [bind_some, expect_self (c := '\x7d') (by decide)]

/-! The file. -/

lemma objects_write {α : Type} {element : Cursor → Option (α × Cursor)} {write : α → Text}
    (h : ∀ record, Reads element (write record) record)
    (hhead : ∀ record, ∃ text, write record = '\x7b' :: text) (records : List α) :
    Reads (array element) (writeArray (records.map write)) records := by
  refine array_write (fun record _ => h record) fun record _ => ?_
  obtain ⟨text, htext⟩ := hhead record
  exact ⟨_, text, htext, by decide, by decide⟩

lemma historyField_selections (records : List SelectionRecord) (rest : Text) :
    historyField "selections".toList {} (writeArray (records.map pushSelection) ++ rest) =
      some ({ selections := some records }, rest) := by
  have hread := objects_write parseSelection_push (fun _ => ⟨_, rfl⟩) records rest
  rw [historyField, parseSelections, hread]
  rfl

lemma historyField_affinities {fields : HistoryFields} (h : fields.queryAffinities = none)
    (records : List QueryAffinityRecord) (rest : Text) :
    historyField "query_affinities".toList fields (writeArray (records.map pushAffinity) ++ rest) =
      some ({ fields with queryAffinities := some records }, rest) := by
  have hread := objects_write parseQueryAffinity_push (fun _ => ⟨_, rfl⟩) records rest
  rw [historyField, if_neg (by simp), if_pos (by simp [h]), parseQueryAffinities, hread]
  rfl

lemma historyLoop_more {fields fields' : HistoryFields} {name : String} {written : Text}
    {fuel : Nat} (h : historyField name.toList fields (written ++ rest) = some (fields', rest)) :
    historyLoop (fuel + 1) fields (',' :: (writeKey name ++ (written ++ rest))) =
      historyLoop fuel fields' rest := by
  rw [historyLoop, consume_self (by decide)]
  simp only [field_write h, bind_eq_bind, bind_some]

lemma parse_serialize (snapshot : SelectionHistorySnapshot) :
    parse (serialize snapshot) = some snapshot := by
  rw [serialize, parse, expect_self (by decide), writeKey, append_assoc]
  simp only [bind_eq_bind, bind_some, string_write, cons_append, nil_append,
    expect_self (c := ':') (by decide)]
  rw [writeNumber, number_write formatVersion (noDigit_cons (by decide) _)]
  simp only [bind_some, length_cons]
  rw [historyLoop_more (historyField_selections _ _)]
  have hkey (rest : Text) : ∃ n, (writeKey "selections" ++ rest).length = n + 2 := by
    have hlength : (writeKey "selections").length = 13 := by decide
    refine ⟨rest.length + 11, ?_⟩
    rw [length_append]
    omega
  obtain ⟨fuel, hfuel⟩ := hkey (writeArray (snapshot.selections.map pushSelection) ++
    ',' :: (writeKey "query_affinities" ++
      (writeArray (snapshot.queryAffinities.map pushAffinity) ++ ['\x7d'])))
  rw [hfuel, historyLoop_more (historyField_affinities rfl _ _)]
  rfl

/-! The budget. -/

section
variable {α κ : Type} [LinearOrder κ] {write : α → Text} {budget used : Nat} {first : Bool}
  {records records' : List α} {key : α → κ}

/-- What records cost, each with the comma before it. -/
def costFrom (write : α → Text) : Bool → List α → Nat
  | _, [] => 0
  | first, record :: records =>
    byteLen (write record) + (if first then 0 else 1) + costFrom write false records

lemma costFrom_false (write : α → Text) (records : List α) :
    costFrom write false records = (records.map fun record => byteLen (write record) + 1).sum := by
  induction records with
  | nil => rfl
  | cons record records ih =>
    rw [costFrom, ih, map_cons]
    rfl

lemma byteLen_comma (text : Text) : byteLen (',' :: text) = 1 + byteLen text := byteLen_cons _ _

lemma byteLen_writeElements (write : α → Text) (records : List α) :
    byteLen (writeElements (records.map write)) = costFrom write true records := by
  induction records with
  | nil => rfl
  | cons record records ih =>
    cases records with
    | nil =>
      have hone : writeElements (map write [record]) = write record := by
        simp [writeElements]
      rw [hone]
      rfl
    | cons second records =>
      rw [map_cons, map_cons, writeElements_cons, byteLen_append, byteLen_comma, ← map_cons, ih]
      simp only [costFrom, Bool.false_eq_true, if_false]
      omega

lemma costFrom_perm (h : records.Perm records') :
    costFrom write true records = costFrom write true records' := by
  have htotal (l : List α) (hne : l ≠ []) :
      costFrom write true l + 1 = (l.map fun record => byteLen (write record) + 1).sum := by
    cases l with
    | nil => exact absurd rfl hne
    | cons record l =>
      rw [costFrom, costFrom_false, map_cons, sum_cons, if_pos rfl]
      omega
  by_cases hne : records = []
  · rw [hne] at h ⊢
    rw [h.nil_eq]
  have hne' : records' ≠ [] := fun he => hne (he ▸ h).eq_nil
  have hsum := (h.map fun record => byteLen (write record) + 1).sum_eq
  have hleft := htotal records hne
  have hright := htotal records' hne'
  omega

/-- What is kept is a first part; it costs what was counted, stays within the budget, and is
everything when everything fits. -/
lemma keepRecords_spec (hmax : budget < u64Max) (write : α → Text) (used : Nat) (first : Bool)
    (records : List α) :
    let kept := keepRecords write budget used first records
    kept.1 <+: records ∧ kept.2 = used + costFrom write first kept.1 ∧
      (used ≤ budget → kept.2 ≤ budget) ∧
      (used + costFrom write first records ≤ budget → kept.1 = records) := by
  induction records generalizing used first with
  | nil => exact ⟨prefix_rfl, rfl, fun h => h, fun _ => rfl⟩
  | cons record records ih =>
    simp only [keepRecords]
    have hadd (cost : Nat) : budget < satAdd used cost ↔ budget < used + cost := by
      unfold satAdd
      omega
    by_cases hover : budget < satAdd used (byteLen (write record) + if first then 0 else 1)
    · rw [if_pos hover]
      rw [hadd] at hover
      refine ⟨⟨_, rfl⟩, rfl, fun h => h, fun hfits => ?_⟩
      rw [costFrom] at hfits
      omega
    · rw [if_neg hover]
      rw [hadd] at hover
      obtain ⟨hfront, hcost, hbudget, hall⟩ :=
        ih (used + (byteLen (write record) + if first then 0 else 1)) false
      refine ⟨cons_prefix_cons.mpr ⟨rfl, hfront⟩, ?_, fun _ => hbudget (Nat.le_of_not_lt hover),
        fun hfits => ?_⟩
      · rw [costFrom]
        omega
      · rw [costFrom] at hfits
        rw [hall (by omega)]

lemma sortOn_perm (key : α → κ) (records : List α) : (sortOn key records).Perm records :=
  perm_insertionSort _ _

lemma sortOn_eq (hsorted : Ranked key records) (h : records'.Perm records) :
    sortOn key records' = records := by
  have hkeys : (records'.map key).Nodup := by
    rw [(h.map key).nodup_iff, List.Nodup, pairwise_map]
    exact hsorted.imp fun hlt => ne_of_lt hlt
  refine (ranked_insertionSort hkeys).eq_of_mem hsorted fun record => ?_
  exact ((sortOn_perm key records').trans h).mem_iff

end

lemma byteLen_serialize (snapshot : SelectionHistorySnapshot) :
    byteLen (serialize snapshot) = envelopeBytes + costFrom pushSelection true snapshot.selections +
      costFrom pushAffinity true snapshot.queryAffinities := by
  have hempty : byteLen (writeElements []) = 0 := rfl
  simp only [envelopeBytes, serialize, writeArray, byteLen_append, byteLen_cons,
    byteLen_writeElements, map_nil]
  omega

/-- The records of a snapshot are in the store's order. -/
def InKeyOrder (snapshot : SelectionHistorySnapshot) : Prop :=
  Ranked SelectionRecord.key snapshot.selections ∧
    Ranked QueryAffinityRecord.key snapshot.queryAffinities

/-- Every snapshot is read back as it was written. Under a budget with room for the envelope,
what is kept fits, is the most-used part of each kind, and is all of the snapshot, in the
store's order, when all of it fits. -/
theorem history_file (snapshot : SelectionHistorySnapshot) {budget : Nat}
    (henvelope : envelopeBytes ≤ budget) (hmax : budget < u64Max) :
    parse (serialize snapshot) = some snapshot ∧
      byteLen (serialize (withinBudget snapshot budget)) ≤ budget ∧
      (∃ n, (withinBudget snapshot budget).selections = sortOn SelectionRecord.key
        ((sortOn SelectionRecord.usage snapshot.selections).take n)) ∧
      (∃ n, (withinBudget snapshot budget).queryAffinities = sortOn QueryAffinityRecord.key
        ((sortOn QueryAffinityRecord.usage snapshot.queryAffinities).take n)) ∧
      (byteLen (serialize snapshot) ≤ budget →
        (withinBudget snapshot budget).selections.Perm snapshot.selections ∧
        (withinBudget snapshot budget).queryAffinities.Perm snapshot.queryAffinities ∧
        (InKeyOrder snapshot → withinBudget snapshot budget = snapshot)) := by
  obtain ⟨hfront, hcost, hbudget, hall⟩ := keepRecords_spec hmax pushSelection envelopeBytes true
    (sortOn SelectionRecord.usage snapshot.selections)
  obtain ⟨hfront', hcost', hbudget', hall'⟩ := keepRecords_spec hmax pushAffinity
    (keepRecords pushSelection budget envelopeBytes true
      (sortOn SelectionRecord.usage snapshot.selections)).2 true
    (sortOn usage snapshot.queryAffinities)
  refine ⟨parse_serialize snapshot, ?_, ⟨_, congrArg _ (prefix_iff_eq_take.mp hfront)⟩,
    ⟨_, congrArg _ (prefix_iff_eq_take.mp hfront')⟩, fun hfits => ?_⟩
  · rw [byteLen_serialize]
    simp only [withinBudget]
    rw [costFrom_perm (sortOn_perm _ _), costFrom_perm (sortOn_perm key _)]
    omega
  · rw [byteLen_serialize] at hfits
    have hselections : costFrom pushSelection true _ = costFrom pushSelection true _ :=
      costFrom_perm (sortOn_perm SelectionRecord.usage snapshot.selections)
    have haffinities : costFrom pushAffinity true _ = costFrom pushAffinity true _ :=
      costFrom_perm (sortOn_perm usage snapshot.queryAffinities)
    have hkept := hall (by omega)
    rw [hkept] at hcost
    have hkept' := hall' (by omega)
    have hperm : (withinBudget snapshot budget).selections.Perm snapshot.selections := by
      simp only [withinBudget, hkept]
      exact (sortOn_perm _ _).trans (sortOn_perm _ _)
    have hperm' : (withinBudget snapshot budget).queryAffinities.Perm snapshot.queryAffinities := by
      simp only [withinBudget, hkept']
      exact (sortOn_perm _ _).trans (sortOn_perm _ _)
    refine ⟨hperm, hperm', fun horder => ?_⟩
    simp only [withinBudget, hkept, hkept', sortOn_eq horder.1 (sortOn_perm _ _),
      sortOn_eq horder.2 (sortOn_perm _ _)]

/-- Two selections, the second one with the smaller key. -/
def unsortedSnapshot : SelectionHistorySnapshot where
  selections := [⟨⟨"q"⟩, ⟨"i"⟩, 1, none⟩, ⟨⟨"p"⟩, ⟨"i"⟩, 1, some 7⟩]

/-- The store's budget has room for the envelope, and for a small snapshot. -/
theorem history_file_small :
    byteLen (serialize (withinBudget unsortedSnapshot historyMaxBytes)) ≤ historyMaxBytes ∧
      (withinBudget unsortedSnapshot historyMaxBytes).selections.Perm
        unsortedSnapshot.selections := by
  have hroom : envelopeBytes ≤ historyMaxBytes := by decide +kernel
  obtain ⟨-, hle, -, -, hfits⟩ := history_file unsortedSnapshot hroom (by decide)
  exact ⟨hle, (hfits (by decide +kernel)).1⟩

/-- A snapshot that fits is not kept as it is when its records are in another order. -/
theorem unsorted_snapshot_reordered : byteLen (serialize unsortedSnapshot) ≤ historyMaxBytes ∧
      withinBudget unsortedSnapshot historyMaxBytes ≠ unsortedSnapshot := by
  decide +kernel

end CriKey.Store
