import CriKey.Base.TopK
import CriKey.Base.Word
import CriKey.Core.Item
import CriKey.Store.Json

/-! The selection history file: its JSON, read back as it was written, and the budget that keeps
the most-used records when not all of them fit. -/
namespace CriKey.Store
open CriKey.Base CriKey.Core CriKey.Query String

structure SelectionRecord where
  plugin : PluginId
  item : ItemId
  frequency : UInt32
  lastSelectedSecs : Option UInt64
deriving DecidableEq

structure QueryAffinityRecord where
  plugin : PluginId
  item : ItemId
  query : String
  count : UInt32
deriving DecidableEq

structure SelectionHistorySnapshot where
  selections : List SelectionRecord := []
  queryAffinities : List QueryAffinityRecord := []
deriving DecidableEq

def magicKey : String := "crikey_selection_history"

def formatVersion : UInt32 := 1

def historyMaxBytes : Nat := 4 * 1024 * 1024

/-! Writing. -/

def writeNumber (n : Nat) : Text := Nat.toDigits 10 n

def writeSecs : Option UInt64 → Text
  | some secs => writeNumber secs.toNat
  | none => "null".toList

def pushSelection (record : SelectionRecord) : Text :=
  '\x7b' :: (writeKey "plugin" ++ (writeJsonString record.plugin.name.toList ++
    ',' :: (writeKey "item" ++ (writeJsonString record.item.name.toList ++
    ',' :: (writeKey "frequency" ++ (writeNumber record.frequency.toNat ++
    ',' :: (writeKey "last_selected_secs" ++ (writeSecs record.lastSelectedSecs ++ ['\x7d']))))))))

variable (record : QueryAffinityRecord)

def pushAffinity : Text :=
  '\x7b' :: (writeKey "plugin" ++ (writeJsonString record.plugin.name.toList ++
    ',' :: (writeKey "item" ++ (writeJsonString record.item.name.toList ++
    ',' :: (writeKey "query" ++ (writeJsonString record.query.toList ++
    ',' :: (writeKey "count" ++ (writeNumber record.count.toNat ++ ['\x7d']))))))))

def writeArray (elements : List Text) : Text := '[' :: (writeElements elements ++ [']'])

def serialize (snapshot : SelectionHistorySnapshot) : Text :=
  '\x7b' :: (writeKey magicKey ++ (writeNumber formatVersion.toNat ++
    ',' :: (writeKey "selections" ++ (writeArray (snapshot.selections.map pushSelection) ++
    ',' :: (writeKey "query_affinities" ++
      (writeArray (snapshot.queryAffinities.map pushAffinity) ++ ['\x7d']))))))

/-! Reading. A field is read once; a key that is unknown or repeated is an error. -/

structure SelectionFields where
  plugin : Option PluginId := none
  item : Option ItemId := none
  frequency : Option UInt32 := none
  lastSelectedSecs : Option (Option UInt64) := none

def selectionField (key : Text) (fields : SelectionFields) (cursor : Cursor) :
    Option (SelectionFields × Cursor) :=
  if key = "plugin".toList && fields.plugin.isNone then do
    let (plugin, cursor) ← string cursor
    some ({ fields with plugin := some ⟨ofList plugin⟩ }, cursor)
  else if key = "item".toList && fields.item.isNone then do
    let (item, cursor) ← string cursor
    some ({ fields with item := some ⟨ofList item⟩ }, cursor)
  else if key = "frequency".toList && fields.frequency.isNone then do
    let (frequency, cursor) ← number cursor
    some ({ fields with frequency := some frequency }, cursor)
  else if key = "last_selected_secs".toList && fields.lastSelectedSecs.isNone then
    match null cursor with
    | (true, cursor) => some ({ fields with lastSelectedSecs := some none }, cursor)
    | (false, cursor) => do
      let (secs, cursor) ← numberU64 cursor
      some ({ fields with lastSelectedSecs := some (some secs) }, cursor)
  else none

def parseSelection (cursor : Cursor) : Option (SelectionRecord × Cursor) := do
  let cursor ← expect '\x7b' cursor
  let (fields, cursor) ← fieldLoop selectionField cursor.length {} cursor
  let cursor ← expect '\x7d' cursor
  let plugin ← fields.plugin
  let item ← fields.item
  let frequency ← fields.frequency
  let lastSelectedSecs ← fields.lastSelectedSecs
  some (⟨plugin, item, frequency, lastSelectedSecs⟩, cursor)

structure AffinityFields where
  plugin : Option PluginId := none
  item : Option ItemId := none
  query : Option String := none
  count : Option UInt32 := none

def affinityField (key : Text) (fields : AffinityFields) (cursor : Cursor) :
    Option (AffinityFields × Cursor) :=
  if key = "plugin".toList && fields.plugin.isNone then do
    let (plugin, cursor) ← string cursor
    some ({ fields with plugin := some ⟨ofList plugin⟩ }, cursor)
  else if key = "item".toList && fields.item.isNone then do
    let (item, cursor) ← string cursor
    some ({ fields with item := some ⟨ofList item⟩ }, cursor)
  else if key = "query".toList && fields.query.isNone then do
    let (query, cursor) ← string cursor
    some ({ fields with query := some (ofList query) }, cursor)
  else if key = "count".toList && fields.count.isNone then do
    let (count, cursor) ← number cursor
    some ({ fields with count := some count }, cursor)
  else none

def parseQueryAffinity (cursor : Cursor) : Option (QueryAffinityRecord × Cursor) := do
  let cursor ← expect '\x7b' cursor
  let (fields, cursor) ← fieldLoop affinityField cursor.length {} cursor
  let cursor ← expect '\x7d' cursor
  let plugin ← fields.plugin
  let item ← fields.item
  let query ← fields.query
  let count ← fields.count
  some (⟨plugin, item, query, count⟩, cursor)

def parseSelections : Cursor → Option (List SelectionRecord × Cursor) := array parseSelection

def parseQueryAffinities : Cursor → Option (List QueryAffinityRecord × Cursor) :=
  array parseQueryAffinity

structure HistoryFields where
  selections : Option (List SelectionRecord) := none
  queryAffinities : Option (List QueryAffinityRecord) := none

def historyField (key : Text) (fields : HistoryFields) (cursor : Cursor) :
    Option (HistoryFields × Cursor) :=
  if key = "selections".toList && fields.selections.isNone then do
    let (selections, cursor) ← parseSelections cursor
    some ({ fields with selections := some selections }, cursor)
  else if key = "query_affinities".toList && fields.queryAffinities.isNone then do
    let (affinities, cursor) ← parseQueryAffinities cursor
    some ({ fields with queryAffinities := some affinities }, cursor)
  else none

/-- The fields after the magic one, each behind a comma. -/
def historyLoop : Nat → HistoryFields → Cursor → Option (HistoryFields × Cursor)
  | 0, _, _ => none
  | fuel + 1, fields, cursor =>
    match consume ',' cursor with
    | (true, cursor) => do
      let (fields, cursor) ← field historyField fields cursor
      historyLoop fuel fields cursor
    | (false, cursor) => some (fields, cursor)

def parse (text : Text) : Option SelectionHistorySnapshot := do
  let cursor ← expect '\x7b' text
  let (magic, cursor) ← string cursor
  if magic ≠ magicKey.toList then none
  else do
  let cursor ← expect ':' cursor
  let (version, cursor) ← number cursor
  if version ≠ formatVersion then none
  else do
  let (fields, cursor) ← historyLoop (cursor.length + 1) {} cursor
  let cursor ← expect '\x7d' cursor
  if skipWhitespace cursor ≠ [] then none
  else do
  let selections ← fields.selections
  let queryAffinities ← fields.queryAffinities
  some ⟨selections, queryAffinities⟩

/-! The budget. -/

/-- The store's own order. -/
def SelectionRecord.key (record : SelectionRecord) : String ×ₗ String :=
  toLex (record.plugin.name, record.item.name)

def QueryAffinityRecord.key : String ×ₗ String ×ₗ String :=
  toLex (record.query, toLex (record.plugin.name, record.item.name))

/-- Most used first, then by key. -/
def SelectionRecord.usage (record : SelectionRecord) : ℕᵒᵈ ×ₗ String ×ₗ String :=
  toLex (OrderDual.toDual record.frequency.toNat, record.key)

def QueryAffinityRecord.usage : ℕᵒᵈ ×ₗ String ×ₗ String ×ₗ String :=
  toLex (OrderDual.toDual record.count.toNat, record.key)

section
variable {α κ : Type} [LinearOrder κ]

/-- A stable sort. -/
def sortOn (key : α → κ) (records : List α) : List α :=
  records.insertionSort fun a b => key a ≤ key b

/-- Takes records until one exceeds the budget; every one but the first costs a comma. -/
def keepRecords (write : α → Text) (budget : Nat) : Nat → Bool → List α → List α × Nat
  | used, _, [] => ([], used)
  | used, first, record :: records =>
    let cost := byteLen (write record) + if first then 0 else 1
    if budget < satAdd used cost then ([], used)
    else
      let (kept, used) := keepRecords write budget (used + cost) false records
      (record :: kept, used)

end

def envelopeBytes : Nat := byteLen (serialize {})

def withinBudget (snapshot : SelectionHistorySnapshot) (budget : Nat) : SelectionHistorySnapshot :=
  let (selections, used) := keepRecords pushSelection budget envelopeBytes true
    (sortOn SelectionRecord.usage snapshot.selections)
  let (affinities, _) := keepRecords pushAffinity budget used true
    (sortOn QueryAffinityRecord.usage snapshot.queryAffinities)
  ⟨sortOn SelectionRecord.key selections, sortOn QueryAffinityRecord.key affinities⟩

end CriKey.Store
