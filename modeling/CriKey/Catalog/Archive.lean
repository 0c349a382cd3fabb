import CriKey.Base.Codec
import CriKey.Base.SortedMap
import CriKey.Core.Bytes
import CriKey.Core.Generation
import CriKey.Core.Item

/-! The slice document: one plugin's catalog contribution as a self-contained archive. The
header carries a magic, the schema version, the length of the payload and its checksum;
the payload is written field by field. The checksum is a parameter. -/
namespace CriKey.Catalog
open CriKey.Base CriKey.Core

structure CachedSlice where
  plugin : PluginId
  instanceId : Nat
  generation : Generation
  items : List Item
deriving DecidableEq, Repr

def magic : Bytes := bytesOf "CRIKYCAT"

def schemaVersion : Nat := 1

/-! Writing. -/

def putU32 (value : Nat) : Chunk := some (toLeBytes 4 value)

def putU64 (value : Nat) : Chunk := some (toLeBytes 8 value)

def putI32 (value : Int) : Chunk := putU32 (value % 2 ^ 32).toNat

def putCount (count : Nat) : Chunk := if count < 2 ^ 32 then putU32 count else none

def putStr (value : String) : Chunk := putCount (bytesOf value).length >> some (bytesOf value)

def putOptionalStr : Option String → Chunk
  | none => some [0]
  | some value => some [1] >> putStr value

def putCounted {α : Type} (put : α → Chunk) (xs : List α) : Chunk :=
  putCount xs.length >> concat (xs.map put)

def categoryTag : Category → UInt8
  | .application => 0
  | .file => 1
  | .directory => 2
  | .url => 3
  | .command => 4
  | .expression => 5
  | .keyword => 6
  | .contact => 7
  | .clipboardItem => 8
  | .pluginDefined _ => 9

def putCategory (category : Category) : Chunk :=
  some [categoryTag category] >> match category with
    | .pluginDefined name => putStr name
    | _ => some []

def executionTag : ExecutionPolicy → UInt8
  | .hostMediated => 0
  | .plugin => 1

def argumentTag : ArgumentPolicy → UInt8
  | .forbidden => 0
  | .optional => 1
  | .required => 2

def hitTag : HitPolicy → UInt8
  | .recorded => 0
  | .ignored => 1

def putAction (action : Action) : Chunk :=
  putStr action.actionId.name >> putStr action.label >> putStr action.description >>
  putCounted putCategory action.applicableCategories >>
  putOptionalStr action.iconReference >> some [executionTag action.executionPolicy]

def putEntry (entry : String × String) : Chunk := putStr entry.1 >> putStr entry.2

def putItem (item : Item) : Chunk :=
  putStr item.stableId.name >> putStr item.pluginId.name >> putCategory item.category >>
  putStr item.label >> putStr item.description >> putStr item.target >>
  putCounted putStr item.searchTerms >> putOptionalStr item.iconReference >>
  some [argumentTag item.argumentPolicy] >> some [hitTag item.hitPolicy] >>
  putI32 item.scoreHint >> putCounted putEntry item.metadata >>
  putCounted putAction item.actions

def putPayload (slice : CachedSlice) : Chunk :=
  putStr slice.plugin.name >> putU64 slice.instanceId >> putU64 slice.generation.get >>
  putCounted putItem slice.items

variable (checksum : Bytes → UInt64)

/-- The header and the payload; the length and the checksum are known once it is built. -/
def archiveOf (payload : Bytes) : Bytes :=
  magic ++ (toLeBytes 4 schemaVersion ++ (toLeBytes 8 payload.length ++
    (toLeBytes 8 (checksum payload).toNat ++ payload)))

def encodeSliceDocument (slice : CachedSlice) : Option Bytes := do
  let payload ← putPayload slice
  some (archiveOf checksum payload)

/-! Reading. -/

def string : Reader String := do
  let len ← word 4
  let bytes ← take len
  fromUtf8 bytes

def optionalString : Reader (Option String) := do
  match ← tag with
  | 0 => pure none
  | 1 => do
    let value ← string
    pure (some value)
  | _ => failure

def i32 : Reader Int := do
  let bits ← word 4
  pure (if bits < 2 ^ 31 then (bits : Int) else bits - 2 ^ 32)

/-- A count, then that many turns of the loop. -/
def counted {α : Type} (r : Reader α) : Reader (List α) := do
  let count ← word 4
  times count r

def takeCategory : Reader Category := do
  match ← tag with
  | 0 => pure .application
  | 1 => pure .file
  | 2 => pure .directory
  | 3 => pure .url
  | 4 => pure .command
  | 5 => pure .expression
  | 6 => pure .keyword
  | 7 => pure .contact
  | 8 => pure .clipboardItem
  | 9 => do
    let name ← string
    pure (.pluginDefined name)
  | _ => failure

def executionOf : UInt8 → Option ExecutionPolicy
  | 0 => some .hostMediated
  | 1 => some .plugin
  | _ => none

def argumentOf : UInt8 → Option ArgumentPolicy
  | 0 => some .forbidden
  | 1 => some .optional
  | 2 => some .required
  | _ => none

def hitOf : UInt8 → Option HitPolicy
  | 0 => some .recorded
  | 1 => some .ignored
  | _ => none

def takeAction : Reader Action := do
  let actionId ← string
  let label ← string
  let description ← string
  let applicableCategories ← counted takeCategory
  let iconReference ← optionalString
  let executionPolicy ← tagged executionOf
  pure ⟨⟨actionId⟩, label, description, applicableCategories, iconReference, executionPolicy⟩

def takeEntry : Reader (String × String) := do
  let key ← string
  let value ← string
  pure (key, value)

/-- The entries as a map; a repeated key means that the codec did not write these bytes. -/
def collectMetadata (entries : List (String × String)) : Option (List (String × String)) :=
  let metadata := ofEntries entries
  if metadata.length ≠ entries.length then none else some metadata

/-- `take_item`, with what becomes of the metadata entries left open. -/
def takeItemWith (collect : List (String × String) → Option (List (String × String))) :
    Reader Item := do
  let stableId ← string
  let pluginId ← string
  let category ← takeCategory
  let label ← string
  let description ← string
  let target ← string
  let searchTerms ← counted string
  let iconReference ← optionalString
  let argumentPolicy ← tagged argumentOf
  let hitPolicy ← tagged hitOf
  let scoreHint ← i32
  let entries ← counted takeEntry
  let metadata ← collect entries
  let actions ← counted takeAction
  pure ⟨⟨stableId⟩, ⟨pluginId⟩, category, label, description, target, searchTerms, iconReference,
    argumentPolicy, hitPolicy, scoreHint, metadata, actions⟩

def takeItem : Reader Item := takeItemWith collectMetadata

/-- One turn of the loop over the items: a foreign item spoils the document. -/
def takeOwned (r : Reader Item) (owner : String) : Reader Item := do
  let item ← r
  if item.pluginId.name ≠ owner then failure else pure item

def takePayloadWith (r : Reader Item) : Reader CachedSlice := do
  let owner ← string
  let instanceId ← word 8
  let generation ← word 8
  let items ← counted (takeOwned r owner)
  pure ⟨⟨owner⟩, instanceId, ⟨generation⟩, items⟩

/-- `decode_slice_document`, with the reader of the items left open. -/
def decodeWith (r : Reader Item) (bytes : Bytes) :
    Option CachedSlice := do
  let (start, header) ← take 8 bytes
  if start ≠ magic then none else do
  let (version, header) ← word 4 header
  if version ≠ schemaVersion then none else do
  let (payloadLen, header) ← word 8 header
  let (recorded, header) ← word 8 header
  let (payload, header) ← take payloadLen header
  if !header.isEmpty || (checksum payload).toNat != recorded then none else do
  let (slice, cursor) ← takePayloadWith r payload
  if !cursor.isEmpty then none else some slice

def decodeSliceDocument (bytes : Bytes) : Option CachedSlice :=
  decodeWith checksum takeItem bytes

/-- The slice as a document spells it: each item's metadata in the order of the bytes. -/
def readAsWritten (bytes : Bytes) : Option CachedSlice :=
  decodeWith checksum (takeItemWith some) bytes

/-! The checksum the archive is written with. -/

def wordOf (chunk : Bytes) : UInt64 := UInt64.ofNat (fromLeBytes chunk)

def checksumPrime : UInt64 := 0x00000100000001b3

def checksumWords (digest : UInt64) : Bytes → UInt64
  | a :: b :: c :: d :: e :: f :: g :: h :: bytes =>
    let mixed := (digest ^^^ wordOf [a, b, c, d, e, f, g, h]) * checksumPrime
    checksumWords (mixed <<< 27 ||| mixed >>> 37) bytes
  | remainder => (digest ^^^ wordOf remainder) * checksumPrime

/-- 64-bit FNV-1a folded a word at a time, with a rotation. -/
def fnvChecksum (bytes : Bytes) : UInt64 :=
  let digest := checksumWords 0xcbf29ce484222325 bytes
  let digest := (digest ^^^ UInt64.ofNat bytes.length) * checksumPrime
  digest ^^^ (digest >>> 32)

end CriKey.Catalog
