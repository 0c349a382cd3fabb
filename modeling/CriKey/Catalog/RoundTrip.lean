import CriKey.Catalog.Archive

/-! What the slice document codec accepts. Read as written, a document determines the slice
it was written from; the decoder then puts the metadata of every item in key order. -/
namespace CriKey.Catalog
open CriKey.Base CriKey.Core List Option CodesOn PluginId

/-! Each field: the reader accepts what the writer writes, and nothing else. -/

lemma codes_count : CodesOn (fun _ => True) putCount (word 4) := by
  intro input n rest
  rw [codes_word 4 input n rest, putCount]
  constructor
  · rintro ⟨hn, h⟩
    rw [if_pos (show n < 2 ^ 32 from hn)]
    exact ⟨trivial, h⟩
  · rintro ⟨-, bytes, h, hinput⟩
    split at h
    · rename_i hn
      exact ⟨hn, bytes, h, hinput⟩
    · cases h

variable {α : Type}

lemma codes_counted {P : α → Prop} {put : α → Chunk} {r : Reader α} (h : CodesOn P put r) :
    CodesOn (fun xs => ∀ x ∈ xs, P x) (putCounted put) (counted r) := by
  intro input xs rest
  rw [counted, bind_eq_some]
  constructor
  · rintro ⟨n, middle, hn, hxs⟩
    obtain ⟨-, bytes, hput, rfl⟩ := (codes_count _ _ _).mp hn
    obtain ⟨⟨rfl, hall⟩, bytes', hput', rfl⟩ := (h.times _ _ _).mp hxs
    exact ⟨hall, bytes ++ bytes', andThen_eq_some.mpr ⟨_, _, hput, hput', rfl⟩, by simp⟩
  · rintro ⟨hall, bytes, hput, rfl⟩
    obtain ⟨first, second, hfirst, hsecond, rfl⟩ := andThen_eq_some.mp hput
    refine ⟨xs.length, second ++ rest, ?_, h.times.read ⟨rfl, hall⟩ hsecond rest⟩
    rw [append_assoc]
    exact codes_count.read trivial hfirst (second ++ rest)

lemma codes_string : CodesOn (fun _ => True) putStr string := by
  intro input s rest
  rw [string, bind_eq_some]
  constructor
  · rintro ⟨n, middle, hn, hs⟩
    obtain ⟨bytes, last, hbytes, hs⟩ := bind_eq_some.mp hs
    obtain ⟨hutf, rfl⟩ := lift_eq_some.mp hs
    obtain ⟨-, first, hput, rfl⟩ := (codes_count _ _ _).mp hn
    obtain ⟨rfl, _, hb, rfl⟩ := (codes_take _ _ _ _).mp hbytes
    cases hb
    obtain rfl := fromUtf8_eq_some.mp hutf
    exact ⟨trivial, first ++ bytesOf s, andThen_eq_some.mpr ⟨_, _, hput, rfl, rfl⟩, by simp⟩
  · rintro ⟨-, bytes, hput, rfl⟩
    obtain ⟨first, second, hfirst, hsecond, rfl⟩ := andThen_eq_some.mp hput
    cases hsecond
    refine ⟨(bytesOf s).length, bytesOf s ++ rest, ?_, ?_⟩
    · rw [append_assoc]
      exact codes_count.read trivial hfirst _
    · exact bind_eq_some.mpr ⟨bytesOf s, rest, (codes_take _).read rfl rfl rest,
        lift_eq_some.mpr ⟨fromUtf8_eq_some.mpr rfl, rfl⟩⟩

lemma codes_optionalString : CodesOn (fun _ => True) putOptionalStr optionalString := by
  intro input s rest
  rw [optionalString, bind_eq_some]
  constructor
  · rintro ⟨byte, middle, hbyte, hs⟩
    obtain ⟨-, _, hb, rfl⟩ := (codes_tag _ _ _).mp hbyte
    cases hb
    split at hs
    · obtain ⟨rfl, rfl⟩ := pure_eq_some.mp hs
      exact ⟨trivial, [0], rfl, rfl⟩
    · obtain ⟨value, last, hv, hs⟩ := bind_eq_some.mp hs
      obtain ⟨rfl, rfl⟩ := pure_eq_some.mp hs
      obtain ⟨-, bytes, hput, rfl⟩ := (codes_string _ _ _).mp hv
      exact ⟨trivial, [1] ++ bytes, andThen_eq_some.mpr ⟨_, _, rfl, hput, rfl⟩, by simp⟩
    · cases hs
  · rintro ⟨-, bytes, hput, rfl⟩
    cases s with
    | none =>
      cases hput
      exact ⟨0, rest, rfl, rfl⟩
    | some value =>
      obtain ⟨first, second, hfirst, hsecond, rfl⟩ := andThen_eq_some.mp hput
      cases hfirst
      exact ⟨1, second ++ rest, rfl,
        bind_eq_some.mpr ⟨value, rest, codes_string.read trivial hsecond rest, rfl⟩⟩

lemma codes_category : CodesOn (fun _ => True) putCategory takeCategory := by
  intro input category rest
  rw [takeCategory, bind_eq_some]
  constructor
  · rintro ⟨byte, middle, hbyte, hc⟩
    obtain ⟨-, _, hb, rfl⟩ := (codes_tag _ _ _).mp hbyte
    cases hb
    have hplain {c : Category} (h : (pure c : Reader Category) middle = some (category, rest))
        (hp : putCategory c = some [categoryTag c]) :
        True ∧ ∃ bytes, putCategory category = some bytes ∧
          [categoryTag c] ++ middle = bytes ++ rest := by
      obtain ⟨rfl, rfl⟩ := pure_eq_some.mp h
      exact ⟨trivial, _, hp, rfl⟩
    split at hc
    case h_10 =>
      obtain ⟨name, last, hname, hc⟩ := bind_eq_some.mp hc
      obtain ⟨rfl, rfl⟩ := pure_eq_some.mp hc
      obtain ⟨-, bytes, hput, rfl⟩ := (codes_string _ _ _).mp hname
      exact ⟨trivial, [9] ++ bytes, andThen_eq_some.mpr ⟨_, _, rfl, hput, rfl⟩, by simp⟩
    case h_11 => cases hc
    all_goals exact hplain hc rfl
  · rintro ⟨-, bytes, hput, rfl⟩
    obtain ⟨first, second, hfirst, hsecond, rfl⟩ := andThen_eq_some.mp hput
    cases hfirst
    refine ⟨categoryTag category, second ++ rest, rfl, ?_⟩
    cases category with
    | pluginDefined name =>
      exact bind_eq_some.mpr ⟨name, rest, codes_string.read trivial hsecond rest, rfl⟩
    | _ =>
      cases hsecond
      rfl

lemma codes_i32 : CodesOn (fun v => -2 ^ 31 ≤ v ∧ v < 2 ^ 31) putI32 i32 := by
  refine (codes_word 4).convert (f := fun bits : Nat =>
    some (if bits < 2 ^ 31 then (bits : Int) else bits - 2 ^ 32)) ?_
  intro bits v
  rw [some.injEq]
  constructor
  · split <;> omega
  · rintro ⟨⟨hlo, hhi⟩, rfl⟩
    split <;> omega

lemma codes_execution :
    CodesOn (fun _ => True) (fun policy => some [executionTag policy]) (tagged executionOf) := by
  refine codes_tagged fun byte policy => ?_
  constructor
  · intro h
    unfold executionOf at h
    split at h <;> cases h <;> rfl
  · rintro rfl
    cases policy <;> rfl

lemma codes_argument :
    CodesOn (fun _ => True) (fun policy => some [argumentTag policy]) (tagged argumentOf) := by
  refine codes_tagged fun byte policy => ?_
  constructor
  · intro h
    unfold argumentOf at h
    split at h <;> cases h <;> rfl
  · rintro rfl
    cases policy <;> rfl

lemma codes_hit : CodesOn (fun _ => True) (fun policy => some [hitTag policy]) (tagged hitOf) := by
  refine codes_tagged fun byte policy => ?_
  constructor
  · intro h
    unfold hitOf at h
    split at h <;> cases h <;> rfl
  · rintro rfl
    cases policy <;> rfl

lemma codes_action : CodesOn (fun _ => True) putAction takeAction := by
  refine congr (.field (E := fun _ => True) codes_string fun _ => .field codes_string
    fun _ => .field codes_string fun _ => .field (codes_counted codes_category) fun _ =>
    .field codes_optionalString fun _ => .last codes_execution ?_) ?_
  · rintro policy ⟨⟨id⟩, label, description, categories, icon, policy'⟩
    simp only [Core.Action.mk.injEq, ActionId.mk.injEq, true_and, and_assoc]
  · simp

lemma codes_entry : CodesOn (fun _ => True) putEntry takeEntry := by
  refine congr (.field (E := fun _ => True) codes_string fun _ => .last codes_string ?_) ?_
  · rintro value ⟨key, value'⟩
    simp only [Prod.mk.injEq, true_and]
  · simp

/-- The score hint is a 32-bit number. -/
def hintInRange (item : Item) : Prop := -2 ^ 31 ≤ item.scoreHint ∧ item.scoreHint < 2 ^ 31

lemma codes_item : CodesOn hintInRange putItem (takeItemWith some) := by
  refine congr (.field (E := fun _ => True) codes_string fun _ => .field codes_string
    fun _ => .field codes_category fun _ => .field codes_string fun _ => .field codes_string
    fun _ => .field codes_string fun _ => .field (codes_counted codes_string) fun _ =>
    .field codes_optionalString fun _ => .field codes_argument fun _ => .field codes_hit fun _ =>
    .field codes_i32 fun _ => .field (codes_counted codes_entry) fun _ =>
    .last (codes_counted codes_action) ?_) ?_
  · rintro actions ⟨⟨id⟩, ⟨plugin⟩, category, label, description, target, terms, icon,
      argument, hit,
      hint, metadata, actions'⟩
    simp only [Item.mk.injEq, ItemId.mk.injEq, mk.injEq, true_and, and_assoc]
  · simp [hintInRange]

lemma codes_owned (owner : String) :
    CodesOn (fun item => hintInRange item ∧ item.pluginId.name = owner) putItem
      (takeOwned (takeItemWith some) owner) := by
  intro input item rest
  rw [takeOwned, bind_eq_some]
  constructor
  · rintro ⟨item', middle, hr, hi⟩
    obtain ⟨hhint, bytes, hput, rfl⟩ := (codes_item _ _ _).mp hr
    split at hi
    · cases hi
    · rename_i howner
      obtain ⟨rfl, rfl⟩ := pure_eq_some.mp hi
      exact ⟨⟨hhint, not_not.mp howner⟩, bytes, hput, rfl⟩
  · rintro ⟨⟨hhint, howner⟩, bytes, hput, rfl⟩
    refine ⟨item, rest, codes_item.read hhint hput rest, ?_⟩
    rw [if_neg (not_not.mpr howner)]
    rfl

/-- The ranges of a slice's numbers, and the owner of its items. -/
structure Written (slice : CachedSlice) : Prop where
  instanceId : slice.instanceId < 2 ^ 64
  generation : slice.generation.get < 2 ^ 64
  hints : ∀ item ∈ slice.items, hintInRange item
  owned : ∀ item ∈ slice.items, item.pluginId = slice.plugin

lemma codes_payload : CodesOn Written putPayload (takePayloadWith (takeItemWith some)) := by
  refine congr (.field (E := fun _ => True) codes_string fun owner => .field (codes_word 8)
    fun _ => .field (codes_word 8) fun _ => .last (codes_counted (codes_owned owner)) ?_) ?_
  · rintro items ⟨⟨plugin⟩, instanceId, ⟨generation⟩, items'⟩
    simp only [CachedSlice.mk.injEq, mk.injEq, Generation.mk.injEq, true_and, and_assoc]
  · rintro ⟨⟨plugin⟩, instanceId, ⟨generation⟩, items⟩
    constructor
    · rintro ⟨hi, hg, hhint, howner⟩
      exact ⟨trivial, trivial, hi, hg, fun item hmem => ⟨hhint item hmem,
        congrArg name (howner item hmem)⟩⟩
    · rintro ⟨-, -, hi, hg, hall⟩
      exact ⟨hi, hg, fun item hmem => (hall item hmem).1, fun item hmem =>
        congrArg mk (hall item hmem).2⟩

/-! The decoder reads the document as written and then sorts the metadata. -/

def normalItem (item : Item) : Option Item :=
  (collectMetadata item.metadata).map fun metadata => { item with metadata := metadata }

def normalSlice (slice : CachedSlice) : Option CachedSlice :=
  (slice.items.mapM normalItem).map fun items => { slice with items := items }

lemma collectMetadata_eq_some {entries metadata : List (String × String)}
    (h : collectMetadata entries = some metadata) : Ascending metadata ∧ metadata.Perm entries := by
  rw [collectMetadata] at h
  split at h
  · cases h
  · rename_i hlen
    cases h
    exact ⟨ascending_ofEntries entries, ofEntries_perm (not_not.mp hlen)⟩

lemma collectMetadata_of_ascending {entries : List (String × String)} (h : Ascending entries) :
    collectMetadata entries = some entries := by
  rw [collectMetadata, ofEntries_of_ascending h, if_neg (not_not.mpr rfl)]

lemma takeItem_converts : Converts normalItem (takeItemWith some) takeItem := by
  refine .bind _ fun _ => .bind _ fun _ => .bind _ fun _ => .bind _ fun _ => .bind _ fun _ =>
    .bind _ fun _ => .bind _ fun _ => .bind _ fun _ => .bind _ fun _ => .bind _ fun _ =>
    .bind _ fun _ => .bind _ fun entries => ?_
  intro input item rest
  rw [bind_eq_some]
  constructor
  · rintro ⟨metadata, middle, hm, hread⟩
    obtain ⟨hcollect, rfl⟩ := lift_eq_some.mp hm
    obtain ⟨actions, last, hactions, hitem⟩ := bind_eq_some.mp hread
    obtain ⟨rfl, rfl⟩ := pure_eq_some.mp hitem
    refine ⟨_, bind_eq_some.mpr ⟨entries, _, rfl, bind_eq_some.mpr ⟨actions, _, hactions, rfl⟩⟩, ?_⟩
    rw [normalItem, hcollect]
    rfl
  · rintro ⟨written, hread, hnormal⟩
    obtain ⟨entries', middle, hlift, hread⟩ := bind_eq_some.mp hread
    obtain ⟨hsame, rfl⟩ := lift_eq_some.mp hlift
    cases hsame
    obtain ⟨actions, last, hactions, hitem⟩ := bind_eq_some.mp hread
    obtain ⟨rfl, rfl⟩ := pure_eq_some.mp hitem
    rw [normalItem, map_eq_some_iff] at hnormal
    obtain ⟨metadata, hcollect, rfl⟩ := hnormal
    exact ⟨metadata, _, lift_eq_some.mpr ⟨hcollect, rfl⟩,
      bind_eq_some.mpr ⟨actions, _, hactions, rfl⟩⟩

lemma takeOwned_converts (owner : String) :
    Converts normalItem (takeOwned (takeItemWith some) owner) (takeOwned takeItem owner) := by
  intro input item rest
  rw [takeOwned, bind_eq_some]
  constructor
  · rintro ⟨item', middle, hread, hitem⟩
    obtain ⟨written, hwritten, hnormal⟩ := (takeItem_converts _ _ _).mp hread
    split at hitem
    · cases hitem
    rename_i howner
    obtain ⟨rfl, rfl⟩ := pure_eq_some.mp hitem
    refine ⟨written, bind_eq_some.mpr ⟨written, _, hwritten, ?_⟩, hnormal⟩
    rw [normalItem, map_eq_some_iff] at hnormal
    obtain ⟨metadata, -, rfl⟩ := hnormal
    rw [if_neg howner]
    rfl
  · rintro ⟨written, hread, hnormal⟩
    obtain ⟨written', middle, hwritten, hitem⟩ := bind_eq_some.mp hread
    split at hitem
    · cases hitem
    rename_i howner
    obtain ⟨rfl, rfl⟩ := pure_eq_some.mp hitem
    refine ⟨item, _, (takeItem_converts _ _ _).mpr ⟨written, hwritten, hnormal⟩, ?_⟩
    rw [normalItem, map_eq_some_iff] at hnormal
    obtain ⟨metadata, -, rfl⟩ := hnormal
    rw [if_neg howner]
    rfl

lemma takePayload_converts :
    Converts normalSlice (takePayloadWith (takeItemWith some)) (takePayloadWith takeItem) := by
  refine .bind _ fun owner => .bind _ fun instanceId => .bind _ fun generation => ?_
  intro input slice rest
  have hitems : Converts (mapM normalItem) (counted (takeOwned (takeItemWith some) owner))
      (counted (takeOwned takeItem owner)) :=
    .bind _ fun n => (takeOwned_converts owner).times n
  rw [bind_eq_some]
  constructor
  · rintro ⟨items, middle, hread, hslice⟩
    obtain ⟨rfl, rfl⟩ := pure_eq_some.mp hslice
    obtain ⟨written, hwritten, hnormal⟩ := (hitems _ _ _).mp hread
    refine ⟨_, bind_eq_some.mpr ⟨written, _, hwritten, rfl⟩, ?_⟩
    rw [normalSlice, hnormal]
    rfl
  · rintro ⟨written, hread, hnormal⟩
    obtain ⟨items, middle, hwritten, hslice⟩ := bind_eq_some.mp hread
    obtain ⟨rfl, rfl⟩ := pure_eq_some.mp hslice
    rw [normalSlice, map_eq_some_iff] at hnormal
    obtain ⟨items', hnormal, rfl⟩ := hnormal
    exact ⟨items', _, (hitems _ _ _).mpr ⟨items, hwritten, hnormal⟩, rfl⟩

/-! The header. -/

lemma length_archiveOf (checksum : Bytes → UInt64) (payload : Bytes) :
    (archiveOf checksum payload).length = 28 + payload.length := by
  have hmagic : magic.length = 8 := by decide
  simp only [archiveOf, length_append, length_toLeBytes]
  omega

lemma of_ite_none {p : Prop} [Decidable p] {x : Option α} {a : α}
    (h : (if p then none else x) = some a) : ¬p ∧ x = some a := by
  split at h
  · cases h
  · exact ⟨‹_›, h⟩

variable {slice : CachedSlice}

variable {checksum : Bytes → UInt64}

lemma decodeWith_eq_some {r : Reader Item} {bytes : Bytes} :
    decodeWith checksum r bytes = some slice ↔
      ∃ payload : Bytes, payload.length < 2 ^ 64 ∧ bytes = archiveOf checksum payload ∧
        takePayloadWith r payload = some (slice, []) := by
  constructor
  · intro h
    simp only [decodeWith, bind_eq_bind, bind_eq_some_iff] at h
    obtain ⟨⟨start, h₁⟩, hstart, h⟩ := h
    obtain ⟨hmagic, h⟩ := of_ite_none h
    simp only [bind_eq_some_iff] at h
    obtain ⟨⟨version, h₂⟩, hversion, h⟩ := h
    obtain ⟨hschema, h⟩ := of_ite_none h
    simp only [bind_eq_some_iff] at h
    obtain ⟨⟨len, h₃⟩, hlen, ⟨recorded, h₄⟩, hrecorded, ⟨payload, h₅⟩, hpayload, h⟩ := h
    obtain ⟨hcheck, h⟩ := of_ite_none h
    simp only [bind_eq_some_iff] at h
    obtain ⟨⟨slice', cursor⟩, hread, h⟩ := h
    obtain ⟨hempty, hslice⟩ := of_ite_none h
    simp only [Bool.or_eq_true, Bool.not_eq_true', bne_iff_ne, not_or, not_not,
      Bool.not_eq_false, List.isEmpty_iff] at hmagic hschema hcheck hempty
    obtain ⟨-, _, hput₁, rfl⟩ := (codes_take _ _ _ _).mp hstart
    obtain ⟨-, _, hput₂, rfl⟩ := (codes_word _ _ _ _).mp hversion
    obtain ⟨hlt, _, hput₃, rfl⟩ := (codes_word _ _ _ _).mp hlen
    obtain ⟨-, _, hput₄, rfl⟩ := (codes_word _ _ _ _).mp hrecorded
    obtain ⟨rfl, _, hput₅, rfl⟩ := (codes_take _ _ _ _).mp hpayload
    cases hput₁
    cases hput₂
    cases hput₃
    cases hput₄
    cases hput₅
    obtain ⟨rfl, rfl⟩ := hcheck
    cases hslice
    subst hempty hmagic hschema
    exact ⟨payload, hlt, by rw [append_nil]; rfl, hread⟩
  · rintro ⟨payload, hlen, rfl, hread⟩
    have hmagic : magic.length = 8 := by decide
    have hschema : schemaVersion < 256 ^ 4 := by decide
    have hsum : (checksum payload).toNat < 256 ^ 8 := (checksum payload).toNat_lt
    have hpayload := (codes_take payload.length).read rfl rfl []
    rw [append_nil] at hpayload
    simp only [decodeWith, archiveOf, bind_eq_bind, (codes_take 8).read hmagic rfl,
      (codes_word 4).read hschema rfl, (codes_word 8).read hlen rfl, (codes_word 8).read hsum rfl,
      hpayload, hread, bind_some, ne_eq, not_true_eq_false, if_false, isEmpty_nil,
      Bool.not_true, Bool.false_or, bne_self_eq_false, Bool.false_eq_true]

lemma decodeSliceDocument_eq_some {doc : Bytes} : decodeSliceDocument checksum doc = some slice ↔
      ∃ written, readAsWritten checksum doc = some written ∧ normalSlice written = some slice := by
  simp only [decodeSliceDocument, readAsWritten, decodeWith_eq_some]
  constructor
  · rintro ⟨payload, hlen, hdoc, hread⟩
    obtain ⟨written, hwritten, hnormal⟩ := (takePayload_converts _ _ _).mp hread
    exact ⟨written, ⟨payload, hlen, hdoc, hwritten⟩, hnormal⟩
  · rintro ⟨written, ⟨payload, hlen, hdoc, hwritten⟩, hnormal⟩
    exact ⟨payload, hlen, hdoc, (takePayload_converts _ _ _).mpr ⟨written, hwritten, hnormal⟩⟩

lemma readAsWritten_eq_some {doc : Bytes} :
    readAsWritten checksum doc = some slice ↔ Written slice ∧
      ∃ payload : Bytes, payload.length < 2 ^ 64 ∧ putPayload slice = some payload ∧
        doc = archiveOf checksum payload := by
  rw [readAsWritten, decodeWith_eq_some]
  constructor
  · rintro ⟨payload, hlen, hdoc, hread⟩
    obtain ⟨hw, bytes, hput, hbytes⟩ := (codes_payload _ _ _).mp hread
    rw [append_nil] at hbytes
    exact ⟨hw, payload, hlen, hbytes ▸ hput, hdoc⟩
  · rintro ⟨hw, payload, hlen, hput, hdoc⟩
    have hread := codes_payload.read hw hput []
    rw [append_nil] at hread
    exact ⟨payload, hlen, hdoc, hread⟩

/-! Lengths that fit their fields. -/

def strFits (s : String) : Prop := (bytesOf s).length < 2 ^ 32

def categoryFits : Category → Prop
  | .pluginDefined name => strFits name
  | _ => True

def allFit {α : Type} (fits : α → Prop) (xs : List α) : Prop :=
  xs.length < 2 ^ 32 ∧ ∀ x ∈ xs, fits x

@[mk_iff]
structure ActionFits (action : Core.Action) : Prop where
  actionId : strFits action.actionId.name
  label : strFits action.label
  description : strFits action.description
  categories : allFit categoryFits action.applicableCategories
  icon : ∀ icon, action.iconReference = some icon → strFits icon

@[mk_iff]
structure ItemFits (item : Item) : Prop where
  stableId : strFits item.stableId.name
  pluginId : strFits item.pluginId.name
  category : categoryFits item.category
  label : strFits item.label
  description : strFits item.description
  target : strFits item.target
  terms : allFit strFits item.searchTerms
  icon : ∀ icon, item.iconReference = some icon → strFits icon
  metadata : allFit (fun entry => strFits entry.1 ∧ strFits entry.2) item.metadata
  actions : allFit ActionFits item.actions

@[mk_iff]
structure CachedSlice.Fits (slice : CachedSlice) : Prop where
  plugin : strFits slice.plugin.name
  items : allFit ItemFits slice.items

lemma isSome_putCount (n : Nat) : (putCount n).isSome ↔ n < 2 ^ 32 := by
  rw [putCount]
  split
  · rename_i h
    exact iff_of_true rfl h
  · rename_i h
    exact iff_of_false Bool.false_ne_true h

lemma isSome_putStr (s : String) : (putStr s).isSome ↔ strFits s := by
  rw [putStr, isSome_andThen, isSome_putCount, strFits]
  simp

lemma isSome_putOptionalStr (s : Option String) :
    (putOptionalStr s).isSome ↔ ∀ value, s = some value → strFits value := by
  cases s with
  | none => simp [putOptionalStr]
  | some value => simp [putOptionalStr, isSome_andThen, isSome_putStr]

lemma isSome_putCounted {put : α → Chunk} {fits : α → Prop} (h : ∀ a, (put a).isSome ↔ fits a)
    (xs : List α) : (putCounted put xs).isSome ↔ allFit fits xs := by
  rw [putCounted, isSome_andThen, isSome_putCount, isSome_concat, List.forall_mem_map, allFit]
  simp only [h]

lemma isSome_putCategory (category : Category) :
    (putCategory category).isSome ↔ categoryFits category := by
  cases category <;> simp [putCategory, isSome_andThen, isSome_putStr, categoryFits]

lemma isSome_putAction (action : Core.Action) : (putAction action).isSome ↔ ActionFits action := by
  simp only [putAction, isSome_andThen, isSome_putStr, isSome_putOptionalStr,
    isSome_putCounted isSome_putCategory, Option.isSome_some, and_true]
  exact (actionFits_iff action).symm

lemma isSome_putEntry (entry : String × String) :
    (putEntry entry).isSome ↔ strFits entry.1 ∧ strFits entry.2 := by
  rw [putEntry, isSome_andThen, isSome_putStr, isSome_putStr]

lemma isSome_putItem (item : Item) : (putItem item).isSome ↔ ItemFits item := by
  simp only [putItem, putI32, putU32, isSome_andThen, isSome_putStr, isSome_putCategory,
    isSome_putOptionalStr, isSome_putCounted isSome_putStr, isSome_putCounted isSome_putEntry,
    isSome_putCounted isSome_putAction, Option.isSome_some, true_and]
  exact (itemFits_iff item).symm

lemma isSome_putPayload (slice : CachedSlice) : (putPayload slice).isSome ↔ slice.Fits := by
  simp only [putPayload, putU64, isSome_andThen, isSome_putStr, isSome_putCounted isSome_putItem,
    Option.isSome_some, true_and]
  exact (CachedSlice.fits_iff slice).symm

/-! Sorting the metadata. -/

variable {item : Item}

lemma normalItem_eq_some {written : Item} (h : normalItem written = some item) :
    Ascending item.metadata ∧ item.metadata.Perm written.metadata ∧
      item = { written with metadata := item.metadata } := by
  rw [normalItem, map_eq_some_iff] at h
  obtain ⟨metadata, hcollect, rfl⟩ := h
  obtain ⟨hasc, hperm⟩ := collectMetadata_eq_some hcollect
  exact ⟨hasc, hperm, rfl⟩

lemma normalItem_of_ascending (h : Ascending item.metadata) : normalItem item = some item := by
  rw [normalItem, collectMetadata_of_ascending h, map_some]

lemma sameSize_putItem {written : Item} (h : normalItem written = some item) :
    SameSize (putItem written) (putItem item) := by
  obtain ⟨-, hperm, hitem⟩ := normalItem_eq_some h
  have hmeta : SameSize (putCounted putEntry written.metadata)
      (putCounted putEntry item.metadata) := by
    rw [putCounted, putCounted, hperm.length_eq]
    exact .andThen (.refl _) (.concat_perm (hperm.symm.map putEntry))
  rw [SameSize] at hmeta
  rw [hitem]
  simp only [SameSize, putItem, SameSize.map_length_andThen, hmeta]

variable {written : CachedSlice}

lemma normalSlice_eq_some (h : normalSlice written = some slice) :
    slice = { written with items := slice.items } ∧
      List.Forall₂ (fun a b => normalItem a = some b) written.items slice.items := by
  rw [normalSlice, map_eq_some_iff] at h
  obtain ⟨items, hitems, rfl⟩ := h
  exact ⟨rfl, mapM_eq_some.mp hitems⟩

lemma normalSlice_of_ascending (h : ∀ item ∈ slice.items, Ascending item.metadata) :
    normalSlice slice = some slice := by
  have hitems : slice.items.mapM normalItem = some slice.items :=
    mapM_eq_some.mpr (forall₂_same.mpr fun item hmem => normalItem_of_ascending (h item hmem))
  rw [normalSlice, hitems, map_some]

lemma sameSize_putPayload (h : normalSlice written = some slice) :
    SameSize (putPayload written) (putPayload slice) := by
  obtain ⟨hslice, hitems⟩ := normalSlice_eq_some h
  have hcount : SameSize (putCounted putItem written.items) (putCounted putItem slice.items) := by
    rw [putCounted, hitems.length_eq]
    exact .andThen (.refl _) (.concat_map (hitems.imp fun _ _ => sameSize_putItem))
  rw [SameSize] at hcount
  rw [hslice]
  simp only [SameSize, putPayload, SameSize.map_length_andThen, hcount]

lemma normalSlice_written (h : normalSlice written = some slice) (hw : Written written) :
    Written slice ∧ ∀ item ∈ slice.items, Ascending item.metadata := by
  obtain ⟨hslice, hitems⟩ := normalSlice_eq_some h
  have hback := exists_of_forall₂ hitems
  refine ⟨⟨?_, ?_, ?_, ?_⟩, ?_⟩
  · rw [hslice]
    exact hw.instanceId
  · rw [hslice]
    exact hw.generation
  · intro item hmem
    obtain ⟨old, hold, hn⟩ := hback item hmem
    rw [(normalItem_eq_some hn).2.2]
    exact hw.hints old hold
  · intro item hmem
    obtain ⟨old, hold, hn⟩ := hback item hmem
    rw [(normalItem_eq_some hn).2.2, hslice]
    exact hw.owned old hold
  · intro item hmem
    obtain ⟨old, hold, hn⟩ := hback item hmem
    exact (normalItem_eq_some hn).1

/-! Whole documents. -/

/-- `isize::MAX`: no vector holds more bytes. -/
def isizeMax : Nat := 2 ^ 63 - 1

/-- What the types of a slice guarantee: fixed-width numbers, and metadata in a map. -/
structure CachedSlice.Typed (slice : CachedSlice) : Prop where
  instanceId : slice.instanceId < 2 ^ 64
  generation : slice.generation.get < 2 ^ 64
  hints : ∀ item ∈ slice.items, hintInRange item
  metadata : ∀ item ∈ slice.items, Ascending item.metadata

def CachedSlice.OwnerUniform (slice : CachedSlice) : Prop :=
  ∀ item ∈ slice.items, item.pluginId = slice.plugin

section
variable {checksum : Bytes → UInt64}
variable {slice : CachedSlice} {doc : Bytes}

lemma encode_eq_some : encodeSliceDocument checksum slice = some doc ↔
      ∃ payload, putPayload slice = some payload ∧ archiveOf checksum payload = doc := by
  rw [encodeSliceDocument, bind_eq_bind, bind_eq_some_iff]
  simp only [some.injEq]

lemma decode_of_written {payload : Bytes} (hw : Written slice)
    (hasc : ∀ item ∈ slice.items, Ascending item.metadata) (hlen : payload.length < 2 ^ 64)
    (hput : putPayload slice = some payload) :
    decodeSliceDocument checksum (archiveOf checksum payload) = some slice :=
  decodeSliceDocument_eq_some.mpr ⟨slice, readAsWritten_eq_some.mpr ⟨hw, payload, hlen, hput, rfl⟩,
    normalSlice_of_ascending hasc⟩

lemma decode_encode (ht : slice.Typed) (ho : slice.OwnerUniform) (hf : slice.Fits) :
    ∃ doc, encodeSliceDocument checksum slice = some doc ∧
      (doc.length ≤ isizeMax → decodeSliceDocument checksum doc = some slice) := by
  obtain ⟨payload, hput⟩ := isSome_iff_exists.mp ((isSome_putPayload slice).mpr hf)
  refine ⟨archiveOf checksum payload, encode_eq_some.mpr ⟨payload, hput, rfl⟩, fun hlen => ?_⟩
  rw [length_archiveOf, isizeMax] at hlen
  exact decode_of_written ⟨ht.instanceId, ht.generation, ht.hints, ho⟩ ht.metadata (by omega) hput

/-- An accepted document is rewritten in the same length, and to the same bytes exactly when
its metadata keys are in order. -/
lemma encode_decode (h : decodeSliceDocument checksum doc = some slice) :
    ∃ written doc', readAsWritten checksum doc = some written ∧
      encodeSliceDocument checksum slice = some doc' ∧ doc'.length = doc.length ∧
      decodeSliceDocument checksum doc' = some slice ∧
      (doc' = doc ↔ ∀ item ∈ written.items, Ascending item.metadata) := by
  obtain ⟨written, hread, hnormal⟩ := decodeSliceDocument_eq_some.mp h
  obtain ⟨hw, payload, hlen, hput, rfl⟩ := readAsWritten_eq_some.mp hread
  obtain ⟨hws, hasc⟩ := normalSlice_written hnormal hw
  have hsize := sameSize_putPayload hnormal
  rw [SameSize, hput, map_some, eq_comm, map_eq_some_iff] at hsize
  obtain ⟨payload', hput', hlen'⟩ := hsize
  have hlt : payload'.length < 2 ^ 64 := hlen' ▸ hlen
  refine ⟨written, archiveOf checksum payload', hread, encode_eq_some.mpr ⟨payload', hput', rfl⟩,
    ?_, decode_of_written hws hasc hlt hput', ?_⟩
  · rw [length_archiveOf, length_archiveOf, hlen']
  · constructor
    · intro hdoc
      have hread' : readAsWritten checksum (archiveOf checksum payload') = some slice :=
        readAsWritten_eq_some.mpr ⟨hws, payload', hlt, hput', rfl⟩
      rw [hdoc, hread] at hread'
      rw [some.inj hread']
      exact hasc
    · intro hsorted
      rw [normalSlice_of_ascending hsorted] at hnormal
      rw [← some.inj hnormal, hput] at hput'
      rw [some.inj hput']

lemma archive_append {payload payload' ext : Bytes} (hlen : payload.length < 2 ^ 64)
    (hlen' : payload'.length < 2 ^ 64)
    (h : archiveOf checksum payload ++ ext = archiveOf checksum payload') : ext = [] := by
  have htotal := congrArg length h
  rw [length_append, length_archiveOf, length_archiveOf] at htotal
  simp only [archiveOf, append_assoc] at h
  have hrest := append_cancel_left (append_cancel_left h)
  have hfield := (append_inj hrest (by simp)).1
  have hsame : payload.length = payload'.length := by
    have hnum := congrArg fromLeBytes hfield
    rwa [fromLeBytes_toLeBytes hlen, fromLeBytes_toLeBytes hlen'] at hnum
  exact length_eq_zero_iff.mp (by omega)

lemma decode_extension {ext : Bytes} {slice' : CachedSlice}
    (h : decodeSliceDocument checksum doc = some slice)
    (h' : decodeSliceDocument checksum (doc ++ ext) = some slice') : ext = [] := by
  obtain ⟨payload, hlen, rfl, -⟩ := decodeWith_eq_some.mp h
  obtain ⟨payload', hlen', hdoc, -⟩ := decodeWith_eq_some.mp h'
  exact archive_append hlen hlen' hdoc

end

/-- The slice document codec, for any checksum: slices survive the round trip, accepted
documents are rewritten canonically, and no accepted document is part of another. -/
theorem sliceDocument_codec (checksum : Bytes → UInt64) :
    (∀ slice : CachedSlice, slice.Typed → slice.OwnerUniform → slice.Fits →
      ∃ doc, encodeSliceDocument checksum slice = some doc ∧
        (doc.length ≤ isizeMax → decodeSliceDocument checksum doc = some slice)) ∧
    (∀ doc slice, decodeSliceDocument checksum doc = some slice →
      ∃ written doc', readAsWritten checksum doc = some written ∧
        encodeSliceDocument checksum slice = some doc' ∧ doc'.length = doc.length ∧
        decodeSliceDocument checksum doc' = some slice ∧
        (doc' = doc ↔ ∀ item ∈ written.items, Ascending item.metadata)) ∧
    (∀ doc slice other, decodeSliceDocument checksum doc = some slice → other ≠ doc →
      other <+: doc ∨ doc <+: other → decodeSliceDocument checksum other = none) := by
  refine ⟨fun slice => decode_encode, fun doc slice => encode_decode, ?_⟩
  intro doc slice other h hne hpart
  by_contra hsome
  obtain ⟨slice', h'⟩ := ne_none_iff_exists'.mp hsome
  rcases hpart with ⟨ext, rfl⟩ | ⟨ext, rfl⟩
  · rw [decode_extension h' h, append_nil] at hne
    exact hne rfl
  · rw [decode_extension h h', append_nil] at hne
    exact hne rfl

/-- A slice with one item that has two metadata entries. -/
def sampleSlice : CachedSlice where
  plugin := ⟨"p"⟩
  instanceId := 3
  generation := ⟨7⟩
  items := [{
    stableId := ⟨"i"⟩, pluginId := ⟨"p"⟩, category := .pluginDefined "c", label := "l",
    description := "", target := "t", searchTerms := ["s"], iconReference := none,
    argumentPolicy := .optional, hitPolicy := .ignored, scoreHint := -1,
    metadata := [("a", "1"), ("b", "2")], actions := [] }]

theorem sliceDocument_codec_sample : ∃ doc, encodeSliceDocument fnvChecksum sampleSlice = some doc ∧
      decodeSliceDocument fnvChecksum doc = some sampleSlice := by
  have ht : sampleSlice.Typed := by
    refine ⟨by decide, by decide, ?_, ?_⟩
    · simp [sampleSlice, hintInRange]
    · decide
  have ho : sampleSlice.OwnerUniform := by simp [sampleSlice, CachedSlice.OwnerUniform]
  have hf : sampleSlice.Fits := (isSome_putPayload sampleSlice).mp (by decide +kernel)
  obtain ⟨doc, hencode, hdecode⟩ := (sliceDocument_codec fnvChecksum).1 sampleSlice ht ho hf
  have hlen : (encodeSliceDocument fnvChecksum sampleSlice).map length = some 127 := by
    decide +kernel
  rw [hencode, map_some, some.injEq] at hlen
  exact ⟨doc, hencode, hdecode (hlen ▸ by decide)⟩

end CriKey.Catalog
