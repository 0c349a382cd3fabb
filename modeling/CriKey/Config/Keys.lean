import CriKey.Config.Store

/-! How a dotted key is split into a plugin and a field, and what a lookup depends on. -/
namespace CriKey.Config
open CriKey.Base List Option
open CriKey.Core (PluginId)

/-! ### Splitting -/

lemma stripPrefix_eq_some {start text rest : String} :
    stripPrefix start text = some rest ↔ text = start ++ rest := by
  rw [stripPrefix, map_eq_some_iff]
  constructor
  · intro ⟨chars, hdrop, hrest⟩
    obtain ⟨first, htext, hfirst⟩ := dropPrefix?_eq_some_iff.mp hdrop
    apply String.toList_injective
    rw [htext, ← hrest, eq_of_beq hfirst, String.toList_append, String.toList_ofList]
  · intro htext
    refine ⟨rest.toList, dropPrefix?_eq_some_iff.mpr ⟨start.toList, ?_, beq_self_eq_true _⟩, ?_⟩
    · rw [htext, String.toList_append]
    · exact String.ofList_toList

lemma rfind_spec {needle : List Char} (hne : needle ≠ []) (text : List Char) :
    match rfind needle text with
    | some i => needle <+: text.drop i ∧ ∀ j, i < j → ¬ needle <+: text.drop j
    | none => ∀ j, ¬ needle <+: text.drop j := by
  induction text with
  | nil =>
    rw [rfind, if_neg hne]
    intro j hprefix
    rw [drop_nil, prefix_nil] at hprefix
    exact hne hprefix
  | cons c text ih =>
    rw [rfind]
    cases hrest : rfind needle text with
    | some i =>
      rw [hrest] at ih
      refine ⟨ih.1, fun j hj => ?_⟩
      obtain ⟨j, rfl⟩ : ∃ k, j = k + 1 := ⟨j - 1, by omega⟩
      exact ih.2 j (by omega)
    | none =>
      rw [hrest] at ih
      by_cases hhere : needle.isPrefixOf (c :: text) = true
      · simp only [hhere]
        have hstart := isPrefixOf_iff_prefix.mp hhere
        refine ⟨hstart, fun j hj => ?_⟩
        obtain ⟨j, rfl⟩ : ∃ k, j = k + 1 := ⟨j - 1, by omega⟩
        exact ih j
      · simp only [hhere]
        intro j
        cases j with
        | zero => exact fun hprefix => hhere <| isPrefixOf_iff_prefix.mpr hprefix
        | succ j => exact ih j

lemma rfind_eq_some {needle text : List Char} {i : Nat} (hne : needle ≠ [])
    (hhere : needle <+: text.drop i) (hlast : ∀ j, i < j → ¬ needle <+: text.drop j) :
    rfind needle text = some i := by
  have hspec := rfind_spec hne text
  cases hfind : rfind needle text with
  | none =>
    rw [hfind] at hspec
    exact absurd hhere (hspec i)
  | some k =>
    rw [hfind] at hspec
    by_cases hlt : k < i
    · exact absurd hhere (hspec.2 i hlt)
    · by_cases hgt : i < k
      · exact absurd hspec.1 (hlast k hgt)
      · exact congrArg some (by omega)

lemma marker_eq : settingsMarker.toList = '.' :: ("settings".toList ++ ['.']) := by decide

lemma marker_ne_nil : settingsMarker.toList ≠ [] := by decide

lemma marker_start_le {plugin field : List Char} {j : Nat} (hfield : '.' ∉ field)
    (h : settingsMarker.toList <+: (plugin ++ settingsMarker.toList ++ field).drop j) :
    j ≤ plugin.length := by
  by_contra hlt
  obtain ⟨k, rfl⟩ : ∃ k, j = plugin.length + (k + 1) := ⟨j - plugin.length - 1, by omega⟩
  rw [append_assoc, drop_append, marker_eq] at h
  simp only [Nat.add_sub_cancel_left, drop_eq_nil_of_le (show plugin.length ≤
    plugin.length + (k + 1) by omega)] at h
  -- Behind its first dot the text has one dot left, and a marker needs two.
  have hcount := (h.sublist.count_le '.').trans ((drop_sublist k _).count_le '.')
  have hzero : field.count '.' = 0 := count_eq_zero.mpr hfield
  simp [hzero] at hcount

lemma splitSettingKey_eq_some {key plugin field : String} :
    splitSettingKey key = some (plugin, field) ↔
      key = settingKey plugin field ∧ plugin ≠ "" ∧ field ≠ "" ∧ '.' ∉ field.toList := by
  rw [splitSettingKey]
  constructor
  · intro h
    obtain ⟨rest, hrest, h⟩ := bind_eq_some_iff.mp h
    obtain ⟨marker, hmarker, h⟩ := bind_eq_some_iff.mp h
    have hspec := rfind_spec marker_ne_nil rest.toList
    rw [hmarker] at hspec
    obtain ⟨⟨after, hafter⟩, -⟩ := hspec
    dsimp only at h
    split at h
    · cases h
    rename_i hgood
    simp only [Bool.or_eq_true, decide_eq_true_eq, not_or] at hgood
    cases h
    refine ⟨?_, hgood.1.1, hgood.1.2, hgood.2⟩
    rw [stripPrefix_eq_some.mp hrest, settingKey, String.append_assoc, String.append_assoc]
    congr 1
    apply String.toList_injective
    rw [String.toList_append, String.toList_append, String.toList_ofList, String.toList_ofList,
      ← drop_drop, ← hafter, drop_left, hafter, take_append_drop]
  · intro ⟨hkey, hplugin, hfield, hdot⟩
    have hstrip : stripPrefix pluginsPrefix key = some (plugin ++ settingsMarker ++ field) := by
      rw [stripPrefix_eq_some, hkey, settingKey, String.append_assoc, String.append_assoc,
        String.append_assoc]
    have htoList : (plugin ++ settingsMarker ++ field).toList =
        plugin.toList ++ settingsMarker.toList ++ field.toList := by
      rw [String.toList_append, String.toList_append]
    have hfind : rfind settingsMarker.toList (plugin ++ settingsMarker ++ field).toList =
        some plugin.toList.length := by
      rw [htoList]
      refine rfind_eq_some marker_ne_nil ?_ fun j hj hprefix => ?_
      · rw [append_assoc, drop_left]
        exact prefix_append _ _
      · exact absurd (marker_start_le hdot hprefix) (by omega)
    rw [hstrip, bind_eq_bind, bind_some, hfind, bind_eq_bind]
    have htake : (plugin ++ settingsMarker ++ field).toList.take plugin.toList.length =
        plugin.toList := by
      rw [htoList, append_assoc, take_left]
    have hdrop : (plugin ++ settingsMarker ++ field).toList.drop
        (plugin.toList.length + settingsMarker.toList.length) = field.toList := by
      rw [htoList, ← length_append, drop_left]
    simp [hplugin, hfield, hdot]

/-! ### Lookup -/

namespace ConfigStore
variable {store other : ConfigStore} {key value : String}

lemma mem_keys_iff : key ∈ store.keys ↔ ∃ layer, (store.layers layer).lookup key ≠ none := by
  rw [keys, mem_flatMap]
  constructor
  · intro ⟨layer, _, hkey⟩
    obtain ⟨⟨k, v⟩, hmem, rfl⟩ := mem_map.mp hkey
    refine ⟨layer, ?_⟩
    rw [(mem_iff_lookup (store.ordered layer) k v).mp hmem]
    exact some_ne_none v
  · intro ⟨layer, hlookup⟩
    obtain ⟨v, hv⟩ := ne_none_iff_exists'.mp hlookup
    refine ⟨layer, ?_, mem_map_of_mem ((mem_iff_lookup (store.ordered layer) key v).mpr hv)⟩
    cases layer <;> simp [ConfigLayer.all]

lemma get_congr (h : ∀ layer, (store.layers layer).lookup key = (other.layers layer).lookup key) :
    store.get key = other.get key := by
  simp only [get, resolve, h]

lemma exists_layer_of_get (h : store.get key = some value) :
    ∃ layer, (store.layers layer).lookup key = some value := by
  obtain ⟨⟨layer, value'⟩, hresolve, rfl⟩ := map_eq_some_iff.mp h
  rw [resolve] at hresolve
  split at hresolve
  · rename_i value hpinned
    cases hresolve
    split at hpinned
    · exact ⟨_, hpinned⟩
    · cases hpinned
  · obtain ⟨layer', -, hlayer⟩ := exists_of_findSome?_eq_some hresolve
    obtain ⟨value, hlookup, heq⟩ := map_eq_some_iff.mp hlayer
    cases heq
    exact ⟨_, hlookup⟩

lemma mem_keys_of_get (h : store.get key = some value) : key ∈ store.keys := by
  obtain ⟨layer, hlayer⟩ := exists_layer_of_get h
  exact mem_keys_iff.mpr ⟨layer, by simp [hlayer]⟩

lemma get_ne_none_iff : store.get key ≠ none ↔ key ∈ store.keys := by
  constructor
  · intro h
    obtain ⟨value, hvalue⟩ := ne_none_iff_exists'.mp h
    exact mem_keys_of_get hvalue
  · intro h hnone
    obtain ⟨layer, hlookup⟩ := mem_keys_iff.mp h
    apply hlookup
    rw [get, map_eq_none_iff, resolve] at hnone
    split at hnone
    · cases hnone
    · rw [findSome?_eq_none_iff] at hnone
      have := hnone layer (by cases layer <;> simp [ConfigLayer.all])
      simpa using this

lemma lookup_extendLayer_singleton (layer l : ConfigLayer) (key' : String) :
    ((store.extendLayer layer [(key, value)]).layers l).lookup key' =
      if l = layer ∧ key' = key then some value else (store.layers l).lookup key' := by
  rw [layers_extendLayer]
  by_cases hl : l = layer
  · rw [if_pos hl, foldl_cons, foldl_nil, lookup_insertEntry]
    simp [hl]
  · rw [if_neg hl, if_neg fun hboth => hl hboth.1]

lemma get_setSessionOverride
    (hkey : administratorPinnedPrefix.toList.isPrefixOf key.toList = false) :
    (store.setSessionOverride key value).get key = some value := by
  rw [get, resolve]
  simp [hkey, ConfigLayer.all, setSessionOverride, lookup_extendLayer_singleton]

end ConfigStore

lemma settingKey_not_pinned (plugin field : String) :
    administratorPinnedPrefix.toList.isPrefixOf (settingKey plugin field).toList = false := by
  rw [settingKey, String.append_assoc, String.append_assoc, String.toList_append]
  rfl

end CriKey.Config
