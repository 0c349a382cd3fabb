import CriKey.Config.Keys

/-! What a human is shown of a plugin's settings while schemas are missing. -/
namespace CriKey.Config
open CriKey.Base ConfigStore Option

/-- A registered schema of the plugin declares the field, and not as a secret. -/
def DeclaresPublic (store : ConfigStore) (plugin field : String) : Prop :=
  ((store.schema plugin).bind (·.field field)).any (!·.secret) = true

/-- The key is a setting of some plugin that does not declare it public. -/
def Hidden (store : ConfigStore) (key : String) : Prop :=
  ∃ plugin field, field ≠ "" ∧ key = settingKey plugin field ∧ ¬ DeclaresPublic store plugin field

/-- Two stores differ in nothing but the values of hidden keys. -/
structure SameShown (store other : ConfigStore) : Prop where
  schemas : other.schemas = store.schemas
  redactUnregistered : other.redactUnregistered = store.redactUnregistered
  keys : ∀ layer key, (other.layers layer).lookup key = none ↔
    (store.layers layer).lookup key = none
  values : ∀ layer key, ¬ Hidden store key →
    (other.layers layer).lookup key = (store.layers layer).lookup key

/-- A setting is shown only where a schema declares it public, and no shown value tells two stores
apart that differ in hidden values. -/
structure FailsClosed (store : ConfigStore) : Prop where
  raw : ∀ plugin field value, field ≠ "" → store.get (settingKey plugin field) = some value →
    store.displayValue (settingKey plugin field) = some value → value ≠ redacted →
      DeclaresPublic store plugin field
  blind : ∀ other, SameShown store other → ∀ key, other.displayValue key = store.displayValue key

variable {store other : ConfigStore} {key value : String}

/-- The key has a plugin and a field without a dot, which the plugin does not declare public. -/
def Veiled (store : ConfigStore) (key : String) : Prop :=
  ∃ plugin field, key = settingKey plugin field ∧ plugin ≠ "" ∧ field ≠ "" ∧
    '.' ∉ field.toList ∧ ¬ DeclaresPublic store plugin field

lemma isSecret_iff (hredact : store.redactUnregistered = true) :
    store.isSecret key = true ↔ Veiled store key := by
  have hshape : Veiled store key ↔ ∃ plugin field, splitSettingKey key = some (plugin, field) ∧
      ¬ DeclaresPublic store plugin field := by
    simp only [Veiled, splitSettingKey_eq_some, and_assoc]
  rw [hshape, isSecret]
  cases hsplit : splitSettingKey key with
  | none => simp
  | some split =>
    obtain ⟨plugin, field⟩ := split
    simp only [DeclaresPublic]
    cases hfield : (store.schema plugin).bind (·.field field) with
    | none => simp [hredact, hfield]
    | some declared => cases hsecret : declared.secret <;> simp [hfield]

lemma displayValue_of_get (h : store.get key = some value) :
    store.displayValue key = some (if store.isSecret key then redacted else value) := by
  rw [displayValue, h]
  rfl

/-- Every hidden key that is set is veiled. -/
def Covered (store : ConfigStore) : Prop :=
  ∀ key ∈ store.keys, Hidden store key → Veiled store key

lemma SameShown.isSecret_eq (h : SameShown store other) (key : String) :
    other.isSecret key = store.isSecret key := by
  simp only [isSecret, schema, h.schemas, h.redactUnregistered]

lemma SameShown.displayValue_eq (h : SameShown store other)
    (hredact : store.redactUnregistered = true) (hcovered : Covered store) (key : String) :
    other.displayValue key = store.displayValue key := by
  by_cases hhidden : Hidden store key
  · have hkeys : key ∈ other.keys ↔ key ∈ store.keys := by
      rw [mem_keys_iff, mem_keys_iff]
      exact exists_congr fun layer => not_congr (h.keys layer key)
    cases hget : store.get key with
    | none =>
      have hnone : other.get key = none := by
        by_contra hsome
        exact get_ne_none_iff.mpr (hkeys.mp (get_ne_none_iff.mp hsome)) hget
      rw [displayValue, displayValue, hget, hnone, map_none, map_none]
    | some value =>
      have hmem := mem_keys_of_get hget
      obtain ⟨value', hget'⟩ :=
        ne_none_iff_exists'.mp (get_ne_none_iff.mpr (hkeys.mpr hmem))
      have hsecret := (isSecret_iff hredact).mpr (hcovered key hmem hhidden)
      rw [displayValue_of_get hget, displayValue_of_get hget', h.isSecret_eq, hsecret]
      rfl
  · rw [displayValue, displayValue, h.isSecret_eq,
      get_congr fun layer => h.values layer key hhidden]

/-- A key is given another value wherever it has one. -/
def ConfigStore.overwrite (store : ConfigStore) (key value : String) : ConfigStore :=
  { store with
    layers := fun layer =>
      if (store.layers layer).lookup key = none then store.layers layer
      else insertEntry key value (store.layers layer)
    ordered := fun layer => by
      split
      · exact store.ordered layer
      · exact ascending_insertEntry key value (store.ordered layer) }

lemma lookup_overwrite (layer : ConfigLayer) (key' : String) :
    ((store.overwrite key value).layers layer).lookup key' =
      if key' = key then ((store.layers layer).lookup key).map fun _ => value
      else (store.layers layer).lookup key' := by
  rw [overwrite]
  dsimp only
  cases hlookup : (store.layers layer).lookup key with
  | none =>
    rw [if_pos rfl]
    by_cases hkey : key' = key
    · rw [if_pos hkey, hkey, hlookup, map_none]
    · rw [if_neg hkey]
  | some old => rw [if_neg (some_ne_none old), lookup_insertEntry, map_some]

lemma get_overwrite (h : key ∈ store.keys) : (store.overwrite key value).get key = some value := by
  have hmem : key ∈ (store.overwrite key value).keys := by
    obtain ⟨layer, hlayer⟩ := mem_keys_iff.mp h
    refine mem_keys_iff.mpr ⟨layer, ?_⟩
    rw [lookup_overwrite]
    simpa using hlayer
  obtain ⟨found, hfound⟩ := ne_none_iff_exists'.mp (get_ne_none_iff.mpr hmem)
  obtain ⟨layer, hlayer⟩ := exists_layer_of_get hfound
  rw [lookup_overwrite, if_pos rfl, map_eq_some_iff] at hlayer
  obtain ⟨old, -, hold⟩ := hlayer
  rw [hfound, hold]

lemma sameShown_overwrite (h : Hidden store key) (value : String) :
    SameShown store (store.overwrite key value) := by
  refine ⟨rfl, rfl, fun layer key' => ?_, fun layer key' hshown => ?_⟩
  · rw [lookup_overwrite]
    by_cases hkey : key' = key
    · rw [if_pos hkey, map_eq_none_iff, hkey]
    · rw [if_neg hkey]
  · rw [lookup_overwrite, if_neg]
    exact fun hkey => hshown (hkey ▸ h)

lemma covered_of_failsClosed (hredact : store.redactUnregistered = true) (h : FailsClosed store) :
    Covered store := by
  intro key hmem hhidden
  rw [← isSecret_iff hredact]
  by_contra hopen
  obtain ⟨value, hget⟩ := ne_none_iff_exists'.mp (get_ne_none_iff.mpr hmem)
  obtain ⟨value', hne⟩ : ∃ value' : String, value' ≠ value := by
    by_cases hx : value = "x"
    · exact ⟨"y", by simp [hx]⟩
    · exact ⟨"x", Ne.symm hx⟩
  have hsame := sameShown_overwrite hhidden value'
  have hshown := h.blind _ hsame key
  rw [displayValue_of_get hget, displayValue_of_get (get_overwrite hmem), hsame.isSecret_eq,
    if_neg hopen, if_neg hopen, some_inj] at hshown
  exact hne hshown

lemma failsClosed_of_covered (hredact : store.redactUnregistered = true)
    (hcovered : Covered store) : FailsClosed store := by
  refine ⟨fun plugin field value hfield hget hshown hvalue => ?_,
    fun other hsame key => hsame.displayValue_eq hredact hcovered key⟩
  by_contra hpublic
  have hsecret := (isSecret_iff hredact).mpr
    (hcovered _ (mem_keys_of_get hget) ⟨plugin, field, hfield, rfl, hpublic⟩)
  rw [displayValue_of_get hget, hsecret] at hshown
  exact hvalue (some_inj.mp hshown).symm

/-- Redaction fails closed exactly when every hidden key that is set consists of a plugin and a
field without a dot, which that plugin does not declare public. -/
theorem failsClosed_iff (store : ConfigStore) :
    FailsClosed store.redactUnregisteredPlugins ↔ Covered store.redactUnregisteredPlugins :=
  ⟨covered_of_failsClosed rfl, failsClosed_of_covered rfl⟩

def authToken : ConfigStore :=
  (ofLayer .userGlobal [("plugins.p.settings.auth.token", "t")]
    (List.pairwise_singleton _ _)).redactUnregisteredPlugins

/-- A setting below a nested table is shown although no schema is registered. -/
theorem nested_setting_is_shown :
    authToken.displayValue (settingKey "p" "auth.token") = some "t" ∧
      ¬ DeclaresPublic authToken "p" "auth.token" ∧ ¬ FailsClosed authToken := by
  have hshown : authToken.displayValue (settingKey "p" "auth.token") = some "t" := by decide +kernel
  have hget : authToken.get (settingKey "p" "auth.token") = some "t" := by decide +kernel
  have hpublic : ¬ DeclaresPublic authToken "p" "auth.token" := by
    simp [DeclaresPublic, schema, authToken, ofLayer, redactUnregisteredPlugins]
  exact ⟨hshown, hpublic, fun h =>
    hpublic (h.raw "p" "auth.token" "t" (by decide) hget hshown (by decide))⟩

end CriKey.Config
