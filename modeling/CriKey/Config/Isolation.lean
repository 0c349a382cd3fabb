import CriKey.Config.Keys

/-! Whether the settings of one plugin reach another one. -/
namespace CriKey.Config
open CriKey.Base ConfigStore List Option
open CriKey.Core (PluginId)

def Owns (plugin key : String) : Prop := ∃ field, splitSettingKey key = some (plugin, field)

/-- Two stores differ in nothing but the settings of one plugin. -/
structure SameExcept (plugin : String) (store other : ConfigStore) : Prop where
  schemas : other.schemas = store.schemas
  layers : ∀ layer key, ¬ Owns plugin key →
    (other.layers layer).lookup key = (store.layers layer).lookup key

/-- No key of one plugin is delivered to another, whose values do not depend on them. -/
structure Isolated (store : ConfigStore) (os : String) (p q : PluginId) : Prop where
  undelivered : ∀ key, Owns q.name key → ∀ field value,
    (field, value) ∈ store.pluginValues os p → key ≠ settingKey p.name field
  unchanged : ∀ other, SameExcept q.name store other →
    other.pluginValues os p = store.pluginValues os p ∧
      (other.configurationSnapshot os).lookup p.name =
        (store.configurationSnapshot os).lookup p.name

/-- The settings of one id lie among those of the other. -/
def Within (p q : PluginId) : Prop :=
  p.name.toList ++ settingsMarker.toList <+: q.name.toList ++ ['.']

instance (p q : PluginId) : Decidable (Within p q) := inferInstanceAs (Decidable (_ <+: _))

variable {store other : ConfigStore} {os : String} {p q : PluginId}

/-! ### What is delivered -/

/-- A plugin gets a field unless it declares it for other platforms. -/
def Applies (store : ConfigStore) (os : String) (p : PluginId) (field : String) : Prop :=
  ((store.schema p.name).bind (·.field field)).all (·.appliesTo os) = true

variable {field : String}

lemma fieldOf_eq_some {key : String} : store.fieldOf os p key = some field ↔
    key = settingKey p.name field ∧ Applies store os p field := by
  rw [fieldOf, bind_eq_bind, bind_eq_some_iff, Applies]
  constructor
  · intro ⟨field', hstrip, hfield⟩
    split at hfield
    · rename_i happlies
      cases hfield
      exact ⟨stripPrefix_eq_some.mp hstrip, happlies⟩
    · cases hfield
  · intro ⟨hkey, happlies⟩
    exact ⟨field, stripPrefix_eq_some.mpr hkey, if_pos happlies⟩

lemma mem_fields : field ∈ (collect (store.fieldOf os p) store.keys []).map Prod.fst ↔
      settingKey p.name field ∈ store.keys ∧ Applies store os p field := by
  rw [mem_collect]
  simp only [map_nil, not_mem_nil, false_or, fieldOf_eq_some]
  constructor
  · intro ⟨key, hmem, hkey, happlies⟩
    exact ⟨hkey ▸ hmem, happlies⟩
  · intro ⟨hmem, happlies⟩
    exact ⟨_, hmem, rfl, happlies⟩

lemma mem_pluginValues {value : String} : (field, value) ∈ store.pluginValues os p ↔
    store.get (settingKey p.name field) = some value ∧ Applies store os p field := by
  rw [pluginValues, mem_filterMap]
  constructor
  · intro ⟨⟨field', u⟩, hmem, hvalue⟩
    obtain ⟨value', hget, heq⟩ := map_eq_some_iff.mp hvalue
    cases heq
    exact ⟨hget, (mem_fields.mp (mem_map_of_mem hmem)).2⟩
  · intro ⟨hget, happlies⟩
    have hfield := mem_fields.mpr ⟨mem_keys_of_get hget, happlies⟩
    obtain ⟨⟨field', u⟩, hmem, rfl⟩ := mem_map.mp hfield
    exact ⟨(field', u), hmem, map_eq_some_iff.mpr ⟨value, hget, rfl⟩⟩

lemma mem_knownPlugins {plugin : String} : plugin ∈ store.knownPlugins.map Prod.fst ↔
    plugin ∈ store.schemas.map Prod.fst ∨ ∃ key ∈ store.keys, Owns plugin key := by
  rw [knownPlugins, mem_collect, mem_keys_ofEntries, List.map_map]
  refine or_congr_right (exists_congr fun key => and_congr_right fun _ => ?_)
  simp [Owns]

lemma pluginValues_congr (hschemas : other.schemas = store.schemas)
    (hkeys : ∀ field layer, (other.layers layer).lookup (settingKey p.name field) =
      (store.layers layer).lookup (settingKey p.name field)) :
    other.pluginValues os p = store.pluginValues os p := by
  have happlies : ∀ field, Applies other os p field ↔ Applies store os p field := by
    intro field
    rw [Applies, Applies, schema, schema, hschemas]
  have hfields : collect (other.fieldOf os p) other.keys [] =
      collect (store.fieldOf os p) store.keys [] := by
    refine ascending_ext_keys (ascending_collect _ _ .nil)
      (ascending_collect _ _ .nil) fun field => ?_
    rw [mem_fields, mem_fields, happlies, mem_keys_iff, mem_keys_iff]
    simp only [hkeys]
  rw [pluginValues]
  congr 1
  funext ⟨field, u⟩
  have hget : other.get (settingKey p.name field) = store.get (settingKey p.name field) :=
    get_congr (hkeys field)
  exact congrArg (Option.map fun value => (field, value)) hget

lemma lookup_map_set {ν : Type} (m : List (String × Unit)) (f : String → ν) (k : String) :
    (m.map fun entry => (entry.1, f entry.1)).lookup k =
      if k ∈ m.map Prod.fst then some (f k) else none := by
  induction m with
  | nil => rfl
  | cons entry m ih =>
    rw [map_cons, Table.lookup_cons_ite, ih]
    by_cases hk : k = entry.1
    · simp [hk]
    · simp [hk]

lemma lookup_configurationSnapshot : (store.configurationSnapshot os).lookup p.name =
    if p.name ∈ store.knownPlugins.map Prod.fst then some (store.pluginValues os p) else none :=
  lookup_map_set store.knownPlugins (fun plugin => store.pluginValues os ⟨plugin⟩) p.name

/-! ### Two splittings of one key -/

lemma marker_inner (i : Nat) (h : 0 < i) (h' : i < 9) : settingsMarker.toList[i]? ≠ some '.' := by
  have hall : ∀ i : Fin 9, 0 < i.val → settingsMarker.toList[i.val]? ≠ some '.' := by decide
  exact hall ⟨i, h'⟩ h

lemma within_of_owns (hne : p ≠ q) (h : Owns q.name (settingKey p.name field)) : Within p q := by
  obtain ⟨own, hsplit⟩ := h
  obtain ⟨hkey, -, -, hdot⟩ := splitSettingKey_eq_some.mp hsplit
  have hlists : p.name.toList ++ (settingsMarker.toList ++ field.toList) =
      q.name.toList ++ (settingsMarker.toList ++ own.toList) := by
    have := congrArg String.toList hkey
    simpa only [settingKey, String.toList_append, append_assoc, append_cancel_left_eq] using this
  have hle : p.name.toList.length ≤ q.name.toList.length := by
    refine marker_start_le hdot ?_
    rw [append_assoc, ← hlists, drop_left]
    exact prefix_append _ _
  have hlt : p.name.toList.length < q.name.toList.length := by
    refine lt_of_le_of_ne hle fun hlen => hne ?_
    have hname := String.toList_injective (append_inj_left hlists hlen)
    exact congrArg PluginId.mk hname
  -- The dot behind the longer id is the last dot of a marker behind the shorter one.
  have hlong : p.name.toList.length + 9 ≤ q.name.toList.length := by
    by_contra hshort
    have hdotAt :
        (p.name.toList ++ (settingsMarker.toList ++ field.toList))[q.name.toList.length]? =
        some '.' := by
      rw [hlists, getElem?_append_right (le_refl _), Nat.sub_self]
      rfl
    have hinner := marker_inner (q.name.toList.length - p.name.toList.length) (by omega) (by omega)
    have hmarker : settingsMarker.toList.length = 10 := by decide
    rw [getElem?_append_right hle, getElem?_append_left (by omega)] at hdotAt
    exact hinner hdotAt
  have hp : p.name.toList ++ settingsMarker.toList <+:
      p.name.toList ++ (settingsMarker.toList ++ field.toList) :=
    ⟨field.toList, append_assoc _ _ _⟩
  have hq : q.name.toList ++ ['.'] <+:
      p.name.toList ++ (settingsMarker.toList ++ field.toList) := by
    rw [hlists, marker_eq]
    exact ⟨"settings".toList ++ ['.'] ++ own.toList, by simp⟩
  refine prefix_of_prefix_length_le hp hq ?_
  have hmarker : settingsMarker.toList.length = 10 := by decide
  rw [length_append, length_append, length_singleton]
  omega

lemma owns_of_within (h : Within p q) (n : Nat) :
    ∃ field : String, n < field.toList.length ∧ Owns q.name (settingKey p.name field) := by
  obtain ⟨rest, hrest⟩ := h
  have hdots : '.' ∉ replicate (n + 1) 'x' := by
    rw [mem_replicate]
    exact fun hmem => absurd hmem.2 (by decide)
  refine ⟨String.ofList (rest ++ "settings.".toList ++ replicate (n + 1) 'x'), ?_,
    String.ofList (replicate (n + 1) 'x'), splitSettingKey_eq_some.mpr ⟨?_, ?_, ?_, ?_⟩⟩
  · rw [String.toList_ofList, length_append, length_replicate]
    omega
  · apply String.toList_injective
    have hmarker : settingsMarker.toList = '.' :: "settings.".toList := by decide
    simp only [settingKey, String.toList_append, String.toList_ofList, append_assoc,
      append_cancel_left_eq]
    rw [← append_assoc p.name.toList, ← append_assoc, hrest, hmarker]
    simp
  · intro hempty
    rw [hempty] at hrest
    have hlen := congrArg length hrest
    have hmarker : settingsMarker.toList.length = 10 := by decide
    simp at hlen
    omega
  · intro hempty
    have := congrArg String.toList hempty
    rw [String.toList_ofList] at this
    cases this
  · rw [String.toList_ofList]
    exact hdots

/-! ### Isolation -/

lemma isolated_of_not_within (hne : p ≠ q) (h : ¬ Within p q) : Isolated store os p q := by
  have hother : ∀ field, ¬ Owns q.name (settingKey p.name field) :=
    fun field howns => h (within_of_owns hne howns)
  refine ⟨fun key howns field value _ hkey => hother field (hkey ▸ howns), fun other hsame => ?_⟩
  have hvalues : other.pluginValues os p = store.pluginValues os p :=
    pluginValues_congr hsame.schemas fun field layer => hsame.layers layer _ (hother field)
  refine ⟨hvalues, ?_⟩
  have hknown : p.name ∈ other.knownPlugins.map Prod.fst ↔
      p.name ∈ store.knownPlugins.map Prod.fst := by
    rw [mem_knownPlugins, mem_knownPlugins, hsame.schemas]
    refine or_congr_right (exists_congr fun key => and_congr_left fun ⟨field, hsplit⟩ => ?_)
    rw [mem_keys_iff, mem_keys_iff]
    refine exists_congr fun layer => not_congr ?_
    rw [hsame.layers layer key]
    intro ⟨field', hsplit'⟩
    rw [hsplit'] at hsplit
    cases q
    cases hsplit
    exact hne rfl
  rw [lookup_configurationSnapshot, lookup_configurationSnapshot, hvalues]
  simp only [hknown]

lemma sameExcept_setSessionOverride (store : ConfigStore) {plugin key : String}
    (h : Owns plugin key) (value : String) :
    SameExcept plugin store (store.setSessionOverride key value) := by
  refine ⟨rfl, fun layer key' hother => ?_⟩
  rw [setSessionOverride, lookup_extendLayer_singleton, if_neg]
  exact fun hboth => hother (hboth.2 ▸ h)

lemma exists_undeclared (store : ConfigStore) (os : String) (p : PluginId) :
    ∃ n, ∀ field : String, n < field.toList.length → Applies store os p field := by
  cases hschema : store.schema p.name with
  | none => exact ⟨0, fun field _ => by simp [Applies, hschema]⟩
  | some declared =>
    refine ⟨(declared.map fun field => field.name.toList.length).sum, fun field hlong => ?_⟩
    have hnone : declared.field field = none := by
      rw [ConfigurationSection.field, find?_eq_none]
      intro candidate hmem heq
      have hlen := single_le_sum (by simp) _
        (mem_map_of_mem (f := fun field : ConfigurationField => field.name.toList.length) hmem)
      have hname : candidate.name = field := by simpa using heq
      rw [hname] at hlen
      omega
    simp [Applies, hschema, hnone]

/-- Plugins are isolated exactly when the settings of the one do not lie among those of the
other. -/
theorem isolated_iff (store : ConfigStore) (os : String) (p q : PluginId) (hne : p ≠ q) :
    Isolated store os p q ↔ ¬ Within p q := by
  refine ⟨fun hisolated hwithin => ?_, isolated_of_not_within hne⟩
  -- A setting of the one, under a field the other does not declare, changes what that one gets.
  obtain ⟨n, happlies⟩ := exists_undeclared store os p
  obtain ⟨field, hlong, howns⟩ := owns_of_within hwithin n
  obtain ⟨value, hvalue⟩ : ∃ value, store.get (settingKey p.name field) ≠ some value := by
    by_cases hx : store.get (settingKey p.name field) = some "x"
    · exact ⟨"y", by simp [hx]⟩
    · exact ⟨"x", hx⟩
  have hsame := sameExcept_setSessionOverride store howns value
  have hdelivered : (field, value) ∈
      (store.setSessionOverride (settingKey p.name field) value).pluginValues os p :=
    mem_pluginValues.mpr ⟨get_setSessionOverride (settingKey_not_pinned _ _), happlies field hlong⟩
  rw [(hisolated.unchanged _ hsame).1] at hdelivered
  exact hvalue (mem_pluginValues.mp hdelivered).1

def oneOverride (key value : String) : ConfigStore :=
  ofLayer .sessionOverride [(key, value)] (pairwise_singleton _ _)

theorem isolated_siblings : ¬ Within ⟨"modern.files"⟩ ⟨"modern.files.settingsview"⟩ ∧
      Isolated (oneOverride "plugins.modern.files.settingsview.settings.token" "t") "linux"
        ⟨"modern.files"⟩ ⟨"modern.files.settingsview"⟩ :=
  ⟨by decide, (isolated_iff _ "linux" ⟨"modern.files"⟩ ⟨"modern.files.settingsview"⟩
    (by decide)).mpr (by decide)⟩

/-- The secret of a plugin whose id continues another one's settings is delivered to that one. -/
theorem nested_id_is_delivered :
    splitSettingKey "plugins.a.settings.b.settings.token" = some ("a.settings.b", "token") ∧
      (oneOverride "plugins.a.settings.b.settings.token" "t").pluginValues "linux" ⟨"a"⟩ =
        [("b.settings.token", "t")] ∧
      ¬ Isolated (oneOverride "plugins.a.settings.b.settings.token" "t") "linux" ⟨"a"⟩
        ⟨"a.settings.b"⟩ := by
  have hsplit : splitSettingKey "plugins.a.settings.b.settings.token" =
      some ("a.settings.b", "token") := by decide +kernel
  have hvalues : (oneOverride "plugins.a.settings.b.settings.token" "t").pluginValues "linux"
      ⟨"a"⟩ = [("b.settings.token", "t")] := by decide +kernel
  refine ⟨hsplit, hvalues, fun h => ?_⟩
  refine h.undelivered _ ⟨"token", hsplit⟩ "b.settings.token" "t" ?_ (by decide)
  rw [hvalues]
  exact mem_singleton_self _

end CriKey.Config
