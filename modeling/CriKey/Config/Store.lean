import CriKey.Config.Toml
import CriKey.Core.Text

/-! The layered configuration store: which layer answers for a key, what a plugin is delivered,
what a human is shown, and what is saved. -/
namespace CriKey.Config
open CriKey.Base
open CriKey.Core (PluginId)

/-- The layers, lowest precedence first. -/
inductive ConfigLayer where
  | builtInDefaults
  | administratorPolicy
  | userGlobal
  | profile
  | pluginDefaults
  | userPlugin
  | sessionOverride
deriving DecidableEq, Repr

def ConfigLayer.all : List ConfigLayer :=
  [.builtInDefaults, .administratorPolicy, .userGlobal, .profile, .pluginDefaults, .userPlugin,
    .sessionOverride]

structure ConfigurationField where
  name : String
  secret : Bool
  platforms : List String
deriving DecidableEq, Repr

def ConfigurationField.appliesTo (field : ConfigurationField) (os : String) : Bool :=
  field.platforms.isEmpty || field.platforms.any (· = os)

abbrev ConfigurationSection := List ConfigurationField

def ConfigurationSection.field (declared : ConfigurationSection) (name : String) :
    Option ConfigurationField :=
  declared.find? (·.name = name)

structure ConfigStore where
  layers : ConfigLayer → Flat
  ordered : ∀ layer, Ascending (layers layer)
  configPath : String
  schemas : List (String × ConfigurationSection)
  redactUnregistered : Bool

/-! ### Keys -/

def pluginsPrefix : String := "plugins."

def settingsMarker : String := ".settings."

def administratorPinnedPrefix : String := "catalog.remote."

def redacted : String := "<redacted>"

def settingKey (plugin field : String) : String :=
  pluginsPrefix ++ plugin ++ settingsMarker ++ field

def stripPrefix (start text : String) : Option String :=
  (text.toList.dropPrefix? start.toList).map String.ofList

/-- Where the last occurrence of a text starts. -/
def rfind (needle : List Char) : List Char → Option Nat
  | [] => if needle = [] then some 0 else none
  | c :: text =>
    match rfind needle text with
    | some i => some (i + 1)
    | none => if needle.isPrefixOf (c :: text) then some 0 else none

/-- The split is anchored on the last marker, and the field is free of dots. -/
def splitSettingKey (key : String) : Option (String × String) := do
  let rest ← stripPrefix pluginsPrefix key
  let marker ← rfind settingsMarker.toList rest.toList
  let plugin := String.ofList (rest.toList.take marker)
  let field := String.ofList (rest.toList.drop (marker + settingsMarker.toList.length))
  if plugin = "" || field = "" || '.' ∈ field.toList then none else some (plugin, field)

namespace ConfigStore

/-! ### Lookup -/

section
variable (store : ConfigStore)

/-- The administrator owns remote-catalog routing when it declares it; otherwise the highest layer
with the key answers. -/
def resolve (key : String) : Option (ConfigLayer × String) :=
  let pinned :=
    if administratorPinnedPrefix.toList.isPrefixOf key.toList then
      (store.layers .administratorPolicy).lookup key
    else none
  match pinned with
  | some value => some (.administratorPolicy, value)
  | none =>
    ConfigLayer.all.reverse.findSome? fun layer =>
      ((store.layers layer).lookup key).map fun value => (layer, value)

def get (key : String) : Option String := (store.resolve key).map Prod.snd

def keys : List String :=
  ConfigLayer.all.flatMap fun layer => (store.layers layer).map Prod.fst

/-! ### Delivery -/

def schema (plugin : String) : Option ConfigurationSection :=
  store.schemas.lookup plugin

/-- The field of a plugin that a key sets, unless the plugin declares it for other platforms. -/
def fieldOf (os : String) (plugin : PluginId) (key : String) : Option String := do
  let field ← stripPrefix (pluginsPrefix ++ plugin.name ++ settingsMarker) key
  if ((store.schema plugin.name).bind (·.field field)).all (·.appliesTo os) then some field
  else none

/-- The effective settings of a plugin, keyed by field name. -/
def pluginValues (os : String) (plugin : PluginId) : Flat :=
  (collect (store.fieldOf os plugin) store.keys []).filterMap fun (field, _) =>
    (store.get (pluginsPrefix ++ plugin.name ++ settingsMarker ++ field)).map fun value =>
      (field, value)

def knownPlugins : List (String × Unit) :=
  collect (fun key => (splitSettingKey key).map Prod.fst) store.keys
    (ofEntries (store.schemas.map fun entry => (entry.1, ())))

def configurationSnapshot (os : String) : List (String × Flat) :=
  store.knownPlugins.map fun (plugin, _) => (plugin, store.pluginValues os ⟨plugin⟩)

/-! ### Diagnostics -/

def isSecret (key : String) : Bool :=
  match splitSettingKey key with
  | none => false
  | some (plugin, field) =>
    match (store.schema plugin).bind (·.field field) with
    | some declared => declared.secret
    | none => store.redactUnregistered

def redactUnregisteredPlugins : ConfigStore :=
  { store with redactUnregistered := true }

def displayValue (key : String) : Option String :=
  (store.get key).map fun value => if store.isSecret key then redacted else value

/-! ### Changes -/

/-- Entries are written over a layer, first to last. -/
def extendLayer (layer : ConfigLayer) (entries : List (String × String)) : ConfigStore :=
  { store with
    layers := fun l =>
      if l = layer then
        entries.foldl (fun values entry => insertEntry entry.1 entry.2 values) (store.layers l)
      else store.layers l
    ordered := fun l => by
      split
      · exact ascending_foldl_insertEntry entries (store.ordered l)
      · exact store.ordered l }

lemma layers_extendLayer (layer : ConfigLayer)
    (entries : List (String × String)) (l : ConfigLayer) :
    (store.extendLayer layer entries).layers l =
      if l = layer then
        entries.foldl (fun values entry => insertEntry entry.1 entry.2 values) (store.layers l)
      else store.layers l :=
  rfl

def setSessionOverride (key value : String) : ConfigStore :=
  store.extendLayer .sessionOverride [(key, value)]

end

/-- A store with nothing but one layer. -/
def ofLayer (layer : ConfigLayer) (flat : Flat) (h : Ascending flat) : ConfigStore where
  layers l := if l = layer then flat else []
  ordered l := by
    split
    · exact h
    · exact List.Pairwise.nil
  configPath := "config.toml"
  schemas := []
  redactUnregistered := false

/-! ### Files -/

/-- The text of the user's global layer, as it is written to the configuration file. -/
def save (write : TomlTable → String) (store : ConfigStore) : Except ConfigError String := do
  let document ← nest (store.layers .userGlobal) store.configPath
  return write document

/-- The text of a file is read into a layer, under a scope. -/
def readTextInto (parse : String → Except ConfigError TomlTable) (store : ConfigStore)
    (layer : ConfigLayer) (path scope text : String) : Except ConfigError ConfigStore := do
  let table ← parse text
  let flat ← flatten path scope [] table
  return store.extendLayer layer flat

end ConfigStore
end CriKey.Config
