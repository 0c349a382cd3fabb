import CriKey.Config.Store

/-! Saving settings and loading them again: which settings come back as they were. -/
namespace CriKey.Config
open CriKey.Base

variable (write : TomlTable → String) (parse : String → Except ConfigError TomlTable)

/-- A saved layer is read back into a store that has nothing there yet. -/
def Restores (store : ConfigStore) : Prop :=
  ∀ text, store.save write = .ok text → ∀ fresh : ConfigStore, fresh.layers .userGlobal = [] →
    ∃ loaded, fresh.readTextInto parse .userGlobal store.configPath "" text = .ok loaded ∧
      loaded.layers .userGlobal = store.layers .userGlobal

/-- Saving a map changes no value: it is refused only for a conflict of keys, and otherwise comes
back as it was. -/
structure Lossless
    (store : ConfigStore) : Prop where
  refused : (∃ error, nest (store.layers .userGlobal) store.configPath = .error error) ↔
    Conflicting (store.layers .userGlobal)
  roundTrip : ∀ root, nest (store.layers .userGlobal) store.configPath = .ok root →
    flatten store.configPath "" [] root = .ok (store.layers .userGlobal)
  restored : Restores write parse store

variable {write : TomlTable → String} {parse : String → Except ConfigError TomlTable}
  {store : ConfigStore}

lemma nest_error_iff (flat : Flat) (path : String) (hkeys : Ascending flat) :
    (∃ error, nest flat path = .error error) ↔ Conflicting flat := by
  have hspec := nest_spec path hkeys
  cases hnest : nest flat path with
  | error error =>
    rw [hnest] at hspec
    exact iff_of_true ⟨error, rfl⟩ hspec
  | ok root =>
    rw [hnest] at hspec
    exact iff_of_false nofun hspec.2

lemma nests_of_ok {flat : Flat} {path : String} {root : TomlTable} (hkeys : Ascending flat)
    (h : nest flat path = .ok root) : Nests flat root ∧ ¬ Conflicting flat := by
  have hspec := nest_spec path hkeys
  rwa [h] at hspec

lemma restores_of_roundTrip
    (hlossless : ∀ root, nest (store.layers .userGlobal) store.configPath = .ok root →
      parse (write root) = .ok root)
    (h : ∀ root, nest (store.layers .userGlobal) store.configPath = .ok root →
      flatten store.configPath "" [] root = .ok (store.layers .userGlobal)) :
    Restores write parse store := by
  intro text hsave fresh hfresh
  obtain ⟨root, hnest, hwrite⟩ := bind_eq_ok.mp hsave
  have htext : text = write root := (Except.ok.inj hwrite).symm
  refine ⟨fresh.extendLayer .userGlobal (store.layers .userGlobal), ?_, ?_⟩
  · rw [ConfigStore.readTextInto, htext, hlossless root hnest]
    exact bind_eq_ok.mpr ⟨root, rfl, bind_eq_ok.mpr ⟨_, h root hnest, rfl⟩⟩
  · rw [ConfigStore.layers_extendLayer, if_pos rfl, hfresh]
    exact ofEntries_of_ascending (store.ordered .userGlobal)

/-- Settings survive saving and loading exactly when they cannot be saved at all, or no key starts
with a dot. -/
theorem save_lossless_iff (write : TomlTable → String)
    (parse : String → Except ConfigError TomlTable) (store : ConfigStore)
    (hlossless : ∀ root, nest (store.layers .userGlobal) store.configPath = .ok root →
      parse (write root) = .ok root) :
    Lossless write parse store ↔
      Conflicting (store.layers .userGlobal) ∨ Undotted (store.layers .userGlobal) := by
  have hkeys := store.ordered .userGlobal
  have hrefused := nest_error_iff (store.layers .userGlobal) store.configPath hkeys
  constructor
  · intro h
    cases hnest : nest (store.layers .userGlobal) store.configPath with
    | error error => exact .inl (hrefused.mp ⟨error, hnest⟩)
    | ok root =>
      have hnests := (nests_of_ok hkeys hnest).1
      exact .inr ((hnests.flatten_eq_iff hkeys store.configPath).mp (h.roundTrip root hnest))
  · intro h
    have hround : ∀ root, nest (store.layers .userGlobal) store.configPath = .ok root →
        flatten store.configPath "" [] root = .ok (store.layers .userGlobal) := by
      intro root hnest
      obtain ⟨hnests, hfree⟩ := nests_of_ok hkeys hnest
      exact (hnests.flatten_eq_iff hkeys store.configPath).mpr (h.resolve_left hfree)
    exact ⟨hrefused, hround, restores_of_roundTrip hlossless hround⟩

def pinnedSettings : Flat :=
  [("launcher.max-results", "50"), ("plugins.modern.x.settings.", "true"),
    ("plugins.modern.x.settings.pin", "007")]

def pinnedRoot : TomlTable :=
  [("launcher", .table [("max-results", .leaf (.integer 50))]),
    ("plugins", .table [("modern", .table [("x", .table [("settings", .table
      [("", .leaf (.boolean true)), ("pin", .leaf (.string "007"))])])])])]

/-- The TOML text of that document. -/
def pinnedText : String :=
  "[launcher]\nmax-results = 50\n\n[plugins.modern.x.settings]\n\"\" = true\npin = \"007\"\n"

/-- The writer at the document with those settings. -/
def writePinned (root : TomlTable) : String :=
  if flatten "config.toml" "" [] root = .ok pinnedSettings then pinnedText else ""

/-- The reader at its text. -/
def parsePinned (text : String) : Except ConfigError TomlTable :=
  if text = pinnedText then .ok pinnedRoot else .error (.parse "config.toml" text)

lemma nest_pinnedSettings : nest pinnedSettings "config.toml" = .ok pinnedRoot := rfl

theorem save_lossless_pinned :
    let store := ConfigStore.ofLayer .userGlobal pinnedSettings (by decide)
    store.save writePinned = .ok pinnedText ∧ Lossless writePinned parsePinned store := by
  have hwrite : writePinned pinnedRoot = pinnedText := if_pos (by decide +kernel)
  refine ⟨bind_eq_ok.mpr ⟨pinnedRoot, nest_pinnedSettings, congrArg Except.ok hwrite⟩, ?_⟩
  refine (save_lossless_iff _ _ _ fun root hroot => ?_).mpr (.inr fun key hkey => ?_)
  · obtain rfl : pinnedRoot = root := Except.ok.inj (nest_pinnedSettings.symm.trans hroot)
    rw [hwrite]
    exact if_pos rfl
  · have hall : ∀ key ∈ pinnedSettings.map Prod.fst, key.toList.head? ≠ some '.' := by decide
    exact hall key hkey

/-- An empty first segment is lost on the way back. -/
theorem leading_dot_is_lost : ¬ Conflicting [(".theme", "dark")] ∧
      (do flatten "config.toml" "" [] (← nest [(".theme", "dark")] "config.toml")) =
        .ok [("theme", "dark")] := by
  constructor
  · intro ⟨key, hkey, longer, hlonger, hextends⟩
    rw [List.map_singleton, List.mem_singleton] at hkey hlonger
    rw [hkey, hlonger] at hextends
    exact ((extends_iff_segments _ _).mp hextends).1 rfl
  · rfl

end CriKey.Config
