import CriKey.Base.Framed
import CriKey.Core.Item

/-! Identities derived from an item's owner, category and target. Every component carries its
length, so the components can be read back. -/
namespace CriKey.Core
open CriKey.Base String

/-- The tag of a category, and the name a plugin gave it. -/
def Category.tagged : Category → String × String
  | .application => ("application", "")
  | .file => ("file", "")
  | .directory => ("directory", "")
  | .url => ("url", "")
  | .command => ("command", "")
  | .expression => ("expression", "")
  | .keyword => ("keyword", "")
  | .contact => ("contact", "")
  | .clipboardItem => ("clipboard-item", "")
  | .pluginDefined name => ("plugin-defined", name)

def lengthPrefixed (component : String) : String :=
  toString component.utf8ByteSize ++ ":" ++ component

def ItemId.derived (plugin : PluginId) (category : Category) (target : String) : ItemId :=
  ⟨String.join (["crikey-derived-item-v1", plugin.name, category.tagged.1, category.tagged.2,
    target].map lengthPrefixed)⟩

lemma colon_notMem_digits (n : Nat) : ':' ∉ (toString n).toList := by
  rw [Nat.toString_eq_ofList_toDigits, toList_ofList]
  intro hmem
  exact absurd (Nat.isDigit_of_mem_toDigits (by omega) (by omega) hmem) (by decide)

/-- A component ends where its length says. -/
lemma lengthPrefixed_append_inj {a b r s : String}
    (h : lengthPrefixed a ++ r = lengthPrefixed b ++ s) : a = b ∧ r = s := by
  have hchars := congrArg toList h
  simp only [lengthPrefixed, toList_append, List.append_assoc] at hchars
  obtain ⟨hdigits, hrest⟩ :=
    append_separator_inj (colon_notMem_digits _) (colon_notMem_digits _) hchars
  have hsize := congrArg (Nat.ofDigitChars 10 · 0) hdigits
  have hbytes : (a ++ r).toByteArray = (b ++ s).toByteArray := by
    rw [toList_inj.mp (show (a ++ r).toList = (b ++ s).toList by simpa using hrest)]
  rw [toByteArray_append, toByteArray_append,
    ByteArray.append_eq_append_iff_of_size_eq_left (by simpa using hsize)] at hbytes
  simpa [toByteArray_inj] using hbytes

lemma derived_inj {p p' : PluginId} {c c' : Category} {t t' : String}
    (h : ItemId.derived p c t = ItemId.derived p' c' t') : p = p' ∧ c = c' ∧ t = t' := by
  obtain ⟨p⟩ := p
  obtain ⟨p'⟩ := p'
  have hname := congrArg ItemId.name h
  simp only [ItemId.derived, List.map_cons, List.map_nil, join_cons, join_nil] at hname
  obtain ⟨hplugin, hname⟩ := lengthPrefixed_append_inj (lengthPrefixed_append_inj hname).2
  obtain ⟨htag, hname⟩ := lengthPrefixed_append_inj hname
  obtain ⟨hvalue, hname⟩ := lengthPrefixed_append_inj hname
  obtain ⟨htarget, -⟩ := lengthPrefixed_append_inj hname
  cases c <;> cases c' <;> simp_all [Category.tagged]

/-- A derived identity tells its owner, its category and its target. -/
theorem derived_identity_injective : Function.Injective
    fun item : PluginId × Category × String => ItemId.derived item.1 item.2.1 item.2.2 := by
  intro ⟨p, c, t⟩ ⟨p', c', t'⟩ h
  obtain ⟨rfl, rfl, rfl⟩ := derived_inj h
  rfl

end CriKey.Core
