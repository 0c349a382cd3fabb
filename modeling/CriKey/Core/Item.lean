import CriKey.Core.Text

/-! Catalog items: what a plugin contributes to a query. -/
namespace CriKey.Core

structure ItemId where
  name : String
deriving DecidableEq, Repr

inductive Category where
  | application | file | directory | url | command | expression | keyword | contact
  | clipboardItem
  | pluginDefined (name : String)
deriving DecidableEq, Repr

inductive ArgumentPolicy where
  | forbidden | optional | required
deriving DecidableEq, Repr

inductive HitPolicy where
  | recorded | ignored
deriving DecidableEq, Repr

structure ActionId where
  name : String
deriving DecidableEq, Repr

inductive ExecutionPolicy where
  | hostMediated | plugin
deriving DecidableEq, Repr

structure Action where
  actionId : ActionId
  label : String
  description : String
  applicableCategories : List Category
  iconReference : Option String
  executionPolicy : ExecutionPolicy
deriving DecidableEq, Repr

/-- A catalog item. `metadata` lists the entries in key order, as the map iterates. -/
structure Item where
  stableId : ItemId
  pluginId : PluginId
  category : Category
  label : String
  description : String
  target : String
  searchTerms : List String
  iconReference : Option String
  argumentPolicy : ArgumentPolicy
  hitPolicy : HitPolicy
  scoreHint : Int
  metadata : List (String × String)
  actions : List Action
deriving DecidableEq, Repr

end CriKey.Core
