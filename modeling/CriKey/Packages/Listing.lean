import CriKey.Packages.Archive

/-! Classification and the order of the listing. Of the files that claim one import name the first
package wins, or the first file when none is a package; the order matters where two such files
compete. -/
namespace CriKey.Packages
open CriKey.Base List

abbrev isPython (relative : RelativePath) : Prop :=
  (relative.getLast?.bind fun file => extension file.toList) = some "py".toList

/-- The files that claim an import name, in the order of the listing. -/
def claimants (files : List RelativePath) (name : String) : List RelativePath :=
  files.filter fun relative => isPython relative ∧ importName relative = some name

/-- The file that the claims of a name, in this order, leave it to. -/
def winner (files : List RelativePath) : Option RelativePath :=
  files.foldl (fun known file => some (match known with
    | none => file
    | some known => if isPackageInit file && !isPackageInit known then file else known)) none

variable {files files' : List RelativePath} {f g : RelativePath} {name : String}

lemma winner_concat : winner (files ++ [f]) = some (match winner files with
    | none => f
    | some known => if isPackageInit f && !isPackageInit known then f else known) := by
  simp [winner]

lemma winner_eq_none : winner files = none ↔ files = [] := by
  induction files using reverseRecOn with
  | nil => simp [winner]
  | append_singleton files file ih => simp [winner_concat]

lemma winner_eq_some (h : winner files = some f) :
    f ∈ files ∧ (isPackageInit f = true ∨ ∀ g ∈ files, isPackageInit g = false) := by
  induction files using reverseRecOn with
  | nil => simp [winner] at h
  | append_singleton files file ih =>
    rw [winner_concat, Option.some.injEq] at h
    cases hw : winner files with
    | none => grind [winner_eq_none.mp hw]
    | some known => grind

lemma winner_cons (hfirst : isPackageInit f = true ∨ ∀ g ∈ files, isPackageInit g = false) :
    winner (f :: files) = some f := by
  induction files using reverseRecOn with
  | nil => rfl
  | append_singleton files file ih =>
    rw [← cons_append, winner_concat, ih (by grind)]
    grind

/-- What a listing is classified as: maps in the order of their keys that hold, for each import
name, the winner among its claimants, and every file that is not Python. -/
lemma classify_spec (files : List RelativePath) : Ascending (classify files).modules ∧
    Ascending (classify files).resources ∧
    (∀ name, (classify files).modules.lookup name = winner (claimants files name)) ∧
    ∀ f, f ∈ (classify files).resources.map Prod.fst ↔ f ∈ files ∧ ¬isPython f := by
  induction files using reverseRecOn with
  | nil => exact ⟨.nil, .nil, fun _ => rfl, by simp [classify]⟩
  | append_singleton files file ih =>
    obtain ⟨hmodules, hresources, hlookup, hmem⟩ := ih
    have hclassify : classify (files ++ [file]) = classifyFile (classify files) file := by
      simp [classify]
    rw [hclassify, classifyFile]
    by_cases hpy : isPython file
    · rw [if_pos hpy]
      have hkeep : ∀ f, f ∈ files ++ [file] ∧ ¬isPython f ↔ f ∈ files ∧ ¬isPython f := by grind
      cases hname : importName file with
      | none =>
        refine ⟨hmodules, hresources, fun name => ?_, fun f => (hmem f).trans (hkeep f).symm⟩
        simp [hlookup, claimants, hname]
      | some claimed =>
        refine ⟨?_, hresources, fun name => ?_, fun f => (hmem f).trans (hkeep f).symm⟩
        · show Ascending (claimModule claimed file (classify files).modules)
          unfold claimModule
          split
          · exact ascending_insertEntry _ _ hmodules
          · split
            · exact ascending_insertEntry _ _ hmodules
            · exact hmodules
        · show (claimModule claimed file (classify files).modules).lookup name = _
          have hclaims : claimants (files ++ [file]) name =
              claimants files name ++ if claimed = name then [file] else [] := by
            have hpy' := decide_eq_true hpy
            by_cases hc : claimed = name <;> simp [claimants, hname, hc, hpy']
          rw [hclaims, claimModule, hlookup]
          by_cases hc : claimed = name
          · subst hc
            rw [if_pos rfl, winner_concat]
            grind [lookup_insertEntry]
          · rw [if_neg hc, append_nil, ← hlookup]
            grind [lookup_insertEntry]
    · rw [if_neg hpy]
      refine ⟨hmodules, ascending_insertEntry _ _ hresources, fun name => ?_, fun f => ?_⟩
      · simp [hlookup, claimants, hpy]
      · rw [mem_keys_insertEntry, hmem]
        grind

/-- No two files compete for one import name: of those that claim it, one is a package, or there is
just one. -/
def Uncontested (files : List RelativePath) : Prop :=
  ∀ name, ∀ f ∈ claimants files name, ∀ g ∈ claimants files name,
    isPackageInit f = isPackageInit g → f = g ∨
      isPackageInit f = false ∧ ∃ p ∈ claimants files name, isPackageInit p = true

lemma winner_perm (h : Uncontested files) (hperm : files'.Perm files) (name : String) :
    winner (claimants files' name) = winner (claimants files name) := by
  have hp : (claimants files' name).Perm (claimants files name) := hperm.filter _
  cases hold : winner (claimants files name) with
  | none =>
    rw [winner_eq_none] at hold ⊢
    exact (hold ▸ hp).eq_nil
  | some f =>
    cases hnew : winner (claimants files' name) with
    | none =>
      rw [winner_eq_none.mp hnew] at hp
      simp [winner_eq_none.mpr hp.symm.eq_nil] at hold
    | some g =>
      obtain ⟨hf, hf'⟩ := winner_eq_some hold
      obtain ⟨hg, hg'⟩ := winner_eq_some hnew
      have := h name f hf g (hp.mem_iff.mp hg)
      grind [hp.mem_iff]

/-- The refusal says that no file claims a name of the top level, in any order. -/
lemma packageContents_error {id : String} :
    packageContents id files = .error (.noPluginModule id) ↔
      ∀ name, isTopLevel name = true → claimants files name = [] := by
  have hkeys : ((classify files).modules.map Prod.fst).find? isTopLevel = none ↔
      ∀ name, isTopLevel name = true → claimants files name = [] := by
    simp only [find?_eq_none, ← winner_eq_none, ← (classify_spec files).2.2.1, lookup_eq_none_iff]
    grind
  rw [← hkeys]
  simp only [packageContents]
  split <;> grind

lemma packageContents_ok {id : String} {contents : PackageContents}
    (h : packageContents id files = .ok contents) : contents.modules = (classify files).modules ∧
      contents.resources = (classify files).resources.map Prod.fst := by
  simp only [packageContents] at h
  split at h <;> cases h
  exact ⟨rfl, rfl⟩

lemma exists_packageContents (id : String)
    (h : ¬∀ name, isTopLevel name = true → claimants files name = []) :
    ∃ contents, packageContents id files = .ok contents := by
  have herror : packageContents id files ≠ .error (.noPluginModule id) :=
    mt packageContents_error.mp h
  simp only [packageContents] at herror ⊢
  split
  case h_1 hnone => exact absurd (by rw [hnone]) herror
  case h_2 => exact ⟨_, rfl⟩

/-- Listed first, a claimant that no package beats gets the name. -/
lemma lookup_of_order_free {id name : String} {f : RelativePath} {contents : PackageContents}
    (hsame : ∀ files', files'.Perm files → packageContents id files' = .ok contents)
    (hf : f ∈ claimants files name)
    (hfirst : isPackageInit f = true ∨ ∀ g ∈ claimants files name, isPackageInit g = false) :
    contents.modules.lookup name = some f := by
  obtain ⟨hin, hclaims⟩ := mem_filter.mp hf
  rw [(packageContents_ok (hsame _ (perm_cons_erase hin).symm)).1, (classify_spec _).2.2.1,
    claimants, filter_cons, if_pos hclaims]
  exact winner_cons (hfirst.imp_right fun h g hg => h g ((erase_sublist.filter _).mem hg))

/-- Every order of the files gives the same contents exactly when no file claims a name of the top
level or no two files compete for an import name. Modules and resources are sorted without
repetition and disjoint, and every file that is not Python is a resource. -/
theorem listing_order_iff (id : String) (files : List RelativePath) :
    ((∀ files', files'.Perm files → packageContents id files' = packageContents id files) ↔
      (∀ name, isTopLevel name = true → claimants files name = []) ∨ Uncontested files) ∧
      ∀ contents, packageContents id files = .ok contents →
        Ascending contents.modules ∧ (contents.modules.map Prod.snd).Nodup ∧
        contents.resources.Pairwise (· < ·) ∧
        (∀ entry ∈ contents.modules, entry.2 ∉ contents.resources) ∧
        ∀ f ∈ files, ¬isPython f → f ∈ contents.resources := by
  obtain ⟨hm, hr, hl, hmem⟩ := classify_spec files
  refine ⟨⟨fun hsame => ?_, ?_⟩, fun contents hok => ?_⟩
  · refine or_iff_not_imp_left.mpr fun hclaimed name f hf g hg hinit => ?_
    obtain ⟨contents, hcontents⟩ := exists_packageContents id hclaimed
    have hfixed : ∀ files', files'.Perm files → packageContents id files' = .ok contents :=
      fun files' hperm => (hsame files' hperm).trans hcontents
    by_contra hcontest
    have hf' := lookup_of_order_free hfixed hf (by grind)
    have hg' := lookup_of_order_free hfixed hg (by grind)
    grind
  · rintro (hnone | hfree) files' hperm
    · rw [packageContents_error.mpr hnone, packageContents_error]
      intro name htop
      have hp : (claimants files' name).Perm (claimants files name) := hperm.filter _
      rw [hnone name htop] at hp
      exact hp.eq_nil
    · have hmodules : (classify files').modules = (classify files).modules :=
        ascending_ext (classify_spec files').1 hm fun name => by
          rw [(classify_spec files').2.2.1, hl, winner_perm hfree hperm]
      have hresources : (classify files').resources = (classify files).resources :=
        ascending_ext_keys (classify_spec files').2.1 hr fun f => by
          rw [(classify_spec files').2.2.2, hmem, hperm.mem_iff]
      simp only [packageContents, hresources, hmodules]
  · obtain ⟨hmodules, hresources⟩ := packageContents_ok hok
    rw [hmodules, hresources]
    have hclaims : ∀ entry ∈ (classify files).modules, isPython entry.2 ∧
        importName entry.2 = some entry.1 := by
      intro entry hentry
      rw [mem_iff_lookup hm entry.1 entry.2, hl] at hentry
      simpa using (mem_filter.mp (winner_eq_some hentry).1).2
    refine ⟨hm, ?_, hr, fun entry hentry hin => ((hmem _).mp hin).2 (hclaims entry hentry).1,
      fun f hf hpy => (hmem f).mpr ⟨hf, hpy⟩⟩
    refine pairwise_map.mpr ((pairwise_map.mp hm).imp_of_mem fun ha hb hlt heq => hlt.ne ?_)
    exact Option.some.inj ((hclaims _ ha).2.symm.trans (heq ▸ (hclaims _ hb).2))

/-- `a/b.py` and `a.b.py` both claim `a.b`, and the first one listed gets it. -/
theorem listing_order_matters : packageContents "main" [["main.py"], ["a", "b.py"], ["a.b.py"]] ≠
      packageContents "main" [["main.py"], ["a.b.py"], ["a", "b.py"]] := by
  decide

end CriKey.Packages
