import CriKey.Base.SortedMap

/-! Documents of nested tables with values at the leaves, as finite maps from paths. -/
namespace CriKey.Base
open List Option

inductive Document (κ α : Type) where
  | leaf (a : α)
  | table (children : List (κ × Document κ α))

namespace Document
variable {κ α : Type} [LinearOrder κ]

/-- The value at a path is set, with the tables on the way made where they are missing. Refused
where a value stands in the way of a table, or a table in the way of the value. -/
def put (a : α) : List κ → List (κ × Document κ α) → Option (List (κ × Document κ α))
  | [], children => some children
  | [k], children =>
    match children.lookup k with
    | some (.table _) => none
    | _ => some (insertEntry k (.leaf a) children)
  | k :: path, children =>
    match children.lookup k with
    | some (.leaf _) => none
    | some (.table nested) =>
      (put a path nested).map fun nested => insertEntry k (.table nested) children
    | none => (put a path []).map fun nested => insertEntry k (.table nested) children

def find? : List κ → List (κ × Document κ α) → Option α
  | [], _ => none
  | [k], children =>
    match children.lookup k with
    | some (.leaf a) => some a
    | _ => none
  | k :: path, children =>
    match children.lookup k with
    | some (.table nested) => find? path nested
    | _ => none

/-- Keys are in order and no nested table is empty, at every level. -/
inductive Canonical : List (κ × Document κ α) → Prop
  | intro {children : List (κ × Document κ α)} (ascending : Ascending children)
      (filled : ∀ k nested, children.lookup k = some (.table nested) → nested ≠ [])
      (nested : ∀ k nested, children.lookup k = some (.table nested) → Canonical nested) :
      Canonical children

variable {a b : α} {k : κ} {path other : List κ} {children after nested : List (κ × Document κ α)}

@[simp] lemma find?_empty (path : List κ) : find? path ([] : List (κ × Document κ α)) = none := by
  match path with
  | [] | [k] | k :: k' :: path => rfl

lemma ne_nil_of_find? (h : find? path children = some a) : path ≠ [] := by
  intro hnil
  rw [hnil] at h
  cases h

lemma find?_cons (hpath : path ≠ []) : find? (k :: path) children =
    match children.lookup k with
    | some (.table nested) => find? path nested
    | _ => none := by
  cases path with
  | nil => exact absurd rfl hpath
  | cons k' path => rfl

lemma find?_cons_of_not_table (hpath : path ≠ [])
    (h : ∀ nested, children.lookup k ≠ some (.table nested)) :
    find? (k :: path) children = none := by
  rw [find?_cons hpath]
  split
  · rename_i nested hthere
    exact absurd hthere (h nested)
  · rfl

lemma find?_singleton_of_not_leaf (h : ∀ b, children.lookup k ≠ some (.leaf b)) :
    find? [k] children = none := by
  rw [find?]
  split
  · rename_i b hthere
    exact absurd hthere (h b)
  · rfl

lemma canonical_empty : Canonical ([] : List (κ × Document κ α)) :=
  .intro .nil nofun nofun

/-- A canonical table that is not empty has a value at some path. -/
lemma Canonical.exists_find? (h : Canonical children) (hne : children ≠ []) :
    ∃ path a, find? path children = some a := by
  induction h with
  | @intro children hasc hfilled _ ih =>
    obtain ⟨⟨k, d⟩, rest, rfl⟩ := exists_cons_of_ne_nil hne
    have hlookup : ((k, d) :: rest).lookup k = some d := (mem_iff_lookup hasc k d).mp (by simp)
    cases d with
    | leaf a => exact ⟨[k], a, by simp [find?]⟩
    | table nested =>
      obtain ⟨path, a, hfind⟩ := ih k nested hlookup (hfilled k nested hlookup)
      refine ⟨k :: path, a, ?_⟩
      rw [find?_cons (ne_nil_of_find? hfind), hlookup]
      exact hfind

/-! ### Setting a value -/

/-- The table below a key: the one that is there, or an empty one to be made. -/
def Below (k : κ) (children nested : List (κ × Document κ α)) : Prop :=
  children.lookup k = some (.table nested) ∨ children.lookup k = none ∧ nested = []

lemma put_cons (a : α) (hpath : path ≠ []) (hleaf : ∀ b, children.lookup k ≠ some (.leaf b)) :
    ∃ nested, Below k children nested ∧ put a (k :: path) children =
      (put a path nested).map fun nested => insertEntry k (.table nested) children := by
  simp only [put]
  cases hlookup : children.lookup k with
  | none => exact ⟨[], .inr ⟨hlookup, rfl⟩, rfl⟩
  | some d =>
    cases d with
    | leaf b => exact absurd hlookup (hleaf b)
    | table nested => exact ⟨nested, .inl hlookup, rfl⟩

lemma put_cons_leaf (a : α) (hpath : path ≠ []) (hleaf : children.lookup k = some (.leaf b)) :
    put a (k :: path) children = none := by
  simp only [put, hleaf]

lemma find?_below (h : Below k children nested) (hpath : path ≠ []) :
    find? (k :: path) children = find? path nested := by
  rw [find?_cons hpath]
  cases h with
  | inl hthere => rw [hthere]
  | inr hmissing => rw [hmissing.1, hmissing.2, find?_empty]

lemma canonical_below (h : Canonical children) (hbelow : Below k children nested) :
    Canonical nested := by
  cases hbelow with
  | inl hthere =>
    cases h with
    | intro _ _ hnested => exact hnested k nested hthere
  | inr hmissing => exact hmissing.2 ▸ canonical_empty

lemma find?_put (h : put a path children = some after) (hpath : path ≠ []) (other : List κ) :
    find? other after = if other = path then some a else find? other children := by
  induction path generalizing children after other with
  | nil => exact absurd rfl hpath
  | cons k path ih =>
    by_cases hlast : path = []
    · subst hlast
      have hleaf : ∀ nested, children.lookup k ≠ some (.table nested) := by
        intro nested hthere
        simp [put, hthere] at h
      have hafter : after = insertEntry k (.leaf a) children := by
        rw [put] at h
        split at h
        · cases h
        · exact (some_inj.mp h).symm
      subst hafter
      match other with
      | [] => rfl
      | [j] =>
        by_cases hj : j = k
        · simp [find?, lookup_insertEntry, hj]
        · simp [find?, lookup_insertEntry, hj]
      | j :: j' :: rest =>
        rw [if_neg (by simp)]
        by_cases hj : j = k
        · rw [hj, find?_cons_of_not_table (by simp) hleaf, find?_cons (by simp), lookup_insertEntry,
            if_pos rfl]
        · rw [find?_cons (by simp), find?_cons (by simp), lookup_insertEntry, if_neg hj]
    · by_cases hleaf : ∀ b, children.lookup k ≠ some (.leaf b)
      · obtain ⟨nested, hbelow, hput⟩ := put_cons a hlast hleaf
        rw [hput] at h
        obtain ⟨nested', hnested, hafter⟩ := map_eq_some_iff.mp h
        subst hafter
        match other with
        | [] => rfl
        | [j] =>
          rw [if_neg (by simp [Ne.symm hlast])]
          by_cases hj : j = k
          · rw [hj, find?_singleton_of_not_leaf hleaf, find?, lookup_insertEntry, if_pos rfl]
          · rw [find?, find?, lookup_insertEntry, if_neg hj]
        | j :: j' :: rest =>
          by_cases hj : j = k
          · subst hj
            rw [find?_below hbelow (by simp), find?_cons (by simp), lookup_insertEntry, if_pos rfl]
            dsimp only
            rw [ih hnested hlast]
            simp
          · rw [find?_cons (by simp), find?_cons (by simp), lookup_insertEntry, if_neg hj,
              if_neg (by simp [hj])]
      · push Not at hleaf
        obtain ⟨b, hb⟩ := hleaf
        rw [put_cons_leaf a hlast hb] at h
        cases h

lemma put_eq_none_iff (hcanonical : Canonical children) (a : α) (hpath : path ≠ []) :
    put a path children = none ↔ ∃ other b, find? other children = some b ∧ other ≠ path ∧
        (other <+: path ∨ path <+: other) := by
  induction path generalizing children with
  | nil => exact absurd rfl hpath
  | cons k path ih =>
    by_cases hlast : path = []
    · subst hlast
      constructor
      · intro h
        cases hlookup : children.lookup k with
        | none => simp [put, hlookup] at h
        | some d =>
          cases d with
          | leaf b => simp [put, hlookup] at h
          | table nested =>
            cases hcanonical with
            | intro _ hfilled hnested =>
              obtain ⟨rest, b, hfind⟩ :=
                (hnested k nested hlookup).exists_find? (hfilled k nested hlookup)
              have hrest := ne_nil_of_find? hfind
              exact ⟨k :: rest, b, (find?_below (.inl hlookup) hrest).trans hfind, by simp [hrest],
                .inr ⟨rest, rfl⟩⟩
      · intro ⟨other, b, hfind, hne, hrelated⟩
        have hlong : ∃ rest, rest ≠ [] ∧ other = k :: rest := by
          cases hrelated with
          | inl hshort =>
            cases prefix_cons_iff.mp hshort with
            | inl hnil =>
              rw [hnil] at hfind
              cases hfind
            | inr hcons =>
              obtain ⟨rest, hother, hrest⟩ := hcons
              exact absurd (by rw [hother, prefix_nil.mp hrest]) hne
          | inr hlong =>
            obtain ⟨rest, hrest⟩ := hlong
            refine ⟨rest, fun hnil => hne ?_, hrest.symm⟩
            rw [← hrest, hnil, append_nil]
        obtain ⟨rest, hrest, hother⟩ := hlong
        rw [hother, find?_cons hrest] at hfind
        split at hfind
        · rename_i hthere
          simp [put, hthere]
        · cases hfind
    · by_cases hleaf : ∀ b, children.lookup k ≠ some (.leaf b)
      · obtain ⟨nested, hbelow, hput⟩ := put_cons a hlast hleaf
        rw [hput, map_eq_none_iff, ih (canonical_below hcanonical hbelow) hlast]
        constructor
        · intro ⟨other, b, hfind, hne, hrelated⟩
          have hother := ne_nil_of_find? hfind
          refine ⟨k :: other, b, (find?_below hbelow hother).trans hfind, by simpa using hne, ?_⟩
          simpa [cons_prefix_cons] using hrelated
        · intro ⟨other, b, hfind, hne, hrelated⟩
          match other with
          | [] => cases hfind
          | j :: rest =>
            simp only [cons_prefix_cons] at hrelated
            have hj : j = k := hrelated.elim (·.1) (·.1.symm)
            subst hj
            have hrest : rest ≠ [] := by
              intro hnil
              rw [hnil, find?_singleton_of_not_leaf hleaf] at hfind
              cases hfind
            rw [find?_below hbelow hrest] at hfind
            exact ⟨rest, b, hfind, fun heq => hne (by rw [heq]), hrelated.imp (·.2) (·.2)⟩
      · push Not at hleaf
        obtain ⟨b, hb⟩ := hleaf
        rw [put_cons_leaf a hlast hb]
        refine iff_of_true rfl ⟨[k], b, by simp [find?, hb], by simp [Ne.symm hlast], .inl ?_⟩
        exact ⟨path, rfl⟩

lemma insertEntry_ne_nil (d : Document κ α) : insertEntry k d children ≠ [] := by
  intro hnil
  have hlookup := lookup_insertEntry k d children k
  rw [hnil, if_pos rfl] at hlookup
  cases hlookup

lemma Canonical.insert_leaf (h : Canonical children) (k : κ) (a : α) :
    Canonical (insertEntry k (.leaf a) children) := by
  cases h with
  | intro hasc hfilled hnested =>
    have hold : ∀ j nested, (insertEntry k (.leaf a) children).lookup j = some (.table nested) →
        children.lookup j = some (.table nested) := by
      intro j nested hlookup
      rw [lookup_insertEntry] at hlookup
      split at hlookup
      · cases hlookup
      · exact hlookup
    exact .intro (ascending_insertEntry _ _ hasc) (fun j nested hj =>
      hfilled j nested (hold j nested hj))
      fun j nested hj => hnested j nested (hold j nested hj)

lemma Canonical.insert_table (h : Canonical children) (k : κ) (hnested : Canonical nested)
    (hne : nested ≠ []) : Canonical (insertEntry k (.table nested) children) := by
  cases h with
  | intro hasc hfilled hall =>
    have hcases : ∀ j inner, (insertEntry k (.table nested) children).lookup j =
        some (.table inner) →
        inner = nested ∨ children.lookup j = some (.table inner) := by
      intro j inner hlookup
      rw [lookup_insertEntry] at hlookup
      split at hlookup
      · cases hlookup
        exact .inl rfl
      · exact .inr hlookup
    refine .intro (ascending_insertEntry _ _ hasc) (fun j inner hj => ?_) fun j inner hj => ?_
    · cases hcases j inner hj with
      | inl heq => exact heq ▸ hne
      | inr hold => exact hfilled j inner hold
    · cases hcases j inner hj with
      | inl heq => exact heq ▸ hnested
      | inr hold => exact hall j inner hold

lemma Canonical.put (hcanonical : Canonical children) (hpath : path ≠ [])
    (h : put a path children = some after) : Canonical after ∧ after ≠ [] := by
  induction path generalizing children after with
  | nil => exact absurd rfl hpath
  | cons k path ih =>
    by_cases hlast : path = []
    · subst hlast
      rw [Document.put] at h
      split at h
      · cases h
      · cases h
        exact ⟨hcanonical.insert_leaf k a, insertEntry_ne_nil _⟩
    · by_cases hleaf : ∀ b, children.lookup k ≠ some (.leaf b)
      · obtain ⟨nested, hbelow, hput⟩ := put_cons a hlast hleaf
        rw [hput] at h
        obtain ⟨nested', hnested, hafter⟩ := map_eq_some_iff.mp h
        subst hafter
        obtain ⟨hcan, hne⟩ := ih (canonical_below hcanonical hbelow) hlast hnested
        exact ⟨hcanonical.insert_table k hcan hne, insertEntry_ne_nil _⟩
      · push Not at hleaf
        obtain ⟨b, hb⟩ := hleaf
        rw [put_cons_leaf a hlast hb] at h
        cases h

/-! ### All entries -/

mutual

/-- The values of a document with the paths they stand at. -/
def entries : Document κ α → List (List κ × α)
  | .leaf a => [([], a)]
  | .table children => entriesOf children

def entriesOf : List (κ × Document κ α) → List (List κ × α)
  | [] => []
  | (k, d) :: rest => (entries d).map (fun entry => (k :: entry.1, entry.2)) ++ entriesOf rest

end

omit [LinearOrder κ] in
lemma mem_entriesOf (path : List κ) (a : α) : (path, a) ∈ entriesOf children ↔
    ∃ k d rest, (k, d) ∈ children ∧ path = k :: rest ∧ (rest, a) ∈ entries d := by
  induction children with
  | nil => simp [entriesOf]
  | cons child children ih =>
    rw [entriesOf, List.mem_append, ih, List.mem_map]
    constructor
    · intro h
      cases h with
      | inl hhere =>
        obtain ⟨⟨rest, b⟩, hmem, heq⟩ := hhere
        cases heq
        exact ⟨child.1, child.2, rest, mem_cons_self, rfl, hmem⟩
      | inr hlater =>
        obtain ⟨k, d, rest, hmem, hpath, hentry⟩ := hlater
        exact ⟨k, d, rest, mem_cons_of_mem _ hmem, hpath, hentry⟩
    · intro ⟨k, d, rest, hmem, hpath, hentry⟩
      cases mem_cons.mp hmem with
      | inl heq =>
        refine .inl ⟨(rest, a), heq ▸ hentry, ?_⟩
        rw [hpath, ← heq]
      | inr hlater => exact .inr ⟨k, d, rest, hlater, hpath, hentry⟩

lemma mem_entriesOf_iff_find? (h : Canonical children) (path : List κ) (a : α) :
    (path, a) ∈ entriesOf children ↔ find? path children = some a := by
  induction h generalizing path with
  | @intro children hasc hfilled _ ih =>
    rw [mem_entriesOf]
    constructor
    · intro ⟨k, d, rest, hmem, hpath, hentry⟩
      have hlookup := (mem_iff_lookup hasc k d).mp hmem
      cases d with
      | leaf b =>
        rw [entries, mem_singleton] at hentry
        cases hentry
        simp [hpath, find?, hlookup]
      | table nested =>
        have hfind := (ih k nested hlookup rest).mp hentry
        rw [hpath, find?_below (.inl hlookup) (ne_nil_of_find? hfind), hfind]
    · intro hfind
      match path with
      | [] => cases hfind
      | [k] =>
        rw [find?] at hfind
        split at hfind
        · rename_i b hthere
          cases hfind
          exact ⟨k, .leaf a, [], (mem_iff_lookup hasc k _).mpr hthere, rfl, by simp [entries]⟩
        · cases hfind
      | k :: k' :: rest =>
        rw [find?_cons (by simp)] at hfind
        split at hfind
        · rename_i nested hthere
          refine ⟨k, .table nested, k' :: rest, (mem_iff_lookup hasc k _).mpr hthere, rfl, ?_⟩
          exact (ih k nested hthere _).mpr hfind
        · cases hfind

end Document
end CriKey.Base
