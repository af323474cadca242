/-!
# Categories

A category is a name for a part of the stack, with the sub-module tags that belong to it. Tags are
compared as they are written, so a tag that only contains another one is a different tag. A table
lists categories in the order of reports; it has one category at least, and no tag occurs twice in
it, not even in one category.
-/

namespace OpTrace

/-- A part of the stack. -/
structure Category where
  name : String
  tags : List String
  deriving DecidableEq, Repr

/-- Why a list of categories makes no table. -/
inductive CategoryError where
  | empty
  /-- a tag that occurs twice, and the categories that have it first and next -/
  | duplicate (tag first second : String)
  deriving DecidableEq, Repr

def CategoryError.message : CategoryError → String
  | empty => "Category table must define at least one category"
  | duplicate tag first second =>
    s!"Duplicate sm_tag '{tag}' in categories '{first}' and '{second}'"

/-- The tags of categories in their order, each with the name of its category. -/
def Category.ownedTags (categories : List Category) : List (String × String) :=
  categories.flatMap fun category ↦ category.tags.map fun tag ↦ (tag, category.name)

theorem Category.map_fst_ownedTags (categories : List Category) :
    (ownedTags categories).map Prod.fst = categories.flatMap (·.tags) := by
  simp [ownedTags, List.map_flatMap, Function.comp_def]

/-- The first tag that an earlier category, or the same one, has already, with the categories that
have it. -/
def CategoryError.ofOwnedTags? (earlier : List (String × String)) :
    List (String × String) → Option CategoryError
  | [] => none
  | (tag, category) :: rest =>
    match earlier.lookup tag with
    | some first => some (.duplicate tag first category)
    | none => ofOwnedTags? ((tag, category) :: earlier) rest

/-- Without such a tag, all tags differ from each other and from the earlier ones. -/
theorem CategoryError.ofOwnedTags?_eq_none_iff {earlier owned : List (String × String)} :
    ofOwnedTags? earlier owned = none ↔
      (owned.map Prod.fst).Nodup ∧ ∀ tag ∈ owned.map Prod.fst, tag ∉ earlier.map Prod.fst := by
  induction owned generalizing earlier with
  | nil => simp [ofOwnedTags?]
  | cons pair rest ih =>
    obtain ⟨tag, category⟩ := pair
    have hlookup : earlier.lookup tag = none ↔ tag ∉ earlier.map Prod.fst := by
      simp only [List.lookup_eq_none_iff, List.mem_map, not_exists, not_and]
      constructor
      · intro h pair hpair heq
        simpa [heq] using h pair hpair
      · intro h pair hpair
        simpa using fun heq : tag = pair.1 ↦ h pair hpair heq.symm
    rw [ofOwnedTags?]
    cases h : earlier.lookup tag with
    | some first =>
      have hmem : tag ∈ earlier.map Prod.fst :=
        Decidable.byContradiction fun hnot ↦ by simp [hlookup.mpr hnot] at h
      simp only [reduceCtorEq, false_iff, not_and]
      exact fun _ hout ↦ hout tag (by simp) hmem
    | none =>
      have hout := hlookup.mp h
      rw [ih]
      grind

/-- The categories of a report. There is one at least, and no tag occurs twice. -/
structure CategoryTable where
  categories : List Category
  ne_nil : categories ≠ []
  nodup_tags : (categories.flatMap (·.tags)).Nodup
  deriving DecidableEq

namespace CategoryTable

def ofCategories (categories : List Category) : Except CategoryError CategoryTable :=
  if hne : categories = [] then .error .empty
  else
    match hclash : CategoryError.ofOwnedTags? [] (Category.ownedTags categories) with
    | some error => .error error
    | none =>
      .ok {
        categories
        ne_nil := hne
        nodup_tags := by
          rw [← Category.map_fst_ownedTags]
          exact (CategoryError.ofOwnedTags?_eq_none_iff.mp hclash).1 }

/-- The place of the category that has the tag. -/
def classify (table : CategoryTable) (tag : String) : Option Nat :=
  table.categories.findIdx? (tag ∈ ·.tags)

/-- The names of the categories, in the order of reports. -/
def names (table : CategoryTable) : List String := table.categories.map (·.name)

def size (table : CategoryTable) : Nat := table.categories.length

/-- The name of the category at a place. -/
def nameAt (table : CategoryTable) (index : Nat) : String := table.names[index]?.getD ""

/-- The categories of the storage stack, for requests that bring none of their own. -/
def standardCategories : List Category :=
  [{ name := "FSAL", tags := ["FSAL"] },
    { name := "CFS", tags := ["CFS"] },
    { name := "KVS", tags := ["KVS"] },
    { name := "DSAL", tags := ["DSAL"] },
    { name := "NSAL", tags := ["NSAL"] },
    { name := "UTILS", tags := ["UTILS"] },
    { name := "M0", tags := ["M0", "MOTR"] }]

def standard : CategoryTable where
  categories := standardCategories
  ne_nil := by decide
  nodup_tags := by decide

theorem ofCategories_standardCategories : ofCategories standardCategories = .ok standard := rfl

end CategoryTable

end OpTrace
